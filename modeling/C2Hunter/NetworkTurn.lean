import C2Hunter.NetworkEffects

/-!
# What a record does to the scan

The turns of the scan, each with the flow it concerns before and after. Every invariant of the
scan is proved by going through them.

* `Scan.Turn` — the ten ways in which a record can change the scan.
* `Scan.step_turn` — a turn of the loop is one of them, and does not raise.
* `Scan.run_induction` — what holds at the start and is kept by every turn holds at the end.
* `Scan.resolve_induction` — the same for the loops over the pending observations.
-/

namespace C2Hunter.Network

open Dict

/-- A property holds of all observations of a flow. -/
def Flow.Observed (P : Observation → Prop) (f : Flow) : Prop := ∀ row ∈ f.observations.rows, P row.2

/-- The sum of a weight over the observations of a flow. -/
def Flow.total (weight : Observation → Int) (f : Flow) : Int := f.observations.sum weight

variable {t : Tracker} {p : Arrival} {py : Python}

namespace Tracker

/-- The weight of an observation before an event. -/
def before (t : Tracker) (weight : Observation → Int) (pattern : Pattern) (peer : Endpoint) : Int :=
  (t.flow.observations.find? (pattern, peer)).elim 0 weight

section

theorem Calm.total {t' : Tracker} (h : t.Calm t') (weight : Observation → Int) :
    t'.flow.total weight = t.flow.total weight := by
  rw [Flow.total, h.observations]
  rfl

/-! ## Before a record is evaluated -/

theorem touch_quiet (b : Budget) (f : Flow) (direction : Bool) (time : Int) :
    Quiet ⟨b, f⟩ ⟨b, f.touch direction time⟩ := by
  rw [Flow.touch]
  split <;> exact .of_frame rfl rfl rfl rfl rfl

theorem touch_size (f : Flow) (direction : Bool) (time : Int) : (f.touch direction time).size = f.size := by
  rw [Flow.touch]
  split <;> rfl

/-- A flow that goes on is not limited, and has its correlations in step. -/
theorem recover_calm {u : Tracker} {idle : Bool} (h : t.recover p idle = some u) :
    t.Calm u ∧ u.flow.limited = false := by
  rw [recover] at h
  split at h
  · split at h
    · cases h
      refine ⟨?_, rfl⟩
      have hclear := t.clearCorrelations_quiet.trans t.clearCorrelations.forgetEpoch_quiet
      exact { hclear with }
    · cases h
  · next hlimited =>
    cases h
    exact ⟨(Quiet.refl t).toCalm, by simpa using hlimited⟩

theorem recover_eq_none {idle : Bool} (h : t.recover p idle = none) : t.flow.limited = true := by
  rw [recover] at h
  split at h
  · next hlimited => exact hlimited
  · cases h

theorem pause_quiet (t : Tracker) (idle : Bool) : t.Quiet (t.pause idle) := by
  rw [pause]
  split
  · exact (t.clearCorrelations_quiet.trans (forgetEpoch_quiet _)).trans (measure_quiet _ _)
  · exact .refl t

/-! ## ICMP errors -/

end

section Icmp

variable (text : ReportText py) (t : Tracker) (peer : Endpoint) (time : Int)
  (record : Record)

/-- The samples of an observation after an ICMP error, and the budget. -/
def icmpAdded : List Retained × DetailBudget :=
  t.budget.icmp.add text (t.observed .icmpErrors peer time record).icmpSamples record time

/-- The observation after an ICMP error. -/
def icmpObserved : Observation :=
  { t.observed .icmpErrors peer time record with
    icmpSamples := (t.icmpAdded text peer time record).1 }

theorem observe_icmp : t.observe text .icmpErrors peer time record =
    { budget := { t.budget with icmp := (t.icmpAdded text peer time record).2 }
      flow := { t.flow with
        observations := t.flow.observations.put
          ((.icmpErrors, peer), t.icmpObserved text peer time record) } } := by
  rw [observe, if_pos rfl]
  rfl

theorem observe_icmp_conserves : t.Conserves (t.observe text .icmpErrors peer time record) := by
  rw [observe_icmp]
  exact ⟨rfl, id, id, fun hwf => hwf⟩

theorem total_observe_icmp (weight : Observation → Int) :
    (t.observe text .icmpErrors peer time record).flow.total weight =
      t.flow.total weight + weight (t.icmpObserved text peer time record) - t.before weight .icmpErrors peer := by
  rw [observe_icmp]
  exact sum_put weight t.flow.observations _ _

end Icmp

end Tracker

namespace Scan

open Tracker

/-! ## Turns -/

/-- A record with its place in the flow that it identifies. -/
structure Arrives (py : Python) (record : Record) (p : Arrival) : Prop where
  same : p.record = record
  identified : identity py record = some ⟨p.key, p.direction, p.time⟩

variable {s : Scan} {flow : Flow} {record : Record} {key : FlowKey} {P : Flow → Prop}

section Turns

variable (text : ReportText py)

/-- The ways in which a record can change the scan. In all but the first two, `flow` is the flow
of the record before it, and the tracker holds the flow after it. -/
inductive Turn (s : Scan) (record : Record) : Scan → Prop where
  /-- the record has no identity -/
  | skip : Turn s record s.tick.skip
  /-- there are too many flows -/
  | refuse : Turn s record (s.tick.drop.warn .flowTrackingLimitReached)
  /-- the evidence is incomplete, or the clock went back -/
  | gap {key : FlowKey} {flow : Flow} {t : Tracker} (hflow : s.flowAt key = some flow)
      (hcalm : Calm ⟨s.budget, flow⟩ t) (hlimited : t.flow.limited = flow.limited)
      (reason : Reason) (w : Warning) : Turn s record (s.tick.gap key t reason w)
  /-- the flow is limited and stays so -/
  | stay {key : FlowKey} {flow : Flow} {t : Tracker} (hflow : s.flowAt key = some flow)
      (hcalm : Calm ⟨s.budget, flow⟩ t) (hlimited : flow.limited = true)
      (hlimited' : t.flow.limited = true) (hsize : t.flow.size = flow.size) :
      Turn s record (s.tick.drop.store key t)
  /-- a correlation was refused -/
  | giveBack {key : FlowKey} {flow : Flow} {t : Tracker} (hflow : s.flowAt key = some flow)
      (hcalm : Calm ⟨s.budget, flow⟩ t) (hsize : t.flow.size = 0) :
      Turn s record ((s.tick.begin.giveBack .correlationLimitReached).store key t)
  /-- there are too many quotes -/
  | quoteLimit {key : FlowKey} {flow : Flow} {t : Tracker} (hflow : s.flowAt key = some flow)
      (hcalm : Calm ⟨s.budget, flow⟩ t) (hlimited : t.flow.limited = false) :
      Turn s record ((s.tick.begin.giveBack .icmpQuoteLimitReached).store key t)
  /-- no event -/
  | quiet {key : FlowKey} {flow : Flow} {t : Tracker} (hflow : s.flowAt key = some flow)
      (hcalm : Calm ⟨s.budget, flow⟩ t) (hlimited : t.flow.limited = false) :
      Turn s record (s.tick.begin.store key t)
  /-- an event that is no ICMP error -/
  | told {p : Arrival} {flow : Flow} {t : Tracker} (harrives : Arrives py record p)
      (hflow : s.flowAt p.key = some flow) (htold : Told p ⟨s.budget, flow⟩ t)
      (hlimited : t.flow.limited = false) : Turn s record (s.tick.begin.store p.key t)
  /-- an ICMP error of the flow, with a quote that was refused or without -/
  | own {p : Arrival} {flow : Flow} {t : Tracker} (harrives : Arrives py record p)
      (hflow : s.flowAt p.key = some flow) (hcalm : Calm ⟨s.budget, flow⟩ t)
      (hlimited : t.flow.limited = false) (refused : Bool) :
      Turn s record ((if refused then s.tick.begin.warn .incompleteIcmpQuote else s.tick.begin).store
        p.key (t.observe text .icmpErrors p.source p.time record))
  /-- an ICMP error that quotes a flow -/
  | quoted {p : Arrival} {flow pending : Flow} {t : Tracker} {target : FlowKey} {peer : Endpoint}
      (harrives : Arrives py record p) (hflow : s.flowAt p.key = some flow)
      (hpending : s.pendingAt (target, p.key) = some pending)
      (hcalm : Calm ⟨s.budget, flow⟩ t) (hlimited : t.flow.limited = false) :
      Turn s record
        ({ s.tick.begin with quoted := s.quoted.put ((target, p.key),
            (Tracker.observe text ⟨t.budget, pending⟩ .icmpErrors peer p.time record).flow) }.store
          p.key ⟨(Tracker.observe text ⟨t.budget, pending⟩ .icmpErrors peer p.time record).budget,
            t.flow⟩)

section

variable (harrives : Arrives py record p) (hflow : s.flowAt p.key = some flow)
  (hcalm : Calm ⟨s.budget, flow⟩ t) (hlimited : t.flow.limited = false)

include harrives hflow hcalm hlimited

/-- The end of a turn, for a tracker that told no event if it was refused. -/
theorem finish_turn {u : Tracker} {told refused : Bool} (heffect : Effect p t u told)
    (hone : ¬(told = true ∧ refused = true)) :
    Turn text s record (s.tick.begin.finish p.key (u.limit refused)) := by
  have hlimited' : u.flow.limited = false := heffect.limited.trans hlimited
  cases refused with
  | true =>
    cases told with
    | true => exact absurd ⟨rfl, rfl⟩ hone
    | false =>
      -- the flow is marked and cleared
      have hmark : Calm u (u.limit true) :=
        ⟨⟨rfl, id, id, fun hwf => hwf⟩, rfl, rfl⟩
      have hclear := ((u.limit true).measure_quiet (·.gap .correlationLimitReached)).trans
        (clearCorrelations_quiet _)
      exact .giveBack hflow ((hcalm.trans (Quiet.toCalm heffect)).trans (hmark.trans hclear.toCalm)) rfl
  | false =>
    have hfinish : s.tick.begin.finish p.key (u.limit false) = s.tick.begin.store p.key u := by
      rw [finish, limit, if_neg Bool.false_ne_true, hlimited', if_neg Bool.false_ne_true]
    rw [hfinish]
    cases told with
    | true => exact .told harrives hflow (hcalm.told (Tells.toTold heffect)) hlimited'
    | false => exact .quiet hflow (hcalm.trans (Quiet.toCalm heffect)) hlimited'

/-- The branch of ICMP errors. -/
theorem scanIcmp_turn : Turn text s record (s.tick.begin.scanIcmp text t p) := by
  have hfinish (s' : Scan) : s'.observeOwn text t p =
      s'.store p.key (t.observe text .icmpErrors p.source p.time record) := by
    rw [observeOwn, finish, if_neg, harrives.same]
    rw [observe_icmp]
    simp [hlimited]
  rw [scanIcmp]
  split
  · rw [hfinish]
    exact .own harrives hflow hcalm hlimited false
  split
  · rw [hfinish]
    exact .own harrives hflow hcalm hlimited true
  next target peer hquote =>
  rw [observeQuoted]
  have hpending : s.tick.begin.pendingAt (target, p.key) = s.pendingAt (target, p.key) := rfl
  rw [hpending]
  cases hpending : s.pendingAt (target, p.key) with
  | none => exact .quoteLimit hflow hcalm hlimited
  | some =>
    simp only [finish, hlimited, Bool.false_eq_true, if_false, harrives.same]
    exact .quoted harrives hflow hpending hcalm hlimited

end

section

variable (harrives : Arrives py record p) (hwf : flow.WF) (hflow : s.flowAt p.key = some flow)

include harrives hwf hflow

/-- The evaluation of a record. -/
theorem evaluate_turn (hcalm : Calm ⟨s.budget, flow⟩ t) (hlimited : t.flow.limited = false) :
    ∃ s', s.tick.evaluate text t p = .ok s' ∧ Turn text s record s' := by
  have hmeasure := t.measure_quiet (·.addPacket p.direction p.time (p.record.get "ip_ttl"))
  have hcalm' := hcalm.trans hmeasure.toCalm
  have hlimited' := hmeasure.limited.trans hlimited
  rw [evaluate]
  split
  · obtain ⟨u, refused, told, hok, heffect, hone⟩ := scanTcp_effect text (hcalm'.wf hwf) p
    simp only [hok]
    exact ⟨_, rfl, finish_turn text harrives hflow hcalm' hlimited' heffect hone⟩
  split
  · obtain ⟨told, heffect, hone⟩ := scanUdp_effect text
      (t.measure (·.addPacket p.direction p.time (p.record.get "ip_ttl"))) p
    exact ⟨_, rfl, finish_turn text harrives hflow hcalm' hlimited' heffect hone⟩
  split
  · exact ⟨_, rfl, scanIcmp_turn text harrives hflow hcalm' hlimited'⟩
  · have heffect : Effect p _ _ false := Quiet.refl
      (t.measure (·.addPacket p.direction p.time (p.record.get "ip_ttl")))
    have hone : ¬(false = true ∧ false = true) := by simp
    exact ⟨_, rfl, finish_turn text harrives hflow hcalm' hlimited' heffect hone⟩

/-- A record of a flow that is tracked. -/
theorem scanFlow_turn : ∃ s', s.tick.scanFlow text flow p = .ok s' ∧ Turn text s record s' := by
  have htouch := touch_quiet s.budget flow p.direction p.time
  rw [scanFlow]
  split
  · exact ⟨_, rfl, .gap hflow htouch.toCalm htouch.limited _ _⟩
  split
  · exact ⟨_, rfl, .gap hflow htouch.toCalm htouch.limited _ _⟩
  split
  · next hrecover =>
    have hlimited := recover_eq_none hrecover
    exact ⟨_, rfl, .stay hflow htouch.toCalm (htouch.limited.symm.trans hlimited) hlimited
      (touch_size flow p.direction p.time)⟩
  next t hrecover =>
  obtain ⟨hcalm, hlimited⟩ := recover_calm hrecover
  have hpause := t.pause_quiet (flow.idle p.time)
  exact evaluate_turn text harrives hwf hflow ((htouch.toCalm.trans hcalm).trans hpause.toCalm)
    (hpause.limited.trans hlimited)

end

/-- The flow of a record is one of the scan, or fresh. -/
theorem flowAt_eq_some (h : s.flowAt key = some flow) : s.flows.find? key = some flow ∨
      s.flows.find? key = none ∧ flow = {} ∧ s.flows.rows.length < maxTrackedFlows := by
  rw [flowAt] at h
  split at h
  · next hfind =>
    cases h
    exact .inl hfind
  next hfind =>
  split at h
  · cases h
  · next hroom =>
    cases h
    exact .inr ⟨hfind, rfl, not_le.mp hroom⟩

theorem pendingAt_eq_some {key : FlowKey × FlowKey} (h : s.pendingAt key = some flow) :
    s.quoted.find? key = some flow ∨
      s.quoted.find? key = none ∧ flow = {} ∧ s.quoted.rows.length < maxPendingQuotes := by
  rw [pendingAt] at h
  split at h
  · next hfind =>
    cases h
    exact .inl hfind
  next hfind =>
  split at h
  · cases h
  · next hroom =>
    cases h
    exact .inr ⟨hfind, rfl, not_le.mp hroom⟩

/-- A property of a fresh flow and of all flows holds of the flow of a record. -/
theorem flowAt_induction (hrows : ∀ row ∈ s.flows.rows, P row.2) (hfresh : P {}) (h : s.flowAt key = some flow) : P flow := by
  obtain hfind | ⟨-, rfl, -⟩ := flowAt_eq_some h
  · exact hrows _ (find?_eq_some.mp hfind)
  · exact hfresh

theorem pendingAt_induction (hrows : ∀ row ∈ s.quoted.rows, P row.2) (hfresh : P {})
    {key : FlowKey × FlowKey} (h : s.pendingAt key = some flow) : P flow := by
  obtain hfind | ⟨-, rfl, -⟩ := pendingAt_eq_some h
  · exact hrows _ (find?_eq_some.mp hfind)
  · exact hfresh

theorem Flow.WF.fresh : ({} : Flow).WF := fun direction => by
  rw [Pair.get_both]
  exact .fresh

/-- All flows of a scan are well-formed. -/
def WF (s : Scan) : Prop := ∀ row ∈ s.flows.rows, row.2.WF

/-- A turn of the loop does not raise. -/
theorem step_turn (hwf : s.WF) (record : Record) : ∃ s', s.step text record = .ok s' ∧ Turn text s record s' := by
  rw [step]
  split
  · exact ⟨_, rfl, .skip⟩
  next id hid =>
  have htick : s.tick.flowAt id.key = s.flowAt id.key := rfl
  rw [htick]
  cases hflow : s.flowAt id.key with
  | none => exact ⟨_, rfl, .refuse⟩
  | some =>
    exact scanFlow_turn text (p := ⟨id.key, id.direction, id.time, record⟩) ⟨rfl, hid⟩
      (flowAt_induction hwf Flow.WF.fresh hflow) hflow

end Turns

/-! ## Sums over all observations -/

/-- The sum of a weight over all observations, of the flows and of the pending ones. -/
def total (weight : Observation → Int) (s : Scan) : Int :=
  s.flows.sum (Flow.total weight) + s.quoted.sum (Flow.total weight)

section

/-- The flow of a record counts as much as the one that is stored under its key. -/
theorem flowAt_weight (hflow : s.flowAt key = some flow) (weight : Flow → Int) (hfresh : weight {} = 0) :
    (s.flows.find? key).elim 0 weight = weight flow := by
  obtain hfind | ⟨hfind, rfl, -⟩ := flowAt_eq_some hflow
  · rw [hfind, Option.elim_some]
  · rw [hfind, Option.elim_none, hfresh]

theorem pendingAt_weight {key : FlowKey × FlowKey} (hflow : s.pendingAt key = some flow)
    (weight : Flow → Int) (hfresh : weight {} = 0) :
    (s.quoted.find? key).elim 0 weight = weight flow := by
  obtain hfind | ⟨hfind, rfl, -⟩ := pendingAt_eq_some hflow
  · rw [hfind, Option.elim_some]
  · rw [hfind, Option.elim_none, hfresh]

/-- Storing a flow exchanges its weight. -/
theorem sum_store (hflow : s.flowAt key = some flow) (weight : Flow → Int) (hfresh : weight {} = 0) (t : Tracker) :
    (s.store key t).flows.sum weight = s.flows.sum weight + weight t.flow - weight flow := by
  rw [store, sum_put, flowAt_weight hflow weight hfresh]

theorem total_store (hflow : s.flowAt key = some flow) (t : Tracker) (weight : Observation → Int) :
    (s.store key t).total weight = s.total weight + t.flow.total weight - flow.total weight := by
  have hsum := sum_store hflow (Flow.total weight) rfl t
  rw [total, hsum, total]
  simp only [store]
  ring

theorem total_put_pending {key : FlowKey × FlowKey} (hpending : s.pendingAt key = some flow)
    (flow' : Flow) (weight : Observation → Int) :
    { s with quoted := s.quoted.put (key, flow') }.total weight =
      s.total weight + flow'.total weight - flow.total weight := by
  rw [total, total, sum_put, pendingAt_weight hpending (Flow.total weight) rfl]
  ring

/-! ## Properties of all flows and observations -/

/-- A property of all flows is kept by storing a flow that has it. -/
theorem forall_store (h : ∀ row ∈ s.flows.rows, P row.2)
    (ht : P t.flow) : ∀ row ∈ (s.store key t).flows.rows, P row.2 :=
  forall_put (p := fun _ flow => P flow) h ht

end

/-- A property holds of all observations, of the flows and of the pending ones. -/
structure Observed (P : Observation → Prop) (s : Scan) : Prop where
  flows : ∀ row ∈ s.flows.rows, row.2.Observed P
  quoted : ∀ row ∈ s.quoted.rows, row.2.Observed P

theorem Observed.empty (P : Observation → Prop) : ({} : Scan).Observed P where
  flows := fun _ h => by cases h
  quoted := fun _ h => by cases h

variable {text : ReportText py} {s' : Scan}

/-- A turn keeps a property of observations that a first event establishes and that later events
and samples keep. -/
theorem Turn.observed {P : Observation → Prop} (hturn : Turn text s record s')
    (hfirst : ∀ p, Arrives py record p → P ⟨1, p.time, p.time, readFacts record, []⟩)
    (hagain : ∀ p o, Arrives py record p → P o → P (o.again p.time))
    (hfirstIcmp : ∀ p b, Arrives py record p → P ⟨1, p.time, p.time, readFacts record,
      (DetailBudget.add text b [] record p.time).1⟩) (hagainIcmp : ∀ p o b, Arrives py record p → P o →
      P { o.again p.time with
        icmpSamples := (DetailBudget.add text b o.icmpSamples record p.time).1 })
    (h : s.Observed P) : s'.Observed P := by
  -- the observation after an event
  have hevent (t : Tracker) (ht : t.flow.Observed P) (p : Arrival) (hp : Arrives py record p)
      (pattern : Pattern) (peer : Endpoint) : P (t.observed pattern peer p.time record) := by
    rw [Tracker.observed]
    split
    · exact hfirst p hp
    · next previous hprevious =>
      exact hagain p previous hp (ht _ (find?_eq_some.mp hprevious))
  have hicmp (t : Tracker) (ht : t.flow.Observed P) (p : Arrival) (hp : Arrives py record p) (peer : Endpoint) :
      (t.observe text .icmpErrors peer p.time record).flow.Observed P := by
    rw [observe_icmp]
    refine forall_put (p := fun _ o => P o) ht ?_
    rw [icmpObserved, icmpAdded, Tracker.observed]
    split
    · exact hfirstIcmp p t.budget.icmp hp
    · next previous hprevious =>
      exact hagainIcmp p previous t.budget.icmp hp (ht _ (find?_eq_some.mp hprevious))
  have hfresh : ({} : Flow).Observed P := fun _ h => by cases h
  have hcalm {key : FlowKey} {flow : Flow} {t : Tracker} (hflow : s.flowAt key = some flow)
      (hcalm : Calm ⟨s.budget, flow⟩ t) : t.flow.Observed P := by
    rw [Flow.Observed, hcalm.observations]
    exact flowAt_induction h.flows hfresh hflow
  cases hturn with
  | skip | refuse => exact ⟨h.flows, h.quoted⟩
  | gap hflow hc hlimited reason =>
    have ht := hcalm hflow (hc.trans ((measure_quiet _ (·.gap reason)).trans (clearCorrelations_quiet _)).toCalm)
    exact ⟨forall_store h.flows ht, h.quoted⟩
  | stay hflow hc | giveBack hflow hc | quoteLimit hflow hc | quiet hflow hc =>
    exact ⟨forall_store h.flows (hcalm hflow hc), h.quoted⟩
  | told harrives hflow htold =>
    refine ⟨forall_store h.flows ?_, h.quoted⟩
    obtain ⟨pattern, peer, -, hobservations⟩ := htold.told
    rw [Flow.Observed, hobservations, harrives.same]
    have hold := flowAt_induction h.flows hfresh hflow
    exact forall_put (p := fun _ o => P o) hold (hevent ⟨s.budget, _⟩ hold _ harrives pattern peer)
  | own harrives hflow hc _ refused =>
    have ht := hicmp _ (hcalm hflow hc) _ harrives
    cases refused with
    | false | true => exact ⟨forall_store h.flows (ht _), h.quoted⟩
  | quoted harrives hflow hpending hc =>
    have ht := hcalm hflow hc
    refine ⟨forall_store h.flows (by exact ht), ?_⟩
    have hold := pendingAt_induction h.quoted hfresh hpending
    exact forall_put (p := fun _ flow => Flow.Observed P flow) h.quoted (hicmp ⟨_, _⟩ hold _ harrives _)

theorem subset_warn (s : Scan) (w : Warning) : s.warnings ⊆ (s.warn w).warnings :=
  fun _ h => List.mem_insert_of_mem h

/-- What a turn writes: the flow of its record, and perhaps a pending flow of it. -/
structure Writes (s s' : Scan) (key : FlowKey) (flow flow' : Flow) : Prop where
  flowAt : s.flowAt key = some flow
  conserves : Conserves ⟨s.budget, flow⟩ ⟨s'.budget, flow'⟩
  flows : s'.flows = s.flows.put (key, flow')
  limited : flow'.limited = true →
    (flow'.size = 0 ∨ flow.limited = true ∧ flow'.size = flow.size) ∧
      (flow.limited = true ∨ .correlationLimitReached ∈ s'.warnings)
  quoted : s'.quoted = s.quoted ∨ ∃ target pending pending',
    s.pendingAt (target, key) = some pending ∧ pending'.size = pending.size ∧
      s'.quoted = s.quoted.put ((target, key), pending')

/-- A turn writes a flow, or only counters and warnings. -/
theorem Turn.writes (hturn : Turn text s record s') : s.warnings ⊆ s'.warnings ∧
      ((s'.flows = s.flows ∧ s'.quoted = s.quoted ∧ s'.budget = s.budget) ∨
        ∃ key flow flow', s.Writes s' key flow flow') := by
  have hno {f : Flow} {P : Prop} (hlimited : f.limited = false) (hlimited' : f.limited = true) : P := by
    rw [hlimited] at hlimited'
    cases hlimited'
  cases hturn with
  | skip | refuse => exact ⟨s.subset_warn _, .inl ⟨rfl, rfl, rfl⟩⟩
  | @gap key flow t hflow hc hlimited reason w =>
    have hclear := (measure_quiet t (·.gap reason)).trans (clearCorrelations_quiet _)
    exact ⟨s.subset_warn w, .inr ⟨_, _, _, hflow, (hc.trans hclear.toCalm).toConserves, rfl,
      fun hlimited' => ⟨.inl rfl, .inl (hlimited.symm.trans hlimited')⟩, .inl rfl⟩⟩
  | stay hflow hc hlimited hlimited' hsize =>
    exact ⟨List.Subset.refl _, .inr ⟨_, _, _, hflow, hc.toConserves, rfl,
      fun _ => ⟨.inr ⟨hlimited, hsize⟩, .inl hlimited⟩, .inl rfl⟩⟩
  | giveBack hflow hc hsize =>
    exact ⟨s.subset_warn _, .inr ⟨_, _, _, hflow, hc.toConserves, rfl,
      fun _ => ⟨.inl hsize, .inr List.mem_insert_self⟩, .inl rfl⟩⟩
  | quoteLimit hflow hc hlimited =>
    exact ⟨s.subset_warn _, .inr ⟨_, _, _, hflow, hc.toConserves, rfl, hno hlimited, .inl rfl⟩⟩
  | quiet hflow hc hlimited =>
    exact ⟨List.Subset.refl _, .inr ⟨_, _, _, hflow, hc.toConserves, rfl, hno hlimited, .inl rfl⟩⟩
  | told _ hflow htold hlimited =>
    exact ⟨List.Subset.refl _, .inr ⟨_, _, _, hflow, htold.toConserves, rfl, hno hlimited, .inl rfl⟩⟩
  | @own p flow t _ hflow hc hlimited refused =>
    have hobserve := hc.toConserves.trans (observe_icmp_conserves text t p.source p.time record)
    have hlimited : (t.observe text .icmpErrors p.source p.time record).flow.limited = false := by
      rw [observe_icmp]
      exact hlimited
    cases refused with
    | false => exact ⟨List.Subset.refl _, .inr ⟨_, _, _, hflow, hobserve, rfl, hno hlimited, .inl rfl⟩⟩
    | true => exact ⟨s.subset_warn _, .inr ⟨_, _, _, hflow, hobserve, rfl, hno hlimited, .inl rfl⟩⟩
  | quoted _ hflow hpending hc hlimited =>
    refine ⟨List.Subset.refl _, .inr ⟨_, _, _, hflow, ?_, rfl, hno hlimited, .inr ⟨_, _, _, hpending, ?_, rfl⟩⟩⟩
    · rw [observe_icmp]
      exact { hc with }
    · rw [observe_icmp]
      rfl

theorem Turn.wf (hturn : Turn text s record s') (h : s.WF) : s'.WF := by
  obtain ⟨-, ⟨hflows, -⟩ | ⟨key, flow, flow', hwrites⟩⟩ := hturn.writes
  · rw [WF, hflows]
    exact h
  · rw [WF, hwrites.flows]
    exact forall_put (p := fun _ flow => Flow.WF flow) h
      (hwrites.conserves.wf (flowAt_induction h Flow.WF.fresh hwrites.flowAt))

/-- The loop does not raise, and what holds at the start and is kept by every turn holds at the
end. -/
theorem run_induction (text : ReportText py) {P : List Record → Scan → Prop} (hstart : P [] {})
    (hturn : ∀ pre s s' record, P pre s → Turn text s record s' → P (pre ++ [record]) s')
    (records : List Record) : ∃ s, run text records {} = .ok s ∧ s.WF ∧ P records s := by
  have hwf : ({} : Scan).WF := fun _ h => by cases h
  refine List.foldlM_eq_ok_of_step (fun pre s => s.WF ∧ P pre s) ⟨hwf, hstart⟩ ?_
  intro pre record s _ hs
  obtain ⟨s', hok, hstep⟩ := step_turn text hs.1 record
  exact ⟨s', hok, hstep.wf hs.1, hturn pre s s' record hs.2 hstep⟩

section

/-- A property of all observations is kept where a flow gets one that has it. -/
theorem observed_put {P : Observation → Prop}
    (hflow : s.flows.find? key = some flow) (h : ∀ row ∈ s.flows.rows, row.2.Observed P)
    (okey : Pattern × Endpoint) {o : Observation} (ho : P o) :
    ∀ row ∈ (s.flows.put (key, { flow with observations := flow.observations.put (okey, o) })).rows,
      row.2.Observed P := by
  refine forall_put (p := fun _ flow => Flow.Observed P flow) h ?_
  exact forall_put (p := fun _ o => P o) (h _ (find?_eq_some.mp hflow)) ho

/-! ## Pending observations -/

/-- The observations that wait for their flow. -/
def pending (s : Scan) : List Observation :=
  s.quoted.rows.flatMap fun row => row.2.observations.rows.map Prod.snd

theorem sum_pending (s : Scan) (weight : Observation → Int) :
    (s.pending.map weight).sum = s.quoted.sum (Flow.total weight) := by
  rw [pending, sum]
  induction s.quoted.rows with
  | nil => rfl
  | cons row rows ih =>
    rw [List.flatMap_cons, List.map_append, List.sum_append, ih, List.map_cons, List.sum_cons, List.map_map]
    rfl

theorem Observed.pending {P : Observation → Prop} (h : s.Observed P) : ∀ o ∈ s.pending, P o := by
  intro o ho
  obtain ⟨row, hrow, ho⟩ := List.mem_flatMap.mp ho
  obtain ⟨observation, hobservation, rfl⟩ := List.mem_map.mp ho
  exact h.quoted row hrow observation hobservation

/-- Every flow that quotes another is tracked. -/
def Origins (s : Scan) : Prop := ∀ row ∈ s.quoted.rows, (s.flows.find? row.1.2).isSome = true

theorem isSome_store {key' : FlowKey} (h : (s.flows.find? key').isSome = true) :
    ((s.store key t).flows.find? key').isSome = true := by
  rw [store, find?_put]
  split
  · rfl
  · exact h

theorem Turn.origins (hturn : Turn text s record s') (h : s.Origins) : s'.Origins := by
  obtain ⟨-, ⟨hflows, hquoted, -⟩ | ⟨key, flow, flow', hwrites⟩⟩ := hturn.writes
  · rw [Origins, hflows, hquoted]
    exact h
  have hold : ∀ row ∈ s.quoted.rows, (s'.flows.find? row.1.2).isSome = true := by
    intro row hrow
    rw [hwrites.flows]
    exact isSome_store (t := ⟨s.budget, flow'⟩) (h row hrow)
  obtain hquoted | ⟨target, pending, pending', -, -, hquoted⟩ := hwrites.quoted
  · rw [Origins, hquoted]
    exact hold
  · rw [Origins, hquoted]
    refine forall_put (p := fun (key : FlowKey × FlowKey) (_ : Flow) =>
      (s'.flows.find? key.2).isSome = true) hold ?_
    rw [hwrites.flows, find?_put, if_pos rfl, Option.isSome_some]

end

section Resolve

variable {Q : List Observation → Scan → Prop}
  (hadopt : ∀ s key flow okey o rest, s.flows.find? key = some flow →
    flow.observations.find? okey = none → Q (o :: rest) s → Q rest (s.adopt key flow okey o))
  (hjoin : ∀ s key flow okey previous o rest, s.flows.find? key = some flow →
    flow.observations.find? okey = some previous → Q (o :: rest) s →
    Q rest (s.join key flow okey previous o))

include hadopt hjoin

/-- The loop over the observations of a pending flow. -/
theorem resolveObservations_induction (key : FlowKey) (rest : List Observation)
    (rows : List ((Pattern × Endpoint) × Observation)) (s : Scan) (hkey : (s.flows.find? key).isSome = true) (hQ : Q (rows.map Prod.snd ++ rest) s) :
    ∃ s', rows.foldlM (resolveObservation key) s = .ok s' ∧ Q rest s' ∧
      ∀ k, (s.flows.find? k).isSome = true → (s'.flows.find? k).isSome = true := by
  induction rows generalizing s with
  | nil => exact ⟨s, rfl, hQ, fun _ h => h⟩
  | cons row rows ih =>
    obtain ⟨flow, hflow⟩ := Option.isSome_iff_exists.mp hkey
    -- one observation
    obtain ⟨s', hs', hQ', hkeys⟩ : ∃ s', resolveObservation key s row = .ok s' ∧ Q (rows.map Prod.snd ++ rest) s' ∧
        ∀ k, (s.flows.find? k).isSome = true → (s'.flows.find? k).isSome = true := by
      rw [resolveObservation, hflow]
      simp only
      cases hprevious : flow.observations.find? row.1 with
      | none =>
        refine ⟨_, rfl, hadopt s key flow row.1 row.2 _ hflow hprevious hQ, fun k hk => ?_⟩
        rw [adopt]
        split
        · exact hk
        · exact isSome_store hk
      | some previous =>
        exact ⟨_, rfl, hjoin s key flow row.1 previous row.2 _ hflow hprevious hQ, fun k hk => isSome_store hk⟩
    obtain ⟨s'', hs'', hQ'', hkeys'⟩ := ih s' (hkeys key hkey) hQ'
    refine ⟨s'', ?_, hQ'', fun k hk => hkeys' k (hkeys k hk)⟩
    rw [List.foldlM_cons, hs']
    exact hs''

/-- The loop over the pending flows does not raise. What holds before it, and is kept where an
observation joins a flow or is dropped, holds after it. -/
theorem resolve_induction (horigins : s.Origins) (hstart : Q s.pending s) :
    ∃ s', s.resolveQuotes = .ok { s' with quoted := .empty } ∧ Q [] s' := by
  suffices ∀ (rows : List ((FlowKey × FlowKey) × Flow)) (s : Scan),
      (∀ row ∈ rows, (s.flows.find? row.1.2).isSome = true) →
      Q (rows.flatMap fun row => row.2.observations.rows.map Prod.snd) s →
      ∃ s', rows.foldlM resolveQuote s = .ok s' ∧ Q [] s' by
    obtain ⟨s', hs', hQ⟩ := this s.quoted.rows s horigins hstart
    refine ⟨s', ?_, hQ⟩
    rw [resolveQuotes, hs']
    rfl
  intro rows
  induction rows with
  | nil => exact fun s _ hQ => ⟨s, rfl, hQ⟩
  | cons row rows ih =>
    intro s hrows hQ
    have horigin := hrows row List.mem_cons_self
    have htarget : (s.flows.find? (s.quoteTarget row.1)).isSome = true := by
      rw [quoteTarget]
      split
      · next h => exact h
      · exact horigin
    obtain ⟨s', hs', hQ', hkeys⟩ := resolveObservations_induction hadopt hjoin
      (s.quoteTarget row.1) _ row.2.observations.rows s htarget hQ
    obtain ⟨s'', hs'', hQ''⟩ := ih s' (fun row' hrow' => hkeys _ (hrows row' (List.mem_cons_of_mem _ hrow'))) hQ'
    refine ⟨s'', ?_, hQ''⟩
    rw [List.foldlM_cons, resolveQuote, if_neg (by rw [Option.isNone_iff_eq_none]; intro h; simp [h] at horigin),
      hs']
    exact hs''

end Resolve

end Scan

end C2Hunter.Network
