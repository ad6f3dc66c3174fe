import C2Hunter.NetworkRebase

/-!
# Reactions

A turn of the loop in two parts: what a flow does about a record, which depends on the flow, on the
budget and on the pending flows it reports to, and what the scan writes down of it. Two runs are
then compared flow by flow.

* `Reaction` — the flow and the pending flow afterwards, and how the record ends.
* `react` — what a flow does about a record.
* `Scan.step_eq` — a turn of the loop writes down a reaction.
* `react_moved` — what a flow and its moved copy do about a record.
-/

namespace C2Hunter.Network

/-- How a record ends. -/
inductive Ending where
  | evaluated
  | incomplete
  /-- incomplete because of a limit -/
  | limited
  deriving DecidableEq, Repr

/-- What a flow does about a record. -/
structure Reaction where
  flow : Flow
  /-- the pending flow of a quote, by the key that is quoted -/
  pending : Option (FlowKey × Flow) := none
  budget : Budget
  ending : Ending
  warnings : List Warning := []

open Reaction

namespace Reaction

/-- A record that breaks what is known of its flow. -/
def gap (t : Tracker) (reason : Reason) (w : Warning) : Reaction where
  flow := (t.measure (·.gap reason)).clearCorrelations.flow
  budget := (t.measure (·.gap reason)).clearCorrelations.budget
  ending := if t.flow.limited then .limited else .incomplete
  warnings := [w]

/-- The end of an evaluation. -/
def finish (t : Tracker) (pending : Option (FlowKey × Flow)) (warnings : List Warning) : Reaction :=
  if t.flow.limited then
    { flow := (t.measure (·.gap .correlationLimitReached)).clearCorrelations.flow
      pending := pending
      budget := (t.measure (·.gap .correlationLimitReached)).clearCorrelations.budget
      ending := .limited
      warnings := warnings ++ [.correlationLimitReached] }
  else
    { flow := t.flow, pending := pending, budget := t.budget, ending := .evaluated,
      warnings := warnings }

end Reaction

section React

variable {py : Python} (text : ReportText py) (pendingAt : FlowKey → Option Flow)

section

variable (t : Tracker) (p : Arrival)

/-- An ICMP error with a quote. -/
def reactQuoted (target : FlowKey) (peer : Endpoint) : Reaction :=
  match pendingAt target with
  | none =>
    { flow := t.flow, budget := t.budget, ending := .limited, warnings := [.icmpQuoteLimitReached] }
  | some pending =>
    let q := Tracker.observe text ⟨t.budget, pending⟩ .icmpErrors peer p.time p.record
    .finish ⟨q.budget, t.flow⟩ (some (target, q.flow)) []

/-- The branch of ICMP errors. -/
def reactIcmp : Reaction :=
  match (p.record.get "icmp_quoted_flow").dict? with
  | none => .finish (t.observe text .icmpErrors p.source p.time p.record) none []
  | some quote =>
    match readQuote py p.key quote with
    | none =>
      .finish (t.observe text .icmpErrors p.source p.time p.record) none [.incompleteIcmpQuote]
    | some (target, peer) => reactQuoted text pendingAt t p target peer

/-- The evaluation of a record. -/
def reactEvaluated : Except ReportError Reaction :=
  let t := t.measure (·.addPacket p.direction p.time (p.record.get "ip_ttl"))
  if p.key.protocol = "TCP" then do
    let (t, refused) ← t.scanTcp text p
    return .finish (t.limit refused) none []
  else if p.key.protocol = "UDP" then
    let (t, refused) := t.scanUdp text p
    return .finish (t.limit refused) none []
  else if (p.key.protocol = "ICMP" ∨ p.key.protocol = "ICMPV6") ∧
      (p.record.get "icmp_error").truthy then
    return reactIcmp text pendingAt t p
  else return .finish t none []

end

/-- What a flow does about a record. -/
def react (budget : Budget) (flow : Flow) (p : Arrival) : Except ReportError Reaction :=
  let t : Tracker := ⟨budget, flow.touch p.direction p.time⟩
  if !complete p.record p.key.protocol then
    return .gap t .incompletePacketEvidence .incompletePacketEvidence
  else if t.flow.clockInvalid then
    return .gap t .nonMonotonicTimestamps .nonMonotonicTimestamps
  else
    match t.recover p (flow.idle p.time) with
    | none => return { flow := t.flow, budget := t.budget, ending := .limited }
    | some t => reactEvaluated text pendingAt (t.pause (flow.idle p.time)) p

end React

namespace Scan

/-- The scan writes down what a flow did. -/
def record (s : Scan) (key : FlowKey) (r : Reaction) : Scan where
  flows := s.flows.put (key, r.flow)
  quoted := r.pending.elim s.quoted fun row => s.quoted.put ((row.1, key), row.2)
  budget := r.budget
  scanned := s.scanned
  skipped := s.skipped
  incomplete := s.incomplete + if r.ending = .evaluated then 0 else 1
  evaluated := s.evaluated + if r.ending = .evaluated then 1 else 0
  limited := s.limited + if r.ending = .limited then 1 else 0
  warnings := r.warnings.foldl (fun warnings w => warnings.insert w) s.warnings

section Step

variable {py : Python} (text : ReportText py)

section

variable (s : Scan)

/-- The end of an evaluation, with a pending flow and warnings. -/
theorem finish_eq (key : FlowKey) (t : Tracker) (pending : Option (FlowKey × Flow)) (warnings : List Warning) :
    finish
        { s.begin with
          quoted := pending.elim s.quoted fun row => s.quoted.put ((row.1, key), row.2)
          warnings := warnings.foldl (fun warnings w => warnings.insert w) s.warnings } key t =
      s.record key (.finish t pending warnings) := by
  rw [Scan.finish, Reaction.finish]
  split
  · simp [giveBack, drop, begin, store, warn, record]
  · simp [begin, store, record]

theorem gap_eq (key : FlowKey) (t : Tracker) (reason : Reason) (w : Warning) :
    s.gap key t reason w = s.record key (.gap t reason w) := by
  rw [Scan.gap, Reaction.gap]
  by_cases hlimited : t.flow.limited
  · simp [store, warn, record, hlimited]
  · simp [store, warn, record, hlimited]

theorem scanIcmp_eq (t : Tracker) (p : Arrival) : s.begin.scanIcmp text t p =
      s.record p.key (reactIcmp text (fun target => s.pendingAt (target, p.key)) t p) := by
  rw [scanIcmp, reactIcmp]
  cases (p.record.get "icmp_quoted_flow").dict? with
  | none => exact finish_eq s p.key _ none []
  | some quote =>
    cases hquote : readQuote py p.key quote with
    | none =>
      simp only [hquote]
      exact finish_eq s p.key _ none [.incompleteIcmpQuote]
    | some target =>
      obtain ⟨target, peer⟩ := target
      have hpending : s.begin.pendingAt (target, p.key) = s.pendingAt (target, p.key) := rfl
      simp only [hquote, observeQuoted, reactQuoted, hpending]
      cases s.pendingAt (target, p.key) with
      | none => simp [giveBack, drop, begin, store, warn, record]
      | some pending => exact finish_eq s p.key _ (some (target, _)) []

theorem evaluate_eq (t : Tracker) (p : Arrival) : s.evaluate text t p =
      (reactEvaluated text (fun target => s.pendingAt (target, p.key)) t p).map (s.record p.key) := by
  rw [evaluate, reactEvaluated]
  simp only
  split
  · cases (t.measure fun m => m.addPacket p.direction p.time (p.record.get "ip_ttl")).scanTcp text p with
    | error => rfl
    | ok => exact congrArg Except.ok (finish_eq s p.key _ none [])
  split
  · exact congrArg Except.ok (finish_eq s p.key _ none [])
  split
  · exact congrArg Except.ok (scanIcmp_eq text s _ p)
  · exact congrArg Except.ok (finish_eq s p.key _ none [])

theorem scanFlow_eq (flow : Flow) (p : Arrival) : s.scanFlow text flow p =
      (react text (fun target => s.pendingAt (target, p.key)) s.budget flow p).map (s.record p.key) := by
  rw [scanFlow, react]
  simp only
  split
  · exact congrArg Except.ok (gap_eq s p.key _ _ _)
  split
  · exact congrArg Except.ok (gap_eq s p.key _ _ _)
  cases Tracker.recover ⟨s.budget, flow.touch p.direction p.time⟩ p (flow.idle p.time) with
  | none => exact congrArg Except.ok (by simp [drop, store, record])
  | some => exact evaluate_eq text s _ p

/-- A turn of the loop writes down a reaction. -/
theorem step_eq {record : Record} {id : Identity} (hid : identity py record = some id) {flow : Flow}
    (hflow : s.flowAt id.key = some flow) :
    s.step text record = (react text (fun target => s.pendingAt (target, id.key)) s.budget flow
        ⟨id.key, id.direction, id.time, record⟩).map (s.tick.record id.key) := by
  have htick : s.tick.flowAt id.key = s.flowAt id.key := rfl
  rw [step, hid]
  simp only [htick, hflow]
  exact scanFlow_eq text s.tick flow _

end

end Step

end Scan

/-! ## Reactions under another origin -/

/-- Whether a warning says that a limit was reached. -/
def Warning.isLimit : Warning → Bool
  | .flowTrackingLimitReached => true
  | .icmpQuoteLimitReached => true
  | .correlationLimitReached => true
  | .observationLimitReached => true
  | _ => false

/-- Reactions of a flow and of its moved copy. -/
structure Reaction.Moved (shared : Prop) (δ : Bool → Int) (r r' : Reaction) : Prop where
  flow : r.flow.Moved δ r'.flow
  pending : r'.pending.map (fun row => (row.1, row.2.tallies)) =
    r.pending.map fun row => (row.1, row.2.tallies)
  budget : shared → r'.budget.correlations = r.budget.correlations
  ending : r'.ending = r.ending
  warnings : r'.warnings = r.warnings

/-- Two runs agree on the pending flows of a key: on those that both have, and if they share a
budget also on those that they have. -/
structure PendingMoved (shared : Prop) (pendingAt pendingAt' : FlowKey → Option Flow) : Prop where
  isSome : shared → ∀ target, (pendingAt' target).isSome = (pendingAt target).isSome
  tallies : ∀ target x y, pendingAt target = some x → pendingAt' target = some y →
    y.tallies = x.tallies

section Moved

variable {shared : Prop} {δ : Bool → Int} {t u : Tracker} {p q : Arrival}

theorem Tracker.Moved.limit (h : Moved shared δ t u) (refused : Bool) :
    Moved shared δ (t.limit refused) (u.limit refused) := by
  rw [Tracker.limit, Tracker.limit]
  split
  · exact ⟨{ h.flow with limited := rfl }, h.budget⟩
  · exact h

theorem Tracker.Moved.pause (h : Moved shared δ t u) (idle : Bool) : Moved shared δ (t.pause idle) (u.pause idle) :=
  .ite Iff.rfl (h.clearCorrelations.forgetEpoch.measure _ _) h

theorem int?_rebase (d : Int) (value : Obj) : (value.rebase d).int? = value.int?.map (rebase d) := by
  cases value <;> rfl

variable {f g : Flow}

theorem changedSyn_moved (h : f.Moved δ g) (hp : p.Moved δ q) : g.changedSyn q = f.changedSyn p := by
  by_cases hprotocol : p.key.protocol = "TCP"
  · obtain ⟨hsyn, -⟩ := Tracker.readSegment_moved hp hprotocol
    have hanchor : (g.epochSyn.get p.direction).any
        (fun anchor => decide ((q.record.get "tcp_sequence").int? ≠ some anchor)) =
        (f.epochSyn.get p.direction).any
          fun anchor => decide ((p.record.get "tcp_sequence").int? ≠ some anchor) := by
      rw [h.epochSyn, hp.sequence hprotocol, int?_rebase]
      cases f.epochSyn.get p.direction with
      | none => rfl
      | some anchor =>
        have hiff : (p.record.get "tcp_sequence").int?.map (rebase (δ p.direction)) =
            some (rebase (δ p.direction) anchor) ↔
            (p.record.get "tcp_sequence").int? = some anchor := by
          rw [← Option.map_some, (Option.map_injective (rebase_injective _)).eq_iff]
        simp only [Option.map_some, Option.any_some, ne_eq, hiff]
    rw [Flow.changedSyn, Flow.changedSyn, hp.key, hsyn, hp.direction, hanchor]
  · rw [Flow.changedSyn, Flow.changedSyn, hp.key, decide_eq_decide]
    simp only [hprotocol, false_and]

theorem touch_moved (h : f.Moved δ g) (direction : Bool) (time : Int) :
    (f.touch direction time).Moved δ (g.touch direction time) := by
  rw [Flow.touch, Flow.touch]
  simp only [h.lastTime]
  split
  · exact
      { h with
        directions := congrArg (List.insert _) h.directions
        lastTime := rfl
        clockInvalid := rfl }
  · exact { h with directions := congrArg (List.insert _) h.directions, lastTime := rfl }

/-- A limited flow starts again in both, or in neither. -/
theorem recover_moved (h : t.Moved shared δ u) (hp : p.Moved δ q) (idle : Bool) :
    (t.recover p idle = none ∧ u.recover q idle = none) ∨
      ∃ t' u', t.recover p idle = some t' ∧ u.recover q idle = some u' ∧ t'.Moved shared δ u' := by
  rw [Tracker.recover, Tracker.recover, h.flow.limited, changedSyn_moved h.flow hp]
  split
  · split
    · have hmoved := h.clearCorrelations.forgetEpoch
      exact .inr ⟨_, _, rfl, rfl, { hmoved.flow with limited := rfl }, hmoved.budget⟩
    · exact .inl ⟨rfl, rfl⟩
  · exact .inr ⟨_, _, rfl, rfl, h⟩

theorem gap_moved (h : t.Moved shared δ u) (reason : Reason) (w : Warning) :
    (gap t reason w).Moved shared δ (gap u reason w) := by
  have hmoved := (h.measure (·.gap reason) (·.gap reason)).clearCorrelations
  refine ⟨hmoved.flow, rfl, hmoved.budget, ?_, rfl⟩
  rw [gap, gap, h.flow.limited]

theorem finish_moved (h : t.Moved shared δ u) {pending pending' : Option (FlowKey × Flow)}
    (hpending : pending'.map (fun row => (row.1, row.2.tallies)) =
      pending.map fun row => (row.1, row.2.tallies)) (warnings : List Warning) :
    (finish t pending warnings).Moved shared δ (finish u pending' warnings) := by
  rw [finish, finish, h.flow.limited]
  split
  · have hmoved := (h.measure (·.gap .correlationLimitReached) (·.gap .correlationLimitReached)).clearCorrelations
    exact ⟨hmoved.flow, hpending, hmoved.budget, rfl, rfl⟩
  · exact ⟨h.flow, hpending, h.budget, rfl, rfl⟩

/-- A flow that was refused a place warns of it. -/
theorem limit_warns (t : Tracker) (pending : Option (FlowKey × Flow)) (warnings : List Warning) :
    Warning.correlationLimitReached ∈ (finish (t.limit true) pending warnings).warnings := by
  rw [finish, Tracker.limit, if_pos rfl, if_pos rfl]
  exact List.mem_append_right _ List.mem_cons_self

variable {py : Python} (text : ReportText py) {pendingAt pendingAt' : FlowKey → Option Flow}

/-- No reaction of the two reaches a limit. -/
def Unlimited (r r' : Reaction) : Prop :=
  (∀ w ∈ r.warnings, w.isLimit = false) ∧ ∀ w ∈ r'.warnings, w.isLimit = false

theorem reactIcmp_moved (h : t.Moved shared δ u) (hp : p.Moved δ q)
    (hprotocol : p.key.protocol ≠ "TCP") (hpending : PendingMoved shared pendingAt pendingAt')
    (hfree : shared ∨ Unlimited (reactIcmp text pendingAt t p) (reactIcmp text pendingAt' u q)) :
    (reactIcmp text pendingAt t p).Moved shared δ (reactIcmp text pendingAt' u q) := by
  have hown := h.observe text .icmpErrors p.source p.time p.record p.record
  rw [reactIcmp, reactIcmp, hp.same hprotocol, hp.key, hp.source, hp.time] at hfree ⊢
  cases hdict : (p.record.get "icmp_quoted_flow").dict? with
  | none => exact finish_moved hown rfl []
  | some quote =>
    simp only [hdict] at hfree ⊢
    cases hquote : readQuote py p.key quote with
    | none => exact finish_moved hown rfl [.incompleteIcmpQuote]
    | some target =>
      obtain ⟨target, peer⟩ := target
      simp only [hquote, reactQuoted] at hfree ⊢
      have hsome := fun hshared => hpending.isSome hshared target
      have htallies := hpending.tallies target
      cases hx : pendingAt target with
      | none =>
        cases hy : pendingAt' target with
        | none => exact ⟨h.flow, rfl, h.budget, rfl, rfl⟩
        | some y =>
          rw [hx, hy] at hsome hfree
          obtain hshared | hunlimited := hfree
          · cases hsome hshared
          · cases hunlimited.1 _ List.mem_cons_self
      | some x =>
        cases hy : pendingAt' target with
        | none =>
          rw [hx, hy] at hsome hfree
          obtain hshared | hunlimited := hfree
          · cases hsome hshared
          · cases hunlimited.2 _ List.mem_cons_self
        | some y =>
          have hxy := htallies x y hx hy
          have hobserved : (Tracker.observe text ⟨u.budget, y⟩ .icmpErrors peer q.time q.record).flow.tallies =
              (Tracker.observe text ⟨t.budget, x⟩ .icmpErrors peer p.time p.record).flow.tallies := by
            rw [tallies_observe, tallies_observe, Flow.tallyWith, Flow.tallyWith, hxy, hp.time]
          have hmoved : Tracker.Moved shared δ
              ⟨(Tracker.observe text ⟨t.budget, x⟩ .icmpErrors peer p.time p.record).budget, t.flow⟩
              ⟨(Tracker.observe text ⟨u.budget, y⟩ .icmpErrors peer q.time q.record).budget, u.flow⟩ :=
            ⟨h.flow, h.budget⟩
          refine finish_moved hmoved ?_ []
          rw [Option.map_some, Option.map_some, hobserved]

theorem reactEvaluated_moved (h : t.Moved shared δ u) (hp : p.Moved δ q)
    (hcomplete : complete p.record p.key.protocol = true)
    (hpending : PendingMoved shared pendingAt pendingAt') {r r' : Reaction}
    (hr : reactEvaluated text pendingAt t p = .ok r)
    (hr' : reactEvaluated text pendingAt' u q = .ok r') (hfree : shared ∨ Unlimited r r') :
    r.Moved shared δ r' := by
  have hmeasured := h.measure (·.addPacket p.direction p.time (p.record.get "ip_ttl"))
    (·.addPacket q.direction q.time (q.record.get "ip_ttl"))
  -- a flow that was refused would warn
  have hrefused {x : Tracker × Bool} {r : Reaction} (heq : finish (x.1.limit x.2) none [] = r)
      (hunlimited : ∀ w ∈ r.warnings, w.isLimit = false) : x.2 = false := by
    by_contra htrue
    rw [Bool.not_eq_false] at htrue
    rw [← heq, htrue] at hunlimited
    cases hunlimited _ (limit_warns x.1 none [])
  rw [reactEvaluated] at hr hr'
  rw [hp.key] at hr'
  simp only at hr hr'
  by_cases htcp : p.key.protocol = "TCP"
  · rw [if_pos htcp] at hr hr'
    simp only [Except.bind_eq_ok, Except.pure_eq_ok, Except.ok.injEq, Prod.exists] at hr hr'
    obtain ⟨t', refused, ht, hr⟩ := hr
    obtain ⟨u', refused', hu, hr'⟩ := hr'
    have hcomplete' : completeTcp p.record = true := by
      rw [complete, decide_eq_true_eq] at hcomplete
      exact hcomplete.2.2.1 htcp
    obtain ⟨hsame, hmoved⟩ := hmeasured.scanTcp text hp htcp hcomplete' ht hu (hfree.imp_right fun hunlimited =>
        ⟨hrefused (x := (t', refused)) hr hunlimited.1, hrefused (x := (u', refused')) hr' hunlimited.2⟩)
    simp only at hsame hmoved
    rw [← hr, ← hr', hsame]
    exact finish_moved (hmoved.limit refused) rfl []
  rw [if_neg htcp] at hr hr'
  by_cases hudp : p.key.protocol = "UDP"
  · rw [if_pos hudp] at hr hr'
    cases hr
    cases hr'
    obtain ⟨hsame, hmoved⟩ := hmeasured.scanUdp text hp (hfree.imp_right fun hunlimited =>
        ⟨hrefused rfl hunlimited.1, hrefused rfl hunlimited.2⟩)
    rw [hsame]
    exact finish_moved (hmoved.limit _) rfl []
  rw [if_neg hudp] at hr hr'
  rw [hp.same htcp] at hr'
  split at hr
  · next hicmp =>
    rw [if_pos hicmp] at hr'
    cases hr
    cases hr'
    exact reactIcmp_moved text (h.measure _ _) hp htcp hpending hfree
  · next hicmp =>
    rw [if_neg hicmp] at hr'
    cases hr
    cases hr'
    exact finish_moved (h.measure _ _) rfl []

/-- What a flow and its moved copy do about a record and its moved copy. -/
theorem react_moved {budget budget' : Budget} (h : f.Moved δ g)
    (hbudget : shared → budget'.correlations = budget.correlations) (hp : p.Moved δ q)
    (hpending : PendingMoved shared pendingAt pendingAt')
    (hcomplete : complete q.record p.key.protocol = complete p.record p.key.protocol) {r r' : Reaction}
    (hr : react text pendingAt budget f p = .ok r) (hr' : react text pendingAt' budget' g q = .ok r')
    (hfree : shared ∨ Unlimited r r') : r.Moved shared δ r' := by
  have htouched : Tracker.Moved shared δ ⟨budget, f.touch p.direction p.time⟩
      ⟨budget', g.touch p.direction p.time⟩ := ⟨touch_moved h _ _, hbudget⟩
  have hidle : g.idle p.time = f.idle p.time := by rw [Flow.idle, Flow.idle, h.lastTime]
  have hclock : (g.touch p.direction p.time).clockInvalid =
      (f.touch p.direction p.time).clockInvalid := htouched.flow.clockInvalid
  rw [react] at hr hr'
  simp only [hp.key, hp.direction, hp.time, hcomplete, hidle, hclock] at hr hr'
  split at hr
  · next hincomplete =>
    rw [if_pos hincomplete] at hr'
    cases hr
    cases hr'
    exact gap_moved htouched _ _
  · next hincomplete =>
    rw [if_neg hincomplete] at hr'
    rw [Bool.not_eq_true, Bool.not_eq_false'] at hincomplete
    split at hr
    · next hinvalid =>
      rw [if_pos hinvalid] at hr'
      cases hr
      cases hr'
      exact gap_moved htouched _ _
    · next hinvalid =>
      rw [if_neg hinvalid] at hr'
      obtain ⟨ht, hu⟩ | ⟨t', u', ht, hu, hmoved⟩ := recover_moved htouched hp (f.idle p.time)
      · rw [ht] at hr
        rw [hu] at hr'
        cases hr
        cases hr'
        exact ⟨htouched.flow, rfl, htouched.budget, rfl, rfl⟩
      · rw [ht] at hr
        rw [hu] at hr'
        exact reactEvaluated_moved text (hmoved.pause _) hp hincomplete hpending hr hr' hfree

end Moved

end C2Hunter.Network
