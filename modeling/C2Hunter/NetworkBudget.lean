import C2Hunter.NetworkTurn

/-!
# The budget of the scan

One object counts the correlations and the ICMP samples of all flows. It is updated where flows
are cleared, where a correlation is granted, where a sample is taken and where pending
observations are joined or dropped; here it is shown to stay in step with what the flows hold.

* `DetailBudget.add_balance`, `DetailBudget.merge_balance` — the samples.
* `Scan.Tracking` — the correlations, and the bounds of flows and quotes.
* `Scan.Sampling` — the samples, with those of the observations that are still pending.
* `tracking_budget_conserved` — both at the end of every scan and after its quotes are resolved.
-/

namespace C2Hunter.Network

open List Observation Dict

/-! ## Samples -/

/-- The number of samples of an observation. -/
def Observation.sampleCount (o : Observation) : Int := o.icmpSamples.length

/-- The encoded size of samples: each with the comma after it. -/
def encodedSize (owner : List Retained) : Nat :=
  (owner.map fun retained => canonicalSize retained.value.json + 1).sum

/-- The encoded size of the samples of an observation. -/
def Observation.sampleBytes (o : Observation) : Int := encodedSize o.icmpSamples

/-- Every sample knows its encoded size. -/
def Observation.Sized (o : Observation) : Prop :=
  ∀ retained ∈ o.icmpSamples, retained.size = canonicalSize retained.value.json + 1

theorem retainedSize_eq {owner : List Retained}
    (h : ∀ retained ∈ owner, retained.size = canonicalSize retained.value.json + 1) :
    retainedSize owner = encodedSize owner := by
  rw [retainedSize, encodedSize, map_congr_left h]

theorem encodedSize_append (owner owner' : List Retained) :
    encodedSize (owner ++ owner') = encodedSize owner + encodedSize owner' := by
  rw [encodedSize, map_append, sum_append]
  rfl

theorem encodedSize_singleton (retained : Retained) :
    encodedSize [retained] = canonicalSize retained.value.json + 1 := by
  rw [encodedSize, map_singleton, sum_singleton]

variable {py : Python}

namespace DetailBudget

variable {source target : List Retained}

/-- A sample is taken within the bounds, and counted with its encoded size. -/
theorem add_balance (text : ReportText py) (b : DetailBudget) (owner : List Retained) (record : Record)
    (time : Int) :
    ((b.add text owner record time).2.count - (b.add text owner record time).1.length = b.count - owner.length ∧
      (b.add text owner record time).2.size - encodedSize (b.add text owner record time).1 =
        b.size - encodedSize owner) ∧
      (b.count ≤ maxSamples → (b.add text owner record time).2.count ≤ maxSamples) ∧
      (b.size ≤ maxDetailBytes → (b.add text owner record time).2.size ≤ maxDetailBytes) := by
  rw [add]
  split
  · exact ⟨⟨rfl, rfl⟩, id, id⟩
  next hroom =>
  rw [not_or, not_le, not_le] at hroom
  split
  · exact ⟨⟨rfl, rfl⟩, id, id⟩
  next value hvalue =>
  simp only
  split
  · exact ⟨⟨rfl, rfl⟩, id, id⟩
  next hbytes =>
  have hencoded : encodedSize (owner ++ [⟨b.ordinal + 1, value, canonicalSize value.json + 1⟩]) =
      encodedSize owner + (canonicalSize value.json + 1) := by
    rw [encodedSize_append, encodedSize_singleton]
  refine ⟨⟨?_, ?_⟩, fun _ => ?_, fun _ => ?_⟩
  · simp only [length_append, length_singleton]
    push_cast
    ring
  · simp only [hencoded]
    push_cast
    ring
  · exact hroom.2
  · exact not_lt.mp hbytes

theorem add_sized (text : ReportText py) (b : DetailBudget) {o : Observation} (h : o.Sized)
    (record : Record) (time : Int) :
    Observation.Sized { o with icmpSamples := (b.add text o.icmpSamples record time).1 } := by
  rw [add]
  split
  · exact h
  split
  · exact h
  simp only
  split
  · exact h
  intro retained hretained
  rw [mem_append, mem_singleton] at hretained
  obtain hretained | rfl := hretained
  · exact h retained hretained
  · rfl

theorem mergeSamples_perm (target source : List Retained) :
    (mergeSamples target source).Perm (target ++ source) := perm_insertionSort _ _

/-- Joined samples are kept or given back. -/
theorem merge_balance (b : DetailBudget)
    (h : ∀ retained ∈ target ++ source, retained.size = canonicalSize retained.value.json + 1) :
    (b.merge target source).2.count - (b.merge target source).1.length = b.count - (target.length + source.length) ∧
      (b.merge target source).2.size - encodedSize (b.merge target source).1 =
        b.size - (encodedSize target + encodedSize source) := by
  have hperm := mergeSamples_perm target source
  have hlength := hperm.length_eq
  rw [← take_append_drop perObservation (mergeSamples target source), length_append, length_append] at hlength
  have hsize : encodedSize (mergeSamples target source) = encodedSize target + encodedSize source := by
    rw [← encodedSize_append]
    exact (hperm.map _).sum_eq
  rw [← take_append_drop perObservation (mergeSamples target source), encodedSize_append] at hsize
  have hdropped : retainedSize ((mergeSamples target source).drop perObservation) =
      encodedSize ((mergeSamples target source).drop perObservation) := by
    apply retainedSize_eq
    intro retained hretained
    exact h retained (hperm.mem_iff.mp (mem_of_mem_drop hretained))
  simp only [merge, release, hdropped]
  omega

theorem mem_of_mem_merge (b : DetailBudget) {retained : Retained}
    (h : retained ∈ (b.merge target source).1) : retained ∈ target ++ source :=
  (mergeSamples_perm target source).mem_iff.mp (mem_of_mem_take h)

end DetailBudget

namespace Scan

open Tracker

/-! ## Correlations -/

/-- The counter of correlations is what the flows hold, and everything is within its bounds. -/
structure Tracking (s : Scan) : Prop where
  correlations : s.budget.correlations = s.flows.sum fun flow => flow.size
  total_le : s.budget.correlations ≤ maxTotalCorrelations
  size_le : ∀ row ∈ s.flows.rows, row.2.size ≤ maxFlowCorrelations
  limited : ∀ row ∈ s.flows.rows, row.2.limited = true → row.2.size = 0
  pending : ∀ row ∈ s.quoted.rows, row.2.size = 0
  flows_le : s.flows.rows.length ≤ maxTrackedFlows
  quotes_le : s.quoted.rows.length ≤ maxPendingQuotes

theorem Tracking.empty : ({} : Scan).Tracking where
  correlations := rfl
  total_le := by decide
  size_le := fun _ h => by cases h
  limited := fun _ h => by cases h
  pending := fun _ h => by cases h
  flows_le := Nat.zero_le _
  quotes_le := Nat.zero_le _

variable {s : Scan}

section

variable {flow : Flow} {key : FlowKey} {s' : Scan}

/-- A flow goes back with its correlations in step. -/
theorem Tracking.write {flow' : Flow} (h : s.Tracking) (hflow : s.flowAt key = some flow)
    (hc : Conserves ⟨s.budget, flow⟩ ⟨s'.budget, flow'⟩) (hflows : s'.flows = s.flows.put (key, flow'))
    (hquoted : s'.quoted = s.quoted) (hlimited : flow'.limited = true → flow'.size = 0) :
    s'.Tracking := by
  have hold : flow.size ≤ maxFlowCorrelations :=
    flowAt_induction (P := fun flow => flow.size ≤ maxFlowCorrelations) h.size_le (Nat.zero_le _) hflow
  constructor
  · have hheld := hc.held
    have hsum := sum_store hflow (fun flow => flow.size) rfl ⟨s'.budget, flow'⟩
    have hcorrelations := h.correlations
    rw [hflows]
    simp only [Scan.store] at hheld hsum ⊢
    omega
  · exact hc.total_le h.total_le
  · rw [hflows]
    exact forall_put (p := fun _ flow => Flow.size flow ≤ maxFlowCorrelations) h.size_le (hc.size_le hold)
  · rw [hflows]
    exact forall_put (p := fun _ flow => Flow.limited flow = true → Flow.size flow = 0) h.limited hlimited
  · rw [hquoted]
    exact h.pending
  · have hlength := length_put s.flows key flow'
    have hflows_le := h.flows_le
    rw [hflows]
    obtain hfind | ⟨hfind, -, hroom⟩ := flowAt_eq_some hflow
    · rw [hfind, Option.elim_some] at hlength
      omega
    · rw [hfind, Option.elim_none] at hlength
      omega
  · rw [hquoted]
    exact h.quotes_le

/-- The correlations of a pending flow: it has none, whatever it observes. -/
theorem Tracking.put_pending (h : s.Tracking) {key : FlowKey × FlowKey}
    (hpending : s.pendingAt key = some flow) (flow' : Flow) (hsize : flow'.size = flow.size) :
    { s with quoted := s.quoted.put (key, flow') }.Tracking := by
  refine ⟨h.correlations, h.total_le, h.size_le, h.limited, ?_, h.flows_le, ?_⟩
  · refine forall_put (p := fun _ flow => Flow.size flow = 0) h.pending ?_
    rw [hsize]
    exact pendingAt_induction (P := fun flow => flow.size = 0) h.pending rfl hpending
  · have hlength := length_put s.quoted key flow'
    have hquotes := h.quotes_le
    obtain hfind | ⟨hfind, -, hroom⟩ := pendingAt_eq_some hpending
    · rw [hfind, Option.elim_some] at hlength
      simp only
      omega
    · rw [hfind, Option.elim_none] at hlength
      simp only
      omega

theorem Turn.tracking {text : ReportText py} {record : Record}
    (hturn : Turn text s record s') (h : s.Tracking) : s'.Tracking := by
  obtain ⟨-, ⟨hflows, hquoted, hbudget⟩ | ⟨key, flow, flow', hwrites⟩⟩ := hturn.writes
  · refine ⟨?_, ?_, ?_, ?_, ?_, ?_, ?_⟩ <;> simp only [hflows, hquoted, hbudget]
    exacts [h.1, h.2, h.3, h.4, h.5, h.6, h.7]
  have hlimited (hlimited' : flow'.limited = true) : flow'.size = 0 := by
    obtain hzero | ⟨hlimited, hsame⟩ := (hwrites.limited hlimited').1
    · exact hzero
    · rw [hsame]
      exact flowAt_induction (P := fun flow => flow.limited = true → flow.size = 0) h.limited
        (fun _ => rfl) hwrites.flowAt hlimited
  obtain hquoted | ⟨target, pending, pending', hpending, hsize, hquoted⟩ := hwrites.quoted
  · exact h.write hwrites.flowAt hwrites.conserves hwrites.flows hquoted hlimited
  · exact (h.put_pending hpending pending' hsize).write hwrites.flowAt hwrites.conserves
      hwrites.flows hquoted hlimited

end

/-! ## Samples of the scan -/

/-- The counters of samples are what the observations retain, those that are still pending
included, and are within their bounds. -/
structure Sampling (s : Scan) (pending : List Observation) : Prop where
  count : s.budget.icmp.count =
    s.flows.sum (Flow.total Observation.sampleCount) + (pending.map Observation.sampleCount).sum
  size : s.budget.icmp.size =
    s.flows.sum (Flow.total Observation.sampleBytes) + (pending.map Observation.sampleBytes).sum
  count_le : s.budget.icmp.count ≤ maxSamples
  size_le : s.budget.icmp.size ≤ maxDetailBytes
  sized : ∀ row ∈ s.flows.rows, row.2.Observed Observation.Sized
  pendingSized : ∀ o ∈ pending, o.Sized

/-- The same, with the pending observations of the scan. -/
theorem sampling_iff : s.Sampling s.pending ↔ (s.budget.icmp.count = s.total sampleCount ∧
      s.budget.icmp.size = s.total sampleBytes) ∧
    (s.budget.icmp.count ≤ maxSamples ∧ s.budget.icmp.size ≤ maxDetailBytes) ∧ s.Observed Observation.Sized := by
  constructor
  · intro h
    refine ⟨⟨?_, ?_⟩, ⟨h.count_le, h.size_le⟩, h.sized, ?_⟩
    · rw [h.count, sum_pending, total]
    · rw [h.size, sum_pending, total]
    · intro row hrow o ho
      exact h.pendingSized o.2 (mem_flatMap.mpr ⟨row, hrow, mem_map_of_mem ho⟩)
  · rintro ⟨⟨hcount, hsize⟩, ⟨hcount_le, hsize_le⟩, hsized⟩
    refine ⟨?_, ?_, hcount_le, hsize_le, hsized.flows, hsized.pending⟩
    · rw [hcount, sum_pending, total]
    · rw [hsize, sum_pending, total]

/-- A weight that depends on the samples only. -/
structure SampleWeight (weight : Observation → Int) : Prop where
  first : ∀ time facts, weight ⟨1, time, time, facts, []⟩ = 0
  again : ∀ o time, weight (Observation.again o time) = weight o

theorem sampleCount_weight : SampleWeight sampleCount := ⟨fun _ _ => rfl, fun _ _ => rfl⟩

theorem sampleBytes_weight : SampleWeight sampleBytes := ⟨fun _ _ => rfl, fun _ _ => rfl⟩

section Weight

variable {weight : Observation → Int} (hweight : SampleWeight weight)

include hweight

/-- An event adds no sample by itself. -/
theorem observed_weight (t : Tracker) (pattern : Pattern) (peer : Endpoint) (time : Int) (record : Record) :
    weight (t.observed pattern peer time record) = t.before weight pattern peer := by
  rw [Tracker.observed, Tracker.before]
  cases t.flow.observations.find? (pattern, peer) with
  | none => exact hweight.first time _
  | some previous => exact hweight.again previous time

end Weight

section

variable {s' : Scan} {key : FlowKey} {flow : Flow}
    {text : ReportText py} {record : Record} {okey : Pattern × Endpoint}
    {o : Observation} {rest : List Observation}

/-- What a turn does to the sums: nothing, or one observation gets an event, perhaps with a sample. -/
theorem Turn.sums (hturn : Turn text s record s') :
    (s'.budget.icmp = s.budget.icmp ∧ ∀ weight, s'.total weight = s.total weight) ∨ s'.evaluated = s.evaluated + 1 ∧
        ∃ (t : Tracker) (pattern : Pattern) (peer : Endpoint) (time : Int) (o : Observation),
          t.budget.icmp = s.budget.icmp ∧
          (∀ weight, s'.total weight = s.total weight + weight o - t.before weight pattern peer) ∧
          (s'.budget.icmp = s.budget.icmp ∧ o = t.observed pattern peer time record ∨
            pattern = .icmpErrors ∧ s'.budget.icmp = (t.icmpAdded text peer time record).2 ∧
              o = t.icmpObserved text peer time record) := by
  have hcalm {key : FlowKey} {flow : Flow} {t : Tracker} (s₁ : Scan) (hflows : s₁.flows = s.flows)
      (hquoted : s₁.quoted = s.quoted) (hflow : s.flowAt key = some flow)
      (hc : Calm ⟨s.budget, flow⟩ t) :
      (s₁.store key t).budget.icmp = s.budget.icmp ∧ ∀ weight, (s₁.store key t).total weight = s.total weight := by
    refine ⟨hc.icmp, fun weight => ?_⟩
    have hsame : (s₁.store key t).total weight = (s.store key t).total weight := by
      simp only [total, store, hflows, hquoted]
    rw [hsame, total_store hflow t weight, hc.total weight]
    ring
  have hicmp (t : Tracker) (peer : Endpoint) (time : Int) :
      (t.observe text .icmpErrors peer time record).budget.icmp =
        (t.icmpAdded text peer time record).2 := by rw [observe_icmp]
  cases hturn with
  | skip | refuse => exact .inl ⟨rfl, fun _ => rfl⟩
  | gap hflow hc hlimited reason =>
    exact .inl (hcalm _ rfl rfl hflow (hc.trans ((measure_quiet _ (·.gap reason)).trans
      (clearCorrelations_quiet _)).toCalm))
  | stay hflow hc | giveBack hflow hc | quoteLimit hflow hc | quiet hflow hc =>
    exact .inl (hcalm _ rfl rfl hflow hc)
  | @told p flow t harrives hflow htold _ =>
    obtain ⟨pattern, peer, -, hobservations⟩ := htold.told
    refine .inr ⟨rfl, ⟨s.budget, flow⟩, pattern, peer, p.time, _, rfl, fun weight => ?_, .inl ⟨htold.icmp, rfl⟩⟩
    refine (total_store hflow t weight).trans ?_
    rw [Flow.total, hobservations, harrives.same, sum_put, before, Flow.total]
    ring
  | @own p flow t _ hflow hc hlimited refused =>
    have htotal (weight : Observation → Int) :
        (s.store p.key (t.observe text .icmpErrors p.source p.time record)).total weight =
          s.total weight + weight (t.icmpObserved text p.source p.time record) -
            t.before weight .icmpErrors p.source := by
      rw [total_store hflow, total_observe_icmp, hc.total weight]
      ring
    cases refused with
    | false | true => exact .inr ⟨rfl, t, _, _, _, _, hc.icmp, htotal, .inr ⟨rfl, hicmp .., rfl⟩⟩
  | @quoted p flow pending t target peer _ hflow hpending hc hlimited =>
    refine .inr ⟨rfl, ⟨t.budget, pending⟩, _, peer, p.time, _, hc.icmp, fun weight => ?_, .inr ⟨rfl, hicmp .., rfl⟩⟩
    -- the flow of the record is calm, the pending one observes
    have hput := total_put_pending hpending
      (Tracker.observe text ⟨t.budget, pending⟩ .icmpErrors peer p.time record).flow weight
    have hstore := total_store (s := { s with quoted := s.quoted.put ((target, p.key),
      (Tracker.observe text ⟨t.budget, pending⟩ .icmpErrors peer p.time record).flow) }) hflow
      ⟨(Tracker.observe text ⟨t.budget, pending⟩ .icmpErrors peer p.time record).budget, t.flow⟩
      weight
    rw [hput, total_observe_icmp, hc.total weight] at hstore
    refine hstore.trans ?_
    ring

/-- What a turn does to the samples: none, or one is taken for an observation. -/
theorem Turn.samples (hturn : Turn text s record s') : (s'.budget.icmp = s.budget.icmp ∧
        ∀ weight, SampleWeight weight → s'.total weight = s.total weight) ∨
      ∃ (o : Observation) (time : Int), s'.budget.icmp = (s.budget.icmp.add text o.icmpSamples record time).2 ∧
        ∀ weight, SampleWeight weight → s'.total weight - weight { o with
              icmpSamples := (s.budget.icmp.add text o.icmpSamples record time).1 } =
            s.total weight - weight o := by
  obtain ⟨hsame, htotal⟩ | ⟨-, t, pattern, peer, time, o, hbudget, htotal,
    ⟨hsame, rfl⟩ | ⟨rfl, hadded, rfl⟩⟩ := hturn.sums
  · exact .inl ⟨hsame, fun weight _ => htotal weight⟩
  · refine .inl ⟨hsame, fun weight hweight => ?_⟩
    rw [htotal, observed_weight hweight]
    ring
  · refine .inr ⟨t.observed .icmpErrors peer time record, time, ?_⟩
    rw [← hbudget]
    refine ⟨hadded, fun weight hweight => ?_⟩
    rw [htotal, observed_weight hweight, icmpObserved, icmpAdded]
    ring

theorem Turn.sampling (hturn : Turn text s record s') (h : s.Sampling s.pending) : s'.Sampling s'.pending := by
  obtain ⟨⟨hcount, hsize⟩, ⟨hcount_le, hsize_le⟩, hsized⟩ := sampling_iff.mp h
  have hsized' : s'.Observed Observation.Sized :=
    hturn.observed (fun _ _ _ h => by cases h) (fun _ _ _ ho => ho)
      (fun p b _ => b.add_sized text (o := ⟨1, p.time, p.time, readFacts record, []⟩)
        (fun _ h => by cases h) record p.time)
      (fun p o b _ ho => b.add_sized text (o := o.again p.time) ho record p.time) hsized
  refine sampling_iff.mpr ⟨?_, ?_, hsized'⟩
  · obtain ⟨hicmp, htotal⟩ | ⟨o, time, hicmp, htotal⟩ := hturn.samples
    · rw [hicmp, htotal _ sampleCount_weight, htotal _ sampleBytes_weight]
      exact ⟨hcount, hsize⟩
    · obtain ⟨⟨hadded, haddedSize⟩, -⟩ := s.budget.icmp.add_balance text o.icmpSamples record time
      have htotalCount := htotal _ sampleCount_weight
      have htotalBytes := htotal _ sampleBytes_weight
      simp only [sampleCount] at htotalCount hcount ⊢
      simp only [sampleBytes] at htotalBytes hsize ⊢
      rw [hicmp]
      constructor
      · omega
      · omega
  · obtain ⟨hicmp, -⟩ | ⟨o, time, hicmp, -⟩ := hturn.samples
    · rw [hicmp]
      exact ⟨hcount_le, hsize_le⟩
    · obtain ⟨-, hadded_le, haddedSize_le⟩ :=
        s.budget.icmp.add_balance text o.icmpSamples record time
      rw [hicmp]
      exact ⟨hadded_le hcount_le, haddedSize_le hsize_le⟩

/-! ## Resolution -/

/-- A flow of the scan is replaced by one with other observations. -/
theorem Tracking.replace (h : s.Tracking) (hflow : s.flows.find? key = some flow)
    (observations : Dict (Pattern × Endpoint) Observation)
    (hflows : s'.flows = s.flows.put (key, { flow with observations := observations }))
    (hquoted : s'.quoted = s.quoted) (hbudget : s'.budget.correlations = s.budget.correlations) :
    s'.Tracking := by
  have hmem := find?_eq_some.mp hflow
  constructor
  · rw [hflows, hbudget, h.correlations, sum_put, hflow, Option.elim_some]
    exact (add_sub_cancel_right _ _).symm
  · rw [hbudget]
    exact h.total_le
  · rw [hflows]
    exact forall_put (p := fun _ flow => Flow.size flow ≤ maxFlowCorrelations) h.size_le (h.size_le _ hmem)
  · rw [hflows]
    exact forall_put (p := fun _ flow => Flow.limited flow = true → Flow.size flow = 0) h.limited (h.limited _ hmem)
  · rw [hquoted]
    exact h.pending
  · have hlength := length_put s.flows key { flow with observations := observations }
    have hflows_le := h.flows_le
    rw [hflow, Option.elim_some] at hlength
    rw [hflows]
    omega
  · rw [hquoted]
    exact h.quotes_le

/-- The observation of a flow is exchanged. -/
theorem sum_total_put (hflow : s.flows.find? key = some flow) (okey : Pattern × Endpoint)
    (o : Observation) (weight : Observation → Int) :
    sum (Flow.total weight) (s.flows.put (key, { flow with observations := flow.observations.put (okey, o) })) =
      s.flows.sum (Flow.total weight) + weight o - (flow.observations.find? okey).elim 0 weight := by
  have hobservations : Flow.total weight
      { flow with observations := flow.observations.put (okey, o) } =
        flow.total weight + weight o - (flow.observations.find? okey).elim 0 weight :=
    sum_put weight flow.observations okey o
  rw [sum_put, hflow, Option.elim_some, hobservations]
  ring

section

variable (h : s.Sampling (o :: rest)) (hflow : s.flows.find? key = some flow)

include h hflow

/-- A pending observation is adopted, or dropped with its samples given back. -/
theorem Sampling.adopt (hnone : flow.observations.find? okey = none) : (s.adopt key flow okey o).Sampling rest := by
  have ho : o.Sized := h.pendingSized o mem_cons_self
  have hrest : ∀ o ∈ rest, o.Sized := fun o' ho' => h.pendingSized o' (mem_cons_of_mem _ ho')
  have hcount := h.count
  have hsize := h.size
  rw [map_cons, sum_cons] at hcount hsize
  rw [Scan.adopt]
  split
  · have hrelease : retainedSize o.icmpSamples = encodedSize o.icmpSamples := retainedSize_eq ho
    have hcount_le := h.count_le
    have hsize_le := h.size_le
    simp only [sampleCount] at hcount
    simp only [sampleBytes] at hsize
    refine ⟨?_, ?_, ?_, ?_, h.sized, hrest⟩
    · simp only [warn, DetailBudget.release]
      omega
    · simp only [warn, DetailBudget.release, hrelease]
      omega
    · simp only [warn, DetailBudget.release]
      omega
    · simp only [warn, DetailBudget.release]
      omega
  · refine ⟨?_, ?_, h.count_le, h.size_le, observed_put hflow h.sized okey ho, hrest⟩
    · have hput := sum_total_put hflow okey o sampleCount
      rw [hnone, Option.elim_none] at hput
      simp only [Scan.store]
      omega
    · have hput := sum_total_put hflow okey o sampleBytes
      rw [hnone, Option.elim_none] at hput
      simp only [Scan.store]
      omega

/-- A pending observation is joined with another, and what is not kept of the samples is given
back. -/
theorem Sampling.join {previous : Observation} (hsome : flow.observations.find? okey = some previous) :
    (s.join key flow okey previous o).Sampling rest := by
  have ho : o.Sized := h.pendingSized o mem_cons_self
  have hprevious : previous.Sized :=
    h.sized _ (find?_eq_some.mp hflow) _ (find?_eq_some.mp hsome)
  have hboth : ∀ retained ∈ previous.icmpSamples ++ o.icmpSamples,
      retained.size = canonicalSize retained.value.json + 1 := fun retained hretained =>
    (mem_append.mp hretained).elim (hprevious retained) (ho retained)
  have hcount := h.count
  have hsize := h.size
  have hcount_le := h.count_le
  have hsize_le := h.size_le
  rw [map_cons, sum_cons] at hcount hsize
  obtain ⟨hmerged, hmergedSize⟩ := s.budget.icmp.merge_balance hboth
  have hputCount := sum_total_put hflow okey (previous.join o
    (s.budget.icmp.merge previous.icmpSamples o.icmpSamples).1)
    sampleCount
  have hputBytes := sum_total_put hflow okey (previous.join o
    (s.budget.icmp.merge previous.icmpSamples o.icmpSamples).1)
    sampleBytes
  rw [hsome, Option.elim_some] at hputCount hputBytes
  simp only [sampleCount, Observation.join] at hcount hputCount
  simp only [sampleBytes, Observation.join] at hsize hputBytes
  refine ⟨?_, ?_, ?_, ?_, observed_put hflow h.sized okey ?_, ?_⟩
  · simp only [Scan.join, Scan.store, Observation.join]
    omega
  · simp only [Scan.join, Scan.store, Observation.join]
    omega
  · simp only [Scan.join, Scan.store, DetailBudget.merge, DetailBudget.release]
    omega
  · simp only [Scan.join, Scan.store, DetailBudget.merge, DetailBudget.release]
    omega
  · intro retained hretained
    exact hboth retained (s.budget.icmp.mem_of_mem_merge hretained)
  · exact fun o' ho' => h.pendingSized o' (mem_cons_of_mem _ ho')

end

end

/-! ## The whole scan -/

/-- The budget is in step with the flows: its correlations are those that the flows hold, and its
samples are those that the observations retain. -/
structure Balanced (s : Scan) : Prop where
  correlations : s.budget.correlations = s.flows.sum fun flow =>
    flow.udp.length + flow.tcp.zero.seen.length + flow.tcp.one.seen.length
  correlations_le : s.budget.correlations ≤ maxTotalCorrelations
  flow_le : ∀ row ∈ s.flows.rows,
    row.2.udp.length + row.2.tcp.zero.seen.length + row.2.tcp.one.seen.length ≤ maxFlowCorrelations
  limited : ∀ row ∈ s.flows.rows, row.2.limited = true →
    row.2.udp = [] ∧ row.2.tcp.zero.seen = [] ∧ row.2.tcp.one.seen = []
  flows_le : s.flows.rows.length ≤ maxTrackedFlows
  quotes_le : s.quoted.rows.length ≤ maxPendingQuotes
  samples : s.budget.icmp.count = s.total Observation.sampleCount
  samples_le : s.budget.icmp.count ≤ maxSamples
  bytes : s.budget.icmp.size = s.total Observation.sampleBytes
  bytes_le : s.budget.icmp.size ≤ maxDetailBytes

theorem balanced_of (h : s.Tracking) (h' : s.Sampling s.pending) : s.Balanced := by
  obtain ⟨⟨hcount, hsize⟩, ⟨hcount_le, hsize_le⟩, -⟩ := sampling_iff.mp h'
  refine ⟨?_, h.total_le, h.size_le, ?_, h.flows_le, h.quotes_le, hcount, hcount_le, hsize, hsize_le⟩
  · rw [h.correlations]
    rfl
  · intro row hrow hlimited
    have hsize := h.limited row hrow hlimited
    rw [Flow.size, Nat.add_eq_zero_iff, Nat.add_eq_zero_iff, length_eq_zero_iff,
      length_eq_zero_iff, length_eq_zero_iff] at hsize
    exact ⟨hsize.1.1, hsize.1.2, hsize.2⟩

variable (text : ReportText py)

theorem run_tracking (records : List Record) :
    ∃ s, run text records {} = .ok s ∧ s.Origins ∧ s.Tracking ∧ s.Sampling s.pending := by
  have hempty : ({} : Scan).Sampling ({} : Scan).pending :=
    sampling_iff.mpr ⟨⟨rfl, rfl⟩, ⟨by decide, by decide⟩, .empty _⟩
  have horigins : ({} : Scan).Origins := fun _ h => by cases h
  obtain ⟨s, hrun, -, hs⟩ := run_induction text (P := fun _ s => s.Origins ∧ s.Tracking ∧ s.Sampling s.pending)
    ⟨horigins, .empty, hempty⟩
    (fun _ _ _ _ h hturn => ⟨hturn.origins h.1, hturn.tracking h.2.1, hturn.sampling h.2.2⟩) records
  exact ⟨s, hrun, hs⟩

theorem resolve_tracking (horigins : s.Origins) (h : s.Tracking) (h' : s.Sampling s.pending) :
    ∃ s', s.resolveQuotes = .ok s' ∧ s'.Tracking ∧ s'.Sampling s'.pending := by
  obtain ⟨s', hs', htracking, hsampling⟩ := resolve_induction (Q := fun rest s => s.Tracking ∧ s.Sampling rest)
    (fun s key flow okey o rest hflow hnone hs => by
      refine ⟨?_, hs.2.adopt hflow hnone⟩
      rw [adopt]
      split
      · exact { hs.1 with }
      · exact hs.1.replace hflow _ rfl rfl rfl)
    (fun s key flow okey previous o rest hflow hsome hs =>
      ⟨hs.1.replace hflow _ rfl rfl rfl, hs.2.join hflow hsome⟩) horigins ⟨h, h'⟩
  refine ⟨_, hs', ?_, ?_⟩
  · exact { htracking with quotes_le := Nat.zero_le _, pending := fun _ h => by cases h }
  · exact { hsampling with pendingSized := fun _ h => by cases h }

end Scan

/-- After every record, and after the quotes are resolved, the budget is in step with what the
flows hold and within its bounds. A refused reservation leaves its flow and the budget alone. -/
theorem tracking_budget_conserved (text : ReportText py) (records : List Record) :
    (∃ s, Scan.run text records {} = .ok s ∧ s.Balanced) ∧ (∃ s, Scan.collect text records = .ok s ∧ s.Balanced) ∧
      (∀ (t : Tracker) (p : Arrival) (seg : TcpSegment) (length : Int),
        (t.scanData text p seg length).2 = .limit → (t.scanData text p seg length).1 = t) ∧
      ∀ (t : Tracker) (p : Arrival), (t.scanUdp text p).2 = true → (t.scanUdp text p).1 = t := by
  obtain ⟨s, hrun, horigins, htracking, hsampling⟩ := Scan.run_tracking text records
  obtain ⟨s', hresolve, htracking', hsampling'⟩ :=
    Scan.resolve_tracking horigins htracking hsampling
  have hbalanced := Scan.balanced_of htracking' hsampling'
  have hcollect : Scan.collect text records = .ok (if s'.flows.rows.any fun row => row.2.directions.length < 2 then
        s'.warn .oneDirectionObserved else s') := by
    rw [Scan.collect, hrun, Except.ok_bind, hresolve]
    rfl
  refine ⟨⟨s, hrun, Scan.balanced_of htracking hsampling⟩, ⟨_, hcollect, ?_⟩, ?_, ?_⟩
  · split
    · exact { hbalanced with }
    · exact hbalanced
  · intro t p seg length hlimit
    exact Tracker.scanData_limit text seg t p length hlimit
  · intro t p hrefused
    exact Tracker.scanUdp_refused text t p hrefused

end C2Hunter.Network
