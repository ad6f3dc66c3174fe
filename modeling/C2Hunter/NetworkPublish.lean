import C2Hunter.NetworkAccounting
import C2Hunter.NetworkGroups

/-!
# Reports are published

The producer checks its own details of ICMP errors and would raise if one failed. None fails:
every sample that is kept was checked when it was taken, no observation keeps more samples than
it has events, and the envelopes of all examples fit the byte budget before any sample is put in.

* `Observation.Sound` — what holds of every observation; `Scan.run_sound`, `Scan.resolve_sound`.
* `publishDetails_ok` — the details of sound observations are published.
* `details_ok`, `analyze_ok` — a report is returned for every capture whose events a JSON reader
  can count.
-/

namespace C2Hunter.Network

open List Details

/-! ## Instants -/

/-- The instants that the report prints. -/
def InRange (time : Int) : Prop := minMicros ≤ time ∧ time ≤ maxMicros

variable {py : Python} {record : Record} {time : Int}

section

/-- The instant of a record is checked. -/
theorem identity_inRange {id : Identity} (h : identity py record = some id) : InRange id.time := by
  simp only [identity, Option.bind_eq_bind, Option.bind_eq_some_iff, Option.guard_eq_some',
    Option.pure_def, Option.some.injEq] at h
  obtain ⟨sensor, -, protocol, -, interface, -, source, -, dest, -, time, -, -, htime, -, -, -, -, rfl⟩ := h
  simp only [InRange, minMicros, maxMicros]
  omega

theorem matchesTemplate_length {template s : List Char} (h : matchesTemplate template s = true) :
    s.length = template.length := by
  induction template generalizing s with
  | nil =>
    cases s with
    | nil => rfl
    | cons c s => cases h
  | cons t template ih =>
    cases s with
    | nil => cases h
    | cons c s =>
      rw [matchesTemplate, Bool.and_eq_true] at h
      rw [length_cons, length_cons, ih h.2]

theorem isoShape_length {s : String} (h : isoShape s = true) : s.length ≤ 32 := by
  rw [isoShape, Bool.or_eq_true] at h
  rw [← String.length_toList]
  obtain h | h := h
  · rw [matchesTemplate_length h]
    decide
  · rw [matchesTemplate_length h]
    decide

theorem validTime_isoformat (text : ReportText py) (h : InRange time) :
    validTime py (text.isoformat time) = true := by
  have hshape := text.isoShape_isoformat time h.1 h.2
  rw [validTime, decide_eq_true_eq]
  exact ⟨isoShape_length hshape, hshape, text.fromisoformat_isoformat time h.1 h.2⟩

/-! ## Samples -/

theorem intIn_eq_some {low high n : Int} {value : Obj} (h : value.intIn low high = some n) :
    low ≤ n ∧ n ≤ high := by
  rw [Obj.intIn, Option.filter_eq_some_iff] at h
  exact of_decide_eq_true h.2

theorem icmpIp_valid {value : Obj} {ip : String} (h : icmpIp py value = some ip) : validIp py ip = true := by
  rw [icmpIp, Option.filter_eq_some_iff] at h
  exact h.2

theorem readSampleQuote_valid (py : Python) (quote : Record) : (readSampleQuote py quote).valid py = true := by
  rw [Quote.valid, decide_eq_true_eq]
  simp only [readSampleQuote]
  refine ⟨?_, ?_, ?_, ?_, ?_⟩
  · rw [Option.all_eq_true]
    exact fun ip hip => icmpIp_valid hip
  · rw [Option.all_eq_true]
    exact fun ip hip => icmpIp_valid hip
  · rw [Option.all_eq_true]
    exact fun port hport => decide_eq_true (intIn_eq_some hport)
  · rw [Option.all_eq_true]
    exact fun port hport => decide_eq_true (intIn_eq_some hport)
  · rw [Option.all_eq_true]
    intro protocol hprotocol
    rw [quotedProtocol, Option.filter_eq_some_iff] at hprotocol
    exact hprotocol.2

/-- A sample passes the check of the publisher. -/
theorem icmpSample_valid (text : ReportText py) (htime : InRange time)
    {value : Sample} (h : icmpSample text record time = some value) : value.valid py = true := by
  simp only [icmpSample, Option.bind_eq_bind, Option.bind_eq_some_iff, Option.guard_eq_some',
    Option.pure_def, Option.some.injEq] at h
  obtain ⟨reporter, hreporter, protocol, -, -, hprotocol, kind, hkind, code, hcode, rfl⟩ := h
  rw [Sample.valid, decide_eq_true_eq]
  refine ⟨icmpIp_valid hreporter, hprotocol, intIn_eq_some hkind, intIn_eq_some hcode,
    validTime_isoformat text htime, ?_⟩
  rw [Option.all_eq_true]
  intro quote hquote
  obtain ⟨fields, -, rfl⟩ := Option.map_eq_some_iff.mp hquote
  exact readSampleQuote_valid py fields

end

/-! ## Sound observations -/

/-- What holds of every observation: it has an event, few samples and no more than events, all of
them valid, and it lies in the range of instants. -/
structure Observation.Sound (py : Python) (o : Observation) : Prop where
  positive : 1 ≤ o.count
  few : o.icmpSamples.length ≤ perObservation
  counted : o.icmpSamples.length ≤ o.count
  valid : ∀ retained ∈ o.icmpSamples, retained.value.valid py = true
  first : InRange o.first
  last : InRange o.last

open Observation

theorem InRange.min {a b : Int} (ha : InRange a) (hb : InRange b) : InRange (min a b) :=
  ⟨le_min ha.1 hb.1, (min_le_left a b).trans ha.2⟩

theorem InRange.max {a b : Int} (ha : InRange a) (hb : InRange b) : InRange (max a b) :=
  ⟨ha.1.trans (le_max_left a b), max_le ha.2 hb.2⟩

/-- A sample is taken only if there is room, and it is one of the record. -/
theorem DetailBudget.add_samples (text : ReportText py) (b : DetailBudget)
    (owner : List Retained) (record : Record) (time : Int) :
    (b.add text owner record time).1 = owner ∨ owner.length < perObservation ∧ ∃ retained,
      (b.add text owner record time).1 = owner ++ [retained] ∧
        icmpSample text record time = some retained.value := by
  rw [add]
  split
  · exact .inl rfl
  next hroom =>
  rw [not_or, not_le] at hroom
  split
  · exact .inl rfl
  next value hvalue =>
  simp only
  split
  · exact .inl rfl
  · exact .inr ⟨hroom.1, _, rfl, hvalue⟩

variable {s : Scan}

section Sound

variable (text : ReportText py)

section

variable {o : Observation}

theorem Observation.Sound.start (h : InRange time) (facts : List (Option Int)) :
    Observation.Sound py ⟨1, time, time, facts, []⟩ :=
  ⟨le_rfl, Nat.zero_le _, Nat.zero_le _, (fun _ h => by cases h), h, h⟩

theorem Observation.Sound.again (h : o.Sound py) (htime : InRange time) : (o.again time).Sound py :=
  ⟨Nat.le_add_left _ _, h.few, h.counted.trans (Nat.le_succ _), h.valid, h.first.min htime, h.last.max htime⟩

/-- A sample is added to an observation that has an event more than samples. -/
theorem Observation.Sound.addSample (h : o.Sound py) (hroom : o.icmpSamples.length + 1 ≤ o.count)
    (b : DetailBudget) (record : Record) (htime : InRange time) :
    Observation.Sound py { o with icmpSamples := (b.add text o.icmpSamples record time).1 } := by
  obtain hsame | ⟨hfew, retained, hadded, hsample⟩ := b.add_samples text o.icmpSamples record time
  · rw [hsame]
    exact h
  rw [hadded]
  refine ⟨h.positive, ?_, ?_, ?_, h.first, h.last⟩
  · rw [length_append, length_singleton]
    exact hfew
  · rw [length_append, length_singleton]
    exact hroom
  · intro retained' hmem
    rw [mem_append, mem_singleton] at hmem
    obtain hmem | rfl := hmem
    · exact h.valid retained' hmem
    · exact icmpSample_valid text htime hsample

theorem Observation.Sound.join {previous : Observation} (h : previous.Sound py) (h' : o.Sound py)
    (b : DetailBudget) : (previous.join o (b.merge previous.icmpSamples o.icmpSamples).1).Sound py := by
  have hlength : (b.merge previous.icmpSamples o.icmpSamples).1.length ≤
      previous.icmpSamples.length + o.icmpSamples.length := by
    rw [← length_append, ← (DetailBudget.mergeSamples_perm _ _).length_eq]
    exact length_take_le' _ _
  refine ⟨h.positive.trans (Nat.le_add_right _ _), ?_, ?_, ?_, h.first.min h'.first, h.last.max h'.last⟩
  · exact length_take_le _ _
  · exact hlength.trans (Nat.add_le_add h.counted h'.counted)
  · intro retained hretained
    obtain hmem | hmem := mem_append.mp (b.mem_of_mem_merge hretained)
    · exact h.valid retained hmem
    · exact h'.valid retained hmem

end

namespace Scan

theorem Turn.sound {s' : Scan} (hturn : Turn text s record s')
    (h : s.Observed (Observation.Sound py)) : s'.Observed (Observation.Sound py) := by
  have hrange {p : Arrival} (hp : Arrives py record p) : InRange p.time :=
    identity_inRange hp.identified
  refine hturn.observed (fun p hp => .start (hrange hp) _) (fun p o hp ho => ho.again (hrange hp))
    (fun p b hp => ?_) (fun p o b hp ho => ?_) h
  · exact Observation.Sound.addSample text (.start (hrange hp) (readFacts record)) le_rfl b record (hrange hp)
  · exact Observation.Sound.addSample text (ho.again (hrange hp)) (Nat.succ_le_succ ho.counted) b record (hrange hp)

theorem resolve_sound (horigins : s.Origins) (h : s.Observed (Observation.Sound py)) :
    ∃ s', s.resolveQuotes = .ok s' ∧ s'.Observed (Observation.Sound py) := by
  obtain ⟨s', hs', hflows, -⟩ := resolve_induction
    (Q := fun rest s => (∀ row ∈ s.flows.rows, row.2.Observed (Observation.Sound py)) ∧
      ∀ o ∈ rest, Observation.Sound py o)
    (fun s key flow okey o rest hflow hnone hs => by
      refine ⟨?_, fun o' ho' => hs.2 o' (mem_cons_of_mem _ ho')⟩
      rw [adopt]
      split
      · exact hs.1
      · exact observed_put hflow hs.1 okey (hs.2 o mem_cons_self))
    (fun s key flow okey previous o rest hflow hsome hs => by
      refine ⟨observed_put hflow hs.1 okey ?_, fun o' ho' => hs.2 o' (mem_cons_of_mem _ ho')⟩
      have hprevious := hs.1 _ (Dict.find?_eq_some.mp hflow) _ (Dict.find?_eq_some.mp hsome)
      exact hprevious.join (hs.2 o mem_cons_self) s.budget.icmp) horigins ⟨h.flows, h.pending⟩
  exact ⟨_, hs', hflows, (fun _ h => by cases h)⟩

/-- Everything before the details: it does not raise, its counters are in order and its
observations are sound. -/
theorem collect_ok (records : List Record) : ∃ s, collect text records = .ok s ∧ s.Accounts 0 ∧
    s.scanned = records.length ∧ ∀ row ∈ s.flows.rows, row.2.Observed (Observation.Sound py) := by
  obtain ⟨s, hrun, horigins, hscanned, haccounts⟩ := run_accounts text records
  obtain ⟨s₁, hrun₁, -, hsound⟩ := run_induction text (P := fun _ s => s.Observed (Observation.Sound py)) (.empty _)
    (fun _ _ _ _ h hturn => hturn.sound text h) records
  obtain rfl : s = s₁ := Except.ok.inj (hrun.symm.trans hrun₁)
  obtain ⟨s', hresolve, hscanned', haccounts'⟩ := resolve_accounts horigins haccounts
  obtain ⟨s₂, hresolve₂, hsound'⟩ := resolve_sound horigins hsound
  obtain rfl : s' = s₂ := Except.ok.inj (hresolve.symm.trans hresolve₂)
  have hcollect : collect text records = .ok (if s'.flows.rows.any fun row => row.2.directions.length < 2 then
        s'.warn .oneDirectionObserved else s') := by
    rw [collect, hrun, Except.ok_bind, hresolve]
    rfl
  refine ⟨_, hcollect, ?_⟩
  split
  · exact ⟨haccounts'.warn _, hscanned'.trans hscanned, hsound'.flows⟩
  · exact ⟨haccounts', hscanned'.trans hscanned, hsound'.flows⟩

end Scan

end Sound

/-! ## Details -/

/-- An envelope without samples. -/
theorem envelopeSize_initial {count : Nat} (h : count ≤ 9007199254740991) : (initial count).envelopeSize ≤ 120 := by
  have hversion : (Json.quote true "version").utf8ByteSize = 9 := by decide
  have hvalue : (Json.quote true "network-icmp-details-v1").utf8ByteSize = 25 := by decide
  have hsamples : (Json.quote true "samples").utf8ByteSize = 9 := by decide
  have homitted : (Json.quote true "omitted_event_details").utf8ByteSize = 23 := by decide
  have hdetails : (Json.quote true "icmp_details").utf8ByteSize = 14 := by decide
  have hcount : (Json.int count).size true ≤ 16 := Json.size_nat_le true (by decide) (by omega)
  have hstr : (Json.str "network-icmp-details-v1").size true = 25 := hvalue
  have hempty : (Json.arr []).size true = 2 := by decide
  rw [envelopeSize, canonicalSize, Json.size_obj, json]
  simp only [initial, map_cons, map_nil, Json.fieldSize, Json.size_obj,
    Json.separated, hversion, hsamples, homitted, hdetails, hstr, hempty, sum_cons,
    sum_nil, length_cons, length_nil]
  omega

/-- The samples that fit are the first ones of the owner, and the rest is counted. -/
theorem packSamples_spec (count : Int) (samples : List Retained) (size own : Int) (d : Details)
    (h : d.omittedEventDetails = count - d.samples.length) :
    (packSamples count samples size own d).2.omittedEventDetails =
        count - (packSamples count samples size own d).2.samples.length ∧
      (packSamples count samples size own d).2.samples <+: d.samples ++ samples.map Retained.value := by
  induction samples generalizing size own d with
  | nil =>
    rw [packSamples, map_nil, append_nil]
    exact ⟨h, prefix_refl _⟩
  | cons retained samples ih =>
    rw [packSamples]
    split
    · exact ⟨h, prefix_append _ _⟩
    rw [map_cons, append_cons d.samples retained.value (samples.map Retained.value)]
    apply ih
    rw [length_append, length_singleton]
    push_cast
    ring

/-- An owner of details that can be published. -/
structure PublishableOwner (py : Python) (owner : Int × List Retained) : Prop where
  nonneg : 0 ≤ owner.1
  countable : owner.1 ≤ maxSafeCount
  few : owner.2.length ≤ perObservation
  counted : (owner.2.length : Int) ≤ owner.1
  valid : ∀ retained ∈ owner.2, retained.value.valid py = true

section

variable {owners : List (Int × List Retained)}

section

variable (h : ∀ owner ∈ owners, PublishableOwner py owner)

include h

theorem publishOwners_ok (size : Int) : ∃ published, publishOwners py owners size = .ok published := by
  induction owners generalizing size with
  | nil => exact ⟨[], rfl⟩
  | cons owner owners ih =>
    obtain ⟨count, samples⟩ := owner
    have howner := h _ mem_cons_self
    obtain ⟨homitted, hpre⟩ := packSamples_spec count samples size
      (initial count).envelopeSize (initial count) (sub_zero count).symm
    rw [initial, nil_append] at hpre
    have hlength := hpre.length_le
    rw [length_map] at hlength
    have hvalid : (packSamples count samples size (initial count).envelopeSize
        (initial count)).2.valid py count = true := by
      have hfew := howner.few
      have hcounted := howner.counted
      have hnonneg := howner.nonneg
      have hcountable := howner.countable
      rw [initial] at homitted ⊢
      rw [valid, decide_eq_true_eq, homitted]
      refine ⟨hlength.trans hfew, ⟨?_, ?_⟩, ⟨hnonneg, hcountable⟩, rfl, ?_⟩
      · simp only at hcounted
        omega
      · simp only at hcountable
        omega
      · rw [all_eq_true]
        intro value hvalue
        obtain ⟨retained, hretained, rfl⟩ := mem_map.mp (hpre.subset hvalue)
        exact howner.valid retained hretained
    obtain ⟨published, hpublished⟩ := ih (fun owner howner => h owner (mem_cons_of_mem _ howner))
      (packSamples count samples size (initial count).envelopeSize (initial count)).1
    rw [publishOwners]
    simp only [hvalid, if_true, hpublished]
    exact ⟨_, rfl⟩

/-- The envelopes of a thousand owners fit before any sample is put in. -/
theorem initialSize_le (hlength : owners.length ≤ 1000) : initialSize owners ≤ maxDetailBytes := by
  have hsum : (owners.map fun owner => (initial owner.1).envelopeSize).sum ≤ owners.length * 120 := by
    clear hlength
    induction owners with
    | nil => exact le_rfl
    | cons owner owners ih =>
      have howner := h owner mem_cons_self
      have ih := ih fun owner howner => h owner (mem_cons_of_mem _ howner)
      have hcountable : owner.1.toNat ≤ 9007199254740991 := Int.toNat_le.mpr howner.countable
      have hsize := envelopeSize_initial hcountable
      rw [Int.toNat_of_nonneg howner.nonneg] at hsize
      rw [map_cons, sum_cons, length_cons]
      push_cast
      omega
  rw [initialSize, maxDetailBytes]
  omega

/-- The details of sound observations are published. -/
theorem publishDetails_ok (hlength : owners.length ≤ 1000) :
    ∃ published, publishDetails py owners = .ok published := by
  rw [publishDetails, if_neg (initialSize_le h hlength).not_gt]
  exact publishOwners_ok h _

end

/-! ## Issues -/

end

variable {d : DetailsResult}

section Issues

variable (text : ReportText py) {flows : Dict FlowKey Flow} {maxExamples : Nat}

/-- A group of the report has examples, and they are observations of the flows. -/
theorem group_examples (hmax : 1 ≤ maxExamples) {key : GroupKey} (hkey : key ∈ (groupsOf maxExamples flows).keys) :
    ∃ group, (groupsOf maxExamples flows).find? key = some group ∧
      group.examples.length ≤ maxExamples ∧ group.examples.length ≤ group.flows ∧
      ∀ row ∈ group.examples, ∃ x ∈ sightings flows, x.group = key ∧ row = (x.flow, x.observation) := by
  obtain ⟨group, hgroup⟩ := Option.isSome_iff_exists.mp (mem_keys_iff.mp hkey)
  refine ⟨group, hgroup, ?_⟩
  rw [find?_groupsOf] at hgroup
  obtain ⟨-, hflows, hexamples⟩ := groupFrom_spec maxExamples hmax _ group hgroup
  rw [hexamples, hflows]
  refine ⟨length_take_le _ _, ?_, fun row hrow => ?_⟩
  · refine (length_take_le' _ _).trans (le_of_eq ?_)
    rw [length_map]
  · obtain ⟨x, hx, rfl⟩ := mem_map.mp (mem_of_mem_take hrow)
    rw [mem_filter, decide_eq_true_eq] at hx
    exact ⟨x, hx.1, hx.2.symm, rfl⟩

/-- A sighting is an observation of a flow. -/
theorem mem_sightings {x : Sighting} (hx : x ∈ sightings flows) :
    ∃ flow, flows.find? x.flow = some flow ∧ (x.kind, x.observation) ∈ flow.observations.rows := by
  obtain ⟨row, hrow, hx⟩ := mem_flatMap.mp hx
  obtain ⟨o, ho, rfl⟩ := mem_map.mp hx
  exact ⟨row.2, Dict.find?_eq_some.mpr hrow, ho⟩

theorem mapM_exampleOf {rows : List (FlowKey × Observation)} (h : ∀ row ∈ rows, (flows.find? row.1).isSome = true) :
    ∃ examples, rows.mapM (exampleOf flows) = .ok examples ∧ examples.length = rows.length := by
  induction rows with
  | nil => exact ⟨[], rfl, rfl⟩
  | cons row rows ih =>
    obtain ⟨flow, hflow⟩ := Option.isSome_iff_exists.mp (h row mem_cons_self)
    obtain ⟨examples, hexamples, hlength⟩ := ih fun row hrow => h row (mem_cons_of_mem _ hrow)
    rw [mapM_cons, exampleOf, hflow]
    simp only [Except.ok_bind, hexamples]
    exact ⟨_, rfl, congrArg (· + 1) hlength⟩

/-- An issue shows a group. -/
structure Issue.Shows (key : GroupKey) (group : Group) (issue : Issue) : Prop where
  pattern : issue.pattern = key.pattern
  scope : issue.scope = ⟨key.sensor, key.interface, key.protocol, key.peer⟩
  eventCount : issue.eventCount = group.count
  affectedFlowCount : issue.affectedFlowCount = group.flows
  affectedHostCount : issue.affectedHostCount = group.hosts.length
  firstSeen : issue.firstSeen = text.isoformat group.first
  lastSeen : issue.lastSeen = text.isoformat group.last

/-- Issues show groups, one by one. -/
def Displays (groups : Dict GroupKey Group) (selected : List GroupKey) (issues : List Issue) : Prop :=
  List.Forall₂ (fun key issue => ∃ group, groups.find? key = some group ∧ issue.Shows text key group)
    selected issues

theorem issuesOf_ok (hmax : 1 ≤ maxExamples) {keys : List GroupKey}
    (hkeys : keys ⊆ (groupsOf maxExamples flows).keys) (index : Nat) :
    ∃ issues, issuesOf text flows (groupsOf maxExamples flows) index keys = .ok issues ∧
      Displays text (groupsOf maxExamples flows) keys issues := by
  induction keys generalizing index with
  | nil => exact ⟨[], rfl, .nil⟩
  | cons key keys ih =>
    obtain ⟨group, hgroup, -, -, hrows⟩ := group_examples hmax (hkeys mem_cons_self)
    obtain ⟨examples, hexamples, -⟩ : ∃ examples, group.examples.mapM (exampleOf flows) =
        .ok examples ∧ examples.length = group.examples.length := by
      apply mapM_exampleOf
      intro row hrow
      obtain ⟨x, hx, -, rfl⟩ := hrows row hrow
      obtain ⟨flow, hflow, -⟩ := mem_sightings hx
      rw [hflow, Option.isSome_some]
    obtain ⟨issues, hissues, hshows⟩ := ih (fun k hk => hkeys (mem_cons_of_mem _ hk)) (index + 1)
    rw [issuesOf, hgroup]
    simp only [hexamples, Except.ok_bind, hissues]
    exact ⟨_, rfl, .cons ⟨group, hgroup, rfl, rfl, rfl, rfl, rfl, rfl, rfl⟩ hshows⟩

variable {selected : List GroupKey}

/-- Details change nothing else about an issue. -/
theorem Displays.attachDetails {groups : Dict GroupKey Group}
    {issues : List Issue} (h : Displays text groups selected issues) (published : List Details) :
    Displays text groups selected (attachDetails issues published) := by
  induction h generalizing published with
  | nil => exact .nil
  | cons hissue _ ih =>
    obtain ⟨group, hgroup, hshows⟩ := hissue
    rw [Network.attachDetails]
    split
    · exact .cons ⟨group, hgroup, { hshows with }⟩ (ih _)
    · exact .cons ⟨group, hgroup, hshows⟩ (ih _)

/-- The examples that are shown are sightings of their groups. -/
theorem shownExamples_spec (hmax : 1 ≤ maxExamples) (hselected : selected ⊆ (groupsOf maxExamples flows).keys) :
    (shownExamples (groupsOf maxExamples flows) selected).length ≤ selected.length * maxExamples ∧
      ∀ row ∈ shownExamples (groupsOf maxExamples flows) selected, ∃ x ∈ sightings flows,
        x.group = row.1 ∧ row.2 = (x.flow, x.observation) := by
  induction selected with
  | nil => exact ⟨Nat.zero_le _, fun _ h => by cases h⟩
  | cons key keys ih =>
    obtain ⟨hlength, hrows⟩ := ih fun k hk => hselected (mem_cons_of_mem _ hk)
    obtain ⟨group, hgroup, hfew, -, hexamples⟩ := group_examples hmax (hselected mem_cons_self)
    have hcons : shownExamples (groupsOf maxExamples flows) (key :: keys) =
        group.examples.map (fun row => (key, row)) ++ shownExamples (groupsOf maxExamples flows) keys := by
      rw [shownExamples, flatMap_cons, hgroup]
      rfl
    rw [hcons, length_append, length_map, length_cons, Nat.succ_mul]
    refine ⟨by omega, fun row hrow => ?_⟩
    obtain hrow | hrow := mem_append.mp hrow
    · obtain ⟨example', hexample, rfl⟩ := mem_map.mp hrow
      exact hexamples example' hexample
    · exact hrows row hrow

/-- What is shown of the groups of a report. -/
structure DetailsResult.Of (flows : Dict FlowKey Flow) (maxIssues maxExamples : Nat)
    (d : DetailsResult) : Prop where
  total : d.total = (groupsOf maxExamples flows).rows.length
  issues : Displays text (groupsOf maxExamples flows)
    (selectGroups text (groupsOf maxExamples flows) maxIssues) d.issues
  coverage : d.coverage = familyCoverage (groupsOf maxExamples flows)
    (selectGroups text (groupsOf maxExamples flows) maxIssues)

/-- The details that are returned. -/
theorem details_of (hmax : 1 ≤ maxExamples) {maxIssues : Nat}
    (h : details text flows maxIssues maxExamples = .ok d) : d.Of text flows maxIssues maxExamples := by
  obtain ⟨issues, hok, hshows⟩ := issuesOf_ok text hmax
    (selectGroups_subset text (groupsOf maxExamples flows) maxIssues) 0
  rw [details] at h
  simp only [hok, Except.ok_bind] at h
  obtain ⟨published, -, h⟩ := Except.bind_eq_ok.mp h
  cases h
  exact ⟨rfl, hshows.attachDetails text published, rfl⟩

/-- The details of sound observations whose events can be counted are returned. -/
theorem details_ok (hmax : 1 ≤ maxExamples) (hmax' : maxExamples ≤ 10) {maxIssues : Nat}
    (hissues : maxIssues ≤ 100) (hsound : ∀ row ∈ flows.rows, row.2.Observed (Observation.Sound py))
    (hcount : ∀ x ∈ sightings flows, (x.observation.count : Int) ≤ maxSafeCount) :
    ∃ d, details text flows maxIssues maxExamples = .ok d := by
  have hsubset := selectGroups_subset text (groupsOf maxExamples flows) maxIssues
  have hselected := (length_selectGroups text (groupsOf maxExamples flows) maxIssues).trans_le (min_le_left _ _)
  obtain ⟨issues, hok, -⟩ := issuesOf_ok text hmax hsubset 0
  obtain ⟨hshown, hrows⟩ := shownExamples_spec hmax hsubset
  obtain ⟨published, hpublished⟩ : ∃ published, publishDetails py (detailOwners (groupsOf maxExamples flows)
        (selectGroups text (groupsOf maxExamples flows) maxIssues)) = .ok published := by
    apply publishDetails_ok
    · intro owner howner
      obtain ⟨row, hrow, rfl⟩ := mem_map.mp howner
      obtain ⟨x, hx, -, hxrow⟩ := hrows row (mem_of_mem_filter hrow)
      obtain ⟨flow, hflow, hmem⟩ := mem_sightings hx
      have hobservation := hsound _ (Dict.find?_eq_some.mp hflow) _ hmem
      rw [hxrow]
      exact ⟨Int.natCast_nonneg _, hcount x hx, hobservation.few,
        Int.ofNat_le.mpr hobservation.counted, hobservation.valid⟩
    · rw [detailOwners, length_map]
      refine (List.length_filter_le _ _).trans (hshown.trans ?_)
      calc (selectGroups text (groupsOf maxExamples flows) maxIssues).length * maxExamples
          ≤ 100 * 10 := Nat.mul_le_mul (hselected.trans hissues) hmax'
        _ = 1000 := rfl
  rw [details]
  simp only [hok, hpublished, Except.ok_bind]
  exact ⟨_, rfl⟩

end Issues

/-! ## The report -/

section Report

variable (text : ReportText py)

/-- The limits that a report is asked for. -/
structure Limits (maxIssues maxExamples : Obj) (issues examples : Nat) : Prop where
  readIssues : maxIssues.intIn 1 100 = some (issues : Int)
  readExamples : maxExamples.intIn 1 10 = some (examples : Int)

variable {maxExamples : Obj} {issues examples : Nat}

section

variable {maxIssues : Obj}

theorem Limits.bounds (h : Limits maxIssues maxExamples issues examples) :
    issues ≤ 100 ∧ 1 ≤ examples ∧ examples ≤ 10 := by
  have hissues := intIn_eq_some h.readIssues
  have hexamples := intIn_eq_some h.readExamples
  omega

variable {records : List Record}

/-- A report is the report of a scan and its details. -/
theorem analyze_eq_ok (hlimits : Limits maxIssues maxExamples issues examples)
    {report : Report} : analyzeNetworkReport text records maxIssues maxExamples = .ok report ↔
      ∃ s d, Scan.collect text records = .ok s ∧ details text s.flows issues examples = .ok d ∧
        report = reportOf s d := by
  rw [analyzeNetworkReport, hlimits.readIssues, hlimits.readExamples]
  simp only [Except.bind_eq_ok, Int.toNat_natCast]
  constructor
  · rintro ⟨s, hs, d, hd, hreport⟩
    exact ⟨s, d, hs, hd, (Except.ok.inj hreport).symm⟩
  · rintro ⟨s, d, hs, hd, rfl⟩
    exact ⟨s, hs, d, hd, rfl⟩

/-- No observation counts more events than there are records. -/
theorem count_le (h : s.Accounts 0) {x : Sighting} (hx : x ∈ sightings s.flows) :
    (x.observation.count : Int) ≤ s.scanned := by
  obtain ⟨flow, hflow, hmem⟩ := mem_sightings hx
  have hnonneg : ∀ f : Flow, 0 ≤ f.total events := events_nonneg
  have hcount : (x.observation.count : Int) ≤ flow.total events :=
    Dict.le_sum (fun row _ => Int.natCast_nonneg row.2.count) hmem
  have htotal : flow.total events ≤ s.flows.sum (Flow.total events) :=
    Dict.le_sum (fun row _ => hnonneg row.2) (Dict.find?_eq_some.mp hflow)
  obtain ⟨hsum, hskipped, hlimited, hlimited_le, hevents_le, -, -⟩ := h
  omega

/-- A report is returned for every capture whose events a JSON reader can count. -/
theorem analyze_ok (hlimits : Limits maxIssues maxExamples issues examples)
    (hrecords : (records.length : Int) ≤ maxSafeCount) :
    ∃ report, analyzeNetworkReport text records maxIssues maxExamples = .ok report := by
  obtain ⟨hissues, hmax, hmax'⟩ := hlimits.bounds
  obtain ⟨s, hs, haccounts, hscanned, hsound⟩ := Scan.collect_ok text records
  obtain ⟨d, hd⟩ := details_ok text hmax hmax' hissues hsound fun x hx =>
    (count_le haccounts hx).trans (hscanned.trans_le hrecords)
  exact ⟨_, (analyze_eq_ok text hlimits).mpr ⟨s, d, hs, hd, rfl⟩⟩

end

/-- Exact accounting of a report on so many records, of which `groups` are all the groups. -/
structure Report.Exact (records : Nat) (groups : Dict GroupKey Group) (report : Report) : Prop where
  scanned : report.summary.scannedRecords = records
  sum : report.summary.scannedRecords = report.summary.skippedRecords +
    report.summary.evaluatedRecords + report.summary.incompleteRecords
  skipped : 0 ≤ report.summary.skippedRecords
  evaluated : 0 ≤ report.summary.evaluatedRecords
  incomplete : 0 ≤ report.summary.incompleteRecords
  limited : 0 ≤ report.summary.trackingLimitedRecords
  limited_le : report.summary.trackingLimitedRecords ≤ report.summary.incompleteRecords
  /-- the events of all groups, displayed or not -/
  events_le : groups.sum (fun g => (g.count : Int)) ≤ report.summary.evaluatedRecords
  /-- the displayed issues show different groups -/
  displayed : ∃ selected : List GroupKey, selected.Nodup ∧ Displays text groups selected report.issues
  suspects_le : report.summary.suspectFlowCount ≤ report.summary.flowCount
  flows_le : (report.summary.flowCount : Int) ≤ report.summary.scannedRecords
  issueCount : report.summary.issueCount = groups.rows.length
  displayedIssueCount : report.summary.displayedIssueCount = report.issues.length
  omittedIssueCount : 0 ≤ report.summary.omittedIssueCount
  family : ∀ f ∈ report.familyCoverage.families,
    f.observedGroups = f.retainedGroups + f.omittedGroups ∧ 0 ≤ f.retainedGroups ∧
      0 ≤ f.omittedGroups
  observed : (report.familyCoverage.families.map FamilyCount.observedGroups).sum =
    report.summary.issueCount
  retained : (report.familyCoverage.families.map FamilyCount.retainedGroups).sum =
    report.summary.displayedIssueCount
  omitted : (report.familyCoverage.families.map FamilyCount.omittedGroups).sum =
    report.summary.omittedIssueCount
  complete : report.summary.coverageComplete = true → report.summary.skippedRecords = 0 ∧
    report.summary.incompleteRecords = 0 ∧ report.summary.trackingLimitedRecords = 0 ∧
    report.summary.evaluatedRecords = report.summary.scannedRecords ∧
    0 < report.summary.scannedRecords

variable {text}

/-- The report of a scan whose counters add up. -/
theorem reportOf_exact {records : Nat} (haccounts : s.Accounts 0) (hscanned : s.scanned = records)
    (hd : d.Of text s.flows issues examples) :
    (reportOf s d).Exact text records (groupsOf examples s.flows) := by
  have hsubset := selectGroups_subset text (groupsOf examples s.flows) issues
  have hnodup := selectGroups_nodup text (groupsOf examples s.flows) issues
  have hlength := hd.issues.length_eq
  have hle : d.issues.length ≤ d.total := by
    rw [← hlength, hd.total, ← length_map (f := Prod.fst)]
    exact (hnodup.subperm hsubset).length_le
  obtain ⟨hsum, hskipped, hlimited, hlimited_le, hevents_le, hwarned, hflows_le⟩ := haccounts
  have htotal : 0 ≤ s.flows.sum (Flow.total events) :=
    Dict.sum_nonneg fun row _ => events_nonneg row.2
  have hevents : (groupsOf examples s.flows).sum (fun g => (g.count : Int)) =
      s.flows.sum (Flow.total events) := sum_groupsOf examples s.flows
  have hevaluated : 0 ≤ s.evaluated := by omega
  have hincomplete : 0 ≤ s.incomplete := by omega
  have hcovered : s.flows.sum (Flow.total events) ≤ s.evaluated := by omega
  have homitted : 0 ≤ (d.total : Int) - d.issues.length := by omega
  refine ⟨hscanned, hsum, hskipped, hevaluated, hincomplete, hlimited, hlimited_le,
    hevents.trans_le hcovered, ⟨_, hnodup, hd.issues⟩, List.length_filter_le _ _, hflows_le,
    hd.total, rfl, homitted, ?_, ?_, ?_, ?_, fun hcomplete => ?_⟩
  · simp only [reportOf, hd.coverage]
    exact fun f hf => family_row _ _ hsubset hnodup hf
  · simp only [reportOf, hd.coverage, hd.total]
    exact sum_observed _ _
  · simp only [reportOf, hd.coverage, ← hlength]
    exact sum_retained _ _ hsubset
  · simp only [reportOf, hd.coverage, hd.total, ← hlength]
    exact sum_omitted _ _ hsubset
  · -- without a warning no record was skipped or incomplete
    simp only [reportOf, Scan.complete, decide_eq_true_eq] at hcomplete ⊢
    obtain ⟨hne, hwarnings⟩ := hcomplete
    obtain ⟨hskipped', hincomplete'⟩ := hwarned hwarnings
    omega

/-- What one record adds to a scan: one event at most, and only if it is evaluated. -/
structure Scan.Contributes (s s' : Scan) : Prop where
  events : s'.total Observation.events - s.total Observation.events ≤ s'.evaluated - s.evaluated
  evaluated : s'.evaluated = s.evaluated ∨ s'.evaluated = s.evaluated + 1
  limited : s'.limited ≠ s.limited → s'.evaluated = s.evaluated

theorem Scan.Turn.contributes {s' : Scan} (h : Scan.Turn text s record s') : s.Contributes s' := by
  have hevents := h.events_le
  obtain ⟨-, -, hends⟩ := h.ends
  refine ⟨hevents, by omega, by omega⟩

/-- The accounting of `analyze_network_report` is exact: of every report that it returns, and it
returns one for every capture whose events a JSON reader can count. -/
theorem report_accounting_exact (text : ReportText py) (records : List Record)
    {maxIssues maxExamples : Obj} {issues examples : Nat}
    (hlimits : Limits maxIssues maxExamples issues examples) :
    (∀ report, analyzeNetworkReport text records maxIssues maxExamples = .ok report →
      ∃ s, Scan.collect text records = .ok s ∧ report.Exact text records.length (groupsOf examples s.flows)) ∧
    (∀ pre record post, records = pre ++ record :: post →
      ∃ s s', Scan.run text pre {} = .ok s ∧ s.step text record = .ok s' ∧ s.Contributes s') ∧
    ((records.length : Int) ≤ maxSafeCount →
      ∃ report, analyzeNetworkReport text records maxIssues maxExamples = .ok report) := by
  refine ⟨fun report hreport => ?_, fun pre record post _ => ?_, analyze_ok text hlimits⟩
  · obtain ⟨s, d, hs, hd, rfl⟩ := (analyze_eq_ok text hlimits).mp hreport
    obtain ⟨s', hs', haccounts, hscanned, -⟩ := Scan.collect_ok text records
    obtain rfl : s = s' := Except.ok.inj (hs.symm.trans hs')
    exact ⟨s, hs, reportOf_exact haccounts hscanned (details_of text hlimits.bounds.2.1 hd)⟩
  · obtain ⟨s, hs, hwf, -⟩ := Scan.run_induction text (P := fun _ _ => True) trivial
      (fun _ _ _ _ _ _ => trivial) pre
    obtain ⟨s', hs', hturn⟩ := Scan.step_turn text hwf record
    exact ⟨s, s', hs, hs', hturn.contributes⟩

theorem report_accounting_exact_repeated_syn : Limits (.int 20) (.int 3) 20 3 ∧
      ∃ report s, analyzeNetworkReport sampleText
          [sampleSyn "aaaa" "bbbb" 7, sampleSyn "aaaa" "bbbb" 7] (.int 20) (.int 3) = .ok report ∧
        Scan.collect sampleText [sampleSyn "aaaa" "bbbb" 7, sampleSyn "aaaa" "bbbb" 7] = .ok s ∧
        report.Exact sampleText 2 (groupsOf 3 s.flows) := by
  have hlimits : Limits (.int 20) (.int 3) 20 3 := ⟨rfl, rfl⟩
  obtain ⟨hexact, -, hok⟩ := report_accounting_exact sampleText
    [sampleSyn "aaaa" "bbbb" 7, sampleSyn "aaaa" "bbbb" 7] hlimits
  obtain ⟨report, hreport⟩ := hok (by decide)
  obtain ⟨s, hs, hreport'⟩ := hexact report hreport
  exact ⟨hlimits, report, s, hreport, hs, hreport'⟩

end Report

end C2Hunter.Network
