import C2Hunter.NetworkFigures
import C2Hunter.NetworkPublish
import C2Hunter.NetworkReaction

/-!
# Flows do not influence each other

The records of one flow key are its lane. A record changes only the flow of its own lane and the
quotes that this flow reports, so two captures with the same lanes, however they are interleaved,
end with the same flows as long as no limit is reached. Quotes join the flows at the end, as sums
of tallies, which do not depend on their order.

* `lane`, `Interleaved` — captures with the same lanes.
* `Scan.SameLane` — one lane of two scans; `Scan.lanes_agree`.
* `Scan.Resolves` — what the resolution of quotes adds to the tallies.
* `flows_independent` — the report.
-/

namespace C2Hunter.Network

open List Dict

open Option (bind_some elim_some isSome_map map_none map_some)

/-! ## Lanes -/

/-- The lane of a record; records without identity have one of their own. -/
def lane (py : Python) (record : Record) : Option FlowKey := (identity py record).map Identity.key

/-- Two captures with the same records in the same order in every lane. -/
def Interleaved (py : Python) (records records' : List Record) : Prop :=
  ∀ k, (records.filter fun record => lane py record = k) =
    records'.filter fun record => lane py record = k

variable {py : Python} {s : Scan} {records records' : List Record}

namespace Scan

/-- No warning says that a limit was reached. -/
def Unlimited (s : Scan) : Prop := ∀ w ∈ s.warnings, w.isLimit = false

/-- One lane of two scans. -/
structure SameLane (k : FlowKey) (s s' : Scan) : Prop where
  flow : (s.flows.find? k = none ∧ s'.flows.find? k = none) ∨
    ∃ f g, s.flows.find? k = some f ∧ s'.flows.find? k = some g ∧ f.Moved (fun _ => 0) g
  pending : ∀ target, (s'.quoted.find? (target, k)).map Flow.tallies =
    (s.quoted.find? (target, k)).map Flow.tallies

variable {t : Scan} {k : FlowKey}

section Step

variable (text : ReportText py) {s' : Scan} {record : Record}

/-- What a record does to the scan: it writes down the reaction of its flow, or a warning. -/
theorem step_cases (h : s.step text record = .ok t) : (identity py record = none ∧ t = s.tick.skip) ∨
      ∃ id, identity py record = some id ∧
        ((s.flowAt id.key = none ∧ t = s.tick.drop.warn .flowTrackingLimitReached) ∨
          ∃ flow r, s.flowAt id.key = some flow ∧
            react text (fun target => s.pendingAt (target, id.key)) s.budget flow
              ⟨id.key, id.direction, id.time, record⟩ = .ok r ∧
            t = s.tick.record id.key r) := by
  cases hid : identity py record with
  | none =>
    rw [step, hid] at h
    exact .inl ⟨rfl, (Except.ok.inj h).symm⟩
  | some id =>
    refine .inr ⟨id, rfl, ?_⟩
    cases hflow : s.flowAt id.key with
    | none =>
      have htick : s.tick.flowAt id.key = none := hflow
      rw [step, hid] at h
      simp only [htick] at h
      exact .inl ⟨rfl, (Except.ok.inj h).symm⟩
    | some flow =>
      rw [step_eq text s hid hflow] at h
      obtain ⟨r, hr, rfl⟩ := Except.map_eq_ok.mp h
      exact .inr ⟨flow, r, rfl, hr, rfl⟩

theorem mem_foldl_insert (ws warnings : List Warning) (w : Warning) :
    w ∈ ws.foldl (fun warnings w => warnings.insert w) warnings ↔ w ∈ ws ∨ w ∈ warnings := by
  induction ws generalizing warnings with
  | nil => simp
  | cons x ws ih =>
    rw [foldl_cons, ih, mem_insert_iff, mem_cons]
    tauto

theorem step_warnings (h : s.step text record = .ok t) : s.warnings ⊆ t.warnings := by
  obtain ⟨-, rfl⟩ | ⟨id, -, ⟨-, rfl⟩ | ⟨flow, r, -, -, rfl⟩⟩ := step_cases text h
  · exact fun w hw => mem_insert_of_mem hw
  · exact fun w hw => mem_insert_of_mem hw
  · exact fun w hw => (mem_foldl_insert _ _ _).mpr (.inr hw)

theorem run_warnings (h : run text records s = .ok t) : s.warnings ⊆ t.warnings :=
  List.foldlM_eq_ok_induction (fun _ u => s.warnings ⊆ u.warnings) (List.Subset.refl _)
    (fun _ _ _ _ _ hu hstep => List.Subset.trans hu (step_warnings text hstep)) h

/-- A record leaves the other lanes alone. -/
theorem step_frame (h : s.step text record = .ok t) (hk : lane py record ≠ some k) :
    t.flows.find? k = s.flows.find? k ∧ ∀ target, t.quoted.find? (target, k) = s.quoted.find? (target, k) := by
  obtain ⟨-, rfl⟩ | ⟨id, hid, hcases⟩ := step_cases text h
  · exact ⟨rfl, fun _ => rfl⟩
  have hne : k ≠ id.key := by
    rintro rfl
    exact hk (by rw [lane, hid, map_some])
  obtain ⟨-, rfl⟩ | ⟨flow, r, -, -, rfl⟩ := hcases
  · exact ⟨rfl, fun _ => rfl⟩
  refine ⟨?_, fun target => ?_⟩
  · rw [Scan.record, find?_put, if_neg hne]
    rfl
  · rw [Scan.record]
    cases r.pending with
    | none => rfl
    | some =>
      rw [elim_some, find?_put, if_neg fun heq => hne (Prod.mk.inj heq).2]
      rfl

theorem run_frame (h : run text records s = .ok t) (hk : ∀ record ∈ records, lane py record ≠ some k) :
    t.flows.find? k = s.flows.find? k ∧ ∀ target, t.quoted.find? (target, k) = s.quoted.find? (target, k) := by
  refine List.foldlM_eq_ok_induction (fun _ u => u.flows.find? k = s.flows.find? k ∧
    ∀ target, u.quoted.find? (target, k) = s.quoted.find? (target, k)) ⟨rfl, fun _ => rfl⟩ ?_ h
  intro pre record u u' hpre hu hstep
  have hmem : record ∈ records := hpre.subset (mem_append_right pre mem_cons_self)
  obtain ⟨hflows, hquoted⟩ := step_frame text hstep (hk record hmem)
  exact ⟨hflows.trans hu.1, fun target => (hquoted target).trans (hu.2 target)⟩

/-! ## One lane of two runs -/

theorem rebase_zero (n : Int) : rebase 0 n = n := by
  rw [rebase]
  split
  · rename_i hrange
    rw [add_zero]
    exact Int.emod_eq_of_lt hrange.1 hrange.2
  · rfl

/-- An arrival is its own copy under the same origin. -/
theorem arrival_refl (p : Arrival) : p.Moved (fun _ => 0) p := by
  have hvalue (value : Obj) : value = value.rebase 0 := by
    cases value with
    | int => rw [Obj.rebase, rebase_zero]
    | _ => rfl
  exact ⟨rfl, rfl, rfl, fun _ _ _ _ => rfl, fun _ => hvalue _, fun _ => hvalue _, fun _ => rfl⟩

variable {text}

theorem SameLane.flowAt (h : s.SameLane k s') {f g : Flow} (hf : s.flowAt k = some f)
    (hg : s'.flowAt k = some g) : f.Moved (fun _ => 0) g := by
  rw [Scan.flowAt] at hf hg
  obtain ⟨hnone, hnone'⟩ | ⟨f', g', hf', hg', hmoved⟩ := h.flow
  · simp only [hnone, hnone'] at hf hg
    split at hf
    · cases hf
    split at hg
    · cases hg
    cases hf
    cases hg
    exact .fresh _
  · rw [hf'] at hf
    rw [hg'] at hg
    cases hf
    cases hg
    exact hmoved

theorem SameLane.pendingAt (h : s.SameLane k s') : PendingMoved False (fun target => s.pendingAt (target, k))
      fun target => s'.pendingAt (target, k) := by
  refine ⟨False.elim, fun target x y hx hy => ?_⟩
  have htallies := h.pending target
  simp only [Scan.pendingAt] at hx hy
  cases hq : s.quoted.find? (target, k) with
  | none =>
    rw [hq, map_none, Option.map_eq_none_iff] at htallies
    simp only [hq, htallies] at hx hy
    split at hx
    · cases hx
    split at hy
    · cases hy
    rw [← Option.some.inj hx, ← Option.some.inj hy]
  | some =>
    rw [hq, map_some, Option.map_eq_some_iff] at htallies
    obtain ⟨y', hq', heq⟩ := htallies
    simp only [hq, hq'] at hx hy
    rw [← Option.some.inj hx, ← Option.some.inj hy, heq]

/-- What a record adds to the warnings. -/
def news (s t : Scan) (ws : List Warning) : Prop := ∀ w, w ∈ t.warnings ↔ w ∈ ws ∨ w ∈ s.warnings

/-- A record of a lane that is the same in two scans: the lane stays the same, and both scans get
the same new warnings. -/
theorem step_lane {t' : Scan} (ht : s.step text record = .ok t) (ht' : s'.step text record = .ok t')
    (hfree : t.Unlimited) (hfree' : t'.Unlimited) (hk : lane py record = some k) (h : s.SameLane k s') :
    t.SameLane k t' ∧ ∃ ws, news s t ws ∧ news s' t' ws := by
  obtain ⟨hid, -⟩ | ⟨id, hid, hcases⟩ := step_cases text ht
  · rw [lane, hid] at hk
    cases hk
  obtain ⟨hid', -⟩ | ⟨id', hid', hcases'⟩ := step_cases text ht'
  · rw [hid] at hid'
    cases hid'
  cases hid.symm.trans hid'
  rw [lane, hid, map_some, Option.some.injEq] at hk
  subst hk
  obtain ⟨-, rfl⟩ | ⟨f, r, hf, hr, rfl⟩ := hcases
  · cases hfree _ (mem_insert_self)
  obtain ⟨-, rfl⟩ | ⟨g, r', hg, hr', rfl⟩ := hcases'
  · cases hfree' _ (mem_insert_self)
  have hmoved : r.Moved False (fun _ => 0) r' :=
    react_moved text (h.flowAt hf hg) False.elim (arrival_refl _) h.pendingAt rfl hr hr' <| .inr
      ⟨fun w hw => hfree w ((mem_foldl_insert _ _ _).mpr (.inl hw)),
        fun w hw => hfree' w ((mem_foldl_insert _ _ _).mpr (.inl hw))⟩
  refine ⟨⟨.inr ⟨r.flow, r'.flow, ?_, ?_, hmoved.flow⟩, fun target => ?_⟩, r.warnings,
    fun w => mem_foldl_insert _ _ _, fun w => ?_⟩
  · rw [Scan.record, find?_put, if_pos rfl]
  · rw [Scan.record, find?_put, if_pos rfl]
  · have hpending := hmoved.pending
    rw [Scan.record, Scan.record]
    cases hx : r.pending with
    | none =>
      rw [hx, map_none, Option.map_eq_none_iff] at hpending
      rw [hpending]
      exact h.pending target
    | some =>
      rw [hx, map_some, Option.map_eq_some_iff] at hpending
      obtain ⟨row', hy, heq⟩ := hpending
      rw [Prod.mk.injEq] at heq
      rw [hy]
      simp only [elim_some, find?_put, heq.1]
      split
      · exact congrArg some heq.2
      · exact h.pending target
  · rw [← hmoved.warnings]
    exact mem_foldl_insert _ _ _

/-! ## Runs -/

theorem filter_split {α : Type} {p : α → Bool} {l xs ys : List α} {a : α} (h : l.filter p = xs ++ a :: ys) :
    ∃ pre post, l = pre ++ a :: post ∧ pre.filter p = xs ∧ post.filter p = ys := by
  obtain ⟨before, rest, rfl, hbefore, hrest⟩ := filter_eq_append_iff.mp h
  obtain ⟨mid, post, rfl, hmid, -, hpost⟩ := filter_eq_cons_iff.mp hrest
  refine ⟨before ++ mid, post, by rw [append_assoc], ?_, hpost⟩
  rw [filter_append, hbefore, filter_eq_nil_iff.mpr hmid, append_nil]

theorem run_split {pre post : List Record} (h : run text (pre ++ record :: post) s = .ok t) :
    ∃ u v, run text pre s = .ok u ∧ u.step text record = .ok v ∧ run text post v = .ok t := by
  rw [run, foldlM_append, Except.bind_eq_ok] at h
  obtain ⟨u, hu, h⟩ := h
  rw [foldlM_cons, Except.bind_eq_ok] at h
  obtain ⟨v, hv, h⟩ := h
  exact ⟨u, v, hu, hv, h⟩

theorem Unlimited.of_subset (h : t.Unlimited) (hst : s.warnings ⊆ t.warnings) : s.Unlimited :=
  fun w hw => h w (hst hw)

/-- Runs with the same records in a lane agree on the lane. -/
theorem lanes_agree (hlane : (records.filter fun record => lane py record = some k) =
      records'.filter fun record => lane py record = some k) (hs : run text records {} = .ok s)
    (hs' : run text records' {} = .ok s') (hfree : s.Unlimited) (hfree' : s'.Unlimited) :
    s.SameLane k s' := by
  induction records using List.reverseRecOn generalizing records' s s' with
  | nil =>
    cases hs
    have hother : ∀ record ∈ records', lane py record ≠ some k := by
      intro record hmem hk
      have hfiltered : record ∈ records'.filter fun record => lane py record = some k :=
        mem_filter.mpr ⟨hmem, by simpa using hk⟩
      rw [← hlane] at hfiltered
      cases hfiltered
    obtain ⟨hflows, hquoted⟩ := run_frame text hs' hother
    exact ⟨.inl ⟨rfl, hflows⟩, fun target => by rw [hquoted target]⟩
  | append_singleton records record ih =>
    obtain ⟨u, v, hu, hv, hend⟩ := run_split hs
    cases hend
    have hufree := hfree.of_subset (step_warnings text hv)
    by_cases hk : lane py record = some k
    · rw [filter_append, filter_cons_of_pos (by simpa using hk), filter_nil] at hlane
      obtain ⟨pre, post, rfl, hpre, hpost⟩ := filter_split hlane.symm
      obtain ⟨u', v', hu', hv', hend'⟩ := run_split hs'
      have hvfree' := hfree'.of_subset (run_warnings text hend')
      have hsame : u.SameLane k u' :=
        ih hpre.symm hu hu' hufree (hvfree'.of_subset (step_warnings text hv'))
      obtain ⟨hflow, hpending⟩ := (step_lane hv hv' hfree hvfree' hk hsame).1
      -- the records after it are of other lanes
      obtain ⟨hflows, hquoted⟩ := run_frame text hend'
        (fun r hr hrk => filter_eq_nil_iff.mp hpost r hr (by simpa using hrk))
      exact ⟨by rw [hflows]; exact hflow, fun target => by rw [hquoted]; exact hpending target⟩
    · rw [filter_append, filter_cons_of_neg (by simpa using hk), filter_nil, append_nil] at hlane
      obtain ⟨hflow, hpending⟩ := ih hlane hu hs' hufree hfree'
      obtain ⟨hflows, hquoted⟩ := step_frame text hv hk
      exact ⟨by rw [hflows]; exact hflow, fun target => by rw [hquoted]; exact hpending target⟩

/-- Interleaved runs have the same warnings. -/
theorem warnings_agree (h : Interleaved py records records')
    (hs : run text records {} = .ok s) (hs' : run text records' {} = .ok s') (hfree : s.Unlimited)
    (hfree' : s'.Unlimited) : s.warnings ⊆ s'.warnings := by
  refine (List.foldlM_eq_ok_induction (fun pre u => run text pre {} = .ok u ∧ u.warnings ⊆ s'.warnings)
    ⟨rfl, nil_subset _⟩ ?_ hs).2
  rintro pre record u v ⟨post, hsplit⟩ ⟨hu, hsubset⟩ hv
  have hrun : run text (pre ++ [record]) {} = .ok v := by
    rw [run, foldlM_append, ← run, hu, Except.ok_bind, foldlM_cons, hv]
    rfl
  have hvfree : v.Unlimited := by
    rw [← hsplit, run, foldlM_append, ← run, hrun] at hs
    exact hfree.of_subset (run_warnings text hs)
  refine ⟨hrun, fun w hw => ?_⟩
  -- the same record in the other run
  have hlane := h (lane py record)
  rw [← hsplit, append_assoc, filter_append, singleton_append, filter_cons_of_pos (by simp)] at hlane
  obtain ⟨pre', post', rfl, hpre, -⟩ := filter_split hlane.symm
  obtain ⟨u', v', hu', hv', hend'⟩ := run_split hs'
  have hvfree' := hfree'.of_subset (run_warnings text hend')
  cases hk : lane py record with
  | none =>
    -- both scans warn of it
    have hid : identity py record = none := Option.map_eq_none_iff.mp hk
    rw [step, hid] at hv hv'
    cases hv
    cases hv'
    obtain rfl | hw := mem_insert_iff.mp hw
    · exact run_warnings text hend' mem_insert_self
    · exact hsubset hw
  | some k =>
    rw [hk] at hpre
    have hsame : u.SameLane k u' :=
      lanes_agree hpre.symm hu hu' (hvfree.of_subset (step_warnings text hv))
        (hvfree'.of_subset (step_warnings text hv'))
    obtain ⟨-, ws, hnews, hnews'⟩ := step_lane hv hv' hvfree hvfree' hk hsame
    obtain hw | hw := (hnews w).mp hw
    · exact run_warnings text hend' ((hnews' w).mpr (.inl hw))
    · exact hsubset hw

end Step

/-! ## Quotes -/

/-- The tally of a kind of observation of a flow, or zero. -/
def tallyAt (s : Scan) (k : FlowKey) (kind : Pattern × Endpoint) : Tally :=
  ((s.flows.find? k).bind fun f => f.tallies.find? kind).getD 0

/-- What the loops over the quotes do: they add tallies, and nothing else changes. -/
structure Resolves (s t : Scan) (added : FlowKey → Pattern × Endpoint → Tally) : Prop where
  directions : ∀ k, (t.flows.find? k).map Flow.directions = (s.flows.find? k).map Flow.directions
  subset : s.warnings ⊆ t.warnings
  warnings : t.Unlimited → t.warnings = s.warnings
  tally : t.Unlimited → ∀ k kind, t.tallyAt k kind = s.tallyAt k kind + added k kind

theorem Resolves.refl (s : Scan) : s.Resolves s fun _ _ => 0 :=
  ⟨fun _ => rfl, List.Subset.refl _, fun _ => rfl, fun _ _ _ => (add_zero _).symm⟩

section

theorem Resolves.trans {u : Scan} {added added' : FlowKey → Pattern × Endpoint → Tally}
    (h : s.Resolves t added) (h' : t.Resolves u added') :
    s.Resolves u fun k kind => added k kind + added' k kind where
  directions k := (h'.directions k).trans (h.directions k)
  subset := List.Subset.trans h.subset h'.subset
  warnings hfree := (h'.warnings hfree).trans (h.warnings (hfree.of_subset h'.subset))
  tally hfree k kind := by
    rw [h'.tally hfree, h.tally (hfree.of_subset h'.subset), add_assoc]

/-- A loop of such steps. -/
theorem Resolves.loop {α : Type} {f : Scan → α → Except ReportError Scan}
    {added : α → FlowKey → Pattern × Endpoint → Tally}
    (hstep : ∀ u a v total, s.Resolves u total → f u a = .ok v → u.Resolves v (added a)) {l : List α}
    (h : l.foldlM f s = .ok t) : s.Resolves t fun k kind => (l.map fun a => added a k kind).sum := by
  refine List.foldlM_eq_ok_induction (fun pre u => s.Resolves u fun k kind => (pre.map fun a => added a k kind).sum)
    (.refl s) ?_ h
  intro pre a u v _ hu hv
  have hnext := hu.trans (hstep u a v _ hu hv)
  simpa only [map_append, map_cons, map_nil, sum_append, sum_cons, sum_nil, add_zero] using hnext

/-- An observation that is put into a flow. -/
theorem resolves_store {key : FlowKey} {flow : Flow} (hflow : s.flows.find? key = some flow)
    (kind : Pattern × Endpoint) (o : Observation) {tally : Tally}
    (htally : o.tally = (flow.tallies.find? kind).getD 0 + tally) (budget : Budget) :
    s.Resolves (s.store key ⟨budget, { flow with observations := flow.observations.put (kind, o) }⟩)
      fun k kind' => if k = key ∧ kind' = kind then tally else 0 where
  directions k := by
    rw [store, find?_put]
    split
    · rename_i hk
      rw [hk, hflow]
      rfl
    · rfl
  subset := List.Subset.refl _
  warnings _ := rfl
  tally _ k kind' := by
    rw [tallyAt, tallyAt, store, find?_put]
    by_cases hk : k = key
    · subst hk
      rw [if_pos rfl, hflow, bind_some, bind_some, Flow.tallies, mapValues_put, find?_put]
      by_cases hkind : kind' = kind
      · subst hkind
        rw [if_pos rfl, if_pos ⟨rfl, rfl⟩, htally]
        rfl
      · rw [if_neg hkind, if_neg fun h => hkind h.2, add_zero]
        rfl
    · rw [if_neg hk, if_neg fun h => hk h.1, add_zero]

theorem resolveObservation_resolves {key : FlowKey} {row : (Pattern × Endpoint) × Observation}
    (h : resolveObservation key s row = .ok t) :
    s.Resolves t fun k kind => if k = key ∧ kind = row.1 then row.2.tally else 0 := by
  rw [resolveObservation] at h
  cases hflow : s.flows.find? key with
  | none =>
    rw [hflow] at h
    cases h
  | some flow =>
    have htallies : flow.tallies.find? row.1 = (flow.observations.find? row.1).map Observation.tally :=
      find?_mapValues _ _ _
    rw [hflow] at h
    simp only at h
    cases hprevious : flow.observations.find? row.1 with
    | none =>
      rw [hprevious] at h htallies
      cases h
      rw [adopt]
      split
      · -- the limit is reached, and there is a warning of it
        have hlimited {t : Scan} (ht : t.warnings = s.warnings.insert .observationLimitReached)
            (hfree : t.Unlimited) : False := by
          cases hfree .observationLimitReached (ht ▸ mem_insert_self)
        exact ⟨fun _ => rfl, fun w hw => mem_insert_of_mem hw,
          fun hfree => (hlimited rfl hfree).elim, fun hfree => (hlimited rfl hfree).elim⟩
      · refine resolves_store hflow row.1 row.2 ?_ _
        rw [htallies]
        exact (zero_add _).symm
    | some previous =>
      rw [hprevious] at h htallies
      cases h
      refine resolves_store hflow row.1 _ ?_ _
      rw [htallies, tally_join]
      rfl

/-- What a pending flow adds to its target. -/
def share (target : FlowKey) (tallies : Dict (Pattern × Endpoint) Tally) (k : FlowKey)
    (kind : Pattern × Endpoint) : Tally :=
  (tallies.rows.map fun row => if k = target ∧ kind = row.1 then row.2 else 0).sum

theorem resolveQuote_resolves {row : (FlowKey × FlowKey) × Flow} (h : resolveQuote s row = .ok t) :
    s.Resolves t (share (s.quoteTarget row.1) row.2.tallies) := by
  rw [resolveQuote] at h
  split at h
  · cases h
  have hrows := Resolves.loop (fun _ _ _ _ _ h => resolveObservation_resolves h) h
  have hshare : share (s.quoteTarget row.1) row.2.tallies = fun k kind =>
      (row.2.observations.rows.map fun o =>
        if k = s.quoteTarget row.1 ∧ kind = o.1 then o.2.tally else 0).sum := by
    funext k kind
    rw [share, Flow.tallies, mapValues, map_map]
    rfl
  rw [hshare]
  exact hrows

/-- What all pending flows add. -/
def shares (s : Scan) (k : FlowKey) (kind : Pattern × Endpoint) : Tally :=
  (s.quoted.rows.map fun row => share (s.quoteTarget row.1) row.2.tallies k kind).sum

theorem resolveQuotes_resolves (h : s.resolveQuotes = .ok t) : s.Resolves t s.shares := by
  rw [resolveQuotes] at h
  obtain ⟨u, hu, h⟩ := Except.bind_eq_ok.mp h
  cases h
  have hstep (v : Scan) (row : (FlowKey × FlowKey) × Flow) (w : Scan)
      (total : FlowKey → Pattern × Endpoint → Tally) (hv : s.Resolves v total)
      (hw : resolveQuote v row = .ok w) :
      v.Resolves w (share (s.quoteTarget row.1) row.2.tallies) := by
    -- the quotes that came before added no flow
    have hsome := congrArg Option.isSome (hv.directions row.1.1)
    rw [isSome_map, isSome_map] at hsome
    have htarget : v.quoteTarget row.1 = s.quoteTarget row.1 := by
      rw [quoteTarget, quoteTarget, hsome]
    rw [← htarget]
    exact resolveQuote_resolves hw
  have hloop : s.Resolves u s.shares := Resolves.loop hstep hu
  exact { hloop with }

/-! ## Both scans at the end -/

theorem mem_briefs {flows : Dict FlowKey Flow} {b : Brief} :
    b ∈ briefs flows ↔ ((flows.find? b.1).bind fun f => f.tallies.find? b.2.1) = some b.2.2 := by
  obtain ⟨k, kind, tally⟩ := b
  rw [briefs, mem_flatMap, Option.bind_eq_some_iff]
  constructor
  · rintro ⟨row, hrow, hmem⟩
    obtain ⟨o, ho, heq⟩ := mem_map.mp hmem
    obtain ⟨rfl, rfl, rfl⟩ : row.1 = k ∧ o.1 = kind ∧ o.2 = tally := by
      simpa [Prod.ext_iff] using heq
    exact ⟨row.2, find?_eq_some.mpr hrow, find?_eq_some.mpr ho⟩
  · rintro ⟨f, hf, htally⟩
    exact ⟨(k, f), find?_eq_some.mp hf, mem_map.mpr ⟨(kind, tally), find?_eq_some.mp htally, rfl⟩⟩

theorem briefs_nodup (flows : Dict FlowKey Flow) : (briefs flows).Nodup := by
  rw [briefs, nodup_flatMap]
  refine ⟨fun row _ => ?_, ?_⟩
  · exact row.2.tallies.rows_nodup.map fun o o' h => by simpa [Prod.ext_iff] using h
  · have hkeys : flows.rows.Pairwise fun row row' => row.1 ≠ row'.1 :=
      pairwise_map.mp flows.nodup
    refine hkeys.imp fun hne b hb hb' => ?_
    obtain ⟨o, -, rfl⟩ := mem_map.mp hb
    obtain ⟨o', -, heq⟩ := mem_map.mp hb'
    exact hne (congrArg Prod.fst heq).symm

/-- A brief says what the tally is, and that it is not zero. -/
theorem mem_briefs_iff {P : Observation → Prop} (hpositive : ∀ o, P o → 1 ≤ o.count)
    (h : ∀ row ∈ s.flows.rows, row.2.Observed P) (b : Brief) :
    b ∈ briefs s.flows ↔ s.tallyAt b.1 b.2.1 = b.2.2 ∧ b.2.2 ≠ 0 := by
  rw [mem_briefs, tallyAt]
  cases hfind : (s.flows.find? b.1).bind fun f => f.tallies.find? b.2.1 with
  | none =>
    rw [Option.getD_none]
    exact ⟨fun h => (by cases h), fun h => absurd h.1.symm h.2⟩
  | some =>
    obtain ⟨f, hf, htally⟩ := Option.bind_eq_some_iff.mp hfind
    rw [Flow.tallies, find?_mapValues] at htally
    obtain ⟨o, ho, rfl⟩ := Option.map_eq_some_iff.mp htally
    have hcount : 1 ≤ o.count :=
      hpositive o (h _ (find?_eq_some.mp hf) _ (find?_eq_some.mp ho))
    have hne : o.tally ≠ 0 := by
      intro hzero
      have : o.count = 0 := congrArg Prod.fst hzero
      omega
    rw [Option.getD_some, Option.some.injEq]
    exact ⟨fun h => ⟨h, h ▸ hne⟩, fun h => h.1⟩

end

/-- What the report reads of two scans that agree. -/
structure Agree (s s' : Scan) : Prop where
  briefs : (briefs s.flows).Perm (Network.briefs s'.flows)
  warnings : s.warnings ⊆ s'.warnings ∧ s'.warnings ⊆ s.warnings

section Collect

variable {text : ReportText py} {s' : Scan}

theorem SameLane.directions (h : s.SameLane k s') :
    (s'.flows.find? k).map Flow.directions = (s.flows.find? k).map Flow.directions := by
  obtain ⟨hnone, hnone'⟩ | ⟨f, g, hf, hg, hmoved⟩ := h.flow
  · rw [hnone, hnone']
  · rw [hf, hg, map_some, map_some, hmoved.directions]

theorem SameLane.tallyAt (h : s.SameLane k s') (kind : Pattern × Endpoint) :
    s'.tallyAt k kind = s.tallyAt k kind := by
  rw [Scan.tallyAt, Scan.tallyAt]
  obtain ⟨hnone, hnone'⟩ | ⟨f, g, hf, hg, hmoved⟩ := h.flow
  · rw [hnone, hnone']
  · rw [hf, hg, bind_some, bind_some, hmoved.tallies]

/-- Scans with the same lanes add the same shares. -/
theorem shares_agree (h : ∀ k, s.SameLane k s') (k : FlowKey) (kind : Pattern × Endpoint) :
    s'.shares k kind = s.shares k kind := by
  have htarget (key : FlowKey × FlowKey) : s'.quoteTarget key = s.quoteTarget key := by
    have hsome := congrArg Option.isSome (h key.1).directions
    rw [isSome_map, isSome_map] at hsome
    rw [quoteTarget, quoteTarget, hsome]
  have hrows : (s'.quoted.mapValues Flow.tallies).rows.Perm (s.quoted.mapValues Flow.tallies).rows := by
    refine rows_perm fun key => ?_
    rw [find?_mapValues, find?_mapValues]
    exact (h key.2).pending key.1
  have hsum (u : Scan) : u.shares k kind = ((u.quoted.mapValues Flow.tallies).rows.map fun row =>
      share (u.quoteTarget row.1) row.2 k kind).sum := by
    rw [shares, mapValues, map_map]
    rfl
  rw [hsum, hsum]
  simp only [htarget]
  exact (hrows.map _).sum_eq

/-- A flow with one direction, by the flows of the keys. -/
theorem any_direction_iff (flows : Dict FlowKey Flow) :
    (flows.rows.any fun row => decide (row.2.directions.length < 2)) = true ↔
      ∃ k directions, (flows.find? k).map Flow.directions = some directions ∧ directions.length < 2 := by
  rw [any_eq_true]
  constructor
  · rintro ⟨row, hrow, hlength⟩
    refine ⟨row.1, row.2.directions, ?_, by simpa using hlength⟩
    have hfind : flows.find? row.1 = some row.2 := find?_eq_some.mpr hrow
    rw [hfind, map_some]
  · rintro ⟨k, directions, hfind, hlength⟩
    obtain ⟨f, hf, rfl⟩ := Option.map_eq_some_iff.mp hfind
    exact ⟨(k, f), find?_eq_some.mp hf, by simpa using hlength⟩

/-- Some flow was seen in one direction only. -/
def OneDirection (s : Scan) : Prop :=
  (s.flows.rows.any fun row => decide (row.2.directions.length < 2)) = true

/-- The parts of a scan up to its details. -/
theorem collect_parts (h : collect text records = .ok t) :
    ∃ s r, run text records {} = .ok s ∧ s.Resolves r s.shares ∧ t.flows = r.flows ∧
      ∀ w, w ∈ t.warnings ↔ w ∈ r.warnings ∨ w = .oneDirectionObserved ∧ OneDirection r := by
  rw [collect] at h
  obtain ⟨s, hs, h⟩ := Except.bind_eq_ok.mp h
  obtain ⟨r, hr, h⟩ := Except.bind_eq_ok.mp h
  cases h
  refine ⟨s, r, hs, resolveQuotes_resolves hr, ?_, fun w => ?_⟩
  · split <;> rfl
  · split
    · rename_i hone
      rw [warn, mem_insert_iff, OneDirection]
      tauto
    · rename_i hone
      exact ⟨.inl, fun hw => hw.resolve_right fun hw => hone hw.2⟩

/-- Interleaved captures: both scans up to their details. -/
theorem collect_agree (h : Interleaved py records records')
    {t' : Scan} (ht : collect text records = .ok t) (ht' : collect text records' = .ok t')
    (hfree : t.Unlimited) (hfree' : t'.Unlimited) : t.Agree t' := by
  obtain ⟨u, hu, -, -, hsound⟩ := collect_ok text records
  cases ht.symm.trans hu
  obtain ⟨u', hu', -, -, hsound'⟩ := collect_ok text records'
  cases ht'.symm.trans hu'
  obtain ⟨s, r, hs, hr, hflows, hwarnings⟩ := collect_parts ht
  obtain ⟨s', r', hs', hr', hflows', hwarnings'⟩ := collect_parts ht'
  have hsubset : r.warnings ⊆ t.warnings := fun w hw => (hwarnings w).mpr (.inl hw)
  have hsubset' : r'.warnings ⊆ t'.warnings := fun w hw => (hwarnings' w).mpr (.inl hw)
  have hrfree := hfree.of_subset hsubset
  have hrfree' := hfree'.of_subset hsubset'
  have hsfree := hrfree.of_subset hr.subset
  have hsfree' := hrfree'.of_subset hr'.subset
  have hlanes (k : FlowKey) : s.SameLane k s' := lanes_agree (h (some k)) hs hs' hsfree hsfree'
  have htally (k : FlowKey) (kind : Pattern × Endpoint) : t'.tallyAt k kind = t.tallyAt k kind := by
    have hr₁ := hr.tally hrfree k kind
    have hr₂ := hr'.tally hrfree' k kind
    rw [(hlanes k).tallyAt, shares_agree hlanes, ← hr₁, tallyAt, tallyAt, ← hflows, ← hflows'] at hr₂
    exact hr₂
  have hdirections (k : FlowKey) :
      (r'.flows.find? k).map Flow.directions = (r.flows.find? k).map Flow.directions := by
    rw [hr'.directions, hr.directions, (hlanes k).directions]
  have hmem (w : Warning) : w ∈ r.warnings ↔ w ∈ r'.warnings := by
    rw [hr.warnings hrfree, hr'.warnings hrfree']
    exact ⟨fun hw => warnings_agree h hs hs' hsfree hsfree' hw,
      fun hw => warnings_agree (fun k => (h k).symm) hs' hs hsfree' hsfree hw⟩
  have hone : OneDirection r ↔ OneDirection r' := by
    rw [OneDirection, OneDirection, any_direction_iff, any_direction_iff]
    simp only [hdirections]
  refine ⟨?_, fun w hw => ?_, fun w hw => ?_⟩
  · refine (perm_ext_iff_of_nodup (briefs_nodup _) (briefs_nodup _)).mpr fun b => ?_
    rw [mem_briefs_iff (fun _ ho => ho.positive) hsound, mem_briefs_iff (fun _ ho => ho.positive) hsound', htally]
  · rw [hwarnings', ← hmem, ← hone, ← hwarnings]
    exact hw
  · rw [hwarnings, hmem, hone, ← hwarnings']
    exact hw

end Collect

end Scan

/-! ## The report -/

/-- No warning of a report says that a limit was reached. -/
def Report.Unlimited (report : Report) : Prop :=
  ∀ w ∈ report.warnings, ¬"_LIMIT_REACHED".toList <:+ w.toList

theorem isLimit_iff (w : Warning) : w.isLimit = true ↔ "_LIMIT_REACHED".toList <:+ w.text.toList := by
  cases w <;> decide

theorem unlimited_of_report {d : DetailsResult} (h : (reportOf s d).Unlimited) : s.Unlimited := by
  intro w hw
  have hmem : w.text ∈ (reportOf s d).warnings :=
    (perm_insertionSort _ _).mem_iff.mpr (mem_map_of_mem hw)
  rw [← Bool.not_eq_true, isLimit_iff]
  exact h _ hmem

/-- Two issues that say the same of the same group. -/
structure Issue.SameFacts (issue issue' : Issue) : Prop where
  pattern : issue'.pattern = issue.pattern
  scope : issue'.scope = issue.scope
  eventCount : issue'.eventCount = issue.eventCount
  affectedFlowCount : issue'.affectedFlowCount = issue.affectedFlowCount
  affectedHostCount : issue'.affectedHostCount = issue.affectedHostCount
  firstSeen : issue'.firstSeen = issue.firstSeen
  lastSeen : issue'.lastSeen = issue.lastSeen

section Report

variable (text : ReportText py)

/-- Groups with the same figures are displayed with the same facts. -/
theorem Displays.sameFacts {groups groups' : Dict GroupKey Group}
    (h : ∀ key, (groups'.find? key).map Group.figures = (groups.find? key).map Group.figures)
    {selected : List GroupKey} {issues issues' : List Issue}
    (hissues : Displays text groups selected issues)
    (hissues' : Displays text groups' selected issues') :
    List.Forall₂ Issue.SameFacts issues issues' := by
  induction hissues generalizing issues' with
  | nil =>
    cases hissues'
    exact .nil
  | @cons key _ _ _ hshows _ ih =>
    obtain _ | ⟨hshows', hrest⟩ := hissues'
    obtain ⟨group, hgroup, hfacts⟩ := hshows
    obtain ⟨group', hgroup', hfacts'⟩ := hshows'
    have hfigures := h key
    rw [hgroup, hgroup', map_some, map_some, Option.some.injEq, Group.figures,
      Group.figures, Figures.mk.injEq] at hfigures
    obtain ⟨hcount, hflows, hhosts, hfirst, hlast⟩ := hfigures
    refine .cons ⟨?_, ?_, ?_, ?_, ?_, ?_, ?_⟩ (ih hrest)
    · rw [hfacts'.pattern, hfacts.pattern]
    · rw [hfacts'.scope, hfacts.scope]
    · rw [hfacts'.eventCount, hfacts.eventCount, hcount]
    · rw [hfacts'.affectedFlowCount, hfacts.affectedFlowCount, hflows]
    · rw [hfacts'.affectedHostCount, hfacts.affectedHostCount, hhosts]
    · rw [hfacts'.firstSeen, hfacts.firstSeen, hfirst]
    · rw [hfacts'.lastSeen, hfacts.lastSeen, hlast]

/-- A scan is complete if it has records and no warning. -/
theorem complete_iff (h : Scan.collect text records = .ok s) :
    s.complete = true ↔ records ≠ [] ∧ s.warnings = [] := by
  obtain ⟨s', hs', haccounts, hscanned, -⟩ := Scan.collect_ok text records
  cases hs'.symm.trans h
  have hlength : records ≠ [] ↔ records.length ≠ 0 := by rw [Ne, ← length_eq_zero_iff]
  have hcounted := haccounts.sum
  rw [Scan.complete, decide_eq_true_eq, hlength]
  refine and_congr_left fun hwarnings => ?_
  obtain ⟨hskipped, hincomplete⟩ := haccounts.warned hwarnings
  omega

theorem Interleaved.nil_of_nil (h : Interleaved py records records') (hnil : records = []) : records' = [] := by
  refine eq_nil_iff_forall_not_mem.mpr fun record hmem => ?_
  have hfiltered : record ∈ records'.filter fun r => lane py r = lane py record :=
    mem_filter.mpr ⟨hmem, by simp⟩
  rw [← h, hnil] at hfiltered
  cases hfiltered

/-- Captures with the same records in every lane have the same findings, however their lanes are
interleaved: the same groups with the same figures, the same selection and coverage, and the same
verdict. -/
theorem flows_independent {records records' : List Record} (h : Interleaved py records records')
    {maxIssues maxExamples : Obj} {issues examples : Nat}
    (hlimits : Limits maxIssues maxExamples issues examples) {report report' : Report}
    (hreport : analyzeNetworkReport text records maxIssues maxExamples = .ok report)
    (hreport' : analyzeNetworkReport text records' maxIssues maxExamples = .ok report')
    (hfree : report.Unlimited) (hfree' : report'.Unlimited) :
    report'.summary.verdict = report.summary.verdict ∧ report'.familyCoverage = report.familyCoverage ∧
      List.Forall₂ Issue.SameFacts report.issues report'.issues ∧
      ∃ s s', Scan.collect text records = .ok s ∧ Scan.collect text records' = .ok s' ∧
        (∀ key, ((groupsOf examples s'.flows).find? key).map Group.figures =
          ((groupsOf examples s.flows).find? key).map Group.figures) ∧
        selectGroups text (groupsOf examples s'.flows) issues =
          selectGroups text (groupsOf examples s.flows) issues := by
  obtain ⟨s, d, hs, hd, rfl⟩ := (analyze_eq_ok text hlimits).mp hreport
  obtain ⟨s', d', hs', hd', rfl⟩ := (analyze_eq_ok text hlimits).mp hreport'
  have hagree : s.Agree s' :=
    Scan.collect_agree h hs hs' (unlimited_of_report hfree) (unlimited_of_report hfree')
  have hfigures := figures_groupsOf examples hagree.briefs.symm
  have hcounts := sameCounts_groupsOf examples hagree.briefs.symm
  have hselected : selectGroups text _ issues = _ := selectGroups_congr hcounts issues
  have hof := details_of text hlimits.bounds.2.1 hd
  have hof' := details_of text hlimits.bounds.2.1 hd'
  have htotal : d'.total = d.total := by
    rw [hof.total, hof'.total]
    simpa [Dict.keys] using hcounts.keys_perm.length_eq
  have hcomplete : s'.complete = s.complete := by
    rw [Bool.eq_iff_iff, complete_iff text hs, complete_iff text hs']
    have hnil : records' = [] ↔ records = [] :=
      ⟨Interleaved.nil_of_nil fun k => (h k).symm, h.nil_of_nil⟩
    have hwarnings : s'.warnings = [] ↔ s.warnings = [] :=
      ⟨fun hw => subset_nil.mp (hw ▸ hagree.warnings.1), fun hw => subset_nil.mp (hw ▸ hagree.warnings.2)⟩
    rw [Ne, Ne, hnil, hwarnings]
  refine ⟨?_, ?_, ?_, s, s', hs, hs', hfigures, hselected⟩
  · simp only [reportOf, htotal, hcomplete]
  · simp only [reportOf, hof.coverage, hof'.coverage, hselected]
    exact familyCoverage_congr hcounts _
  · refine Displays.sameFacts text hfigures hof.issues ?_
    have hissues' := hof'.issues
    rwa [hselected] at hissues'

end Report

theorem flows_independent_two_peers : ∃ report report',
      analyzeNetworkReport sampleText [sampleSyn "aaaa" "bbbb" 7, sampleSyn "aaaa" "bbbb" 7,
          sampleSyn "aaaa" "cccc" 7] (.int 20) (.int 3) = .ok report ∧
        analyzeNetworkReport sampleText [sampleSyn "aaaa" "bbbb" 7, sampleSyn "aaaa" "cccc" 7,
          sampleSyn "aaaa" "bbbb" 7] (.int 20) (.int 3) = .ok report' ∧
        List.Forall₂ Issue.SameFacts report.issues report'.issues := by
  have hlimits : Limits (.int 20) (.int 3) 20 3 := ⟨rfl, rfl⟩
  have hlanes : lane samplePython (sampleSyn "aaaa" "bbbb" 7) ≠
      lane samplePython (sampleSyn "aaaa" "cccc" 7) := by decide +kernel
  have hsame : Interleaved samplePython
      [sampleSyn "aaaa" "bbbb" 7, sampleSyn "aaaa" "bbbb" 7, sampleSyn "aaaa" "cccc" 7]
      [sampleSyn "aaaa" "bbbb" 7, sampleSyn "aaaa" "cccc" 7, sampleSyn "aaaa" "bbbb" 7] := by
    intro k
    by_cases hk : lane samplePython (sampleSyn "aaaa" "bbbb" 7) = k
    · have hk' : lane samplePython (sampleSyn "aaaa" "cccc" 7) ≠ k := fun h =>
        hlanes (hk.trans h.symm)
      simp only [filter_cons, hk, hk', decide_true, decide_false, if_true, Bool.false_eq_true, if_false]
    · simp only [filter_cons, hk, decide_false, Bool.false_eq_true, if_false]
  have hreports (records : List Record)
      (h : (analyzeNetworkReport sampleText records (.int 20) (.int 3)).toOption.map Report.warnings =
        some ["ONE_DIRECTION_OBSERVED"]) :
      ∃ report, analyzeNetworkReport sampleText records (.int 20) (.int 3) = .ok report ∧ report.Unlimited := by
    cases hok : analyzeNetworkReport sampleText records (.int 20) (.int 3) with
    | error =>
      rw [hok] at h
      cases h
    | ok report =>
      rw [hok] at h
      refine ⟨report, rfl, ?_⟩
      rw [Report.Unlimited, Option.some.inj h]
      decide
  obtain ⟨report, hreport, hfree⟩ := hreports
    [sampleSyn "aaaa" "bbbb" 7, sampleSyn "aaaa" "bbbb" 7, sampleSyn "aaaa" "cccc" 7]
    (by decide +kernel)
  obtain ⟨report', hreport', hfree'⟩ := hreports
    [sampleSyn "aaaa" "bbbb" 7, sampleSyn "aaaa" "cccc" 7, sampleSyn "aaaa" "bbbb" 7]
    (by decide +kernel)
  exact ⟨report, report', hreport, hreport',
    (flows_independent sampleText hsame hlimits hreport hreport' hfree hfree').2.2.1⟩

end C2Hunter.Network
