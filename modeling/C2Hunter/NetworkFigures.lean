import C2Hunter.NetworkGroups
import C2Hunter.NetworkTally
import Mathlib.Data.Prod.Lex

/-!
# What a report says of its groups

The figures of a group are sums over its sightings, and the selection compares groups by their
figures. So the figures of all groups, the selection and the coverage depend on the sightings only
up to their order, and on each sighting only through its tally.

* `Group.figures`, `figures_groupsOf` — the figures of the groups, from the briefs of the flows.
* `selectGroups_congr`, `familyCoverage_congr` — the selection and the coverage, from the figures.
-/

namespace C2Hunter.Network

open List Dict

/-! ## Figures -/

/-- What a report says of a group. -/
structure Figures where
  count : Nat
  flows : Nat
  hosts : Nat
  first : Int
  last : Int
  deriving DecidableEq

/-- The figures of a group. -/
def Group.figures (g : Group) : Figures := ⟨g.count, g.flows, g.hosts.length, g.first, g.last⟩

/-- A sighting without what the figures do not depend on. -/
abbrev Brief : Type := FlowKey × (Pattern × Endpoint) × Tally

/-- The brief of a sighting. -/
def Sighting.brief (x : Sighting) : Brief := (x.flow, x.kind, x.observation.tally)

/-- The group of a brief. -/
def Brief.group (b : Brief) : GroupKey := groupKey b.1 b.2.1

/-- The briefs of all flows. -/
def briefs (flows : Dict FlowKey Flow) : List Brief :=
  flows.rows.flatMap fun row => row.2.tallies.rows.map fun o => (row.1, o.1, o.2)

theorem map_brief_sightings (flows : Dict FlowKey Flow) : (sightings flows).map Sighting.brief = briefs flows := by
  rw [sightings, briefs, map_flatMap]
  congr 1
  funext row
  rw [map_map, Flow.tallies, mapValues, map_map]
  rfl

/-- The host of either end of a flow. -/
def Brief.IsHost (bs : List Brief) (ip : String) : Prop :=
  ∃ b ∈ bs, ip = b.1.a.ip ∨ ip = b.1.b.ip

variable {flows flows' : Dict FlowKey Flow}

section

variable (maxExamples : Nat)

theorem groupFrom_figures (xs : List Sighting) (g : Group) (h : groupFrom maxExamples xs = some g) :
    tallyOf g.count g.first g.last = ((xs.map Sighting.brief).map fun b => b.2.2).sum ∧
      g.flows = (xs.map Sighting.brief).length ∧ g.hosts.Nodup ∧
      ∀ ip, ip ∈ g.hosts ↔ Brief.IsHost (xs.map Sighting.brief) ip := by
  induction xs using List.reverseRecOn generalizing g with
  | nil => cases h
  | append_singleton xs x ih =>
    rw [groupFrom_concat, Option.some.injEq] at h
    subst h
    cases hxs : groupFrom maxExamples xs with
    | none =>
      cases xs with
      | nil =>
        refine ⟨?_, rfl, (nodup_nil.insert).insert, fun ip => ?_⟩
        · simp only [Group.start, nil_append, map_cons, map_nil, sum_cons, sum_nil, add_zero]
          rfl
        · simp [Group.start, Brief.IsHost, Sighting.brief, or_comm]
      | cons y ys => cases hxs
    | some g =>
      obtain ⟨htally, hflows, hnodup, hhosts⟩ := ih g hxs
      refine ⟨?_, ?_, (hnodup.insert).insert, fun ip => ?_⟩
      · simp only [Group.add, map_append, sum_append, ← htally, map_cons, map_nil, sum_cons, sum_nil, add_zero]
        exact (tallyOf_add _ _ _ _ _ _).symm
      · simp only [Group.add, hflows, map_append, length_append, map_cons, map_nil, length_singleton]
      · simp only [Group.add, mem_insert_iff, hhosts, Brief.IsHost, map_append,
          mem_append, map_cons, map_nil, mem_singleton, Sighting.brief]
        constructor
        · rintro (hip | hip | ⟨b, hb, hip⟩)
          · exact ⟨_, .inr rfl, .inr hip⟩
          · exact ⟨_, .inr rfl, .inl hip⟩
          · exact ⟨b, .inl hb, hip⟩
        · rintro ⟨b, hb | rfl, hip⟩
          · exact .inr (.inr ⟨b, hb, hip⟩)
          · exact hip.elim (fun h => .inr (.inl h)) .inl

theorem groupFrom_isSome (xs : List Sighting) : (groupFrom maxExamples xs).isSome = decide (xs.length ≠ 0) := by
  cases xs <;> simp [groupFrom]

/-- Sightings with the same briefs make groups with the same figures. -/
theorem groupFrom_congr {xs ys : List Sighting} (h : (xs.map Sighting.brief).Perm (ys.map Sighting.brief)) :
    (groupFrom maxExamples xs).map Group.figures = (groupFrom maxExamples ys).map Group.figures := by
  have hlength : xs.length = ys.length := by simpa using h.length_eq
  have hsome : (groupFrom maxExamples xs).isSome = (groupFrom maxExamples ys).isSome := by
    rw [groupFrom_isSome, groupFrom_isSome, hlength]
  cases hx : groupFrom maxExamples xs with
  | none =>
    rw [hx] at hsome
    rw [Option.isNone_iff_eq_none.mp (Option.isSome_eq_false_iff.mp hsome.symm)]
  | some g =>
    rw [hx] at hsome
    obtain ⟨g', hy⟩ := Option.isSome_iff_exists.mp hsome.symm
    obtain ⟨htally, hflows, hnodup, hhosts⟩ := groupFrom_figures maxExamples xs g hx
    obtain ⟨htally', hflows', hnodup', hhosts'⟩ := groupFrom_figures maxExamples ys g' hy
    have hsum := (h.map fun b => b.2.2).sum_eq
    rw [← htally, ← htally', tallyOf_inj] at hsum
    have hmem : g.hosts.Perm g'.hosts := by
      rw [perm_ext_iff_of_nodup hnodup hnodup']
      intro ip
      rw [hhosts, hhosts', Brief.IsHost, Brief.IsHost]
      simp only [h.mem_iff]
    have hflow : g.flows = g'.flows := by rw [hflows, hflows', h.length_eq]
    rw [hy, Option.map_some, Option.map_some, Group.figures, Group.figures, hsum.1, hflow,
      hmem.length_eq, hsum.2.1, hsum.2.2]

/-- The figures of all groups, from the briefs of the flows. -/
theorem figures_groupsOf (h : (briefs flows).Perm (briefs flows')) (key : GroupKey) :
    ((groupsOf maxExamples flows).find? key).map Group.figures =
      ((groupsOf maxExamples flows').find? key).map Group.figures := by
  rw [find?_groupsOf, find?_groupsOf]
  apply groupFrom_congr
  have hfilter (xs : List Sighting) : (xs.filter fun x => decide (key = x.group)).map Sighting.brief =
        (xs.map Sighting.brief).filter fun b => decide (key = b.group) := by
    rw [filter_map]
    rfl
  rw [hfilter, hfilter, map_brief_sightings, map_brief_sightings]
  exact h.filter _

end

/-! ## Selection -/

section Selection

variable {py : Python} (text : ReportText py) (groups : Dict GroupKey Group)

/-- The rank of a group as a tuple. -/
def rankTuple (key : GroupKey) : ℤ ×ₗ String :=
  toLex (rank text groups key)

/-- A group ranks first among those of its pattern. -/
def Leads (keys : List GroupKey) (key : GroupKey) : Prop :=
  key ∈ keys ∧ ∀ key' ∈ keys, key'.pattern = key.pattern →
    rankTuple text groups key ≤ rankTuple text groups key'

variable {text groups} {x : GroupKey}

theorem rankLe_iff {y : GroupKey} : rankLe (rank text groups x) (rank text groups y) = true ↔
      rankTuple text groups x ≤ rankTuple text groups y := by
  simp only [rankLe, rankTuple, Prod.Lex.toLex_le_toLex, decide_eq_true_eq]

/-- Different groups have different ranks. -/
theorem rankTuple_injective : Function.Injective (rankTuple text groups) := by
  intro x y h
  exact text.reprKey_injective (congrArg (fun rank : ℤ × String => rank.2) (toLex_inj.mp h))

variable {keys : List GroupKey}

theorem pairwise_sortByRank : (sortByRank text groups keys).Pairwise
    fun x y => rankTuple text groups x ≤ rankTuple text groups y := by
  have : Std.Total fun x y => rankLe (rank text groups x) (rank text groups y) = true :=
    ⟨fun x y => by simpa only [rankLe_iff] using le_total _ _⟩
  have : IsTrans GroupKey fun x y => rankLe (rank text groups x) (rank text groups y) = true :=
    ⟨fun x y z => by simpa only [rankLe_iff] using le_trans⟩
  refine (pairwise_insertionSort _ keys).imp fun {x y} h => ?_
  exact rankLe_iff.mp h

/-- Sorting by rank forgets the order. -/
theorem sortByRank_congr {keys' : List GroupKey} (h : keys.Perm keys') :
    sortByRank text groups keys = sortByRank text groups keys' := by
  refine List.Perm.eq_of_pairwise (fun x y _ _ hxy hyx => ?_) pairwise_sortByRank pairwise_sortByRank ?_
  · exact rankTuple_injective (le_antisymm hxy hyx)
  · exact sortByRank_perm.trans (h.trans sortByRank_perm.symm)

variable {key : GroupKey}

/-- A leader of some keys and one key more. -/
theorem Leads.concat (h : Leads text groups keys key)
    (hx : x.pattern = key.pattern → rankTuple text groups key ≤ rankTuple text groups x) :
    Leads text groups (keys ++ [x]) key := by
  refine ⟨mem_append_left _ h.1, fun key' hkey' hpattern => ?_⟩
  obtain hmem | hmem := mem_append.mp hkey'
  · exact h.2 key' hmem hpattern
  · obtain rfl := mem_singleton.mp hmem
    exact hx hpattern

/-- The representative of a pattern so far leads the keys so far, and a pattern without one has no
key. -/
theorem represent_spec (keys : List GroupKey) (pattern : Pattern) :
    (∀ key, find? (keys.foldl (represent text groups) .empty) pattern = some key →
      key.pattern = pattern ∧ Leads text groups keys key) ∧
    (find? (keys.foldl (represent text groups) .empty) pattern = none → ∀ key ∈ keys, key.pattern ≠ pattern) := by
  induction keys using List.reverseRecOn with
  | nil => exact ⟨fun key h => (by cases h), fun _ _ h => (by cases h)⟩
  | append_singleton keys x ih =>
    obtain ⟨hsome, hnone⟩ := ih
    rw [foldl_append, foldl_cons, foldl_nil]
    generalize keys.foldl (represent text groups) .empty = d at hsome hnone ⊢
    by_cases hx : x.pattern = pattern
    · subst hx
      have hfound {key : GroupKey} (h : key.pattern = x.pattern ∧ Leads text groups (keys ++ [x]) key) :
          (∀ key', some key = some key' → key'.pattern = x.pattern ∧ Leads text groups (keys ++ [x]) key') ∧
            (some key = none → ∀ key' ∈ keys ++ [x], key'.pattern ≠ x.pattern) :=
        ⟨fun _ heq => Option.some.inj heq ▸ h, fun hnone => by cases hnone⟩
      have hnew (h : ∀ key ∈ keys, key.pattern = x.pattern → rankTuple text groups x ≤ rankTuple text groups key) :
          Leads text groups (keys ++ [x]) x := by
        refine ⟨mem_append_right _ mem_cons_self, fun key hkey hsame => ?_⟩
        obtain hmem | hmem := mem_append.mp hkey
        · exact h key hmem hsame
        · rw [mem_singleton.mp hmem]
      rw [represent]
      cases hfind : d.find? x.pattern with
      | none =>
        rw [find?_put, if_pos rfl]
        exact hfound ⟨rfl, hnew fun key hkey hsame => absurd hsame (hnone hfind key hkey)⟩
      | some previous =>
        obtain ⟨hpattern, hleads⟩ := hsome previous hfind
        simp only
        split
        · next hrank =>
          rw [hfind]
          exact hfound ⟨hpattern, hleads.concat fun _ => rankLe_iff.mp hrank⟩
        · next hrank =>
          rw [rankLe_iff, not_le] at hrank
          rw [find?_put, if_pos rfl]
          exact hfound ⟨rfl, hnew fun key hkey hsame =>
            hrank.le.trans (hleads.2 key hkey (hsame.trans hpattern.symm))⟩
    · -- the representative of another pattern stays
      have hput : find? (d.put (x.pattern, x)) pattern = d.find? pattern := by
        rw [find?_put, if_neg (Ne.symm hx)]
      have hkeep : find? (represent text groups d x) pattern = d.find? pattern := by
        rw [represent]
        split
        · exact hput
        split
        · rfl
        · exact hput
      rw [hkeep]
      refine ⟨fun key hkey => ?_, fun hfind key hkey => ?_⟩
      · obtain ⟨hpattern, hlead⟩ := hsome key hkey
        exact ⟨hpattern, hlead.concat fun hsame => absurd (hsame.trans hpattern) hx⟩
      · obtain hmem | hmem := mem_append.mp hkey
        · exact hnone hfind key hmem
        · exact mem_singleton.mp hmem ▸ hx

theorem mem_representatives :
    key ∈ (representatives text groups).rows.map Prod.snd ↔ Leads text groups groups.keys key := by
  obtain ⟨hsome, hnone⟩ := @represent_spec _ text groups groups.keys key.pattern
  rw [← representatives] at hsome hnone
  constructor
  · intro hmem
    obtain ⟨row, hrow, rfl⟩ := mem_map.mp hmem
    obtain ⟨-, hpattern⟩ := representatives_spec row hrow
    have hfind : (representatives text groups).find? row.2.pattern = some row.2 := by
      rw [hpattern]
      exact find?_eq_some.mpr hrow
    exact (hsome row.2 hfind).2
  · intro hleads
    cases hfind : (representatives text groups).find? key.pattern with
    | none => exact absurd rfl (hnone hfind key hleads.1)
    | some key' =>
      obtain ⟨hpattern, hleads'⟩ := hsome key' hfind
      -- two leaders of a pattern are the same
      obtain rfl : key = key' := rankTuple_injective (le_antisymm
        (hleads.2 key' hleads'.1 hpattern) (hleads'.2 key hleads.1 hpattern.symm))
      exact mem_map.mpr ⟨(key.pattern, key), find?_eq_some.mp hfind, rfl⟩

variable {groups' : Dict GroupKey Group}

/-- The groups of two reports have the same keys and counts. -/
def SameCounts (groups groups' : Dict GroupKey Group) : Prop :=
  ∀ key, (groups.find? key).map Group.count = (groups'.find? key).map Group.count

theorem sameCounts_groupsOf (maxExamples : Nat) (h : (briefs flows).Perm (briefs flows')) :
    SameCounts (groupsOf maxExamples flows) (groupsOf maxExamples flows') := by
  intro key
  have hcounts := congrArg (Option.map Figures.count) (figures_groupsOf maxExamples h key)
  rwa [Option.map_map, Option.map_map] at hcounts

section

variable (h : SameCounts groups groups')

include h

theorem SameCounts.keys_perm : groups.keys.Perm groups'.keys := by
  refine (perm_ext_iff_of_nodup groups.nodup groups'.nodup).mpr fun key => ?_
  have hsome := congrArg Option.isSome (h key)
  rw [Option.isSome_map, Option.isSome_map] at hsome
  exact mem_keys_iff.trans (Eq.congr_left hsome |>.trans mem_keys_iff.symm)

theorem SameCounts.rank_eq : rank text groups = rank text groups' := by
  funext key
  have hcount (d : Dict GroupKey Group) :
      (d.find? key).elim 0 Group.count = ((d.find? key).map Group.count).getD 0 := by
    cases d.find? key <;> rfl
  rw [rank, rank, hcount, hcount, h key]

/-- The selection depends on the counts of the groups. -/
theorem selectGroups_congr (maxIssues : Nat) :
    selectGroups text groups maxIssues = selectGroups text groups' maxIssues := by
  have hsort : sortByRank text groups = sortByRank text groups' := by
    funext keys
    rw [sortByRank, sortByRank, h.rank_eq]
  have htuple : rankTuple text groups = rankTuple text groups' := by
    funext key
    rw [rankTuple, rankTuple, h.rank_eq]
  have hrepresentatives : ((representatives text groups).rows.map Prod.snd).Perm
      ((representatives text groups').rows.map Prod.snd) := by
    rw [perm_ext_iff_of_nodup representatives_nodup representatives_nodup]
    intro key
    rw [mem_representatives, mem_representatives, Leads, Leads, htuple]
    simp only [h.keys_perm.mem_iff]
  have hfirst : nsmallest text groups maxIssues ((representatives text groups).rows.map Prod.snd) =
      nsmallest text groups' maxIssues ((representatives text groups').rows.map Prod.snd) := by
    rw [nsmallest, nsmallest, hsort, sortByRank_congr hrepresentatives]
  have hchosen : chosenGroups text groups maxIssues = chosenGroups text groups' maxIssues := by
    rw [chosenGroups, chosenGroups, hfirst]
    simp only [nsmallest, hsort]
    rw [sortByRank_congr (h.keys_perm.filter _)]
  rw [selectGroups, selectGroups, hsort, hchosen]

end

/-- Counting names what it counts. -/
theorem isSome_foldl_bump {κ : Type} [DecidableEq κ] (l : List κ) (d : Dict κ Nat) (k : κ) :
    (find? (l.foldl bump d) k).isSome = true ↔ k ∈ l ∨ (d.find? k).isSome = true := by
  induction l generalizing d with
  | nil => simp
  | cons x l ih =>
    rw [foldl_cons, ih, bump, find?_put, mem_cons]
    by_cases hk : k = x
    · simp [hk]
    · simp [hk]

theorem mem_families_iff {groups : Dict GroupKey Group} {row : Pattern × Nat} :
    row ∈ (observedFamilies groups).rows ↔ row.1 ∈ groups.keys.map GroupKey.pattern ∧
      row.2 = (groups.keys.filter fun key => key.pattern = row.1).length := by
  have hfold : observedFamilies groups = (groups.keys.map GroupKey.pattern).foldl bump .empty := by
    rw [observedFamilies, foldl_map]
  have hsome := isSome_foldl_bump (groups.keys.map GroupKey.pattern) .empty row.1
  rw [← hfold] at hsome
  constructor
  · intro hrow
    have hfind : (observedFamilies groups).find? row.1 = some row.2 := find?_eq_some.mpr hrow
    rw [hfind] at hsome
    exact ⟨(hsome.mp rfl).resolve_right (by simp), mem_observedFamilies groups hrow⟩
  · rintro ⟨hpattern, hcount⟩
    obtain ⟨n, hfind⟩ := Option.isSome_iff_exists.mp (hsome.mpr (.inl hpattern))
    have hmem := find?_eq_some.mp hfind
    obtain rfl : n = row.2 := (mem_observedFamilies groups hmem).trans hcount.symm
    exact hmem

/-- The coverage depends on the counts of the groups. -/
theorem familyCoverage_congr (h : SameCounts groups groups') (selected : List GroupKey) :
    familyCoverage groups selected = familyCoverage groups' selected := by
  have hperm : (observedFamilies groups).rows.Perm (observedFamilies groups').rows := by
    refine (perm_ext_iff_of_nodup (observedFamilies groups).nodup.of_map
      (observedFamilies groups').nodup.of_map).mpr fun row => ?_
    rw [mem_families_iff, mem_families_iff, (h.keys_perm.map GroupKey.pattern).mem_iff,
      (h.keys_perm.filter _).length_eq]
  have : Std.Total fun x y : Pattern × Nat => x.1.text ≤ y.1.text := ⟨fun x y => le_total _ _⟩
  have : IsTrans (Pattern × Nat) fun x y => x.1.text ≤ y.1.text := ⟨fun x y z => le_trans⟩
  have hsorted : (observedFamilies groups).rows.insertionSort (fun x y => x.1.text ≤ y.1.text) =
      (observedFamilies groups').rows.insertionSort fun x y => x.1.text ≤ y.1.text := by
    refine List.Perm.eq_of_pairwise (fun x y hx hy hxy hyx => ?_) (pairwise_insertionSort _ _)
      (pairwise_insertionSort _ _) ?_
    · -- a pattern has one row
      have hpattern := Pattern.text_injective (le_antisymm hxy hyx)
      have hx' := mem_families_iff.mp ((perm_insertionSort _ _).mem_iff.mp hx)
      have hy' := mem_families_iff.mp ((perm_insertionSort _ _).mem_iff.mp hy)
      refine Prod.ext hpattern ?_
      rw [hx'.2, hy'.2, hpattern, (h.keys_perm.filter _).length_eq]
    · exact (perm_insertionSort _ _).trans (hperm.trans (perm_insertionSort _ _).symm)
  rw [familyCoverage, familyCoverage, hsorted]

/-! ## The selection is exact -/

variable {n : Nat}

/-- What is left out ranks after what is taken. -/
theorem nsmallest_lt {y : GroupKey} (hx : x ∈ nsmallest text groups n keys) (hy : y ∈ keys)
    (hout : y ∉ nsmallest text groups n keys) : rankTuple text groups x < rankTuple text groups y := by
  have hsorted : (sortByRank text groups keys).Pairwise _ := pairwise_sortByRank
  rw [← sortByRank_perm.mem_iff] at hy
  rw [← take_append_drop n (sortByRank text groups keys)] at hsorted hy
  have hdrop := (mem_append.mp hy).resolve_left hout
  refine lt_of_le_of_ne ((pairwise_append.mp hsorted).2.2 x hx y hdrop) fun heq => ?_
  exact hout (rankTuple_injective heq ▸ hx)

theorem mem_nsmallest_of_le (hx : x ∈ keys) (h : keys.length ≤ n) : x ∈ nsmallest text groups n keys := by
  rw [nsmallest, take_of_length_le (sortByRank_perm.length_eq.trans_le h)]
  exact sortByRank_perm.mem_iff.mpr hx

/-- The patterns that have a representative are the observed ones. -/
theorem length_representatives :
    ((representatives text groups).rows.map Prod.snd).length = (observedFamilies groups).rows.length := by
  have hperm : ((representatives text groups).rows.map Prod.fst).Perm
      ((observedFamilies groups).rows.map Prod.fst) := by
    refine (perm_ext_iff_of_nodup (representatives text groups).nodup
      (observedFamilies groups).nodup).mpr fun pattern => ⟨fun h => ?_, fun h => ?_⟩
    · obtain ⟨row, hrow, rfl⟩ := mem_map.mp h
      obtain ⟨hkey, hpattern⟩ := representatives_spec row hrow
      exact hpattern ▸ pattern_mem_families groups hkey
    · obtain ⟨row, hrow, rfl⟩ := mem_map.mp h
      obtain ⟨key, hkey, hpattern⟩ := mem_map.mp (mem_families_iff.mp hrow).1
      by_contra hmem
      exact (represent_spec groups.keys row.1).2
        (Option.map_eq_none_iff.mpr (Table.get?_eq_none.mpr hmem)) key hkey hpattern
  rw [length_map, ← length_map Prod.fst, hperm.length_eq, length_map]

theorem leads_of_mem_firstGroups (h : key ∈ firstGroups text groups n) : Leads text groups groups.keys key :=
  mem_representatives.mp (nsmallest_subset h)

variable (text)

/-- The report shows as many groups as it may, by their rank. First come the best groups of the patterns,
then the best of the others. The order of flows and observations does not matter. -/
theorem selection_exact (flows : Dict FlowKey Flow) (maxIssues maxExamples : Nat) :
    let groups := groupsOf maxExamples flows
    let selected := selectGroups text groups maxIssues
    let before := fun x y => rankTuple text groups x < rankTuple text groups y
    selected.length = min maxIssues groups.keys.length ∧ selected ⊆ groups.keys ∧
    selected.Pairwise before ∧
    ((observedFamilies groups).rows.length ≤ maxIssues → ∀ key ∈ groups.keys,
      ∃ top ∈ selected, top.pattern = key.pattern ∧ Leads text groups groups.keys top) ∧
    (maxIssues < (observedFamilies groups).rows.length → selected.length = maxIssues ∧
      ∀ key ∈ selected, Leads text groups groups.keys key ∧
        ∀ other, Leads text groups groups.keys other → other ∉ selected → before key other) ∧
    (∀ key ∈ selected, ¬Leads text groups groups.keys key →
      ∀ other ∈ groups.keys, other ∉ selected → before key other) ∧
    ∀ flows', (sightings flows').Perm (sightings flows) →
      selectGroups text (groupsOf maxExamples flows') maxIssues = selected := by
  intro groups selected before
  have hmem (key : GroupKey) : key ∈ selected ↔ _ := mem_selectGroups
  have hlength : selected.length = _ := length_selectGroups text groups maxIssues
  have hpatterns : ((representatives text groups).rows.map Prod.snd).length = _ := length_representatives
  have hfirst : (firstGroups text groups maxIssues).length = _ := length_nsmallest
  refine ⟨hlength, selectGroups_subset .., ?_, fun hfew key hkey => ?_, fun hmany => ?_,
    fun key hkey hnot other hother hout => ?_, fun flows' hflows => ?_⟩
  · refine (pairwise_sortByRank.and (selectGroups_nodup ..)).imp ?_
    exact fun h => lt_of_le_of_ne h.1 fun heq => h.2 (rankTuple_injective heq)
  · cases hfind : (representatives text groups).find? key.pattern with
    | none => exact absurd rfl ((represent_spec groups.keys key.pattern).2 hfind key hkey)
    | some top =>
      obtain ⟨hpattern, hleads⟩ := (represent_spec groups.keys key.pattern).1 top hfind
      have htop := mem_representatives.mpr hleads
      exact ⟨top, (hmem top).mpr (.inl (mem_nsmallest_of_le htop (by omega))), hpattern, hleads⟩
  · -- the representatives leave no room for others
    have hfull : (firstGroups text groups maxIssues).length = maxIssues := by omega
    have hnone (key : GroupKey) (hkey : key ∈ selected) : key ∈ firstGroups text groups maxIssues := by
      refine ((hmem key).mp hkey).resolve_right fun hrest => ?_
      rw [hfull, Nat.sub_self] at hrest
      cases hrest
    refine ⟨?_, fun key hkey => ⟨?_, fun other hother hout => ?_⟩⟩
    · have hsubset : (representatives text groups).rows.map Prod.snd ⊆ groups.keys := fun key hkey =>
        (mem_representatives.mp hkey).1
      have hle := (representatives_nodup.subperm hsubset).length_le
      omega
    · exact leads_of_mem_firstGroups (hnone key hkey)
    · exact nsmallest_lt (hnone key hkey) (mem_representatives.mpr hother) fun h => hout ((hmem other).mpr (.inl h))
  · have hrest := ((hmem key).mp hkey).resolve_left fun h =>
      hnot (leads_of_mem_firstGroups h)
    refine nsmallest_lt hrest (mem_filter.mpr ⟨hother, ?_⟩) fun h =>
      hout ((hmem other).mpr (.inr h))
    exact decide_eq_true fun h => hout ((hmem other).mpr (.inl h))
  · have hbriefs : (briefs flows').Perm (briefs flows) := by
      rw [← map_brief_sightings, ← map_brief_sightings]
      exact hflows.map _
    exact selectGroups_congr (sameCounts_groupsOf maxExamples hbriefs) maxIssues

end Selection

end C2Hunter.Network
