import C2Hunter.NetworkReport

/-!
# Groups and their selection

The report sees the flows only through their sightings: the observations of all flows, each with
the key of its flow. A group is a fold over the sightings of its key, and the selection is a list
of keys without repetitions.

* `sightings`, `groupFrom` — the groups as a function of the sightings; `find?_groupsOf`.
* `sum_groupsOf` — the groups share out the events of the flows.
* `selectGroups_nodup`, `selectGroups_subset`, `length_selectGroups_le` — the selection.
* `sum_observed`, `sum_retained` — the columns of the family coverage.
-/

namespace C2Hunter.Network

open List

/-! ## Sightings -/

/-- An observation with the keys it is found under. -/
structure Sighting where
  flow : FlowKey
  kind : Pattern × Endpoint
  observation : Observation

/-- The group of a sighting. -/
def Sighting.group (x : Sighting) : GroupKey := groupKey x.flow x.kind

/-- The observations of all flows. -/
def sightings (flows : Dict FlowKey Flow) : List Sighting :=
  flows.rows.flatMap fun row => row.2.observations.rows.map fun o => ⟨row.1, o.1, o.2⟩

section

variable (maxExamples : Nat)

/-- The group of some sightings. -/
def groupFrom : List Sighting → Option Group
  | [] => none
  | x :: xs => some (xs.foldl (fun g x => g.add maxExamples x.flow x.observation)
      (Group.start x.flow x.observation))

theorem groupFrom_concat (xs : List Sighting) (x : Sighting) : groupFrom maxExamples (xs ++ [x]) =
      some (match groupFrom maxExamples xs with
        | none => Group.start x.flow x.observation
        | some group => group.add maxExamples x.flow x.observation) := by
  cases xs with
  | nil => rfl
  | cons =>
    simp only [groupFrom, cons_append, foldl_append, foldl_cons, foldl_nil]

/-- A sighting joins its group. -/
def addSighting (groups : Dict GroupKey Group) (x : Sighting) :
    Dict GroupKey Group := addToGroup maxExamples x.flow groups (x.kind, x.observation)

theorem groupsOf_eq (flows : Dict FlowKey Flow) :
    groupsOf maxExamples flows = (sightings flows).foldl (addSighting maxExamples) .empty := by
  rw [groupsOf, sightings, foldl_flatMap]
  simp only [foldl_map]
  rfl

theorem find?_addSighting (groups : Dict GroupKey Group) (x : Sighting) (key : GroupKey) :
    Dict.find? (addSighting maxExamples groups x) key = if key = x.group then
        some (match groups.find? key with
          | none => Group.start x.flow x.observation
          | some group => group.add maxExamples x.flow x.observation)
      else groups.find? key := by
  rw [addSighting, addToGroup, Dict.find?_put]
  by_cases hkey : key = x.group
  · subst hkey
    rfl
  · rw [if_neg hkey]
    exact if_neg hkey

/-- The group of a key is made of the sightings of that key. -/
theorem find?_groupsOf (flows : Dict FlowKey Flow) (key : GroupKey) : (groupsOf maxExamples flows).find? key =
      groupFrom maxExamples ((sightings flows).filter fun x => key = x.group) := by
  rw [groupsOf_eq]
  -- the groups so far are those of the sightings so far
  suffices ∀ (xs pre : List Sighting) (groups : Dict GroupKey Group),
      groups.find? key = groupFrom maxExamples (pre.filter fun x => key = x.group) →
      Dict.find? (xs.foldl (addSighting maxExamples) groups) key =
        groupFrom maxExamples ((pre ++ xs).filter fun x => key = x.group) from
    this (sightings flows) [] .empty rfl
  intro xs
  induction xs with
  | nil =>
    intro pre groups hgroups
    rw [append_nil]
    exact hgroups
  | cons x xs ih =>
    intro pre groups hgroups
    rw [foldl_cons, append_cons]
    apply ih
    rw [find?_addSighting, filter_append]
    by_cases hkey : key = x.group
    · rw [if_pos hkey, filter_cons_of_pos (by simpa using hkey), filter_nil, groupFrom_concat, hgroups]
    · rw [if_neg hkey, filter_cons_of_neg (by simpa using hkey), filter_nil, append_nil, hgroups]

end

theorem mem_keys_iff {κ ν : Type} [DecidableEq κ] {d : Dict κ ν} {k : κ} :
    k ∈ d.keys ↔ (d.find? k).isSome = true := by
  rw [Option.isSome_iff_exists, Dict.keys, mem_map]
  constructor
  · rintro ⟨⟨k', v⟩, hrow, rfl⟩
    exact ⟨v, Dict.find?_eq_some.mpr hrow⟩
  · rintro ⟨v, hfind⟩
    exact ⟨(k, v), Dict.find?_eq_some.mp hfind, rfl⟩

/-- A group is made of its sightings in order: its counts, and its examples, which are the first
of them. -/
theorem groupFrom_spec (maxExamples : Nat) (hmax : 1 ≤ maxExamples) (xs : List Sighting)
    (g : Group) (h : groupFrom maxExamples xs = some g) :
    g.count = (xs.map fun x => x.observation.count).sum ∧ g.flows = xs.length ∧
      g.examples = (xs.map fun x => (x.flow, x.observation)).take maxExamples := by
  induction xs using List.reverseRecOn generalizing g with
  | nil => cases h
  | append_singleton xs x ih =>
    rw [groupFrom_concat, Option.some.injEq] at h
    subst h
    rw [map_append, sum_append, map_append, length_append]
    cases hxs : groupFrom maxExamples xs with
    | none =>
      cases xs with
      | nil =>
        refine ⟨by simp [Group.start], rfl, ?_⟩
        rw [take_of_length_le (by simpa using hmax)]
        rfl
      | cons y ys => cases hxs
    | some g =>
      obtain ⟨hcount, hflows, hexamples⟩ := ih g hxs
      refine ⟨by simp [Group.add, hcount], by simp [Group.add, hflows], ?_⟩
      simp only [Group.add, hexamples, length_take, length_map, map_cons, map_nil]
      by_cases hfull : xs.length < maxExamples
      · rw [if_pos (by omega), take_of_length_le (by simp; omega), take_of_length_le (by simp; omega)]
      · rw [if_neg (by omega), take_append_of_le_length (by simp; omega)]

/-! ## Events -/

theorem count_addSighting (maxExamples : Nat) (groups : Dict GroupKey Group) (x : Sighting) :
    Dict.sum (fun g => (g.count : Int)) (addSighting maxExamples groups x) =
      groups.sum (fun g => (g.count : Int)) + x.observation.count := by
  rw [addSighting, addToGroup, Dict.sum_put]
  cases groups.find? (groupKey x.flow x.kind) with
  | none => simp [Group.start]
  | some =>
    simp [Group.add]
    ring

/-- The groups share out the events of the flows. -/
theorem sum_groupsOf (maxExamples : Nat) (flows : Dict FlowKey Flow) :
    Dict.sum (fun g => (g.count : Int)) (groupsOf maxExamples flows) =
      flows.sum fun flow => flow.observations.sum fun o => (o.count : Int) := by
  have hfold (xs : List Sighting) (groups : Dict GroupKey Group) :
      Dict.sum (fun g => (g.count : Int)) (xs.foldl (addSighting maxExamples) groups) =
        groups.sum (fun g => (g.count : Int)) + (xs.map fun x => (x.observation.count : Int)).sum := by
    induction xs generalizing groups with
    | nil => exact (add_zero _).symm
    | cons x xs ih =>
      rw [foldl_cons, ih, count_addSighting, map_cons, sum_cons]
      ring
  rw [groupsOf_eq, hfold, Dict.sum_empty, zero_add, sightings, map_flatMap, Dict.sum,
    flatMap_def, sum_flatten, map_map]
  congr 1
  apply map_congr_left
  intro row _
  simp only [Function.comp_apply, map_map]
  rfl

/-! ## Selection -/

variable {keys : List GroupKey}

section Selection

variable {py : Python} {text : ReportText py} {groups : Dict GroupKey Group} {n : Nat}

theorem sortByRank_perm : (sortByRank text groups keys).Perm keys :=
  perm_insertionSort _ _

theorem nsmallest_subset : nsmallest text groups n keys ⊆ keys :=
  fun _ h => sortByRank_perm.mem_iff.mp (mem_of_mem_take h)

theorem nsmallest_nodup (h : keys.Nodup) : (nsmallest text groups n keys).Nodup :=
  (sortByRank_perm.nodup_iff.mpr h).sublist (take_sublist n _)

theorem length_nsmallest : (nsmallest text groups n keys).length = min n keys.length := by
  rw [nsmallest, length_take, sortByRank_perm.length_eq]

/-- The representative of a pattern is a group of that pattern. -/
theorem representatives_spec :
    ∀ row ∈ (representatives text groups).rows, row.2 ∈ groups.keys ∧ row.2.pattern = row.1 := by
  suffices ∀ (keys : List GroupKey) (d : Dict Pattern GroupKey), keys ⊆ groups.keys →
      (∀ row ∈ d.rows, row.2 ∈ groups.keys ∧ row.2.pattern = row.1) →
      ∀ row ∈ (keys.foldl (represent text groups) d).rows, row.2 ∈ groups.keys ∧ row.2.pattern = row.1 from
    this groups.keys .empty (List.Subset.refl _) fun _ h => by cases h
  intro keys
  induction keys with
  | nil => exact fun d _ hd => hd
  | cons key keys ih =>
    intro d hkeys hd
    rw [foldl_cons]
    refine ih _ (fun k hk => hkeys (mem_cons_of_mem _ hk)) ?_
    have hput : ∀ row ∈ (d.put (key.pattern, key)).rows, row.2 ∈ groups.keys ∧ row.2.pattern = row.1 :=
      Dict.forall_put (p := fun pattern key => key ∈ groups.keys ∧ key.pattern = pattern) hd
        ⟨hkeys mem_cons_self, rfl⟩
    rw [represent]
    split
    · exact hput
    split
    · exact hd
    · exact hput

theorem representatives_nodup : ((representatives text groups).rows.map Prod.snd).Nodup := by
  -- different patterns have different representatives
  have hpattern : ((representatives text groups).rows.map Prod.snd).map GroupKey.pattern =
      (representatives text groups).rows.map Prod.fst := by
    rw [map_map]
    exact map_congr_left fun row hrow => (representatives_spec row hrow).2
  have hnodup := (representatives text groups).nodup
  rw [← hpattern] at hnodup
  exact hnodup.of_map _

variable (text groups) (maxIssues : Nat)

/-- The groups that are chosen first. -/
abbrev firstGroups : List GroupKey :=
  nsmallest text groups maxIssues ((representatives text groups).rows.map Prod.snd)

variable {text groups maxIssues}

theorem firstGroups_nodup : (firstGroups text groups maxIssues).Nodup :=
  nsmallest_nodup representatives_nodup

theorem firstGroups_subset : firstGroups text groups maxIssues ⊆ groups.keys := by
  intro key hkey
  obtain ⟨row, hrow, rfl⟩ := mem_map.mp (nsmallest_subset hkey)
  exact (representatives_spec row hrow).1

theorem mem_selectGroups {key : GroupKey} :
    key ∈ selectGroups text groups maxIssues ↔ key ∈ firstGroups text groups maxIssues ∨
      key ∈ nsmallest text groups (maxIssues - (firstGroups text groups maxIssues).length)
        (groups.keys.filter (· ∉ firstGroups text groups maxIssues)) :=
  sortByRank_perm.mem_iff.trans mem_append

variable (text groups maxIssues)

theorem selectGroups_nodup : (selectGroups text groups maxIssues).Nodup := by
  refine sortByRank_perm.nodup_iff.mpr (nodup_append'.mpr
    ⟨firstGroups_nodup, nsmallest_nodup (groups.nodup.filter _), fun key hkey hkey' => ?_⟩)
  exact of_decide_eq_true (mem_filter.mp (nsmallest_subset hkey')).2 hkey

theorem selectGroups_subset : selectGroups text groups maxIssues ⊆ groups.keys := by
  intro key hkey
  obtain hfirst | hrest := mem_selectGroups.mp hkey
  · exact firstGroups_subset hfirst
  · exact mem_of_mem_filter (nsmallest_subset hrest)

theorem length_selectGroups : (selectGroups text groups maxIssues).length = min maxIssues groups.keys.length := by
  rw [selectGroups, sortByRank_perm.length_eq]
  change (firstGroups text groups maxIssues ++ nsmallest text groups
    (maxIssues - (firstGroups text groups maxIssues).length) (groups.keys.filter
      (· ∉ firstGroups text groups maxIssues))).length = _
  have hnodup : (firstGroups text groups maxIssues).Nodup := firstGroups_nodup
  have hsubset : firstGroups text groups maxIssues ⊆ groups.keys := firstGroups_subset
  have hlength : (firstGroups text groups maxIssues).length = _ := length_nsmallest
  generalize firstGroups text groups maxIssues = first at hnodup hsubset hlength ⊢
  have hperm : (first ++ groups.keys.filter (· ∉ first)).Perm groups.keys := by
    refine (perm_ext_iff_of_nodup (nodup_append'.mpr ⟨hnodup, groups.nodup.filter _, ?_⟩)
      groups.nodup).mpr fun key => ?_
    · intro key hkey hkey'
      exact of_decide_eq_true (mem_filter.mp hkey').2 hkey
    · by_cases hkey : key ∈ first
      · exact iff_of_true (mem_append_left _ hkey) (hsubset hkey)
      · simp [hkey]
  have htotal := hperm.length_eq
  rw [length_append] at htotal ⊢
  rw [length_nsmallest]
  omega

end Selection

/-! ## Families -/

section Families

variable (groups : Dict GroupKey Group)

theorem getD_observedFamilies (pattern : Pattern) : (observedFamilies groups).getD pattern 0 =
      (groups.keys.filter fun key => key.pattern = pattern).length := by
  have hfold : observedFamilies groups = (groups.keys.map GroupKey.pattern).foldl Dict.bump .empty := by
    rw [observedFamilies, foldl_map]
  rw [hfold, Dict.getD_foldl_bump, Dict.getD_empty, zero_add, filter_map, length_map]
  rfl

theorem mem_observedFamilies {row : Pattern × Nat} (h : row ∈ (observedFamilies groups).rows) :
    row.2 = (groups.keys.filter fun key => key.pattern = row.1).length := by
  rw [← getD_observedFamilies]
  have hfind : (observedFamilies groups).find? row.1 = some row.2 := Dict.find?_eq_some.mpr h
  rw [Dict.getD]
  exact (congrArg (Option.getD · 0) hfind).symm

/-- Every pattern of a group is a family. -/
theorem pattern_mem_families {key : GroupKey} (h : key ∈ groups.keys) :
    key.pattern ∈ (observedFamilies groups).rows.map Prod.fst := by
  by_contra hmem
  have hnone := Table.get?_eq_none.mpr hmem
  have hcount := getD_observedFamilies groups key.pattern
  rw [Dict.getD, hnone] at hcount
  have hempty := length_eq_zero_iff.mp hcount.symm
  have hkey : key ∈ groups.keys.filter fun key' => key'.pattern = key.pattern :=
    mem_filter.mpr ⟨h, by simp⟩
  rw [hempty] at hkey
  cases hkey

/-- Keys are counted once, under their pattern. -/
theorem sum_by_pattern {patterns : List Pattern} (hnodup : patterns.Nodup)
    (h : ∀ key ∈ keys, key.pattern ∈ patterns) :
    (patterns.map fun pattern =>
      ((keys.filter fun key => key.pattern = pattern).length : Int)).sum = keys.length := by
  induction keys with
  | nil => simp
  | cons key keys ih =>
    have ih := ih fun k hk => h k (mem_cons_of_mem _ hk)
    have hone : (patterns.map fun pattern => if pattern = key.pattern then (1 : Int) else 0).sum = 1 := by
      rw [sum_map_ite_eq, count_eq_one_of_mem hnodup (h key mem_cons_self)]
      simp
    have hstep : ∀ pattern ∈ patterns, (((key :: keys).filter fun key => key.pattern = pattern).length : Int) =
          (keys.filter fun key => key.pattern = pattern).length + if pattern = key.pattern then 1 else 0 := by
      intro pattern _
      rw [filter_cons]
      by_cases hpattern : key.pattern = pattern
      · simp [hpattern]
      · simp [hpattern, Ne.symm hpattern]
    rw [map_congr_left hstep, sum_map_add, ih, hone]
    simp

variable (selected : List GroupKey)

/-- The families of the coverage, in another order. -/
theorem families_perm : (familyCoverage groups selected).families.Perm
    ((observedFamilies groups).rows.map (familyCount selected)) :=
  (perm_insertionSort _ _).map _

/-- A column that counts keys by their pattern adds up to their number. -/
theorem sum_families {column : FamilyCount → Int} (hkeys : keys ⊆ groups.keys)
    (hcolumn : ∀ row ∈ (observedFamilies groups).rows, (column ∘ familyCount selected) row =
      (keys.filter fun key => key.pattern = row.1).length) :
    ((familyCoverage groups selected).families.map column).sum = keys.length := by
  rw [((families_perm groups selected).map column).sum_eq, map_map,
    map_congr_left hcolumn, ← sum_by_pattern (observedFamilies groups).nodup fun key hkey =>
      pattern_mem_families groups (hkeys hkey), map_map]
  rfl

theorem sum_observed : ((familyCoverage groups selected).families.map FamilyCount.observedGroups).sum =
      groups.rows.length := by
  rw [sum_families groups selected (List.Subset.refl _) fun row hrow =>
    congrArg Nat.cast (mem_observedFamilies groups hrow), Dict.keys, length_map]

section

variable (h : selected ⊆ groups.keys)

include h

theorem sum_retained : ((familyCoverage groups selected).families.map FamilyCount.retainedGroups).sum =
      selected.length :=
  sum_families groups selected h fun _ _ => rfl

/-- Each row of the coverage adds up, and none of its columns is negative. -/
theorem family_row (hnodup : selected.Nodup) {f : FamilyCount}
    (hf : f ∈ (familyCoverage groups selected).families) :
    f.observedGroups = f.retainedGroups + f.omittedGroups ∧ 0 ≤ f.retainedGroups ∧ 0 ≤ f.omittedGroups := by
  obtain ⟨row, hrow, rfl⟩ := mem_map.mp ((families_perm groups selected).mem_iff.mp hf)
  have hle : (selected.filter fun key => key.pattern = row.1).length ≤ row.2 := by
    rw [mem_observedFamilies groups hrow]
    refine ((hnodup.filter _).subperm fun key hkey => ?_).length_le
    rw [mem_filter] at hkey ⊢
    exact ⟨h hkey.1, hkey.2⟩
  simp only [familyCount]
  omega

theorem sum_omitted : ((familyCoverage groups selected).families.map FamilyCount.omittedGroups).sum =
      (groups.rows.length : Int) - selected.length := by
  have hrow : ∀ f ∈ (familyCoverage groups selected).families,
      f.observedGroups = f.retainedGroups + f.omittedGroups := by
    intro f hf
    obtain ⟨row, -, rfl⟩ := mem_map.mp ((families_perm groups selected).mem_iff.mp hf)
    exact (add_sub_cancel _ _).symm
  have hsum := sum_observed groups selected
  rw [map_congr_left hrow, sum_map_add, sum_retained groups selected h] at hsum
  omega

end

end Families

end C2Hunter.Network
