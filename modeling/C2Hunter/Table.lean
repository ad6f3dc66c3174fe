import Mathlib.Data.List.Nodup
import Mathlib.Data.List.Perm.Subperm
import Mathlib.Data.List.Basic
import Mathlib.Algebra.Order.BigOperators.Group.List
import Mathlib.Algebra.Order.Group.Int
import Mathlib.Algebra.Ring.Int.Defs

/-!
# Insertion-ordered tables

A dictionary of the source language whose values know their own key: rows in
insertion order, one row a key. Assigning to a key that is present replaces the
row where it stands; a new key goes to the end. (Association lists that move an
assigned key to the front would lose the iteration order the source relies on.)

* `Table key` — the rows, with the proof that no key occurs twice.
* `Table.get?`, `Table.put`, `Table.erase` — lookup, assignment, deletion, with
  the read-over-write laws `get?_put`, `get?_erase`.
* `Table.writeBack` — a loop that walks a snapshot of the rows and writes some of
  them back; `get?_writeBack` says that it is a pointwise update.
* `Table.length_filter_le` — how many rows satisfy a predicate, compared between two
  tables key by key.
* `Dict κ ν` — the instance whose rows are key/value pairs; `Dict.push` appends to
  the list under a key, as `defaultdict(list)` does, and `Dict.bump` counts.
-/

/-- Rows in insertion order, at most one for each key. -/
structure Table {ρ κ : Type} (key : ρ → κ) : Type where
  /-- the rows, oldest key first -/
  rows : List ρ
  /-- no key occurs twice -/
  nodup : (rows.map key).Nodup

namespace Table

open List

variable {ρ κ : Type} {key : ρ → κ}

/-- The table without rows. -/
def empty : Table key := ⟨[], List.nodup_nil⟩

@[simp] theorem rows_empty : (empty : Table key).rows = [] := rfl

variable [DecidableEq κ]

/-- The row stored under a key. -/
def get? (t : Table key) (k : κ) : Option ρ := t.rows.find? fun r => key r = k

@[simp] theorem get?_empty (k : κ) : (empty : Table key).get? k = none := rfl

theorem get?_eq_some {t : Table key} {k : κ} {r : ρ} : t.get? k = some r ↔ r ∈ t.rows ∧ key r = k := by
  obtain ⟨rows, hnd⟩ := t
  simp only [get?]
  induction rows with
  | nil => simp
  | cons r' rows ih =>
    rw [map_cons, nodup_cons] at hnd
    rw [find?_cons]
    by_cases hk : key r' = k
    · simp only [hk, decide_true, Option.some.injEq, mem_cons]
      constructor
      · rintro rfl
        exact ⟨.inl rfl, hk⟩
      · rintro ⟨rfl | hmem, hr⟩
        · rfl
        · exact absurd (mem_map.mpr ⟨r, hmem, hr.trans hk.symm⟩) hnd.1
    · simp only [hk, decide_false, mem_cons, ih hnd.2]
      constructor
      · rintro ⟨hmem, hr⟩
        exact ⟨.inr hmem, hr⟩
      · rintro ⟨rfl | hmem, hr⟩
        · exact absurd hr hk
        · exact ⟨hmem, hr⟩

theorem key_of_get? {t : Table key} {k : κ} {r : ρ} (h : t.get? k = some r) : key r = k :=
  (get?_eq_some.mp h).2

theorem mem_of_get? {t : Table key} {k : κ} {r : ρ} (h : t.get? k = some r) : r ∈ t.rows :=
  (get?_eq_some.mp h).1

theorem get?_of_mem {t : Table key} {r : ρ} (h : r ∈ t.rows) : t.get? (key r) = some r :=
  get?_eq_some.mpr ⟨h, rfl⟩

theorem get?_key {t : Table key} {k : κ} {r : ρ} (h : t.get? k = some r) : t.get? (key r) = some r :=
  get?_of_mem (mem_of_get? h)

theorem get?_eq_none {t : Table key} {k : κ} : t.get? k = none ↔ k ∉ t.rows.map key := by
  rw [get?, find?_eq_none]
  simp

/-! ## Assignment -/

/-- Replace the row of the same key where it stands, or append. -/
def putRows (key : ρ → κ) (r : ρ) : List ρ → List ρ
  | [] => [r]
  | r' :: rows => if key r' = key r then r :: rows else r' :: putRows key r rows

theorem map_key_putRows (r : ρ) (rows : List ρ) : (putRows key r rows).map key =
      if key r ∈ rows.map key then rows.map key else rows.map key ++ [key r] := by
  induction rows with
  | nil => simp [putRows]
  | cons r' rows ih =>
    rw [putRows]
    by_cases hk : key r' = key r
    · simp [hk]
    have hk' : key r ≠ key r' := fun h => hk h.symm
    rw [if_neg hk, map_cons, ih]
    by_cases hmem : key r ∈ rows.map key
    · rw [if_pos hmem, if_pos (by simp [mem_map.mp hmem])]
      rfl
    · rw [if_neg hmem, if_neg (by simpa [hk'] using hmem)]
      rfl

/-- `table[key(r)] = r`. -/
def put (t : Table key) (r : ρ) : Table key where
  rows := putRows key r t.rows
  nodup := by
    rw [map_key_putRows]
    split
    · exact t.nodup
    next h =>
    rw [List.nodup_append]
    refine ⟨t.nodup, List.nodup_singleton _, ?_⟩
    rintro a ha b hb rfl
    rw [List.mem_singleton] at hb
    exact h (hb ▸ ha)

theorem get?_put_self (t : Table key) (r : ρ) : (t.put r).get? (key r) = some r := by
  rw [get?, put]
  simp only
  induction t.rows with
  | nil => simp [putRows]
  | cons r' rows ih =>
    rw [putRows]
    by_cases hk : key r' = key r
    · simp [hk]
    · rw [if_neg hk, find?_cons]
      simp only [hk, decide_false]
      exact ih

/-- A new key goes to the end. -/
theorem rows_put_of_get?_eq_none {t : Table key} {r : ρ} (h : t.get? (key r) = none) :
    (t.put r).rows = t.rows ++ [r] := by
  rw [get?_eq_none] at h
  rw [put]
  simp only
  generalize t.rows = rows at h
  induction rows with
  | nil => rfl
  | cons r' rows ih =>
    rw [map_cons, mem_cons, not_or] at h
    rw [putRows, if_neg (Ne.symm h.1), ih h.2, cons_append]

theorem get?_put_ne (t : Table key) {r : ρ} {k : κ} (h : k ≠ key r) : (t.put r).get? k = t.get? k := by
  rw [get?, get?, put]
  simp only
  induction t.rows with
  | nil => simp [putRows, Ne.symm h]
  | cons r' rows ih =>
    rw [putRows]
    by_cases hk : key r' = key r
    · have hr' : key r' ≠ k := fun hc => h (hc ▸ hk)
      simp [hk, Ne.symm h]
    · rw [if_neg hk, find?_cons, find?_cons, ih]

/-- Read over write. -/
theorem get?_put (t : Table key) (r : ρ) (k : κ) : (t.put r).get? k = if k = key r then some r else t.get? k := by
  by_cases h : k = key r
  · rw [if_pos h, h, get?_put_self]
  · rw [if_neg h, get?_put_ne t h]

/-! ## Deletion -/

/-- `table.pop(k, None)`. -/
def erase (t : Table key) (k : κ) : Table key where
  rows := t.rows.filter fun r => key r ≠ k
  nodup := t.nodup.sublist (List.Sublist.map key List.filter_sublist)

/-- Read over delete. -/
theorem get?_erase (t : Table key) (k k' : κ) : (t.erase k).get? k' = if k' = k then none else t.get? k' := by
  by_cases h : k' = k
  · rw [if_pos h, get?_eq_none, erase, h]
    simp
  rw [if_neg h, Option.ext_iff]
  intro r
  rw [get?_eq_some, get?_eq_some, erase]
  simp only [ne_eq, decide_not, mem_filter, Bool.not_eq_eq_eq_not, Bool.not_true, decide_eq_false_iff_not]
  constructor
  · rintro ⟨⟨hmem, -⟩, hk⟩
    exact ⟨hmem, hk⟩
  · rintro ⟨hmem, hk⟩
    exact ⟨⟨hmem, fun hc => h (hk.symm.trans hc)⟩, hk⟩

/-- Read over the deletion of several keys. -/
theorem rows_foldl_erase (ks : List κ) (t : Table key) :
    (ks.foldl erase t).rows = t.rows.filter fun r => key r ∉ ks := by
  induction ks generalizing t with
  | nil => simp
  | cons k ks ih =>
    rw [foldl_cons, ih, erase, filter_filter]
    refine filter_congr fun r _ => ?_
    simp [Bool.and_comm]

theorem get?_foldl_erase (ks : List κ) (t : Table key) (k' : κ) :
    (ks.foldl erase t).get? k' = if k' ∈ ks then none else t.get? k' := by
  induction ks generalizing t with
  | nil => simp
  | cons k ks ih =>
    rw [foldl_cons, ih, get?_erase]
    by_cases h : k' = k
    · simp [h]
    · simp [h]

/-! ## Writing rows back in a loop -/

/-- One round of a loop that writes `f r` back for a row `r`, or skips the row. -/
def writeRow (f : ρ → Option ρ) (t : Table key) (r : ρ) : Table key :=
  match f r with
  | some r' => t.put r'
  | none => t

/-- `for r in list(table.values())`, writing `f r` back. -/
def writeBack (t : Table key) (f : ρ → Option ρ) : Table key := t.rows.foldl (writeRow f) t

theorem get?_writeRow {f : ρ → Option ρ} (hf : ∀ r r', f r = some r' → key r' = key r)
    (t : Table key) (r : ρ) (k : κ) :
    (writeRow f t r).get? k = if k = key r then (f r).or (t.get? k) else t.get? k := by
  rw [writeRow]
  cases hfr : f r with
  | none => simp
  | some r' => rw [get?_put, hf r r' hfr, Option.some_or]

/-- Walking over rows of pairwise different keys changes exactly the rows written. -/
theorem get?_foldl_writeRow {f : ρ → Option ρ} (hf : ∀ r r', f r = some r' → key r' = key r)
    (l : List ρ) (hl : (l.map key).Nodup) (t : Table key) (k : κ) :
    (l.foldl (writeRow f) t).get? k = ((l.find? fun r => key r = k).bind f).or (t.get? k) := by
  induction l generalizing t with
  | nil => rfl
  | cons r l ih =>
    rw [map_cons, nodup_cons] at hl
    rw [foldl_cons, ih hl.2, find?_cons, get?_writeRow hf]
    by_cases hk : key r = k
    · have hnone : (l.find? fun r => key r = k) = none := by
        rw [find?_eq_none]
        intro r' hr' hk'
        rw [decide_eq_true_eq] at hk'
        exact hl.1 (mem_map.mpr ⟨r', hr', hk'.trans hk.symm⟩)
      simp [hnone, hk]
    · have hk' : k ≠ key r := fun h => hk h.symm
      simp [hk, hk']

/-- The loop over a snapshot of the rows is a pointwise update. -/
theorem get?_writeBack (t : Table key) {f : ρ → Option ρ} (hf : ∀ r r', f r = some r' → key r' = key r) (k : κ) :
    (t.writeBack f).get? k = (t.get? k).map fun r => (f r).getD r := by
  rw [writeBack, get?_foldl_writeRow hf t.rows t.nodup]
  change ((t.get? k).bind f).or (t.get? k) = _
  cases t.get? k with
  | none => rfl
  | some r =>
    rw [Option.bind_some, Option.map_some]
    cases f r <;> rfl

/-! ## Counting rows -/

/-- Rows that satisfy `p` are not more than those that satisfied it in another table,
apart from the rows of the keys `except`. -/
theorem length_filter_le {t t' : Table key} {p : ρ → Bool} (except : List κ)
    (h : ∀ r' ∈ t'.rows, p r' = true → key r' ∉ except → ∃ r ∈ t.rows, key r = key r' ∧ p r = true) :
    (t'.rows.filter p).length ≤ (t.rows.filter p).length + except.length := by
  have hnodup : ((t'.rows.filter p).map key).Nodup :=
    t'.nodup.sublist (List.Sublist.map key filter_sublist)
  have hsub : (t'.rows.filter p).map key ⊆ (t.rows.filter p).map key ++ except := by
    intro k hk
    obtain ⟨r', hr', rfl⟩ := mem_map.mp hk
    obtain ⟨hmem, hp⟩ := mem_filter.mp hr'
    by_cases hexcept : key r' ∈ except
    · exact mem_append_right _ hexcept
    · obtain ⟨r, hr, hkey, hpr⟩ := h r' hmem hp hexcept
      rw [← hkey]
      exact mem_append_left _ (mem_map.mpr ⟨r, mem_filter.mpr ⟨hr, hpr⟩, rfl⟩)
  have hle := (subperm_of_subset hnodup hsub).length_le
  simpa using hle

omit [DecidableEq κ] in
/-- A key whose row satisfied `p` and does no longer makes the count smaller. -/
theorem length_filter_lt {t t' : Table key} {p : ρ → Bool} {k : κ} (hk : ∃ r ∈ t.rows, key r = k ∧ p r = true)
    (h : ∀ r' ∈ t'.rows, p r' = true → key r' ≠ k ∧ ∃ r ∈ t.rows, key r = key r' ∧ p r = true) :
    (t'.rows.filter p).length < (t.rows.filter p).length := by
  have hnodup : (k :: (t'.rows.filter p).map key).Nodup := by
    refine nodup_cons.mpr ⟨fun hmem => ?_, t'.nodup.sublist (List.Sublist.map key filter_sublist)⟩
    obtain ⟨r', hr', hkey⟩ := mem_map.mp hmem
    obtain ⟨hrow, hp⟩ := mem_filter.mp hr'
    exact (h r' hrow hp).1 hkey
  have hsub : k :: (t'.rows.filter p).map key ⊆ (t.rows.filter p).map key := by
    intro k' hk'
    rcases mem_cons.mp hk' with rfl | hk'
    · obtain ⟨r, hr, hkey, hp⟩ := hk
      exact mem_map.mpr ⟨r, mem_filter.mpr ⟨hr, hp⟩, hkey⟩
    · obtain ⟨r', hr', rfl⟩ := mem_map.mp hk'
      obtain ⟨hrow, hp⟩ := mem_filter.mp hr'
      obtain ⟨r, hr, hkey, hpr⟩ := (h r' hrow hp).2
      exact mem_map.mpr ⟨r, mem_filter.mpr ⟨hr, hpr⟩, hkey⟩
  have hle := (subperm_of_subset hnodup hsub).length_le
  rw [length_cons, length_map, length_map] at hle
  exact hle

/-- An assignment adds at most one row. -/
theorem length_filter_put_le (t : Table key) (r : ρ) (p : ρ → Bool) :
    ((t.put r).rows.filter p).length ≤ (t.rows.filter p).length + 1 := by
  refine length_filter_le [key r] fun r' hr' hp hne => ?_
  have hget := get?_of_mem hr'
  rw [get?_put_ne t (fun hk => hne (by rw [hk]; exact mem_singleton_self _))] at hget
  exact ⟨r', mem_of_get? hget, rfl, hp⟩

end Table

/-! ## Key/value dictionaries -/

/-- A dictionary: rows are key/value pairs. -/
abbrev Dict (κ ν : Type) : Type := Table (ρ := κ × ν) Prod.fst

namespace Dict

open List

variable {κ ν α : Type} [DecidableEq κ]

/-- The keys, in insertion order. -/
def keys (d : Dict κ ν) : List κ := d.rows.map Prod.fst

/-- `d.get(k)`. -/
def find? (d : Dict κ ν) (k : κ) : Option ν := (d.get? k).map Prod.snd

@[simp] theorem find?_empty (k : κ) : find? (Table.empty : Dict κ ν) k = none := rfl

theorem find?_put (d : Dict κ ν) (k k' : κ) (v : ν) :
    find? (Table.put d (k, v)) k' = if k' = k then some v else d.find? k' := by
  rw [find?, Table.get?_put]
  split <;> rfl

theorem find?_erase (d : Dict κ ν) (k k' : κ) :
    find? (Table.erase d k) k' = if k' = k then none else d.find? k' := by
  rw [find?, Table.get?_erase]
  split <;> rfl

/-- A new key, and under a condition the deletion of the one it supersedes. -/
theorem find?_supersede (d : Dict κ ν) {new old k : κ} {v : ν} {c : Prop} [Decidable c] (h : c → old ≠ new) :
    find? (if c then Table.erase (Table.put d (new, v)) old else Table.put d (new, v)) k =
      if k = new then some v else if k = old ∧ c then none else d.find? k := by
  by_cases hc : c
  · rw [if_pos hc, find?_erase, find?_put]
    by_cases hk : k = new
    · rw [if_pos hk, if_pos hk, if_neg fun hold => h hc (hold.symm.trans hk)]
    · simp only [if_neg hk, hc, and_true]
  · simp only [if_neg hc, find?_put, hc, and_false, if_false]

/-- Read over the deletion of several keys. -/
theorem find?_foldl_erase (ks : List κ) (d : Dict κ ν) (k : κ) :
    find? (ks.foldl Table.erase d) k = if k ∈ ks then none else d.find? k := by
  rw [find?, Table.get?_foldl_erase]
  split <;> rfl

theorem find?_eq_some {d : Dict κ ν} {k : κ} {v : ν} : d.find? k = some v ↔ (k, v) ∈ d.rows := by
  rw [find?, Option.map_eq_some_iff]
  constructor
  · rintro ⟨⟨k', v'⟩, hget, rfl⟩
    obtain ⟨hmem, hkey⟩ := Table.get?_eq_some.mp hget
    cases (hkey : k' = k)
    exact hmem
  · intro hmem
    exact ⟨(k, v), Table.get?_eq_some.mpr ⟨hmem, rfl⟩, rfl⟩

/-- `d.get(k, default)`. -/
def getD (d : Dict κ ν) (k : κ) (default : ν) : ν := ((d.get? k).map Prod.snd).getD default

omit [DecidableEq κ] in
theorem rows_nodup (d : Dict κ ν) : d.rows.Nodup := d.nodup.of_map

/-- Dicts with the same values have the same rows. -/
theorem rows_perm {d d' : Dict κ ν} (h : ∀ k, d.find? k = d'.find? k) : d.rows.Perm d'.rows := by
  refine (perm_ext_iff_of_nodup d.rows_nodup d'.rows_nodup).mpr fun row => ?_
  rw [← find?_eq_some, h, find?_eq_some]

/-- The same keys, with other values. -/
def mapValues {ν' : Type} (f : ν → ν') (d : Dict κ ν) : Dict κ ν' where
  rows := d.rows.map fun e => (e.1, f e.2)
  nodup := by
    rw [List.map_map]
    exact d.nodup

omit [DecidableEq κ] in
theorem keys_mapValues {ν' : Type} (f : ν → ν') (d : Dict κ ν) : (d.mapValues f).keys = d.keys := by
  rw [keys, mapValues, map_map]
  rfl

theorem get?_mapValues {ν' : Type} (f : ν → ν') (d : Dict κ ν) (k : κ) :
    (d.mapValues f).get? k = (d.get? k).map fun e => (e.1, f e.2) := by
  rw [Table.get?, Table.get?, mapValues, find?_map]
  rfl

theorem find?_mapValues {ν' : Type} (f : ν → ν') (d : Dict κ ν) (k : κ) :
    (d.mapValues f).find? k = (d.find? k).map f := by
  rw [find?, get?_mapValues, find?, Option.map_map, Option.map_map]
  rfl

theorem mapValues_put {ν' : Type} (f : ν → ν') (d : Dict κ ν) (k : κ) (v : ν) :
    Dict.mapValues f (Table.put d (k, v)) = Table.put (d.mapValues f) (k, f v) := by
  have hrows (rows : List (κ × ν)) : (Table.putRows Prod.fst (k, v) rows).map (fun e => (e.1, f e.2)) =
      Table.putRows Prod.fst (k, f v) (rows.map fun e => (e.1, f e.2)) := by
    induction rows with
    | nil => rfl
    | cons row rows ih =>
      rw [Table.putRows, map_cons, Table.putRows]
      split
      · rfl
      · rw [map_cons, ih]
  rw [mapValues, mapValues, Table.put, Table.put, Table.mk.injEq]
  exact hrows d.rows

/-! ## Dictionaries row by row -/

section Rel

variable {ν' : Type} {R : κ → ν → ν' → Prop}

/-- Two dictionaries have the same keys in the same order, with related values. -/
def Rel (R : κ → ν → ν' → Prop) (d : Dict κ ν) (d' : Dict κ ν') : Prop :=
  List.Forall₂ (fun row row' => row'.1 = row.1 ∧ R row.1 row.2 row'.2) d.rows d'.rows

omit [DecidableEq κ] in
theorem Rel.empty : Rel R (Table.empty : Dict κ ν) (Table.empty : Dict κ ν') := .nil

omit [DecidableEq κ] in
theorem Rel.length_eq {d : Dict κ ν} {d' : Dict κ ν'} (h : Rel R d d') :
    d'.rows.length = d.rows.length := (List.Forall₂.length_eq h).symm

/-- A key is in both dictionaries or in neither. -/
theorem Rel.find? {d : Dict κ ν} {d' : Dict κ ν'} (h : Rel R d d') (k : κ) :
    (d.find? k = none ∧ d'.find? k = none) ∨ ∃ v v', d.find? k = some v ∧ d'.find? k = some v' ∧ R k v v' := by
  have hrows {rows : List (κ × ν)} {rows' : List (κ × ν')}
      (h : List.Forall₂ (fun row row' => row'.1 = row.1 ∧ R row.1 row.2 row'.2) rows rows') :
      ((rows.find? fun row => row.1 = k) = none ∧ (rows'.find? fun row => row.1 = k) = none) ∨
        ∃ v v', (rows.find? fun row => row.1 = k) = some (k, v) ∧
          (rows'.find? fun row => row.1 = k) = some (k, v') ∧ R k v v' := by
    induction h with
    | nil => exact .inl ⟨rfl, rfl⟩
    | @cons row row' _ _ hrow _ ih =>
      obtain ⟨hkey, hrel⟩ := hrow
      obtain ⟨k', v⟩ := row
      obtain ⟨k'', v'⟩ := row'
      obtain rfl : k'' = k' := hkey
      by_cases hk : k'' = k
      · subst hk
        exact .inr ⟨v, v', find?_cons_of_pos (by simp), find?_cons_of_pos (by simp), hrel⟩
      · rw [find?_cons_of_neg (by simpa using hk), find?_cons_of_neg (by simpa using hk)]
        exact ih
  obtain ⟨hnone, hnone'⟩ | ⟨v, v', hsome, hsome', hrel⟩ := hrows h
  · exact .inl ⟨congrArg (Option.map Prod.snd) hnone, congrArg (Option.map Prod.snd) hnone'⟩
  · exact .inr ⟨v, v', congrArg (Option.map Prod.snd) hsome, congrArg (Option.map Prod.snd) hsome', hrel⟩

theorem Rel.put {d : Dict κ ν} {d' : Dict κ ν'} (h : Rel R d d') {k : κ} {v : ν} {v' : ν'}
    (hv : R k v v') : Rel R (Table.put d (k, v)) (Table.put d' (k, v')) := by
  have hrows {rows : List (κ × ν)} {rows' : List (κ × ν')}
      (h : List.Forall₂ (fun row row' => row'.1 = row.1 ∧ R row.1 row.2 row'.2) rows rows') :
      List.Forall₂ (fun row row' => row'.1 = row.1 ∧ R row.1 row.2 row'.2)
        (Table.putRows Prod.fst (k, v) rows) (Table.putRows Prod.fst (k, v') rows') := by
    induction h with
    | nil => exact .cons ⟨rfl, hv⟩ .nil
    | cons hrow hrest ih =>
      rw [Table.putRows, Table.putRows, hrow.1]
      split
      · exact .cons ⟨rfl, hv⟩ hrest
      · exact .cons hrow ih
  exact hrows h

end Rel

/-! ## Dictionaries of lists

`defaultdict(list)` and `d[k].append(a)`: the values under a key are what was
appended for it, in order. -/

/-- `d[k].append(a)`. -/
def push (d : Dict κ (List α)) (k : κ) (a : α) : Dict κ (List α) :=
  Table.put d (k, d.getD k [] ++ [a])

@[simp] theorem getD_empty (k : κ) (default : ν) : getD (Table.empty : Dict κ ν) k default = default := rfl

theorem getD_push (d : Dict κ (List α)) (k k' : κ) (a : α) :
    (d.push k a).getD k' [] = if k' = k then d.getD k [] ++ [a] else d.getD k' [] := by
  rw [push, getD, Table.get?_put]
  by_cases h : k' = k
  · simp [h]
  · simp [h, getD]

theorem mem_keys_push (d : Dict κ (List α)) (k k' : κ) (a : α) : k' ∈ (d.push k a).keys ↔ k' = k ∨ k' ∈ d.keys := by
  rw [keys, push, Table.put, Table.map_key_putRows]
  split
  · next h =>
    constructor
    · exact .inr
    · rintro (rfl | h')
      · exact h
      · exact h'
  · rw [mem_append, mem_singleton, or_comm]
    rfl

/-- Appending under the keys of a list of pairs, in order. -/
def pushAll (d : Dict κ (List α)) (l : List (κ × α)) : Dict κ (List α) :=
  l.foldl (fun d e => d.push e.1 e.2) d

theorem getD_pushAll (d : Dict κ (List α)) (l : List (κ × α)) (k : κ) : (d.pushAll l).getD k [] =
      d.getD k [] ++ (l.filter fun e => e.1 = k).map Prod.snd := by
  induction l generalizing d with
  | nil => simp [pushAll]
  | cons e l ih =>
    rw [pushAll, foldl_cons]
    change ((d.push e.1 e.2).pushAll l).getD k [] = _
    rw [ih, getD_push]
    by_cases h : e.1 = k
    · simp [h]
    · have h' : k ≠ e.1 := fun hc => h hc.symm
      simp [h, h']

theorem mem_keys_pushAll (d : Dict κ (List α)) (l : List (κ × α)) (k : κ) :
    k ∈ (d.pushAll l).keys ↔ k ∈ d.keys ∨ k ∈ l.map Prod.fst := by
  induction l generalizing d with
  | nil => simp [pushAll]
  | cons e l ih =>
    rw [pushAll, foldl_cons]
    change k ∈ ((d.push e.1 e.2).pushAll l).keys ↔ _
    rw [ih, mem_keys_push, map_cons, mem_cons]
    constructor
    · rintro ((rfl | h) | h)
      · exact .inr (.inl rfl)
      · exact .inl h
      · exact .inr (.inr h)
    · rintro (h | rfl | h)
      · exact .inl (.inr h)
      · exact .inl (.inl rfl)
      · exact .inr h

/-! ## Dictionaries of counters -/

/-- `d[k] += 1` on a `defaultdict(int)`. -/
def bump (d : Dict κ Nat) (k : κ) : Dict κ Nat := Table.put d (k, d.getD k 0 + 1)

theorem getD_bump (d : Dict κ Nat) (k k' : κ) :
    (d.bump k).getD k' 0 = if k' = k then d.getD k 0 + 1 else d.getD k' 0 := by
  rw [bump, getD, Table.get?_put]
  by_cases h : k' = k
  · simp [h]
  · simp [h, getD]

/-- A counter counts the bumps of its key. -/
theorem getD_foldl_bump (l : List κ) (d : Dict κ Nat) (k : κ) :
    (l.foldl bump d).getD k 0 = d.getD k 0 + (l.filter fun k' => k' = k).length := by
  induction l generalizing d with
  | nil => rfl
  | cons k' l ih =>
    rw [foldl_cons, ih, getD_bump, filter_cons]
    by_cases h : k' = k
    · simp [h]
      omega
    · simp [h, Ne.symm h]

/-! ## Sums over the values -/

/-- The sum of a weight over the values. -/
def sum (weight : ν → Int) (d : Dict κ ν) : Int := (d.rows.map fun row => weight row.2).sum

omit [DecidableEq κ] in
@[simp] theorem sum_empty (weight : ν → Int) : sum weight (Table.empty : Dict κ ν) = 0 := rfl

/-- An assignment exchanges the weight of one value. -/
theorem sum_put (weight : ν → Int) (d : Dict κ ν) (k : κ) (v : ν) :
    sum weight (Table.put d (k, v)) = d.sum weight + weight v - (d.find? k).elim 0 weight := by
  obtain ⟨rows, hnodup⟩ := d
  simp only [sum, Table.put, find?, Table.get?]
  induction rows with
  | nil => simp [Table.putRows]
  | cons row rows ih =>
    rw [map_cons, nodup_cons] at hnodup
    rw [Table.putRows, find?_cons]
    by_cases hk : row.1 = k
    · simp only [hk, if_true, decide_true, map_cons, sum_cons, Option.map_some, Option.elim_some]
      omega
    · have ih := ih hnodup.2
      simp only [hk, if_false, decide_false, map_cons, sum_cons]
      omega

omit [DecidableEq κ] in
theorem sum_nonneg {weight : ν → Int} {d : Dict κ ν} (h : ∀ row ∈ d.rows, 0 ≤ weight row.2) : 0 ≤ d.sum weight := by
  apply List.sum_nonneg
  intro x hx
  obtain ⟨row, hrow, rfl⟩ := mem_map.mp hx
  exact h row hrow

omit [DecidableEq κ] in
/-- One row weighs no more than all of them. -/
theorem le_sum {weight : ν → Int} {d : Dict κ ν} (h : ∀ row ∈ d.rows, 0 ≤ weight row.2)
    {row : κ × ν} (hrow : row ∈ d.rows) : weight row.2 ≤ d.sum weight := by
  refine single_le_sum (fun x hx => ?_) _ (mem_map_of_mem hrow)
  obtain ⟨row, hrow, rfl⟩ := mem_map.mp hx
  exact h row hrow

omit [DecidableEq κ] in
theorem length_eq_sum (d : Dict κ ν) : (d.rows.length : Int) = d.sum fun _ => 1 := by
  simp [sum, map_const']

theorem length_put (d : Dict κ ν) (k : κ) (v : ν) : ((Table.put d (k, v)).rows.length : Int) =
      d.rows.length + 1 - (d.find? k).elim 0 fun _ => 1 := by
  rw [length_eq_sum, length_eq_sum, sum_put]

/-- What holds of the values, and of one more, holds after an assignment. -/
theorem forall_put {p : κ → ν → Prop} {d : Dict κ ν} {k : κ} {v : ν}
    (h : ∀ row ∈ d.rows, p row.1 row.2) (hv : p k v) :
    ∀ row ∈ (Table.put d (k, v)).rows, p row.1 row.2 := by
  rintro ⟨k', v'⟩ hrow
  have hfind := find?_eq_some.mpr hrow
  rw [find?_put] at hfind
  split at hfind
  · next hk =>
    cases hfind
    cases hk
    exact hv
  · exact h _ (find?_eq_some.mp hfind)

end Dict
