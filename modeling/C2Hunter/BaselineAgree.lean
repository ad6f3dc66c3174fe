import C2Hunter.BaselineLifecycle
import C2Hunter.BaselineSql

/-!
# The two implementations agree

The tables of the SQL implementation hold what the dicts of the memory implementation hold: `Same`.
Under it a call comes to the same answer, or to a refusal with the same code, and leaves tables and
dicts that are the same again. The refusals may be of different classes: an operation identity that
is drawn twice is a storage error in memory, and a violated constraint in the tables.

* `Same.get_eq`, `Same.replay_eq` — what is read.
* `Same.retainOperation` — the deletion of operations before a revision keeps the newest 64.
* `Same.publish_eq`, `Same.control_eq` — the calls.
* `operations_exactly_once`, `storage_bounded` — over any run of requests.
-/

namespace C2Hunter.Baseline

open Except Table

open List

variable {env : Env} {s : Store} {t : Tables} {id : String}

/-- The operations are the same, under the keys of each implementation. -/
structure SameRows (operations : Dict (String × String) OperationRow)
    (table : Dict (String × Int) OperationRow) : Prop where
  values : table.rows.map Prod.snd = operations.rows.map Prod.snd
  revisions : ∀ e ∈ table.rows, e.1 = (e.2.scopeId, e.2.revision)

/-- The tables hold what the dicts hold. -/
structure Same (s : Store) (t : Tables) : Prop where
  scopes : t.scopes = s.scopes.mapValues ScopeView.row
  generations : t.generations = s.generations
  operations : SameRows s.operations t.operations

variable {table : Dict (String × Int) OperationRow}

theorem SameRows.mem {operations : Dict (String × String) OperationRow} (hsame : SameRows operations table)
    {e : (String × Int) × OperationRow} (he : e ∈ table.rows) : e.2 ∈ operations.rows.map Prod.snd := by
  rw [← hsame.values]
  exact mem_map_of_mem he

theorem Same.empty : Same {} {} where
  scopes := rfl
  generations := rfl
  operations := ⟨rfl, fun _ h => by cases h⟩

/-! ## Reads -/

section

variable {κ : Type}

theorem SameRows.operationsOf_eq (hsame : SameRows s.operations t.operations) (h : s.Inv env)
    (id : String) : t.operationsOf id = operationsOf s.operations id := by
  rw [Tables.operationsOf, operationsOf, filter_map_values hsame.revisions, hsame.values, filter_map_values h.keys]

/-- The element of a key, where no two have the same. -/
theorem find?_of_nodup {α : Type} [DecidableEq κ] {l : List α} {key : α → κ} (h : (l.map key).Nodup)
    {a : α} (ha : a ∈ l) : (l.find? fun b => key b = key a) = some a := by
  obtain ⟨b, hfound⟩ := Option.isSome_iff_exists.mp
    (find?_isSome (p := fun b => key b = key a).mpr ⟨a, ha, by simp⟩)
  have hkey : key b = key a := by simpa using find?_some hfound
  rw [hfound, inj_on_of_nodup_map h (mem_of_find?_eq_some hfound) ha hkey]

/-- The operation of a key. -/
theorem Store.Inv.find?_operationsOf (h : s.Inv env) (id key : String) :
    ((operationsOf s.operations id).find? fun row => row.key = key) = s.operations.find? (id, key) := by
  cases hfind : s.operations.find? (id, key) with
  | none =>
    refine find?_eq_none.mpr fun row hrow hkey => ?_
    obtain ⟨key', hkey'⟩ := mem_operationsOf.mp hrow
    have hsame : row.key = key' := (h.operation _ row hkey').key
    rw [← hsame, of_decide_eq_true hkey, hfind] at hkey'
    cases hkey'
  | some row =>
    obtain rfl : row.key = key := (h.operation _ row hfind).key
    exact find?_of_nodup (h.keys_nodup id) (mem_operationsOf.mpr ⟨row.key, hfind⟩)

theorem Same.operationData_eq (hsame : Same s t) (h : s.Inv env) (id key : String) :
    t.operationData id key = .ok (s.operations.find? (id, key)) := by
  rw [Tables.operationData, hsame.operations.operationsOf_eq h, h.find?_operationsOf]
  simp only [require, h.retained id, decide_true, if_true, ok_bind]
  rfl

theorem Same.length_scopes (hsame : Same s t) : t.scopes.rows.length = s.scopes.rows.length := by
  rw [hsame.scopes, Dict.mapValues, length_map]

theorem Same.exist_eq (hsame : Same s t) (h : s.Inv env) (id : String) :
    t.exist id = .ok (s.scopes.find? id).isSome := by
  rw [Tables.exist, hsame.length_scopes, hsame.scopes, Dict.find?_mapValues, Option.isSome_map]
  simp only [require, h.few, decide_true, if_true, ok_bind]
  rfl

end

variable {view : ScopeView} {d : GenerationDocument}

section Get

/-- The two pointers of a scope differ. -/
theorem pointers_nodup (h : ScopeInv env s id view) : view.pointers.Nodup ∧
    (view.row.activeGenerationId.toList ++ view.row.previousGenerationId.toList).eraseDups = view.pointers := by
  have hlinks := h.links
  simp only [ScopeView.links, decide_eq_true_eq] at hlinks
  have hne := hlinks.2.2.2.2.1
  rw [ScopeView.row, ScopeView.pointers]
  cases hactive : view.active with
  | none =>
    cases view.previous with
    | none | some => simp [eraseDups_cons]
  | some a =>
    cases hprevious : view.previous with
    | none => simp [eraseDups_cons]
    | some p =>
      have hne := hne a hactive p hprevious
      simp [eraseDups_cons, hne, Ne.symm hne]

/-- A pointer is found among the views of the stored generations. -/
theorem pointed_eq {pointer : Option GenerationView} (h : ∀ g ∈ pointer, ∃ d, Points env s id view g d) :
    Tables.pointed ((generationsOf s.generations id).map fun d => (d.1, generationView env d.2))
      (pointer.map GenerationView.generationId) = pointer := by
  cases pointer with
  | none => rfl
  | some g =>
    obtain ⟨d, hd⟩ := h g rfl
    have hmem : (g.generationId, generationView env d) ∈
        (generationsOf s.generations id).map fun d => (d.1, generationView env d.2) :=
      mem_map.mpr ⟨(g.generationId, d), mem_generationsOf.mpr hd.stored, rfl⟩
    have hnodup : (((generationsOf s.generations id).map fun d =>
        (d.1, generationView env d.2)).map Prod.fst).Nodup := by
      rw [map_map]
      exact generationsOf_nodup s.generations id
    rw [Option.map_some, Tables.pointed, Option.bind_some, find?_of_nodup hnodup hmem, Option.map_some, hd.shown]

/-- What is stored of a scope is what one of its pointers points to. -/
theorem Store.Inv.points (h : s.Inv env) (hview : s.scopes.find? id = some view) {g : String} (hstored : s.generations.find? (id, g) = some d) :
    ∃ v, v.generationId = g ∧ Points env s id view v d := by
  have hg := (h.ids hview g).mp (mem_map.mpr ⟨(g, d), mem_generationsOf.mpr hstored, rfl⟩)
  obtain ⟨v, x, rfl, hx⟩ := (h.scope id view hview).points hg
  cases hstored.symm.trans hx.stored
  exact ⟨v, rfl, hx⟩

theorem Store.Inv.documents_eq (h : s.Inv env) (hview : s.scopes.find? id = some view) :
    ((generationsOf s.generations id).mapM fun d => do
      let shown ← documentView env view.row.config d.1 d.2 view.row.controlRevision
      return (d.1, shown)) =
    .ok ((generationsOf s.generations id).map fun d => (d.1, generationView env d.2)) := by
  refine List.mapM_eq_ok.mpr ?_
  rw [forall₂_map_right_iff, forall₂_same]
  rintro ⟨g, d⟩ hd
  obtain ⟨v, rfl, hx⟩ := h.points hview (mem_generationsOf.mp hd)
  simp only [ScopeView.row, hx.documentView_eq, ok_bind, hx.shown]
  rfl

/-- The view of a scope is read as it was written. -/
theorem Same.get_eq (hsame : Same s t) (h : s.Inv env) (id : String) : t.get env id = .ok (s.scopes.find? id) := by
  rw [Tables.get, hsame.length_scopes, hsame.scopes, Dict.find?_mapValues, hsame.generations]
  simp only [require, h.few, decide_true, if_true, ok_bind]
  cases hview : s.scopes.find? id with
  | none => rfl
  | some view =>
    have hscope := h.scope id view hview
    have hids (g : String) := h.ids hview g
    have hperm : ((generationsOf s.generations id).map Prod.fst).Perm view.pointers :=
      (perm_ext_iff_of_nodup (generationsOf_nodup _ _) (pointers_nodup hscope).1).mpr hids
    have hcount : (generationsOf s.generations id).length = view.pointers.length := by
      rw [← hperm.length_eq, length_map]
    have htwo := length_pointers view
    have horder : (view.row.previousGenerationId.isNone = true ∨ view.row.activeGenerationId.isSome = true ∧
          publishedInOrder s.generations id view.row.activeGenerationId view.row.previousGenerationId = true) := by
      have hlinks := hscope.links
      simp only [ScopeView.links, decide_eq_true_eq] at hlinks
      simp only [ScopeView.row, Option.isNone_map, Option.isSome_map]
      cases hactive : view.active with
      | none =>
        rw [hactive] at hlinks
        exact .inl (hlinks.2.2.1.resolve_left (by simp))
      | some a =>
        have hpublished := hscope.publishedInOrder_eq
        rw [hactive] at hpublished
        exact .inr ⟨rfl, hpublished⟩
    have hconfig : view.row.config.scopeId = id := hscope.config
    simp only [Option.map_some, (pointers_nodup hscope).2, hcount, htwo, hconfig, decide_true, if_true,
      ok_bind, hperm.subset, hperm.symm.subset, and_self, h.documents_eq hview, horder]
    have hactive := pointed_eq hscope.active
    have hprevious := pointed_eq hscope.previous
    simp only [ScopeView.row] at hactive hprevious ⊢
    rw [hactive, hprevious]
    simp only [checkedView, check, hscope.links, if_true, ok_bind]
    rfl

end Get

variable {call : Call}

/-- A replay in the tables. -/
theorem Same.replay_eq (hsame : Same s t) (h : s.Inv env) (hcall : call.Lawful env) :
    t.replay env call.submission.scopeId call.submission.key call.receiptOf =
      match s.operations.find? (call.submission.scopeId, call.submission.key) with
      | none => .ok none
      | some row => do
        let receipt ← call.receiptOf row
        let view ← viewOr .storageUnavailable (s.scopes.find? call.submission.scopeId)
        return some ⟨view, receipt, false⟩ := by
  rw [Tables.replay, hsame.operationData_eq h, hsame.get_eq h]
  simp only [ok_bind]
  cases hrow : s.operations.find? (call.submission.scopeId, call.submission.key) with
  | none => rfl
  | some row =>
    have hinv := h.operation _ row hrow
    obtain ⟨view, hview, hle⟩ := hinv.scope
    have hview : s.scopes.find? call.submission.scopeId = some view := hview
    cases hof : call.receiptOf row with
    | error failure =>
      simp only [hof]
      rfl
    | ok receipt =>
      obtain ⟨-, rfl⟩ := hcall.receiptOf_ok hinv hof
      have hrevision : row.receipt.revision ≤ view.controlRevision := by
        rw [hinv.receiptRevision]
        exact hle
      simp only [hof, hview, viewOr, ok_bind, require, hrevision, decide_true, if_true]

/-! ## Retention -/

section

variable {rows : List OperationRow}

/-- The first elements of an increasing list are those before the next one. -/
theorem mem_take_iff (hsorted : rows.Pairwise fun x y => x.revision < y.revision) {n : Nat}
    {cutoff : OperationRow} (hcutoff : rows[n]? = some cutoff) (row : OperationRow) :
    row ∈ rows.take n ↔ row ∈ rows ∧ row.revision < cutoff.revision := by
  obtain ⟨hlt, rfl⟩ := List.getElem?_eq_some_iff.mp hcutoff
  have hrel := pairwise_iff_getElem.mp hsorted
  constructor
  · intro hrow
    obtain ⟨i, hi, rfl⟩ := mem_take_iff_getElem.mp hrow
    exact ⟨getElem_mem _, hrel i n _ hlt (by omega)⟩
  · rintro ⟨hrow, hless⟩
    obtain ⟨i, hi, rfl⟩ := getElem_of_mem hrow
    refine mem_take_iff_getElem.mpr ⟨i, ?_, rfl⟩
    by_contra hge
    obtain rfl | hafter : i = n ∨ n < i := by omega
    · exact lt_irrefl _ hless
    · exact lt_asymm hless (hrel n i hlt hi hafter)

theorem byRevision_sorted (hnodup : (rows.map OperationRow.revision).Nodup) :
    (byRevision rows).Pairwise fun x y => x.revision < y.revision := by
  have hle : (byRevision rows).Pairwise fun x y => x.revision ≤ y.revision := by
    have : IsTrans OperationRow fun x y => x.revision ≤ y.revision := ⟨fun _ _ _ h h' => h.trans h'⟩
    have : Std.Total fun x y : OperationRow => x.revision ≤ y.revision := ⟨fun _ _ => le_total _ _⟩
    exact pairwise_insertionSort _ rows
  have hne := ((byRevision_perm rows).map OperationRow.revision).nodup_iff.mpr hnodup
  rw [nodup_iff_pairwise_ne, pairwise_map] at hne
  exact hle.imp₂ (fun _ _ h h' => lt_of_le_of_ne h h') hne

/-- The operations that are pushed out are those before the newest 64. -/
theorem mem_oldest_iff (hnodup : (rows.map OperationRow.revision).Nodup) (row : OperationRow) :
    row ∈ oldest rows ↔ ∃ cutoff, (byRevision rows).reverse[63]? = some cutoff ∧ row ∈ rows ∧
      row.revision < cutoff.revision := by
  rw [oldest]
  by_cases hlength : 64 ≤ (byRevision rows).length
  · have hcutoff : (byRevision rows).reverse[63]? = (byRevision rows)[(byRevision rows).length - 64]? := by
      rw [getElem?_reverse (by omega)]
      congr 1
    obtain ⟨cutoff, hget⟩ : ∃ cutoff, (byRevision rows)[(byRevision rows).length - 64]? = some cutoff :=
      ⟨_, getElem?_eq_getElem (by omega)⟩
    rw [hcutoff, hget, mem_take_iff (byRevision_sorted hnodup) hget, (byRevision_perm rows).mem_iff]
    simp only [Option.some.injEq, exists_eq_left']
  · have hnone : (byRevision rows).reverse[63]? = none :=
      getElem?_eq_none (by rw [length_reverse]; omega)
    rw [hnone, show (byRevision rows).length - 64 = 0 by omega, take_zero]
    simp

end

variable {staged : Staged} {submission : Submission} {row : OperationRow}

section Retain

section Put

variable {κ : Type} [DecidableEq κ] {d : Dict (String × κ) OperationRow} {key : OperationRow → κ}
  (hkeys : ∀ e ∈ d.rows, e.1 = (e.2.scopeId, key e.2)) (hfresh : Table.get? d (id, key row) = none)
  (hid : row.scopeId = id)

include hkeys hfresh hid

/-- The rows of one scope, with a new operation. -/
theorem values_put : (∀ e ∈ (put d ((id, key row), row)).rows, e.1 = (e.2.scopeId, key e.2)) ∧
    (put d ((id, key row), row)).rows.map Prod.snd = d.rows.map Prod.snd ++ [row] ∧
    ((put d ((id, key row), row)).rows.filter fun e => e.1.1 = id).map Prod.snd =
      (d.rows.map Prod.snd ++ [row]).filter fun r => r.scopeId = id := by
  have hput : (put d ((id, key row), row)).rows = d.rows ++ [((id, key row), row)] :=
    rows_put_of_get?_eq_none hfresh
  have hkeys' : ∀ e ∈ (put d ((id, key row), row)).rows, e.1 = (e.2.scopeId, key e.2) := by
    rw [hput]
    intro e he
    obtain he | he := mem_append.mp he
    · exact hkeys e he
    · rw [mem_singleton.mp he, hid]
  have hvalues : (put d ((id, key row), row)).rows.map Prod.snd = d.rows.map Prod.snd ++ [row] := by
    rw [hput, map_append]
    rfl
  exact ⟨hkeys', hvalues, by rw [filter_map_values hkeys', hvalues]⟩

/-- What remains when some of these are erased by their keys. -/
theorem values_erase {dropped : List OperationRow}
    (hdropped : dropped ⊆ (d.rows.map Prod.snd ++ [row]).filter fun r => r.scopeId = id) :
    let left := dropped.foldl (fun d r => erase d (id, key r)) (put d ((id, key row), row))
    left.rows.map Prod.snd = (d.rows.map Prod.snd ++ [row]).filter (· ∉ dropped) ∧
      ∀ e ∈ left.rows, e.1 = (e.2.scopeId, key e.2) := by
  obtain ⟨hkeys', hvalues, -⟩ := values_put hkeys hfresh hid
  have hfold : dropped.foldl (fun d r => erase d (id, key r)) (put d ((id, key row), row)) =
      (dropped.map fun r => (r.scopeId, key r)).foldl erase (put d ((id, key row), row)) := by
    rw [foldl_map]
    refine foldl_ext _ _ _ fun d r hr => ?_
    rw [of_decide_eq_true (mem_filter.mp (hdropped hr)).2]
  intro left
  simp only [left, hfold, rows_foldl_erase]
  refine ⟨?_, fun e he => hkeys' e (mem_filter.mp he).1⟩
  rw [← hvalues, filter_map]
  congr 1
  refine filter_congr fun e he => decide_eq_decide.mpr (not_congr ?_)
  rw [mem_map]
  constructor
  · rintro ⟨r, hr, heq⟩
    have hmem := (mem_filter.mp (hdropped hr)).1
    rw [← hvalues] at hmem
    obtain ⟨e', he', rfl⟩ := mem_map.mp hmem
    rw [← hkeys' e' he'] at heq
    rwa [← inj_on_of_nodup_map (put d ((id, key row), row)).nodup he' he heq]
  · intro hmem
    exact ⟨e.2, hmem, (hkeys' e he).symm⟩

end Put

theorem operationsOf_append (h : s.Inv env) (hid : row.scopeId = id) : operationsOf s.operations id ++ [row] =
    (s.operations.rows.map Prod.snd ++ [row]).filter fun r => r.scopeId = id := by
  rw [filter_append, operationsOf, filter_map_values h.keys, filter_cons_of_pos (by simpa using hid), filter_nil]

/-- The operations in memory after a new one. -/
theorem retain_values (h : s.Inv env) (hnew : s.operations.find? (id, row.key) = none) (hid : row.scopeId = id) :
    (retain s.operations id row).rows.map Prod.snd = (s.operations.rows.map Prod.snd ++ [row]).filter fun r =>
        r ∉ oldest (operationsOf s.operations id ++ [row]) := by
  refine (values_erase h.keys (Option.map_eq_none_iff.mp hnew) hid fun r hr => ?_).1
  rw [← operationsOf_append h hid]
  exact (byRevision_perm _).mem_iff.mp (mem_of_mem_take hr)

section

variable (hsame : SameRows s.operations t.operations) (h : s.Inv env)
  (hview : s.scopes.find? id = some view) (hsteps : Steps env submission view staged)
  (hid : staged.row.scopeId = id) (hnew : s.operations.find? (id, submission.key) = none)

include hsame h hview hsteps hid hnew

/-- The operations in the table after a new one. -/
theorem SameRows.insertOperation_eq : t.insertOperation staged.row =
      if (s.operations.rows.all fun row => row.2.operationId ≠ staged.row.operationId) = true then
        .ok { t with operations := t.operations.put ((id, staged.row.revision), staged.row) }
      else .error ⟨.unique, .storageUnavailable⟩ := by
  have hany : (t.operations.rows.any fun old =>
      (old.2.scopeId = staged.row.scopeId ∧ (old.2.revision = staged.row.revision ∨ old.2.key = staged.row.key)) ∨
        old.2.operationId = staged.row.operationId) = true ↔
      ¬(s.operations.rows.all fun row => row.2.operationId ≠ staged.row.operationId) = true := by
    simp only [any_eq_true, all_eq_true, decide_eq_true_eq]
    constructor
    · rintro ⟨old, hold, hsome⟩ hall
      have hmem := hsame.mem hold
      obtain ⟨e, he, heq⟩ := mem_map.mp hmem
      obtain ⟨hscope, hsome⟩ | hsome := hsome
      · have hdiffers := hsteps.row_new h hview hnew hmem (hscope.trans hid)
        exact hsome.elim hdiffers.1.ne hdiffers.2
      · exact hall e he (heq ▸ hsome)
    · intro hall
      obtain ⟨e, he, heq⟩ : ∃ e ∈ s.operations.rows, e.2.operationId = staged.row.operationId := by
        simpa using hall
      have hmem : e.2 ∈ t.operations.rows.map Prod.snd := by
        rw [hsame.values]
        exact mem_map_of_mem he
      obtain ⟨old, hold, hsnd⟩ := mem_map.mp hmem
      exact ⟨old, hold, .inr (hsnd ▸ heq)⟩
  rw [Tables.insertOperation]
  by_cases hall : (s.operations.rows.all fun row =>
      row.2.operationId ≠ staged.row.operationId) = true
  · rw [if_pos hall, if_neg (fun hdup => hany.mp hdup hall), hid]
  · rw [if_neg hall, if_pos (hany.mpr hall)]

/-- The retention of the tables is that of the dicts. -/
theorem SameRows.retainOperation_eq
    (hunique : (s.operations.rows.all fun row => row.2.operationId ≠ staged.row.operationId) = true) :
    ∃ table, t.retainOperation id staged.row = .ok { t with operations := table } ∧
      SameRows (retain s.operations id staged.row) table := by
  have hfresh : (id, staged.row.revision) ∉ t.operations.rows.map Prod.fst := by
    intro hmem
    obtain ⟨e, he, heq⟩ := mem_map.mp hmem
    rw [hsame.revisions e he, Prod.mk.injEq] at heq
    exact (hsteps.row_new h hview hnew (hsame.mem he) heq.1).1.ne heq.2
  have hget := get?_eq_none.mpr hfresh
  obtain ⟨hrevisions, hvalues, hscope⟩ := values_put hsame.revisions hget hid
  rw [hsame.values] at hvalues hscope
  have hmemory := retain_values h (by rw [hsteps.key]; exact hnew) hid
  have hoperations : ({ t with operations := t.operations.put ((id, staged.row.revision),
      staged.row) } : Tables).operationsOf id = operationsOf s.operations id ++ [staged.row] :=
    hscope.trans (operationsOf_append h hid).symm
  have hnodup := hsteps.revisions_nodup h hview hnew
  have hrows := operationsOf_append h hid
  generalize operationsOf s.operations id ++ [staged.row] = rows at hmemory hoperations hnodup hrows
  rw [Tables.retainOperation, hsame.insertOperation_eq h hview hsteps hid hnew, if_pos hunique]
  simp only [ok_bind, hoperations]
  cases hcutoff : (byRevision rows).reverse[63]? with
  | none =>
    refine ⟨_, rfl, ?_, hrevisions⟩
    rw [hvalues, hmemory, filter_eq_self.mpr]
    intro r _
    refine decide_eq_true fun hr => ?_
    obtain ⟨cutoff, hsome, -⟩ := (mem_oldest_iff hnodup r).mp hr
    rw [hcutoff] at hsome
    cases hsome
  | some cutoff =>
    have hsub : (rows.filter fun r => r.revision < cutoff.revision) ⊆
        (t.operations.rows.map Prod.snd ++ [staged.row]).filter fun r => r.scopeId = id := by
      rw [hsame.values, ← hrows]
      exact filter_subset_self _
    obtain ⟨hleft, hleft'⟩ := values_erase hsame.revisions hget hid hsub
    refine ⟨_, rfl, ?_, by rw [hoperations]; exact hleft'⟩
    rw [hoperations, hleft, hsame.values, hmemory]
    refine filter_congr fun r _ => decide_eq_decide.mpr (not_congr ?_)
    rw [mem_oldest_iff hnodup, mem_filter, decide_eq_true_eq, hcutoff]
    simp only [Option.some.injEq, exists_eq_left']

end

/-- A new operation is retained. -/
theorem find?_retain_self (h : s.Inv env) (hview : s.scopes.find? id = some view)
    (hsteps : Steps env submission view staged)
    (hnew : s.operations.find? (id, submission.key) = none) :
    (retain s.operations id staged.row).find? (id, submission.key) = some staged.row := by
  have hnew' : s.operations.find? (id, staged.row.key) = none := by rw [hsteps.key]; exact hnew
  rw [← hsteps.key, Dict.find?_eq_some, retain_rows hnew', mem_filter]
  refine ⟨mem_append_right _ mem_cons_self, decide_eq_true fun hmem => ?_⟩
  obtain ⟨old, hold, heq⟩ := mem_map.mp hmem
  have hrows := (byRevision_perm _).mem_iff.mp (mem_of_mem_take hold)
  obtain hrows | hrows := mem_append.mp hrows
  · obtain ⟨hr, hscope⟩ := h.mem_values hrows
    exact (hsteps.row_new h hview hnew hr hscope).2 (Prod.mk.inj heq).2
  -- the newest operation comes last in the order of the revisions
  obtain rfl := mem_singleton.mp hrows
  obtain ⟨cutoff, hcutoff, -, hless⟩ :=
    (mem_oldest_iff (hsteps.revisions_nodup h hview hnew) _).mp hold
  have hmem := (byRevision_perm _).mem_iff.mp (mem_reverse.mp (mem_of_getElem? hcutoff))
  obtain hmem | hmem := mem_append.mp hmem
  · obtain ⟨hr, hscope⟩ := h.mem_values hmem
    exact absurd hless (not_lt_of_gt (hsteps.row_new h hview hnew hr hscope).1)
  · rw [mem_singleton.mp hmem] at hless
    exact absurd hless (lt_irrefl _)

end Retain

/-! ## Writes -/

section Write

section

variable (hsame : Same s t)

include hsame

theorem Same.find?_scopes (hview : s.scopes.find? id = some view) : t.scopes.find? id = some view.row := by
  rw [hsame.scopes, Dict.find?_mapValues, hview, Option.map_some]

/-- The tables of a publication, before its operation. -/
theorem Same.publish_eq (h : s.Inv env) (hview : s.scopes.find? id = some view) (hfresh : d.generationId ∉ view.pointers)
    (hrevision : d.publicationRevision = view.controlRevision + 1) :
    t.publish view staged d = ({ t with
      scopes := t.scopes.put (id, staged.scope.row)
      generations := (s.published id view staged d).generations } : Tables).retainOperation id staged.row := by
  have hscope := h.scope id view hview
  have hgenerations : (view.previous.elim t fun p =>
      { t with generations := t.generations.erase (id, p.generationId) }) =
      { t with generations := view.previous.elim s.generations fun p =>
        s.generations.erase (id, p.generationId) } := by
    rw [← hsame.generations]
    cases view.previous with
    | none | some => rfl
  generalize hleft : (view.previous.elim s.generations fun p =>
    s.generations.erase (id, p.generationId)) = left at hgenerations
  have hkept (k : String × String) (x : GenerationDocument) (hx : left.find? k = some x) :
      s.generations.find? k = some x := by
    rw [← hleft] at hx
    cases hprevious : view.previous with
    | none =>
      rw [hprevious] at hx
      exact hx
    | some =>
      rw [hprevious, Option.elim_some, Dict.find?_erase] at hx
      split at hx
      · cases hx
      · exact hx
  have hno : ¬((left.find? (id, d.generationId)).isSome = true ∨ ((generationsOf left id).any fun row =>
        row.2.publicationRevision = d.publicationRevision) = true) := by
    rintro (hsome | hany)
    · obtain ⟨x, hx⟩ := Option.isSome_iff_exists.mp hsome
      obtain ⟨view', hview', hmem⟩ := h.generation _ x (hkept _ x hx)
      cases hview.symm.trans hview'
      exact hfresh hmem
    · obtain ⟨⟨g, x⟩, hx, heq⟩ := any_eq_true.mp hany
      have heq : x.publicationRevision = d.publicationRevision := of_decide_eq_true heq
      obtain ⟨v, -, hpoints⟩ := h.points hview (hkept _ x (mem_generationsOf.mp hx))
      have hle := hpoints.revision
      omega
  rw [Tables.publish, hscope.config]
  simp only [hgenerations]
  rw [Tables.insertGeneration, if_neg hno]
  simp only [ok_bind, Tables.updateScope, hsame.find?_scopes hview, Option.bind_some]
  rw [if_pos (show view.row.controlRevision = view.controlRevision from rfl)]
  subst hleft
  rfl

/-- The tables of a control operation, before its operation. -/
theorem Same.control_eq (h : s.Inv env) (hview : s.scopes.find? id = some view) : t.control view staged = ({ t with
      scopes := t.scopes.put (id, staged.scope.row)
      generations := (s.controlled id view staged).generations } : Tables).retainOperation id staged.row := by
  have hscope := h.scope id view hview
  have hstored : ((view.pointers.filter fun g => g ∉ staged.scope.pointers).all fun g =>
      (t.generations.find? (id, g)).isSome) = true := by
    refine all_eq_true.mpr fun g hg => ?_
    obtain ⟨row, hrow, rfl⟩ := mem_map.mp ((h.ids hview g).mpr (mem_filter.mp hg).1)
    rw [hsame.generations, mem_generationsOf.mp hrow]
    rfl
  rw [Tables.control, hscope.config]
  simp only [require, hstored, if_true, ok_bind, Tables.updateScope, hsame.find?_scopes hview, Option.bind_some]
  rw [if_pos (show view.row.controlRevision = view.controlRevision from rfl), hsame.generations]
  rfl

theorem Same.commit {generations : Dict (String × String) GenerationDocument}
    (hgenerations : generations = (s.commit id view staged).generations)
    (hrows : SameRows (retain s.operations id staged.row) table) :
    Same (s.commit id view staged) ⟨t.scopes.put (id, staged.scope.row), generations, table⟩ where
  scopes := by
    simp only [Store.commit]
    rw [Dict.mapValues_put, hsame.scopes]
  generations := hgenerations
  operations := hrows

/-- What is staged is written, unless its identity is taken. -/
def WriteAgrees (s : Store) (id : String) (view : ScopeView) (staged : Staged)
    (written : Except Failure Tables) : Prop :=
  if (s.operations.rows.all fun row => row.2.operationId ≠ staged.row.operationId) = true then
    ∃ t', written = .ok t' ∧ Same (s.commit id view staged) t'
  else written = .error ⟨.unique, .storageUnavailable⟩

theorem Same.write_agrees (h : s.Inv env) (hview : s.scopes.find? id = some view)
    (hsteps : Steps env submission view staged) (hnew : s.operations.find? (id, submission.key) = none) :
    WriteAgrees s id view staged (({ t with
      scopes := t.scopes.put (id, staged.scope.row)
      generations := (s.commit id view staged).generations } : Tables).retainOperation id staged.row) := by
  have hid : staged.row.scopeId = id := hsteps.scopeId.trans (h.scope id view hview).config
  have hrows : SameRows s.operations ({ t with
      scopes := t.scopes.put (id, staged.scope.row)
      generations := (s.commit id view staged).generations } : Tables).operations := hsame.operations
  rw [WriteAgrees]
  split
  · next hunique =>
    obtain ⟨table, hretain, hrows⟩ := hrows.retainOperation_eq h hview hsteps hid hnew hunique
    exact ⟨_, hretain, hsame.commit rfl hrows⟩
  · next hdup =>
    rw [Tables.retainOperation, hrows.insertOperation_eq h hview hsteps hid hnew, if_neg hdup]
    rfl

end

end Write

/-! ## Calls -/

/-- An outcome of the ledger, and that of the tables. -/
inductive Agrees (t : Tables) :
    Except Failure (Answer × Store) → Except Failure Answer × Tables → Prop where
  | refused {failure failure' : Failure} (hcode : failure'.code = failure.code) :
      Agrees t (.error failure) (.error failure', t)
  | replayed {answer : Answer} {s : Store} (hcreated : answer.created = false) (hsame : Same s t) :
      Agrees t (.ok (answer, s)) (.ok answer, t)
  | applied {answer : Answer} {s : Store} {t' : Tables} (hcreated : answer.created = true)
      (hsame : Same s t') : Agrees t (.ok (answer, s)) (.ok answer, t')

variable {request : ApprovalRequest}

section Calls

section

variable (hsame : Same s t) (h : s.Inv env) (hcall : call.Lawful env)
  (hnew : s.operations.find? (call.submission.scopeId, call.submission.key) = none)

include hsame h hcall hnew

/-- What the tables say of a call that is no replay, also at a second look. -/
theorem Same.look_new : t.replay env call.submission.scopeId call.submission.key call.receiptOf = .ok none ∧
    (t.look env call.submission.scopeId call.submission.key call.receiptOf =
      if (s.scopes.find? call.submission.scopeId).isSome = true then .ok none
      else .error ⟨.storage, .scopeNotFound⟩) ∧
    ∀ failure, t.recover env call.submission.scopeId call.submission.key call.receiptOf failure =
      .error failure := by
  rw [Tables.look, hsame.exist_eq h]
  simp only [Tables.recover, hsame.replay_eq h hcall, hnew]
  refine ⟨trivial, ?_, fun _ => rfl⟩
  cases s.scopes.find? call.submission.scopeId with
  | none | some => rfl

end

section

variable (hsame : Same s t) (h : s.Inv env)

include hsame h

/-- What was committed is read back. -/
theorem Same.reread_eq (hcall : call.Lawful env)
    (hrow : s.operations.find? (call.submission.scopeId, call.submission.key) = some row)
    (hdigest : row.digest = env.digest call.submission)
    (hview : s.scopes.find? call.submission.scopeId = some view) :
    t.reread env call.submission.scopeId call.submission.key call.receiptOf = .ok ⟨view, row.receipt, false⟩ := by
  rw [Tables.reread, hsame.replay_eq h hcall, hrow]
  simp only [hcall.replay (h.operation _ row hrow), if_pos hdigest, hview, viewOr, ok_bind]
  rfl

/-- The write of an approval that is staged. -/
theorem Same.publish_agrees {current : Option GenerationDocument}
    {draw : Draw} {digest : String} {r : SourceReceipt} (hview : s.scopes.find? id = some view)
    (happroved : Approved env view current request draw digest r d staged)
    (hsteps : Steps env submission view staged) (hnew : s.operations.find? (id, submission.key) = none) :
    WriteAgrees s id view staged (t.publish view staged d) := by
  have hfresh : d.generationId ∉ view.pointers := by
    rw [happroved.generation]
    exact happroved.fresh
  have hcommit : s.published id view staged d = s.commit id view staged :=
    published_eq_commit (h.scope id view hview).links happroved.document (by rw [happroved.scope])
      (by rw [happroved.scope]) hfresh
  rw [hsame.publish_eq h hview hfresh happroved.revision, hcommit]
  exact hsame.write_agrees h hview hsteps hnew

/-- The write of a control operation that is staged. -/
theorem Same.control_agrees (hview : s.scopes.find? id = some view)
    (hdocument : staged.document = none) (hsteps : Steps env submission view staged)
    (hnew : s.operations.find? (id, submission.key) = none) :
    WriteAgrees s id view staged (t.control view staged) := by
  rw [hsame.control_eq h hview, controlled_eq_commit hdocument]
  exact hsame.write_agrees h hview hsteps hnew

/-- A call whose key is retained. -/
theorem Same.replayed (hcall : call.Lawful env)
    (hrow : s.operations.find? (call.submission.scopeId, call.submission.key) = some row)
    {rest : Except Failure Answer × Tables} :
    Agrees t (s.serve call) (match t.look env call.submission.scopeId call.submission.key call.receiptOf with
        | .error failure => (.error failure, t)
        | .ok (some answer) => (.ok answer, t)
        | .ok none => rest) := by
  obtain ⟨view, hview, -⟩ := (h.operation _ row hrow).scope
  have hview : s.scopes.find? call.submission.scopeId = some view := hview
  rw [Tables.look, hsame.replay_eq h hcall, Store.serve]
  simp only [hrow, hview, viewOr]
  cases call.receiptOf row with
  | error => exact .refused rfl
  | ok => exact .replayed rfl hsame

end

end Calls

/-- The document of the active generation is read as it was written. -/
theorem Same.current_eq (hsame : Same s t) (hscope : ScopeInv env s id view) :
    t.currentDocument env view = .ok (s.current id view) := by
  rw [Tables.currentDocument, Store.current]
  cases hactive : view.active with
  | none => rfl
  | some g =>
    obtain ⟨d, hd⟩ := hscope.active g hactive
    simp only [Tables.document, hscope.config, hsame.generations, hd.stored, require,
      mem_pointers_active hactive, decide_true, if_true, ok_bind, storedDocument,
      hd.documentView_eq, Option.bind_some]
    rfl

section

variable {draw : Draw}

section

variable (hsame : Same s t) (h : s.Inv env)

include hsame h

/-- The last transaction of an approval. -/
theorem Same.sqlPublishRead_eq (hview : s.scopes.find? id = some staged.scope)
    (hrow : s.operations.find? (id, request.idempotencyKey) = some staged.row)
    (hdigest : staged.row.digest = env.digest (.approval id draw.actor request))
    (hdocument : staged.document = some d) (hactive : staged.scope.active = some (generationView env d))
    (hstored : s.generations.find? (id, d.generationId) = some d) :
    sqlPublishRead env t id request draw staged = .ok ⟨staged.scope, staged.row.receipt, true⟩ := by
  have hscope := h.scope id staged.scope hview
  have hlawful : (approvalCall env id request draw true (.error ⟨.value, .busy⟩)).Lawful env :=
    approvalCall_lawful ..
  have hreread := hsame.reread_eq h hlawful hrow hdigest hview
  simp only [approvalCall, Submission.scopeId, Submission.key] at hreread
  obtain ⟨x, hx⟩ := hscope.active _ hactive
  cases hstored.symm.trans hx.stored
  have hmem : d.generationId ∈ staged.scope.pointers := mem_pointers_active hactive
  have hshown : documentView env staged.scope.config d.generationId d
      staged.scope.controlRevision = .ok (generationView env d) := hx.documentView_eq
  rw [sqlPublishRead]
  simp only [hreread, hdocument, ok_bind, Tables.document, hmem, hscope.config,
    hsame.generations, hstored, storedDocument, hshown, require, decide_true, if_true,
    pure_eq_ok]

/-- An approval in the tables agrees with the ledger. -/
theorem Same.sqlPublish_agrees (id : String) (request : ApprovalRequest) (draw : Draw)
    (admitted : Bool) (binding : Except Failure Binding) :
    Agrees t (s.serve (approvalCall env id request draw admitted binding))
      (sqlPublish env t id request draw admitted binding) := by
  have hlawful : (approvalCall env id request draw admitted binding).Lawful env :=
    approvalCall_lawful ..
  cases hrow : s.operations.find? (id, request.idempotencyKey) with
  | some => exact hsame.replayed h hlawful hrow
  | none =>
    obtain ⟨hreplay, hlook, hrefused⟩ := hsame.look_new h hlawful hrow
    simp only [approvalCall, Submission.scopeId, Submission.key] at hreplay hlook hrefused
    rw [sqlPublish, Store.serve]
    simp only [hlook, approvalCall, Submission.scopeId, Submission.key, hrow]
    obtain hview | ⟨view, hview⟩ := Option.eq_none_or_eq_some (s.scopes.find? id)
    · simp only [hview]
      exact .refused rfl
    have hscope := h.scope id view hview
    simp only [hview]
    cases admitted with
    | false => exact .refused rfl
    | true =>
      simp only [Option.isSome_some, if_true, viewOr, ok_bind, Bool.not_true, Bool.false_eq_true, if_false, require]
      cases binding with
      | error failure =>
        simp only [sqlPublishWrite, error_bind, hrefused, ite_self]
        exact .refused rfl
      | ok b =>
        simp only [sqlPublishWrite, ok_bind, hsame.exist_eq h, hreplay, hsame.get_eq h, hview,
          viewOr, hsame.current_eq hscope]
        cases hstage : stagePublication env view (s.current id view) b request draw
            (env.digest (.approval id draw.actor request)) with
        | error failure =>
          simp only [error_bind, hrefused, ite_self]
          exact .refused rfl
        | ok staged =>
          obtain ⟨r, d, happroved⟩ := stagePublication_ok hstage
          obtain ⟨hsteps, hinv, -⟩ := h.apply hlawful hview hrow hstage
          have hwrite := hsame.publish_agrees h hview happroved hsteps hrow
          simp only [ok_bind, happroved.document]
          rw [WriteAgrees] at hwrite
          split at hwrite
          · rename_i hunique
            obtain ⟨t', hpublish, hsame'⟩ := hwrite
            have hread : sqlPublishRead env t' id request draw staged =
                .ok ⟨staged.scope, staged.row.receipt, true⟩ := by
              refine hsame'.sqlPublishRead_eq hinv ?_ ?_ hsteps.digest happroved.document
                (by rw [happroved.scope]) ?_
              · exact find?_scopes_commit
              · exact find?_retain_self h hview hsteps hrow
              · rw [find?_generations_commit, if_pos ⟨d, happroved.document, rfl⟩, happroved.document]
            simp only [hpublish, ok_bind, pure_eq_ok, hunique, if_true, hread]
            exact .applied rfl hsame'
          · rename_i hdup
            simp only [hwrite, error_bind, hrefused, ite_self, hdup]
            exact .refused rfl

/-- The last transaction of a control operation. -/
theorem Same.sqlControlRead_eq {request : ControlRequest} (hview : s.scopes.find? id = some staged.scope)
    (hrow : s.operations.find? (id, request.idempotencyKey) = some staged.row)
    (hdigest : staged.row.digest = env.digest (.control id draw.actor request)) :
    sqlControlRead env t id request draw staged = .ok ⟨staged.scope, staged.row.receipt, true⟩ := by
  have hlawful : (controlCall env id request draw).Lawful env := controlCall_lawful ..
  have hreread := hsame.reread_eq h hlawful hrow hdigest hview
  simp only [controlCall, Submission.scopeId, Submission.key] at hreread
  rw [sqlControlRead]
  simp only [hreread, ok_bind, require, decide_true, if_true, pure_eq_ok]

/-- A control operation in the tables agrees with the ledger. -/
theorem Same.sqlControl_agrees (id : String) (request : ControlRequest) (draw : Draw) :
    Agrees t (s.serve (controlCall env id request draw)) (sqlControl env t id request draw) := by
  have hlawful : (controlCall env id request draw).Lawful env := controlCall_lawful ..
  cases hrow : s.operations.find? (id, request.idempotencyKey) with
  | some => exact hsame.replayed h hlawful hrow
  | none =>
    obtain ⟨hreplay, hlook, hrefused⟩ := hsame.look_new h hlawful hrow
    simp only [controlCall, Submission.scopeId, Submission.key] at hreplay hlook hrefused
    rw [sqlControl, Store.serve]
    simp only [hlook, controlCall, Submission.scopeId, Submission.key, hrow]
    obtain hview | ⟨view, hview⟩ := Option.eq_none_or_eq_some (s.scopes.find? id)
    · simp only [hview]
      exact .refused rfl
    have hscope := h.scope id view hview
    simp only [hview, Option.isSome_some, if_true, viewOr, ok_bind, require, sqlControlWrite,
      hsame.exist_eq h, hreplay, hsame.get_eq h]
    cases hstage : stageControl env view request draw (env.digest (.control id draw.actor request)) with
    | error failure =>
      simp only [error_bind, hrefused, ite_self]
      exact .refused rfl
    | ok staged =>
      obtain ⟨hsteps, hinv, -⟩ := h.apply hlawful hview hrow hstage
      have hwrite := hsame.control_agrees h hview (stageControl_ok hstage).document hsteps hrow
      simp only [ok_bind]
      rw [WriteAgrees] at hwrite
      split at hwrite
      · rename_i hunique
        obtain ⟨t', hcontrol, hsame'⟩ := hwrite
        have hread : sqlControlRead env t' id request draw staged =
            .ok ⟨staged.scope, staged.row.receipt, true⟩ := by
          refine hsame'.sqlControlRead_eq hinv ?_ ?_ hsteps.digest
          · exact find?_scopes_commit
          · exact find?_retain_self h hview hsteps hrow
        simp only [hcontrol, ok_bind, pure_eq_ok, hunique, if_true, hread]
        exact .applied rfl hsame'
      · rename_i hdup
        simp only [hwrite, error_bind, hrefused, ite_self, hdup]
        exact .refused rfl

end

/-! ## Requests -/

/-- A request to the SQL implementation. -/
def sqlStep (env : Env) (t : Tables) : Operation → Except Failure Reply × Tables
  | .create config actor now =>
    match sqlCreate env t config actor now with
    | .error failure => (.error failure, t)
    | .ok ((view, created), t') => (.ok ⟨view, none, created⟩, t')
  | .publish id request draw admitted binding =>
    let result := sqlPublish env t id request draw admitted binding
    (Answer.reply <$> result.1, result.2)
  | .control id request draw =>
    let result := sqlControl env t id request draw
    (Answer.reply <$> result.1, result.2)

/-- What a request comes to, as its caller sees it: the reply, or the code of the refusal. -/
def shown (outcome : Except Failure Reply) : Except Code Reply :=
  outcome.mapError Failure.code

/-- Whether a request was applied. -/
def wasApplied : Except Failure Reply → Bool
  | .error _ => false
  | .ok reply => reply.created

end

/-- A request to the dicts, and the same request to the tables. -/
structure StepAgrees (s : Store) (t : Tables) (memory : Except Failure Reply × Store)
    (sql : Except Failure Reply × Tables) : Prop where
  outcome : shown sql.1 = shown memory.1
  tables : Same memory.2 sql.2
  unchanged : wasApplied memory.1 = false → memory.2 = s ∧ sql.2 = t

/-- A new scope in the tables. -/
theorem Same.create (hsame : Same s t) (id : String) (view : ScopeView) :
    Same { s with scopes := s.scopes.put (id, view) }
      { t with scopes := t.scopes.put (id, view.row) } where
  scopes := by
    simp only
    rw [Dict.mapValues_put, hsame.scopes]
  generations := hsame.generations
  operations := hsame.operations

theorem Same.create_agrees (hsame : Same s t) (h : s.Inv env) (config : ScopeConfig)
    (actor : String) (now : Instant) :
    StepAgrees s t (memoryStep env s (.create config actor now)) (sqlStep env t (.create config actor now)) := by
  rw [memoryStep, sqlStep, memoryCreate, sqlCreate, h.memoryGet_eq, hsame.get_eq h, hsame.length_scopes]
  simp only [ok_bind]
  cases hview : s.scopes.find? config.scopeId with
  | some current =>
    simp only
    cases current.config = config && current.createdBy = actor with
    | true | false => exact ⟨rfl, hsame, fun _ => ⟨rfl, rfl⟩⟩
  | none =>
    simp only
    by_cases hfew : s.scopes.rows.length < 16
    · have hnext := hsame.create config.scopeId (newScope env config actor now)
      have hget := hnext.get_eq (h.create hview hfew actor now) config.scopeId
      simp only at hget
      rw [Dict.find?_put, if_pos rfl] at hget
      simp only [hfew, hget, require, decide_true, if_true, ok_bind, pure_eq_ok]
      exact ⟨rfl, hnext, fun hno => by cases hno⟩
    · simp only [hfew, require, decide_false]
      exact ⟨rfl, hsame, fun _ => ⟨rfl, rfl⟩⟩

theorem Agrees.step {result : Except Failure (Answer × Store)} {sql : Except Failure Answer × Tables}
    (hagrees : Agrees t result sql) (hsame : Same s t)
    (hreplayed : ∀ answer s', result = .ok (answer, s') → answer.created = false → s' = s) :
    StepAgrees s t (settled s result) (Answer.reply <$> sql.1, sql.2) := by
  cases hagrees with
  | refused hcode => exact ⟨congrArg Except.error hcode, hsame, fun _ => ⟨rfl, rfl⟩⟩
  | replayed hcreated hsame' =>
    exact ⟨rfl, hsame', fun _ => ⟨hreplayed _ _ rfl hcreated, rfl⟩⟩
  | applied hcreated hsame' =>
    refine ⟨rfl, hsame', fun hno => ?_⟩
    rw [settled, wasApplied, Answer.reply, hcreated] at hno
    cases hno

/-- The two implementations agree on every request. -/
theorem Same.step (hsame : Same s t) (h : s.Inv env) (op : Operation) :
    StepAgrees s t (memoryStep env s op) (sqlStep env t op) := by
  have hreplayed {call : Call} (hcall : call.Lawful env) (answer : Answer) (s' : Store)
      (hserve : s.serve call = .ok (answer, s')) (hcreated : answer.created = false) : s' = s := by
    cases h.serve_ok hcall hserve with
    | replayed => rfl
    | applied => cases hcreated
  cases op with
  | create config actor now => exact hsame.create_agrees h config actor now
  | publish id request draw admitted binding =>
    rw [memoryStep, sqlStep, memoryPublish_eq h]
    exact (hsame.sqlPublish_agrees h id request draw admitted binding).step hsame
      (hreplayed (approvalCall_lawful ..))
  | control id request draw =>
    rw [memoryStep, sqlStep, memoryControl_eq h]
    exact (hsame.sqlControl_agrees h id request draw).step hsame (hreplayed (controlCall_lawful ..))

/-! ## Runs -/

/-- The dicts, the tables, and the operations that were applied, with their receipts. -/
structure Log where
  store : Store := {}
  tables : Tables := {}
  applied : List (Submission × Receipt) := []

/-- The operation that a request applies. -/
def appliedBy (call : Option Call) : Except Failure Reply → Option (Submission × Receipt)
  | .error _ => none
  | .ok reply =>
    if reply.created = true then
      call.bind fun c => reply.receipt.map fun receipt => (c.submission, receipt)
    else none

/-- A request to both implementations. -/
def Log.step (env : Env) (log : Log) (op : Operation) : Log where
  store := (memoryStep env log.store op).2
  tables := (sqlStep env log.tables op).2
  applied := log.applied ++ (appliedBy (op.call env) (memoryStep env log.store op).1).toList

/-- What holds of the operations that were applied. -/
structure LogInv (env : Env) (log : Log) : Prop where
  inv : log.store.Inv env
  same : Same log.store log.tables
  below : ∀ x ∈ log.applied, ∃ view, log.store.scopes.find? x.1.scopeId = some view ∧
    x.1.expectedRevision < view.controlRevision
  increasing : log.applied.Pairwise fun x y =>
    x.1.scopeId = y.1.scopeId → x.1.expectedRevision < y.1.expectedRevision
  written : ∀ id key row, log.store.operations.find? (id, key) = some row →
    ∃ x ∈ log.applied, x.1.scopeId = id ∧ x.1.key = key ∧ row.digest = env.digest x.1 ∧
      row.receipt = x.2

theorem LogInv.empty (env : Env) : LogInv env {} where
  inv := .empty env
  same := .empty
  below _ h := by cases h
  increasing := .nil
  written _ _ _ h := by cases h

variable {log : Log}

/-- An operation that is applied. -/
theorem LogInv.commit (h : LogInv env log) {t' : Tables} (hview : log.store.scopes.find? submission.scopeId = some view)
    (hsteps : Steps env submission view staged)
    (hnew : log.store.operations.find? (submission.scopeId, submission.key) = none)
    (hinv : (log.store.commit submission.scopeId view staged).Inv env)
    (hsame : Same (log.store.commit submission.scopeId view staged) t') :
    LogInv env ⟨log.store.commit submission.scopeId view staged, t',
      log.applied ++ [(submission, staged.row.receipt)]⟩ where
  inv := hinv
  same := hsame
  below x hx := by
    have hrevision := hsteps.revision
    simp only [Store.commit]
    rw [Dict.find?_put]
    obtain hx | hx := mem_append.mp hx
    · obtain ⟨view', hview', hless⟩ := h.below x hx
      by_cases hid : x.1.scopeId = submission.scopeId
      · rw [hid, hview, Option.some.injEq] at hview'
        subst hview'
        exact ⟨staged.scope, if_pos hid, by omega⟩
      · exact ⟨view', by rw [if_neg hid]; exact hview', hless⟩
    · rw [mem_singleton.mp hx]
      have hexpected := hsteps.expected
      exact ⟨staged.scope, if_pos rfl, by simp only; omega⟩
  increasing := by
    refine pairwise_append.mpr ⟨h.increasing, pairwise_singleton _ _, fun x hx y hy => ?_⟩
    rw [mem_singleton.mp hy]
    intro hid
    obtain ⟨view', hview', hless⟩ := h.below x hx
    rw [hid, hview, Option.some.injEq] at hview'
    rw [hsteps.expected, hview']
    exact hless
  written id key row hrow := by
    have hnew' : log.store.operations.find? (submission.scopeId, staged.row.key) = none := by
      rw [hsteps.key]
      exact hnew
    obtain hold | ⟨heq, rfl⟩ := find?_retain hnew' hrow
    · obtain ⟨x, hx, hwritten⟩ := h.written id key row hold
      exact ⟨x, mem_append_left _ hx, hwritten⟩
    · obtain ⟨rfl, rfl⟩ := Prod.mk.inj heq
      exact ⟨_, mem_append_right _ mem_cons_self, rfl, hsteps.key.symm, hsteps.digest, rfl⟩

theorem LogInv.step (h : LogInv env log) (op : Operation) : LogInv env (log.step env op) := by
  have hagrees := h.same.step h.inv op
  have hstepped := h.inv.stepped op
  rw [Log.step]
  generalize memoryStep env log.store op = memory at hagrees hstepped
  generalize sqlStep env log.tables op = sql at hagrees
  obtain ⟨outcome, s'⟩ := memory
  have hinv := hstepped.inv h.inv
  have hsame := hagrees.tables
  simp only at hstepped hinv hsame ⊢
  cases hstepped with
  | refused =>
    simp only [appliedBy, Option.toList_none, append_nil]
    exact { h with same := hsame }
  | found =>
    simp only [appliedBy, Bool.false_eq_true, if_false, Option.toList_none, append_nil]
    exact { h with same := hsame }
  | created config actor now hop hnew =>
    simp only [appliedBy, Option.map_none, Option.bind_fun_none, ite_self, Option.toList_none, append_nil]
    refine { h with inv := hinv, same := hsame, below := fun x hx => ?_ }
    obtain ⟨view, hview, hless⟩ := h.below x hx
    refine ⟨view, ?_, hless⟩
    simp only
    rw [Dict.find?_put, if_neg]
    · exact hview
    · intro hid
      rw [hid, hnew] at hview
      cases hview
  | served call answer _ hop hserved =>
    have hlawful := Operation.lawful hop
    cases hserved with
    | replayed =>
      simp only [appliedBy, Answer.reply, Bool.false_eq_true, if_false, Option.toList_none, append_nil]
      exact { h with same := hsame }
    | applied hnew hview hstage =>
      simp only [appliedBy, Answer.reply, if_true, hop, Option.bind_some, Option.map_some, Option.toList_some]
      have hsteps := hlawful.steps (h.inv.scope _ _ hview).watermarked hstage
      exact h.commit hview hsteps hnew hinv hsame

theorem LogInv.run (env : Env) (ops : List Operation) : LogInv env (ops.foldl (Log.step env) {}) := by
  refine List.foldlRecOn ops (Log.step env) (.empty env) fun log h op _ => ?_
  exact h.step op

/-- The reply to a call whose key is retained. -/
theorem LogInv.replayed (h : LogInv env log) {op : Operation} (hop : op.call env = some call)
    (hretained : (log.store.operations.find? (call.submission.scopeId, call.submission.key)).isSome = true) :
    ∃ x ∈ log.applied, x.1.scopeId = call.submission.scopeId ∧ x.1.key = call.submission.key ∧
      (env.digest x.1 = env.digest call.submission →
        ∃ view, log.store.scopes.find? call.submission.scopeId = some view ∧
          (memoryStep env log.store op).1 = .ok ⟨view, some x.2, false⟩) ∧
      (env.digest x.1 ≠ env.digest call.submission →
        (memoryStep env log.store op).1 = .error ⟨.storage, .idempotencyConflict⟩) := by
  obtain ⟨row, hrow⟩ := Option.isSome_iff_exists.mp hretained
  obtain ⟨x, hx, hid, hkey, hdigest, hreceipt⟩ := h.written _ _ row hrow
  obtain ⟨view, hview, -⟩ := (h.inv.operation _ row hrow).scope
  have hview : log.store.scopes.find? call.submission.scopeId = some view := hview
  have hanswer := (Operation.lawful hop).replay (h.inv.operation _ row hrow)
  have hstep : memoryStep env log.store op = settled log.store (log.store.serve call) := by
    cases op with
    | create => cases hop
    | publish =>
      cases hop
      rw [memoryStep, memoryPublish_eq h.inv]
    | control =>
      cases hop
      rw [memoryStep, memoryControl_eq h.inv]
  refine ⟨x, hx, hid, hkey, fun hsame => ⟨view, hview, ?_⟩, fun hother => ?_⟩
  · rw [if_pos (hdigest.trans hsame), hreceipt] at hanswer
    rw [hstep, Store.serve]
    simp only [hrow, hanswer, hview, viewOr, ok_bind]
    rfl
  · rw [if_neg (fun hsame => hother (hdigest.symm.trans hsame))] at hanswer
    rw [hstep, Store.serve]
    simp only [hrow, hanswer, error_bind]
    rfl

/-- Operations are applied once: over any run of requests no two that were applied share their scope
and their expected revision. Whatever is requested next, the implementations show the same outcome
and hold the same; what is refused or replayed changes nothing, what is applied increases the
revision by one, and a request whose key is retained gets the receipt of the operation that was
applied under the key if their digests agree, and is refused if not. -/
theorem operations_exactly_once (env : Env) (ops : List Operation) :
    let log := ops.foldl (Log.step env) {}
    (log.applied.map fun x => (x.1.scopeId, x.1.expectedRevision)).Nodup ∧
    ∀ op,
      let memory := memoryStep env log.store op
      let sql := sqlStep env log.tables op
      shown sql.1 = shown memory.1 ∧ Same memory.2 sql.2 ∧
      (wasApplied memory.1 = false → memory.2 = log.store ∧ sql.2 = log.tables) ∧
      ∀ call, op.call env = some call → (∀ reply, memory.1 = .ok reply → reply.created = true →
          ∃ view, log.store.scopes.find? call.submission.scopeId = some view ∧
            memory.2.scopes.find? call.submission.scopeId = some reply.scope ∧
            call.submission.expectedRevision = view.controlRevision ∧
            reply.scope.controlRevision = view.controlRevision + 1) ∧
        ((log.store.operations.find? (call.submission.scopeId, call.submission.key)).isSome = true →
          ∃ x ∈ log.applied, x.1.scopeId = call.submission.scopeId ∧ x.1.key = call.submission.key ∧
            (env.digest x.1 = env.digest call.submission →
              ∃ view, log.store.scopes.find? call.submission.scopeId = some view ∧
                memory.1 = .ok ⟨view, some x.2, false⟩) ∧
            (env.digest x.1 ≠ env.digest call.submission →
              memory.1 = .error ⟨.storage, .idempotencyConflict⟩)) := by
  intro log
  have h : LogInv env log := LogInv.run env ops
  refine ⟨?_, fun op => ?_⟩
  · rw [nodup_iff_pairwise_ne, pairwise_map]
    refine h.increasing.imp fun {x y} hless heq => ?_
    have hsame := Prod.mk.inj heq
    exact (hless hsame.1).ne hsame.2
  · have hagrees := h.same.step h.inv op
    refine ⟨hagrees.outcome, hagrees.tables, hagrees.unchanged, fun call hop => ⟨?_, ?_⟩⟩
    · intro reply hreply hcreated
      have hstepped := h.inv.stepped op
      rw [hreply] at hstepped
      generalize (memoryStep env log.store op).2 = s' at hstepped
      generalize houtcome : Except.ok reply = outcome at hstepped
      cases hstepped with
      | refused => cases houtcome
      | found =>
        cases houtcome
        cases hcreated
      | created config actor now hcreate =>
        subst hcreate
        cases hop
      | served call' answer _ hop' hserved =>
        cases hop.symm.trans hop'
        cases houtcome
        cases hserved with
        | replayed => cases hcreated
        | applied hnew hview hstage =>
          have hsteps := (Operation.lawful hop).steps (h.inv.scope _ _ hview).watermarked hstage
          refine ⟨_, hview, ?_, hsteps.expected, hsteps.revision⟩
          rw [Store.commit, Dict.find?_put, if_pos rfl]
          rfl
    · intro hretained
      exact h.replayed hop hretained

/-- **Storage is bounded.** Whatever is requested, dicts and tables hold at most 16 scopes, 32 generations and
1024 operations, at most 64 of one scope. -/
theorem storage_bounded (env : Env) (ops : List Operation) :
    let log := ops.foldl (Log.step env) {}
    (log.store.scopes.rows.length ≤ 16 ∧ log.store.generations.rows.length ≤ 32 ∧
      log.store.operations.rows.length ≤ 1024 ∧ ∀ id, (operationsOf log.store.operations id).length ≤ 64) ∧
    log.tables.scopes.rows.length ≤ 16 ∧ log.tables.generations.rows.length ≤ 32 ∧
      log.tables.operations.rows.length ≤ 1024 := by
  intro log
  have h : LogInv env log := LogInv.run env ops
  have hscopes : log.tables.scopes.rows.length = log.store.scopes.rows.length := by
    rw [h.same.scopes, Dict.mapValues, length_map]
  have hoperations := congrArg List.length h.same.operations.values
  rw [length_map, length_map] at hoperations
  rw [hscopes, h.same.generations, hoperations]
  exact ⟨⟨h.inv.few, h.inv.generations_le, h.inv.operations_le, h.inv.retained⟩, h.inv.few,
    h.inv.generations_le, h.inv.operations_le⟩

end C2Hunter.Baseline
