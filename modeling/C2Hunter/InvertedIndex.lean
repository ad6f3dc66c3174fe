import Mathlib

/-!
# Inverted indexes

Documents are lists of terms; the posting list of a term is the increasing list of
the positions of the documents that contain it. This is what an index built in
batches, in chunks or in one piece is measured against.

* `InvertedIndex.posting` — the posting list, with `posting_append` for an index that
  grows and `mem_posting`, `pairwise_posting` for what it contains.
* `InvertedIndex.sum_length_posting`, `InvertedIndex.sum_filter_key` — counting
  memberships by term and by document, or by group and by element, gives the same number.
-/

namespace InvertedIndex

open List

variable {κ : Type} [DecidableEq κ]

/-- The positions, counted from `n`, of the documents that contain `k`. -/
def postingFrom (k : κ) : Nat → List (List κ) → List Nat
  | _, [] => []
  | n, doc :: docs =>
    if k ∈ doc then n :: postingFrom k (n + 1) docs else postingFrom k (n + 1) docs

/-- The posting list of a term. -/
def posting (docs : List (List κ)) (k : κ) : List Nat := postingFrom k 0 docs

theorem postingFrom_append (k : κ) (n : Nat) (docs docs' : List (List κ)) : postingFrom k n (docs ++ docs') =
      postingFrom k n docs ++ postingFrom k (n + docs.length) docs' := by
  induction docs generalizing n with
  | nil => rfl
  | cons doc docs ih =>
    have hlen : n + 1 + docs.length = n + (docs.length + 1) := by omega
    rw [cons_append, postingFrom, postingFrom, ih, length_cons, hlen]
    split <;> rfl

@[simp] theorem posting_nil (k : κ) : posting [] k = [] := rfl

/-- Adding a document adds its position to the postings of its terms. -/
theorem posting_append (docs : List (List κ)) (doc : List κ) (k : κ) :
    posting (docs ++ [doc]) k = posting docs k ++ if k ∈ doc then [docs.length] else [] := by
  rw [posting, postingFrom_append, Nat.zero_add]
  simp only [postingFrom]
  rfl

variable {keys : List κ} {k : κ} {docs : List (List κ)}

/-- A position is posted exactly when its document contains the term. -/
theorem mem_posting {i : Nat} : i ∈ posting docs k ↔ ∃ doc, docs[i]? = some doc ∧ k ∈ doc := by
  induction docs using List.reverseRecOn with
  | nil => simp
  | append_singleton docs doc ih =>
    have hlast : (i ∈ if k ∈ doc then [docs.length] else []) ↔ i = docs.length ∧ k ∈ doc := by
      split
      · next hk => simp [hk]
      · next hk => simp [hk]
    rw [posting_append, mem_append, ih, hlast, getElem?_append]
    by_cases hi : i < docs.length
    · simp [hi, hi.ne]
    · -- only the new document is left
      rw [if_neg hi, getElem?_eq_none (not_lt.mp hi), getElem?_singleton]
      have hzero : i - docs.length = 0 ↔ i = docs.length := by omega
      simp [hzero]

theorem pairwise_posting (docs : List (List κ)) (k : κ) : (posting docs k).Pairwise (· < ·) := by
  induction docs using List.reverseRecOn with
  | nil => exact List.Pairwise.nil
  | append_singleton docs doc ih =>
    rw [posting_append, pairwise_append]
    refine ⟨ih, by split <;> simp, fun i hi j hj => ?_⟩
    obtain ⟨_, hget, -⟩ := mem_posting.mp hi
    obtain ⟨hlt, -⟩ := List.getElem?_eq_some_iff.mp hget
    split at hj
    · rwa [mem_singleton.mp hj]
    · cases hj

/-- Among distinct terms, those of a duplicate-free document are as many as its length. -/
theorem sum_indicator {doc : List κ} (hkeys : keys.Nodup) (hdoc : doc.Nodup)
    (hsub : ∀ k ∈ doc, k ∈ keys) : (keys.map fun k => if k ∈ doc then 1 else 0).sum = doc.length := by
  rw [← sum_toFinset _ hkeys, ← Finset.card_filter, ← toFinset_card_of_nodup hdoc]
  congr 1
  ext k
  simp only [Finset.mem_filter, mem_toFinset]
  exact ⟨And.right, fun h => ⟨hsub k h, h⟩⟩

/-- Counting by term and by document gives the same number of memberships. -/
theorem sum_length_posting (hkeys : keys.Nodup) (hdocs : ∀ doc ∈ docs, doc.Nodup)
    (hsub : ∀ doc ∈ docs, ∀ k ∈ doc, k ∈ keys) :
    (keys.map fun k => (posting docs k).length).sum = (docs.map List.length).sum := by
  induction docs using List.reverseRecOn with
  | nil => simp
  | append_singleton docs doc ih =>
    have hlast : doc ∈ docs ++ [doc] := by simp
    have hsplit : (keys.map fun k => (posting (docs ++ [doc]) k).length).sum =
        (keys.map fun k => (posting docs k).length).sum + (keys.map fun k => if k ∈ doc then 1 else 0).sum := by
      rw [← sum_map_add]
      congr 1
      refine map_congr_left fun k _ => ?_
      rw [posting_append, length_append]
      split <;> simp
    rw [hsplit, ih (fun d hd => hdocs d (mem_append_left _ hd)) (fun d hd => hsub d (mem_append_left _ hd)),
      sum_indicator hkeys (hdocs doc hlast) (hsub doc hlast)]
    simp

/-- Exactly one of several distinct keys is the key of an element. -/
theorem sum_ite_key (hnd : keys.Nodup) (hk : k ∈ keys) (n : Nat) :
    (keys.map fun k' => if k = k' then n else 0).sum = n := by
  rw [← sum_toFinset _ hnd, Finset.sum_ite_eq, if_pos (mem_toFinset.mpr hk)]

/-- Summing over the groups of a list is summing over the list. -/
theorem sum_filter_key {α : Type} (hnd : keys.Nodup) (key : α → κ) (f : α → Nat) {l : List α}
    (hl : ∀ a ∈ l, key a ∈ keys) :
    (keys.map fun k => ((l.filter fun a => key a = k).map f).sum).sum = (l.map f).sum := by
  induction l with
  | nil => simp
  | cons a l ih =>
    have hsplit : (fun k => (((a :: l).filter fun a => key a = k).map f).sum) = fun k =>
        (if key a = k then f a else 0) + ((l.filter fun a => key a = k).map f).sum := by
      funext k
      rw [filter_cons]
      by_cases h : key a = k
      · simp [h]
      · simp [h]
    rw [hsplit, sum_map_add, sum_ite_key hnd (hl a mem_cons_self),
      ih fun b hb => hl b (mem_cons_of_mem _ hb), map_cons, sum_cons]

end InvertedIndex
