import C2Hunter.ExportAdmission
import Mathlib.Data.List.Sort
import Mathlib.Data.Prod.Lex
import Mathlib.Data.String.Basic

/-!
# Retention of finished exports

`retain_terminal` applies three bounds one after the other to the finished jobs, oldest
first: an age, a count, and the bytes of their artifacts.

* `Store.terminalOrder` — the finished jobs, by completion time and id.
* `Store.Retains` — what a retention is for: the bounds hold afterwards, and the jobs that
  are left are the longest newest part of the young ones that respects them.
* `overBytes_spec` — the byte loop stops at the longest part that fits.
* `retainTerminal_exact` — the call is such a retention.
-/

namespace C2Hunter

open List

/-- The finished jobs, in the order of `retain_terminal`. -/
def Store.terminalOrder (s : Store) : List Job :=
  (s.jobs.rows.filter fun job => job.status.terminal).mergeSort retainOrder

/-- The finished jobs that did not end before the cutoff. -/
def Store.young (s : Store) (cutoff : Time) : List Job :=
  s.terminalOrder.filter fun job => ¬job.completedAt.getD job.updatedAt < cutoff

/-- The jobs respect the count and the byte bound. -/
def Fits (count bytes : Int) (jobs : List Job) : Prop :=
  jobs.length ≤ count ∧ (jobs.map Job.artifactBytes).sum ≤ bytes

/-- What a retention that returns `removed` does to a store. -/
structure Store.Retains (s : Store) (cutoff : Time) (count bytes : Int) (removed : List String)
    (s' : Store) : Prop where
  sorted : s.terminalOrder.Pairwise fun a b => retainOrder a b
  returned : removed.Sublist (s.terminalOrder.map Job.id)
  jobs : s'.jobs.rows = s.jobs.rows.filter fun job => job.id ∉ removed
  exports : s'.exports.rows = s.exports.rows.filter fun stored => stored.id ∉ removed
  active : ∀ job ∈ s.jobs.rows, ¬job.status.terminal → job ∈ s'.jobs.rows
  aged : ∀ job ∈ s'.terminalOrder, cutoff ≤ job.completedAt.getD job.updatedAt
  fits : Fits count bytes s'.terminalOrder
  newest : s'.terminalOrder <:+ s.young cutoff
  longest : ∀ jobs, jobs <:+ s.young cutoff → Fits count bytes jobs → jobs <:+ s'.terminalOrder

/-- The byte loop stops at the longest part that fits. -/
theorem overBytes_spec {bytes : Int} (hbytes : 0 ≤ bytes) (survivors : List Job) :
    ∃ kept, survivors = overBytes bytes survivors (survivors.map Job.artifactBytes).sum ++ kept ∧
      (kept.map Job.artifactBytes).sum ≤ bytes ∧
      ∀ jobs, jobs <:+ survivors → (jobs.map Job.artifactBytes).sum ≤ bytes → jobs <:+ kept := by
  induction survivors with
  | nil => exact ⟨[], rfl, hbytes, fun jobs h _ => h⟩
  | cons job survivors ih =>
    simp only [map_cons, sum_cons, overBytes]
    split
    · next hover =>
      obtain ⟨kept, hkept, hsum, hlongest⟩ := ih
      refine ⟨kept, ?_, hsum, ?_⟩
      · rw [add_sub_cancel_left, cons_append, ← hkept]
      · intro jobs hjobs hfits
        rcases suffix_cons_iff.mp hjobs with rfl | hjobs
        · rw [map_cons, sum_cons] at hfits
          exact absurd hfits (not_le.mpr hover)
        · exact hlongest jobs hjobs hfits
    · next hfits => exact ⟨job :: survivors, rfl, not_lt.mp hfits, fun jobs h _ => h⟩

theorem retainOrder_iff {a b : Job} : retainOrder a b ↔ toLex (a.completedAt.getD a.updatedAt, a.id) ≤
      toLex (b.completedAt.getD b.updatedAt, b.id) := by
  rw [retainOrder, decide_eq_true_eq, Prod.Lex.toLex_le_toLex]

theorem retainOrder_id {a b : Job} (hab : retainOrder a b) (hba : retainOrder b a) : a.id = b.id :=
  congrArg (fun x => (ofLex x).2) (le_antisymm (retainOrder_iff.mp hab) (retainOrder_iff.mp hba))

namespace Store

variable {s : Store}

theorem mem_terminalOrder {job : Job} : job ∈ s.terminalOrder ↔ job ∈ s.jobs.rows ∧ job.status.terminal := by
  rw [terminalOrder, mem_mergeSort, mem_filter]

theorem nodup_terminalOrder : (s.terminalOrder.map Job.id).Nodup :=
  ((mergeSort_perm _ _).map _).nodup_iff.mpr (s.jobs.nodup.sublist (filter_sublist.map _))

theorem pairwise_terminalOrder : s.terminalOrder.Pairwise fun a b => retainOrder a b := by
  refine pairwise_mergeSort (fun a b c hab hbc => ?_) (fun a b => ?_) _
  · exact retainOrder_iff.mpr ((retainOrder_iff.mp hab).trans (retainOrder_iff.mp hbc))
  · rw [Bool.or_eq_true, retainOrder_iff, retainOrder_iff]
    exact le_total _ _

theorem id_mem_map {jobs : List Job} (h : jobs ⊆ s.jobs.rows) {job : Job} (hjob : job ∈ s.jobs.rows) :
    job.id ∈ jobs.map Job.id ↔ job ∈ jobs := by
  refine ⟨fun hid => ?_, mem_map_of_mem⟩
  obtain ⟨other, hother, hid⟩ := mem_map.mp hid
  exact eq_of_id (h hother) hjob hid ▸ hother

section Kept

variable {cutoff : Time} {dropped kept : List Job} (h : s.young cutoff = dropped ++ kept)

include h

/-- A finished job is selected exactly when the loops do not keep it. -/
theorem selected_iff {job : Job} (hjob : job ∈ s.terminalOrder) :
    job ∈ (s.terminalOrder.filter fun job => job.completedAt.getD job.updatedAt < cutoff) ++ dropped ↔
      job ∉ kept := by
  have hyoung : job ∈ dropped ++ kept ↔ ¬job.completedAt.getD job.updatedAt < cutoff := by
    rw [← h, young, mem_filter, decide_eq_true_eq]
    exact and_iff_right hjob
  have hnodup : (dropped ++ kept).Nodup :=
    h ▸ (List.Nodup.of_map _ nodup_terminalOrder).sublist filter_sublist
  have hdisjoint : job ∈ dropped → job ∉ kept := fun hd hk =>
    disjoint_of_nodup_append hnodup hd hk
  rw [mem_append] at hyoung
  rw [mem_append, mem_filter, decide_eq_true_eq]
  tauto

/-- Retention from the jobs it keeps. -/
theorem retains_of_kept {s' : Store} {count bytes : Int} {removed : List String} (hfits : Fits count bytes kept)
    (hlongest : ∀ jobs, jobs <:+ s.young cutoff → Fits count bytes jobs → jobs <:+ kept)
    (hremoved : removed = (s.terminalOrder.filter fun job => job.id ∈ ((s.terminalOrder.filter
      fun job => job.completedAt.getD job.updatedAt < cutoff) ++ dropped).map Job.id).map Job.id)
    (hjobs : s'.jobs = removed.foldl Table.erase s.jobs)
    (hexports : s'.exports = removed.foldl Table.erase s.exports) :
    s.Retains cutoff count bytes removed s' := by
  have hrow : s.terminalOrder ⊆ s.jobs.rows := fun job hjob => (mem_terminalOrder.mp hjob).1
  have hgone : ∀ job ∈ s.jobs.rows, (job.id ∈ removed ↔ job ∈ s.terminalOrder ∧ job ∉ kept) := by
    intro job hjob
    rw [hremoved, id_mem_map (fun x hx => hrow (mem_filter.mp hx).1) hjob, mem_filter,
      decide_eq_true_eq, id_mem_map ?_ hjob]
    · exact and_congr_right (selected_iff h)
    · refine append_subset.mpr ⟨fun x hx => hrow (mem_filter.mp hx).1, fun x hx => ?_⟩
      exact hrow (mem_filter.mp (h ▸ mem_append_left kept hx)).1
  have hrows : s'.jobs.rows = s.jobs.rows.filter fun job => job.id ∉ removed := by
    rw [hjobs, Table.rows_foldl_erase]
  have hsub : kept.Sublist s.terminalOrder :=
    (h ▸ sublist_append_right dropped kept).trans filter_sublist
  -- both lists are sorted and without repetition, so their members determine them
  have hkept : s'.terminalOrder = kept := by
    refine List.Perm.eq_of_pairwise ?_ pairwise_terminalOrder (pairwise_terminalOrder.sublist hsub)
      ((perm_ext_iff_of_nodup (List.Nodup.of_map _ nodup_terminalOrder)
        ((List.Nodup.of_map _ nodup_terminalOrder).sublist hsub)).mpr ?_)
    · intro a b ha hb hab hba
      have ha := hrows ▸ (mem_terminalOrder.mp ha).1
      exact eq_of_id (mem_filter.mp ha).1 (hrow (hsub.mem hb)) (retainOrder_id hab hba)
    · intro job
      rw [mem_terminalOrder, hrows, mem_filter, decide_eq_true_eq]
      constructor
      · rintro ⟨⟨hjob, hid⟩, hterminal⟩
        by_contra hdropped
        exact hid ((hgone job hjob).mpr ⟨mem_terminalOrder.mpr ⟨hjob, hterminal⟩, hdropped⟩)
      · intro hjob
        obtain ⟨hrow, hterminal⟩ := mem_terminalOrder.mp (hsub.mem hjob)
        exact ⟨⟨hrow, fun hid => ((hgone job hrow).mp hid).2 hjob⟩, hterminal⟩
  have hsuffix : kept <:+ s.young cutoff := ⟨dropped, h.symm⟩
  exact
    { sorted := pairwise_terminalOrder
      returned := hremoved ▸ filter_sublist.map _
      jobs := hrows
      exports := by rw [hexports, Table.rows_foldl_erase]
      active := by
        intro job hjob hactive
        rw [hrows, mem_filter, decide_eq_true_eq, hgone job hjob, mem_terminalOrder]
        exact ⟨hjob, fun hterminal => hactive hterminal.1.2⟩
      aged := by
        intro job hjob
        have hyoung := mem_filter.mp (hsuffix.mem (hkept ▸ hjob))
        exact not_lt.mp (of_decide_eq_true hyoung.2)
      fits := hkept ▸ hfits
      newest := hkept ▸ hsuffix
      longest := hkept ▸ hlongest }

end Kept

end Store

/-- **Retention enforces every bound and removes nothing else.** Unless the cutoff is no
date at all, which raises before anything is removed, the call returns, and what it returns
and leaves is a retention. -/
theorem retainTerminal_exact (s : Store) (now : Time) (age count bytes : Int) (hcount : 0 ≤ count)
    (hbytes : 0 ≤ bytes) :
    (∀ e, addSeconds now (-age) = .error e → retainTerminal s now age count bytes = .error e) ∧
    ∀ cutoff, addSeconds now (-age) = .ok cutoff → ∃ removed s',
      retainTerminal s now age count bytes = .ok (removed, s') ∧ s.Retains cutoff count bytes removed s' := by
  constructor
  · intro e h
    rw [retainTerminal, h]
    rfl
  intro cutoff hcutoff
  -- the count is applied first, and the byte loop to what it leaves
  generalize hn : (s.young cutoff).length - count.toNat = n
  obtain ⟨kept, hkept, hsum, hlongest⟩ := overBytes_spec hbytes ((s.young cutoff).drop n)
  have hlength : ((s.young cutoff).drop n).length ≤ count := by
    rw [length_drop]
    omega
  have hyoung := (take_append_drop n (s.young cutoff)).symm
  rw [hkept, ← append_assoc] at hyoung
  refine ⟨_, _, (by rw [retainTerminal, hcutoff]; exact if_neg (not_lt.mpr hcount)),
    Store.retains_of_kept hyoung ⟨?_, hsum⟩ ?_ ?_ rfl rfl⟩
  · rw [hkept, length_append] at hlength
    omega
  · intro jobs hjobs hfits
    refine hlongest jobs (suffix_of_suffix_length_le hjobs (drop_suffix _ _) ?_) hfits.2
    have hcount := hfits.1
    have hle := hjobs.length_le
    rw [length_drop]
    omega
  · subst hn
    rw [← append_assoc]
    rfl

theorem retainTerminal_sampleCalls : ∃ removed s',
    retainTerminal (Call.run sampleCalls) 10 1 0 0 = .ok (removed, s') ∧
      (Call.run sampleCalls).Retains (-999990) 0 0 removed s' :=
  (retainTerminal_exact (Call.run sampleCalls) 10 1 0 0 le_rfl le_rfl).2 _ rfl

end C2Hunter
