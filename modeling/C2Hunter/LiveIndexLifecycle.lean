import C2Hunter.LiveIndexQueue
import Mathlib.Logic.Relation

/-!
# The lifecycle of LIVE segment indexes

A segment is indexed at most once to a terminal outcome. The task of a segment can be
cleaned up, and from then on only the segment's `index_intent_state` remembers the
outcome; five functions write that column, and none of them turns a terminal state back.

* `LiveStep` — the changes to the task and the segment of one id.
* `LiveOp.steps` — every operation makes only such changes, at every id.
* `RowInv`, `Settled` — what a change keeps: task and intent agree; an outcome stays.
* `live_index_once` — the statement over whole runs.
-/

namespace C2Hunter

open List LiveIndex Table

open Relation

/-- The task and the segment under an id. -/
def LiveStore.row (s : LiveStore) (k : String) : Option LiveIndexTask × Option Segment :=
  (s.tasks.get? k, s.segments.get? k)

/-! ## What an operation does to one id -/

/-- The changes to the task and the segment under `k`; only a step of an `admitting`
operation creates a task. -/
inductive LiveStep (admitting : Bool) (k : String) :
    Option LiveIndexTask × Option Segment → Option LiveIndexTask × Option Segment → Prop where
  | same (r) : LiveStep admitting k r r
  | saved {task} (segment : Segment) : LiveStep admitting k (task, none) (task, some segment)
  | admitted {segment spec} {settings : LiveIndexSettings} {now} (hadmits : admitting = true)
      (hopen : segment.indexIntentState.any (·.terminal) = false) :
      LiveStep admitting k (none, some segment)
        (some (IndexTask.admitted spec settings.maxAttempts now),
          some (LiveIndex.marked segment .pending))
  | deferred {segment} (hopen : segment.indexIntentState.any (·.terminal) = false) :
      LiveStep admitting k (none, some segment) (none, some (LiveIndex.marked segment .deferred))
  | claimed {task segment token expires now} (hstatus : task.status = .queued) :
      LiveStep admitting k (some task, segment) (some (task.claimed token expires now), segment)
  | renewed {task segment expires now} (hstatus : task.status = .running) :
      LiveStep admitting k (some task, segment) (some (task.renewed expires now), segment)
  /-- the lease ends, and the segment is marked with the state the task gets -/
  | released {task segment status state next now code} (hstatus : task.status = .running)
      (hends : status = .completed ∧ state = IntentState.completed ∨
        status = .queued ∧ state = IntentState.pending ∧ task.retries = true ∨
        status = .failed ∧ state = IntentState.failed) :
      LiveStep admitting k (some task, segment)
        (some (task.released status next now code),
          segment.map fun segment => LiveIndex.marked segment state)
  | removed {task segment} (hstatus : task.status.terminal = true) :
      LiveStep admitting k (some task, segment) (none, segment)

variable {k : String} {s s' : LiveStore} {task next : LiveIndexTask} {now : Time} {admitting : Bool}
    {capacity : Int} {settings : LiveIndexSettings} {r : Option LiveIndexTask × Option Segment}
    {answer : IndexAdmission} {clock : String → Time}

namespace LiveIndex

theorem row_markIntent (s : LiveStore) (k₀ k : String) (state : IntentState) : (markIntent s k₀ state).row k =
      if k = k₀ then (s.tasks.get? k₀, (s.segments.get? k₀).map (marked · state))
      else s.row k := by
  rw [markIntent]
  cases hsegment : s.segments.get? k₀ with
  | none =>
    by_cases hk : k = k₀
    · rw [if_pos hk, LiveStore.row, hk, hsegment, Option.map_none]
    · rw [if_neg hk]
  | some segment =>
    have hid : (marked segment state).id = k₀ :=
      (key_of_get? hsegment : segment.id = k₀)
    simp only [LiveStore.row, get?_put, hid]
    by_cases hk : k = k₀
    · rw [if_pos hk, if_pos hk, hk, Option.map_some]
    · rw [if_neg hk, if_neg hk]

section

variable {k₀ : String}

section

variable (s : LiveStore) (task : LiveIndexTask) (hid : task.spec.sourceId = k₀)

include hid

theorem row_putTask (k : String) :
    (putTask s task).row k = if k = k₀ then (some task, s.segments.get? k₀) else s.row k := by
  subst hid
  have hget := get?_put s.tasks task k
  split
  · next hk => exact Prod.ext (hget.trans (if_pos hk)) (congrArg s.segments.get? hk)
  · next hk => exact Prod.ext (hget.trans (if_neg hk)) rfl

/-- Storing a task and marking its segment. -/
theorem row_mark_put (state : IntentState) (k : String) : (markIntent (putTask s task) k₀ state).row k =
      if k = k₀ then (some task, (s.segments.get? k₀).map (marked · state)) else s.row k := by
  have hput := row_putTask s task hid
  have htask : (putTask s task).tasks.get? k₀ = some task := by
    have hrow := hput k₀
    rw [if_pos rfl] at hrow
    exact congrArg Prod.fst hrow
  rw [row_markIntent, htask, hput]
  by_cases hk : k = k₀
  · rw [if_pos hk, if_pos hk]
    rfl
  · rw [if_neg hk, if_neg hk, if_neg hk]

end

/-- The id under which a task was found. -/
theorem sourceId_of_get? (h : s.tasks.get? k = some task) : task.spec.sourceId = k :=
  (key_of_get? h : LiveIndexTask.sourceId task = k)

theorem leased_eq_some {attempt : Int} {token : String} (h : leased s k attempt token now = some task) :
    s.tasks.get? k = some task ∧ task.ownsUnexpired attempt token now = true :=
  Option.filter_eq_some_iff.mp h

theorem fromSegment_sourceId {segment : Segment} {spec : LiveIndexTaskSpec}
    (h : fromSegment segment = .ok spec) : spec.sourceId = segment.id := by
  rw [fromSegment, Except.guard_eq_ok, Except.guard_eq_ok] at h
  cases h.2.2
  rfl

end

section Steps

variable {k₀ token : String} {attempt : Int}

/-- A change at one id is a step at every id. -/
theorem step_of_row
    (hrow : ∀ k, s'.row k = if k = k₀ then r else s.row k) (hstep : LiveStep admitting k₀ (s.row k₀) r)
    (k : String) : LiveStep admitting k (s.row k) (s'.row k) := by
  rw [hrow]
  split
  · next hk =>
    subst hk
    exact hstep
  · exact .same _

/-- Storing the next task of an id. -/
theorem step_put (next : LiveIndexTask) (htask : s.tasks.get? k₀ = some task) (hid : next.spec.sourceId = k₀)
    (hstep : ∀ segment, LiveStep admitting k₀ (some task, segment) (some next, segment)) (k : String) :
    LiveStep admitting k (s.row k) ((putTask s next).row k) := by
  refine step_of_row (row_putTask s next hid) ?_ k
  rw [LiveStore.row, htask]
  exact hstep _

variable {state : IntentState} {limit seconds : Int}

/-- Storing the next task of an id, and marking its segment. -/
theorem step_mark_put (next : LiveIndexTask) (htask : s.tasks.get? k₀ = some task) (hid : next.spec.sourceId = k₀)
    (hstep : ∀ segment : Option Segment,
      LiveStep admitting k₀ (some task, segment) (some next, segment.map (marked · state)))
    (k : String) : LiveStep admitting k (s.row k) ((markIntent (putTask s next) k₀ state).row k) := by
  refine step_of_row (row_mark_put s next hid state) ?_ k
  rw [LiveStore.row, htask]
  exact hstep _

section

variable (h : admitSource s k₀ capacity settings now = .ok (answer, s'))

include h

/-- `admit` in its three outcomes. -/
theorem admit_cases : s' = s ∨ (∃ segment, s.row k₀ = (none, some segment) ∧
      segment.indexIntentState.any (·.terminal) = false ∧
      s' = markIntent s k₀ .deferred) ∨
    (∃ segment spec, s.row k₀ = (none, some segment) ∧ segment.indexIntentState.any (·.terminal) = false ∧
      ((activeTasks s).length : Int) < capacity ∧ spec.sourceId = k₀ ∧
      s' = markIntent (putTask s (.admitted spec settings.maxAttempts now)) k₀ .pending) := by
  rw [admitSource] at h
  cases htask : s.tasks.get? k₀ with
  | some =>
    rw [htask] at h
    cases h
    exact .inl rfl
  | none =>
    rw [htask] at h
    cases hsegment : s.segments.get? k₀ with
    | none =>
      rw [hsegment] at h
      cases h
      exact .inl rfl
    | some segment =>
      have hrow : s.row k₀ = (none, some segment) := by rw [LiveStore.row, htask, hsegment]
      rw [hsegment] at h
      simp only at h
      split at h
      · cases h
        exact .inl rfl
      split at h
      · cases h
        exact .inl rfl
      next hterminal =>
      have hopen : segment.indexIntentState.any (·.terminal) = false :=
        Bool.eq_false_iff.mpr hterminal
      split at h
      · cases h
        exact .inr (.inl ⟨segment, hrow, hopen, rfl⟩)
      next hfull =>
      obtain ⟨spec, hspec, h⟩ := Except.bind_eq_ok.mp h
      cases h
      have hid := (fromSegment_sourceId hspec).trans (key_of_get? hsegment)
      exact .inr (.inr ⟨segment, spec, hrow, hopen, not_le.mp hfull, hid, rfl⟩)

theorem admit_step (k : String) : LiveStep true k (s.row k) (s'.row k) := by
  rcases admit_cases h with
    rfl | ⟨segment, hrow, hopen, rfl⟩ | ⟨segment, spec, hrow, hopen, -, hid, rfl⟩
  · exact .same _
  · refine step_of_row (fun k => row_markIntent s k₀ k .deferred) ?_ k
    obtain ⟨htask, hsegment⟩ := Prod.mk.inj hrow
    rw [hrow, htask, hsegment]
    exact .deferred hopen
  · refine step_of_row (fun k => row_mark_put s _ hid .pending k) ?_ k
    rw [hrow, (Prod.mk.inj hrow).2]
    exact .admitted rfl hopen

end

theorem claim_step {answer : Option LiveIndexTask} (h : claim s token now seconds = .ok (answer, s'))
    (k : String) : LiveStep admitting k (s.row k) (s'.row k) := by
  rw [claim] at h
  simp only at h
  split at h
  · cases h
    exact .same _
  next current hcurrent =>
  obtain ⟨expires, -, h⟩ := Except.bind_eq_ok.mp h
  cases h
  obtain ⟨hmem, hqueued⟩ := mem_filter.mp (mem_of_earliest hcurrent)
  rw [decide_eq_true_eq] at hqueued
  have hget : s.tasks.get? current.spec.sourceId = some current := get?_of_mem hmem
  exact step_put (current.claimed token expires now) hget rfl (fun _ => .claimed hqueued.1) k

/-- A task that a lease holds is stored under its id and runs. -/
theorem leased_running (h : leased s k₀ attempt token now = some task) :
    s.tasks.get? k₀ = some task ∧ task.spec.sourceId = k₀ ∧ task.status = .running := by
  obtain ⟨hget, howns⟩ := leased_eq_some h
  exact ⟨hget, sourceId_of_get? hget, (IndexTask.ownsUnexpired_iff.mp howns).1⟩

theorem heartbeat_step {answer : Bool}
    (h : heartbeat s k₀ attempt token now seconds = .ok (answer, s')) (k : String) :
    LiveStep admitting k (s.row k) (s'.row k) := by
  rw [heartbeat] at h
  split at h
  · cases h
    exact .same _
  next task hleased =>
  obtain ⟨expires, -, h⟩ := Except.bind_eq_ok.mp h
  cases h
  obtain ⟨htask, hid, hrunning⟩ := leased_running hleased
  exact step_put (task.renewed expires now) htask hid (fun _ => .renewed hrunning) k

theorem complete_step (k₀ : String) (attempt : Int) (token : String) (now : Time) (k : String) :
    LiveStep admitting k (s.row k) ((complete s k₀ attempt token now).2.row k) := by
  rw [complete]
  split
  · exact .same _
  · next task hleased =>
    obtain ⟨htask, hid, hrunning⟩ := leased_running hleased
    exact step_mark_put (task.released .completed task.nextAttemptAt now task.errorCode) htask hid
      (fun _ => .released hrunning (.inl ⟨rfl, rfl⟩)) k

theorem fail_step {transient : Bool} {code : String} {base : Int} {answer : Bool}
    (h : fail s k₀ attempt token transient code now base = .ok (answer, s')) (k : String) :
    LiveStep admitting k (s.row k) (s'.row k) := by
  rw [fail] at h
  split at h
  · cases h
    exact .same _
  next task hleased =>
  obtain ⟨htask, hid, hrunning⟩ := leased_running hleased
  split at h
  · next hretry =>
    rw [Bool.and_eq_true] at hretry
    obtain ⟨next, -, h⟩ := Except.bind_eq_ok.mp h
    cases h
    exact step_mark_put (task.released .queued next now (some (clip code))) htask hid
      (fun _ => .released hrunning (.inr (.inl ⟨rfl, rfl, hretry.2⟩))) k
  · cases h
    exact step_mark_put (task.released .failed task.nextAttemptAt now (some (clip code))) htask hid
      (fun _ => .released hrunning (.inr (.inr ⟨rfl, rfl⟩))) k

/-- The lines of `recover` for a task it does not skip. -/
theorem recovered_eq_some (h : recovered now task = some (next, state)) :
    task.status = .running ∧ ∃ status code, next = task.released status now now code ∧
      (status = .queued ∧ state = .pending ∧ task.retries = true ∨ status = .failed ∧ state = .failed) := by
  rw [recovered] at h
  split at h
  · cases h
  next hrunning =>
  refine ⟨not_not.mp hrunning, ?_⟩
  split at h
  · cases h
  split at h
  · cases h
  split at h
  · next hretry =>
    cases h
    exact ⟨_, _, rfl, .inl ⟨rfl, rfl, hretry⟩⟩
  · cases h
    exact ⟨_, _, rfl, .inr ⟨rfl, rfl⟩⟩

/-- One round of `recover` over a task that is stored. -/
theorem recoverTask_step (now : Time) (htask : s.tasks.get? task.spec.sourceId = some task)
    (k : String) : LiveStep admitting k (s.row k) ((recoverTask now s task).row k) := by
  rw [recoverTask]
  cases hrecovered : recovered now task with
  | none => exact .same _
  | some result =>
    obtain ⟨next, state⟩ := result
    obtain ⟨hrunning, status, code, rfl, hends⟩ := recovered_eq_some hrecovered
    exact step_mark_put (task.released status now now code) htask rfl (fun _ => .released hrunning (.inr hends)) k

/-- A round of `recover` leaves the tasks of the other ids. -/
theorem row_recoverTask (now : Time) (hne : k ≠ task.spec.sourceId) : (recoverTask now s task).row k = s.row k := by
  rw [recoverTask]
  cases hrecovered : recovered now task with
  | none => rfl
  | some result =>
    obtain ⟨next, state⟩ := result
    obtain ⟨-, status, code, rfl, -⟩ := recovered_eq_some hrecovered
    exact (row_mark_put s (task.released status now now code) rfl state k).trans (if_neg hne)

/-- The loop of `recover`, over tasks of different ids that are stored. -/
theorem recover_steps (tasks : List LiveIndexTask) (hnodup : (tasks.map LiveIndexTask.sourceId).Nodup)
    (hstored : ∀ task ∈ tasks, s.tasks.get? task.spec.sourceId = some task) (k : String) :
    ReflTransGen (LiveStep admitting k) (s.row k) ((tasks.foldl (recoverTask now) s).row k) := by
  induction tasks generalizing s with
  | nil => exact .refl
  | cons task tasks ih =>
    rw [map_cons, nodup_cons] at hnodup
    have hfirst : LiveStep admitting k _ _ :=
      recoverTask_step now (hstored task mem_cons_self) k
    refine ReflTransGen.head hfirst (ih hnodup.2 fun other hother => ?_)
    have hne : other.spec.sourceId ≠ task.spec.sourceId := fun heq =>
      hnodup.1 (mem_map.mpr ⟨other, hother, heq⟩)
    have hrow := row_recoverTask (s := s) now hne
    exact (congrArg Prod.fst hrow).trans (hstored other (mem_cons_of_mem _ hother))

theorem cleanupTerminal_step {before : Time} {answer : Nat}
    (h : cleanupTerminal s before limit = .ok (answer, s')) (k : String) :
    LiveStep admitting k (s.row k) (s'.row k) := by
  rw [cleanupTerminal, Except.guard_eq_ok] at h
  cases h.2
  rw [LiveStore.row, LiveStore.row, get?_foldl_erase]
  split
  · next hmem =>
    obtain ⟨task, htask, rfl⟩ := mem_map.mp hmem
    have hsorted := mem_mergeSort.mp (mem_of_mem_take htask)
    obtain ⟨hrow, hterminal⟩ := mem_filter.mp hsorted
    rw [decide_eq_true_eq] at hterminal
    rw [get?_of_mem hrow]
    exact .removed hterminal.1
  · exact .same _

theorem saveSegment_step (segment : Segment) (eligible : Bool) (requestedAt : String) (k : String) :
    LiveStep admitting k (s.row k) ((saveSegment s segment eligible requestedAt).row k) := by
  rw [saveSegment]
  cases hsegment : s.segments.get? segment.id with
  | some => exact .same _
  | none =>
    have hid : (if eligible then { marked segment .pending with indexRequestedAt := some requestedAt }
        else segment).id = segment.id := by split <;> rfl
    simp only [LiveStore.row, get?_put, hid]
    by_cases hk : k = segment.id
    · rw [if_pos hk, hk, hsegment]
      exact .saved _
    · rw [if_neg hk]
      exact .same _

/-- The loop of `reconcile` is a sequence of admissions. -/
theorem reconcileLoop_steps (segments : List Segment) (admitted : Int) (k : String) :
    ReflTransGen (LiveStep true k) (s.row k)
      ((reconcileLoop capacity settings limit clock segments admitted s).2.row k) := by
  induction segments generalizing s admitted with
  | nil => exact .refl
  | cons segment segments ih =>
    rw [reconcileLoop]
    split
    · exact .refl
    split
    · exact ih admitted
    split
    · exact .refl
    · next s' hadmits => exact ReflTransGen.head (admit_step hadmits k) (ih (admitted + 1))
    · next s' _ hadmits => exact ReflTransGen.head (admit_step hadmits k) (ih admitted)

end Steps

end LiveIndex

/-- The operation may create tasks. -/
def LiveOp.admits : LiveOp → Bool
  | .admitSource .. | .reconcile .. => true
  | _ => false

variable {r' : Option LiveIndexTask × Option Segment}

section

/-- A call that raises is a step that changes nothing. -/
theorem LiveStore.step_settle {α : Type} {x : Except LiveIndexError (α × LiveStore)}
    (h : ∀ r s', x = .ok (r, s') → LiveStep admitting k (s.row k) (s'.row k)) :
    ReflTransGen (LiveStep admitting k) (s.row k) ((s.settle x).row k) := by
  cases x with
  | error => exact .refl
  | ok r => exact .single (h r.1 r.2 rfl)

/-- **Every operation makes only these changes, at every id.** -/
theorem LiveOp.steps (op : LiveOp) (s : LiveStore) (k : String) :
    ReflTransGen (LiveStep op.admits k) (s.row k) ((op.effect s).row k) := by
  cases op with
  | saveSegment segment eligible requestedAt =>
    exact .single (saveSegment_step segment eligible requestedAt k)
  | admitSource =>
    exact LiveStore.step_settle fun _ _ h => admit_step h k
  | claim => exact LiveStore.step_settle fun _ _ h => claim_step h k
  | heartbeat =>
    exact LiveStore.step_settle fun _ _ h => heartbeat_step h k
  | complete k₀ attempt token now => exact .single (complete_step k₀ attempt token now k)
  | fail =>
    exact LiveStore.step_settle fun _ _ h => fail_step h k
  | recover =>
    exact recover_steps s.tasks.rows s.tasks.nodup (fun task htask => get?_of_mem htask) k
  | cleanupTerminal =>
    exact LiveStore.step_settle fun _ _ h => cleanupTerminal_step h k
  | reconcile => exact reconcileLoop_steps _ 0 k

/-! ## What the changes keep -/

/-- A task is good, and its segment is marked with an outcome exactly when the task has it. -/
def RowInv (r : Option LiveIndexTask × Option Segment) : Prop :=
  ∀ task, r.1 = some task → task.Good ∧ ∃ segment, r.2 = some segment ∧
    (segment.indexIntentState = some .completed ↔ task.status = .completed) ∧
    (segment.indexIntentState = some .failed ↔ task.status = .failed)

/-- A segment whose marking the step does not touch, while the task stays unfinished. -/
theorem RowInv.keep {segment : Option Segment}
    (h : RowInv (some task, segment)) (hgood : next.Good) (hstatus : task.status.terminal = false)
    (hnext : next.status.terminal = false) : RowInv (some next, segment) := by
  intro task' htask'
  cases htask'
  obtain ⟨-, segment, hsegment, hcompleted, hfailed⟩ := h task rfl
  have hne : task.status ≠ .completed ∧ task.status ≠ .failed ∧ next.status ≠ .completed ∧
      next.status ≠ .failed := by
    refine ⟨?_, ?_, ?_, ?_⟩ <;> intro heq <;> first | (rw [heq] at hstatus; cases hstatus) |
      (rw [heq] at hnext; cases hnext)
  refine ⟨hgood, segment, hsegment, ?_, ?_⟩
  · exact iff_of_false (fun hc => hne.1 (hcompleted.mp hc)) hne.2.2.1
  · exact iff_of_false (fun hc => hne.2.1 (hfailed.mp hc)) hne.2.2.2

theorem RowInv.step (hstep : LiveStep admitting k r r') (h : RowInv r) : RowInv r' := by
  cases hstep with
  | same => exact h
  | saved segment =>
    -- no task without a segment
    intro task htask
    obtain ⟨-, segment, hsegment, -⟩ := h task htask
    cases hsegment
  | @admitted segment spec settings now hadmits hopen =>
    intro task htask
    cases htask
    exact ⟨IndexTask.good_admitted spec settings.one_le now, _, rfl, ⟨nofun, nofun⟩, nofun, nofun⟩
  | deferred | removed => intro task htask; cases htask
  | claimed hstatus =>
    exact h.keep (IndexTask.good_claimed _ _ _ _) (by rw [hstatus]; rfl) rfl
  | @renewed task segment expires now hstatus =>
    have hnot : task.status.terminal = false := by rw [hstatus]; rfl
    exact h.keep ((h task rfl).1.renewed hstatus expires now) hnot hnot
  | @released task old status state next now code hstatus hends =>
    intro task' htask'
    cases htask'
    obtain ⟨-, segment, hsegment, -⟩ := h task rfl
    cases (show old = some segment from hsegment)
    rcases hends with ⟨rfl, rfl⟩ | ⟨rfl, rfl, hretry⟩ | ⟨rfl, rfl⟩
    · exact ⟨IndexTask.good_released (by decide) (by simp) next now code, _, rfl,
        ⟨fun _ => rfl, fun _ => rfl⟩, nofun, nofun⟩
    · exact ⟨IndexTask.good_released (by decide) (fun _ => hretry) next now code, _, rfl,
        ⟨nofun, nofun⟩, nofun, nofun⟩
    · exact ⟨IndexTask.good_released (by decide) (by simp) next now code, _, rfl, ⟨nofun, nofun⟩,
        fun _ => rfl, fun _ => rfl⟩

theorem RowInv.steps (hsteps : ReflTransGen (LiveStep admitting k) r r') (h : RowInv r) : RowInv r' := by
  induction hsteps with
  | refl => exact h
  | tail _ hstep ih => exact RowInv.step hstep ih

end

/-- The outcome of a segment is known: it is marked, and its task is the finished one or was
cleaned up. -/
structure Settled (task : LiveIndexTask) (r : Option LiveIndexTask × Option Segment) : Prop where
  finished : task.status.terminal = true
  marked : ∃ segment, r.2 = some segment ∧ segment.indexIntentState.any (·.terminal) = true
  task_eq : r.1 = some task ∨ r.1 = none

section

variable {task' : LiveIndexTask}

/-- An outcome stays, and a task that is gone stays gone. -/
theorem Settled.step (hstep : LiveStep admitting k r r') (h : Settled task r) :
    Settled task r' ∧ (r.1 = none → r'.1 = none) := by
  have hfinished := h.finished
  cases hstep with
  | same => exact ⟨h, fun hnone => hnone⟩
  | saved segment =>
    obtain ⟨segment, hsegment, -⟩ := h.marked
    cases hsegment
  | admitted hadmits hopen | deferred hopen =>
    obtain ⟨segment, hsegment, hmarked⟩ := h.marked
    cases hsegment
    cases hopen.symm.trans hmarked
  | claimed hstatus | renewed hstatus | released hstatus =>
    rcases h.task_eq with heq | heq <;> cases heq
    rw [hstatus] at hfinished
    cases hfinished
  | removed => exact ⟨⟨hfinished, h.marked, .inr rfl⟩, nofun⟩

theorem Settled.steps (hsteps : ReflTransGen (LiveStep admitting k) r r') (h : Settled task r) :
    Settled task r' ∧ (r.1 = none → r'.1 = none) := by
  induction hsteps with
  | refl => exact ⟨h, fun hnone => hnone⟩
  | tail _ hstep ih =>
    obtain ⟨hmid, hgone⟩ := ih
    obtain ⟨hlast, hgone'⟩ := hmid.step hstep
    exact ⟨hlast, fun hnone => hgone' (hgone hnone)⟩

/-- A finished task that agrees with its segment is settled. -/
theorem RowInv.settled (h : RowInv r) (htask : r.1 = some task) (hstatus : task.status.terminal = true) :
    Settled task r := by
  obtain ⟨-, segment, hsegment, hcompleted, hfailed⟩ := h task htask
  refine ⟨hstatus, ⟨segment, hsegment, ?_⟩, .inl htask⟩
  cases hcase : task.status with
  | queued | running => rw [hcase] at hstatus; cases hstatus
  | completed => rw [hcompleted.mpr hcase]; rfl
  | failed => rw [hfailed.mpr hcase]; rfl

/-! ## The number of active tasks -/

/-- A step that admits nothing makes no task active. -/
theorem LiveStep.active (hstep : LiveStep false k r r') (htask' : r'.1 = some task')
    (hactive : task'.status.active = true) : ∃ task, r.1 = some task ∧ task.status.active = true := by
  cases hstep with
  | same | saved => exact ⟨task', htask', hactive⟩
  | admitted hadmits => cases hadmits
  | deferred | removed => cases htask'
  | claimed hstatus | renewed hstatus | released hstatus => exact ⟨_, rfl, by rw [hstatus]; rfl⟩

theorem LiveStep.active_steps (hsteps : ReflTransGen (LiveStep false k) r r')
    (htask' : r'.1 = some task') (hactive : task'.status.active = true) :
    ∃ task, r.1 = some task ∧ task.status.active = true := by
  induction hsteps generalizing task' with
  | refl => exact ⟨task', htask', hactive⟩
  | tail _ hstep ih =>
    obtain ⟨mid, hmid, hmidActive⟩ := hstep.active htask' hactive
    exact ih hmid hmidActive

/-- An operation that admits nothing does not raise the number of active tasks. -/
theorem length_activeTasks_le (hsteps : ∀ k, ReflTransGen (LiveStep false k) (s.row k) (s'.row k)) :
    (activeTasks s').length ≤ (activeTasks s).length := by
  refine length_filter_le [] fun task' htask' hactive _ => ?_
  obtain ⟨task, htask, hactive⟩ :=
    LiveStep.active_steps (hsteps task'.spec.sourceId) (get?_of_mem htask') hactive
  exact ⟨task, mem_of_get? htask, key_of_get? htask, hactive⟩

end

namespace LiveIndex

theorem tasks_markIntent (s : LiveStore) (k : String) (state : IntentState) :
    (markIntent s k state).tasks = s.tasks := by
  rw [markIntent]
  split <;> rfl

theorem admit_activeTasks (h : admitSource s k capacity settings now = .ok (answer, s'))
    (hs : ((activeTasks s).length : Int) ≤ max capacity 0) :
    ((activeTasks s').length : Int) ≤ max capacity 0 := by
  rcases admit_cases h with rfl | ⟨segment, -, -, rfl⟩ | ⟨segment, spec, -, -, hfree, -, rfl⟩
  · exact hs
  · rw [activeTasks, tasks_markIntent]
    exact hs
  · have hput : (activeTasks (markIntent (putTask s (.admitted spec settings.maxAttempts now)) k
        .pending)).length ≤ (activeTasks s).length + 1 := by
      rw [activeTasks, tasks_markIntent]
      exact length_filter_put_le s.tasks _ _
    omega

theorem reconcileLoop_activeTasks {limit : Int} (segments : List Segment)
    (admitted : Int) (hs : ((activeTasks s).length : Int) ≤ max capacity 0) :
    ((activeTasks (reconcileLoop capacity settings limit clock segments admitted s).2).length : Int)
      ≤ max capacity 0 := by
  induction segments generalizing s admitted with
  | nil => exact hs
  | cons segment segments ih =>
    rw [reconcileLoop]
    split
    · exact hs
    split
    · exact ih admitted hs
    split
    · exact hs
    · next s' hadmits => exact ih (admitted + 1) (admit_activeTasks hadmits hs)
    · next s' _ hadmits => exact ih admitted (admit_activeTasks hadmits hs)

end LiveIndex

/-- The capacity an operation admits under. -/
def LiveOp.capacity? : LiveOp → Option Int
  | .admitSource _ capacity _ _ | .reconcile capacity _ _ _ => some capacity
  | _ => none

theorem LiveOp.activeTasks_le {op : LiveOp} (hop : ∀ c ∈ op.capacity?, c = capacity)
    (hs : ((activeTasks s).length : Int) ≤ max capacity 0) :
    ((activeTasks (op.effect s)).length : Int) ≤ max capacity 0 := by
  by_cases hadmits : op.admits = true
  · cases op with
    | admitSource k c settings now =>
      rw [hop c rfl, LiveOp.effect]
      cases hadmits : LiveIndex.admitSource s k capacity settings now with
      | error e => exact hs
      | ok r => exact admit_activeTasks hadmits hs
    | reconcile c =>
      rw [hop c rfl]
      exact reconcileLoop_activeTasks _ 0 hs
    | _ => cases hadmits
  · have hle : (activeTasks (op.effect s)).length ≤ (activeTasks s).length := by
      refine length_activeTasks_le fun k => ?_
      have hsteps := op.steps s k
      rwa [Bool.eq_false_iff.mpr hadmits] at hsteps
    omega

/-! ## Whole runs -/

theorem rowInv_foldl (ops : List LiveOp) (k : String) (h : RowInv (s.row k)) :
    RowInv ((ops.foldl LiveOp.effect s).row k) := by
  induction ops generalizing s with
  | nil => exact h
  | cons op ops ih =>
    exact ih (RowInv.steps (op.steps s k) h)

theorem settled_foldl (ops : List LiveOp) (h : Settled task (s.row k)) :
    Settled task ((ops.foldl LiveOp.effect s).row k) ∧
      (s.tasks.get? k = none → (ops.foldl LiveOp.effect s).tasks.get? k = none) := by
  induction ops generalizing s with
  | nil => exact ⟨h, fun hnone => hnone⟩
  | cons op ops ih =>
    obtain ⟨hnext, hgone⟩ := h.steps (op.steps s k)
    obtain ⟨hlast, hgone'⟩ := ih hnext
    exact ⟨hlast, fun hnone => hgone' (hgone hnone)⟩

theorem activeTasks_foldl (ops : List LiveOp) (hops : ∀ op ∈ ops, ∀ c ∈ op.capacity?, c = capacity)
    (hs : ((activeTasks s).length : Int) ≤ max capacity 0) :
    ((activeTasks (ops.foldl LiveOp.effect s)).length : Int) ≤ max capacity 0 := by
  induction ops generalizing s with
  | nil => exact hs
  | cons op ops ih =>
    refine ih (fun op' hop' => hops op' (mem_cons_of_mem _ hop')) ?_
    exact LiveOp.activeTasks_le (hops op mem_cons_self) hs

/-- **A LIVE segment is indexed at most once.** After any operations in any order: every
task holds a lease exactly while it runs and has an attempt left while it is queued, and
its segment is marked completed or failed exactly when the task is. Once a task is completed
or failed, whatever runs later, there is only this task or none under its segment, and from
the moment there is none there never is one again. And under a fixed capacity no more tasks
than that are queued or running. -/
theorem live_index_once (ops : List LiveOp) : (∀ k task, (LiveStore.run ops).tasks.get? k = some task →
      (task.leaseToken.isSome ↔ task.status = .running) ∧
      (task.leaseExpiresAt.isSome ↔ task.status = .running) ∧
      (task.status = .queued → task.attempt < task.maxAttempts) ∧
      ∃ segment, (LiveStore.run ops).segments.get? k = some segment ∧
        (segment.indexIntentState = some .completed ↔ task.status = .completed) ∧
        (segment.indexIntentState = some .failed ↔ task.status = .failed)) ∧
    (∀ k task, (LiveStore.run ops).tasks.get? k = some task →
      task.status = .completed ∨ task.status = .failed → ∀ later more,
      ((LiveStore.run (ops ++ later)).tasks.get? k = some task ∨
        (LiveStore.run (ops ++ later)).tasks.get? k = none) ∧
      ((LiveStore.run (ops ++ later)).tasks.get? k = none →
        (LiveStore.run (ops ++ later ++ more)).tasks.get? k = none)) ∧
    (∀ capacity : Int, (∀ op ∈ ops, ∀ c ∈ op.capacity?, c = capacity) →
      ((activeTasks (LiveStore.run ops)).length : Int) ≤ max capacity 0) := by
  have hinv : ∀ k, RowInv ((LiveStore.run ops).row k) := fun k =>
    rowInv_foldl ops k (fun task htask => by cases htask)
  refine ⟨?_, ?_, ?_⟩
  · intro k task htask
    obtain ⟨hgood, segment, hsegment, hcompleted, hfailed⟩ := hinv k task htask
    exact ⟨hgood.token_iff, hgood.expires_iff, hgood.queued_attempt, segment, hsegment, hcompleted, hfailed⟩
  · intro k task htask hstatus later more
    have hterminal : task.status.terminal = true := by
      rcases hstatus with hstatus | hstatus <;> rw [hstatus] <;> rfl
    have hsettled := (settled_foldl later ((hinv k).settled htask hterminal)).1
    rw [LiveStore.run_append, LiveStore.run_append, LiveStore.run_append]
    exact ⟨hsettled.task_eq, (settled_foldl more hsettled).2⟩
  · intro capacity hops
    exact activeTasks_foldl ops hops (le_max_right _ _)

/-- A segment whose completed task was cleaned up is not admitted again. -/
example :
    ((LiveStore.run
        [.saveSegment ⟨"s", "s.pcap", "sensor", "job", none, 0, "", none, none, none, none⟩ true "now",
          .admitSource "s" 10 ⟨3, by decide⟩ 0,
          .claim "token" 0 120,
          .complete "s" 1 "token" 1,
          .cleanupTerminal 2 10,
          .admitSource "s" 10 ⟨3, by decide⟩ 3]).row "s").map Option.isSome
        (Option.map Segment.indexIntentState) = (false, some (some .completed)) := by
  decide +kernel

end C2Hunter
