import Mathlib.Algebra.Order.Group.Nat
import Mathlib.Algebra.Order.Monoid.Prod

/-!
# Reported loss

`BatchManager` of `batch_manager.go`: batches are lost in front of the spool, where the queue is full or a
write fails, and inside the spool. The writer and the uploader refresh the metrics concurrently: they read
the loss of the spool first, and add to it under the lock. The counters are naturals, as they wrap only
when `2 ^ 64` bytes are lost.

* `step` — what happens under one lock.
* `reported_loss_grows` — the loss that is reported does not shrink, as long as nothing is lost in front of
  the spool after the spool lost something, and the refreshes publish in the order in which they read.
-/

namespace C2Hunter.BatchManager

/-- `LossReport`: batches, and their bytes. -/
abbrev LossReport : Type := Nat × Nat

structure Manager where
  queueSize : Nat
  /-- the data lengths of the batches that wait -/
  queue : List Nat := []
  /-- `Store.Loss()` -/
  storeLoss : LossReport := (0, 0)
  queueLost : LossReport := (0, 0)
  /-- `LostBatches` and `LostBytes` of the snapshot -/
  lost : LossReport := (0, 0)
  /-- what the refreshes that are under way have read -/
  reads : List LossReport := []

inductive Event where
  | enqueue (data : Nat)
  /-- the writer takes a batch, and `Put` stores it or finds it stored, or fails -/
  | write (stored : Bool)
  /-- `refreshMetrics`, after a write or at the end of `drain`, comes to `Store.Loss()` -/
  | readLoss
  /-- and to the lock -/
  | publish (loss : LossReport)
  | storeLoses (loss : LossReport)

variable (m : Manager)

def recordLocalLoss (data : Nat) : Manager :=
  { m with queueLost := m.queueLost + (1, data), lost := m.queueLost + (1, data) }

def step : Event → Manager
  | .enqueue data =>
    if m.queue.length < m.queueSize then { m with queue := m.queue ++ [data] } else recordLocalLoss m data
  | .write stored =>
    match m.queue with
    | [] => m
    | data :: queue => if stored then { m with queue } else recordLocalLoss { m with queue } data
  | .readLoss => { m with reads := m.reads ++ [m.storeLoss] }
  | .publish loss =>
    if loss ∈ m.reads then { m with lost := loss + m.queueLost, reads := m.reads.erase loss } else m
  | .storeLoses loss => { m with storeLoss := m.storeLoss + loss }

/-- Nothing is lost in front of a spool that has lost something, and no refresh publishes while another
one holds an older loss. -/
def Orderly : Event → Prop
  | .enqueue _ => m.queue.length < m.queueSize ∨ m.storeLoss = (0, 0)
  | .write stored => stored = true ∨ m.storeLoss = (0, 0)
  | .publish loss => ∀ other ∈ m.reads, loss ≤ other
  | _ => True

/-- Every event of a run is orderly. -/
def OrderlyRun (m : Manager) : List Event → Prop
  | [] => True
  | e :: events => Orderly m e ∧ OrderlyRun (step m e) events

/-! ## Runs -/

/-- The report is the loss of the queue and a loss of the spool, no more than any that was read since. -/
structure Inv (published : LossReport) (m : Manager) : Prop where
  lost : m.lost = published + m.queueLost
  le : published ≤ m.storeLoss
  reads : ∀ loss ∈ m.reads, published ≤ loss ∧ loss ≤ m.storeLoss

variable {m} {published : LossReport}

/-- A loss in front of a spool that lost nothing. -/
theorem Inv.recordLocalLoss (h : Inv published m) (hzero : m.storeLoss = (0, 0)) (data : Nat) :
    Inv published (recordLocalLoss m data) ∧ m.lost ≤ (recordLocalLoss m data).lost := by
  have hpublished : published = 0 := nonpos_iff_eq_zero.mp (h.le.trans_eq hzero)
  refine ⟨⟨?_, h.le, h.reads⟩, ?_⟩
  · rw [hpublished, zero_add]
    rfl
  · rw [h.lost, hpublished, zero_add]
    exact le_self_add

theorem Inv.step (h : Inv published m) {e : Event} (he : Orderly m e) :
    ∃ published, Inv published (step m e) ∧ m.lost ≤ (step m e).lost := by
  cases e with
  | enqueue data =>
    rw [BatchManager.step]
    split
    · exact ⟨published, ⟨h.lost, h.le, h.reads⟩, le_rfl⟩
    · next hfull => exact ⟨published, h.recordLocalLoss (he.resolve_left hfull) data⟩
  | write stored =>
    rw [BatchManager.step]
    split
    · exact ⟨published, h, le_rfl⟩
    next data queue _ =>
    have htaken : Inv published { m with queue } := ⟨h.lost, h.le, h.reads⟩
    split
    · exact ⟨published, htaken, le_rfl⟩
    · next hfails => exact ⟨published, htaken.recordLocalLoss (he.resolve_left hfails) data⟩
  | readLoss =>
    refine ⟨published, ⟨h.lost, h.le, fun loss hloss => ?_⟩, le_rfl⟩
    rcases List.mem_append.mp hloss with hloss | hloss
    · exact h.reads loss hloss
    · rw [List.mem_singleton.mp hloss]
      exact ⟨h.le, le_rfl⟩
  | publish loss =>
    rw [BatchManager.step]
    split
    · next hread =>
      obtain ⟨hle, hle'⟩ := h.reads loss hread
      refine ⟨loss, ⟨rfl, hle', fun other hother => ?_⟩, ?_⟩
      · have hmem := List.mem_of_mem_erase hother
        exact ⟨he other hmem, (h.reads other hmem).2⟩
      · rw [h.lost]
        exact add_le_add_left hle _
    · exact ⟨published, h, le_rfl⟩
  | storeLoses loss =>
    refine ⟨published, ⟨h.lost, h.le.trans le_self_add, fun other hother => ?_⟩, le_rfl⟩
    exact (h.reads other hother).imp_right fun hle => hle.trans le_self_add

theorem Inv.run {events later : List Event} (h : Inv published m) (he : OrderlyRun m (events ++ later)) :
    m.lost ≤ (events.foldl BatchManager.step m).lost ∧
      (∃ published, Inv published (events.foldl BatchManager.step m)) ∧
        OrderlyRun (events.foldl BatchManager.step m) later := by
  induction events generalizing m published with
  | nil => exact ⟨le_rfl, ⟨published, h⟩, he⟩
  | cons e events ih =>
    obtain ⟨published', h', hle⟩ := h.step he.1
    exact (ih h' he.2).imp_left hle.trans

/-- The loss that is reported does not shrink in an orderly run. -/
theorem reported_loss_grows (queueSize : Nat) (earlier later : List Event)
    (h : OrderlyRun { queueSize } (earlier ++ later)) :
    let before := earlier.foldl step { queueSize }
    before.lost ≤ (later.foldl step before).lost := by
  have hstart : Inv 0 { queueSize } := ⟨rfl, le_rfl, fun _ h => by cases h⟩
  obtain ⟨-, ⟨published, hinv⟩, hlater⟩ := hstart.run h
  rw [← List.append_nil later] at hlater
  exact (hinv.run hlater).1

/-- A loss of the queue is reported, and then one of the spool with it. -/
theorem reported_loss_grows_once :
    let m : Manager := { queueSize := 0 }
    let earlier : List Event := [.enqueue 20, .storeLoses (3, 300), .readLoss]
    OrderlyRun m (earlier ++ [.publish (3, 300)]) ∧
      (earlier.foldl step m).lost ≤ ([Event.publish (3, 300)].foldl step (earlier.foldl step m)).lost := by
  have horderly : OrderlyRun { queueSize := 0 }
      ([.enqueue 20, .storeLoses (3, 300), .readLoss] ++ [.publish (3, 300)]) := by
    refine ⟨.inr rfl, trivial, trivial, ?_, trivial⟩
    intro other hother
    exact (List.mem_singleton.mp hother).ge
  exact ⟨horderly, reported_loss_grows 0 _ _ horderly⟩

/-- The spool has lost three batches, and this is reported. Then the queue is full, and one is reported. -/
theorem reported_loss_shrinks :
    let m : Manager := { queueSize := 1 }
    let earlier : List Event := [.storeLoses (3, 300), .readLoss, .publish (3, 300)]
    (earlier.foldl step m).lost = (3, 300) ∧
      ([Event.enqueue 10, .enqueue 20].foldl step (earlier.foldl step m)).lost = (1, 20) := by
  decide

end C2Hunter.BatchManager
