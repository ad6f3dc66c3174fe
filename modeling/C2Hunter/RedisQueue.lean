import C2Hunter.Table
import Mathlib.Data.List.Sort

/-!
# The Redis queues

`RedisQueue` of the worker's `queue.py`, the result side of `RedisControllerQueue` of
`queueing.py`, and the two AI queues of `ai_queueing.py`. Each has a list of waiting envelopes, a
list of envelopes in processing, and a sorted set of leases, whose members are the envelopes
themselves.

A Redis command or script is one atomic step. A process runs its calls command by command, and
between two of them other processes run, or it is gone: because it crashed, or because the call
raised.

* `Keys` — the three keys of a queue and what the commands do to them.
* `Process` — where a process is in `receive`, `claim_result` or `claim`.
* `Action`, `World.step`, `World.run` — producers, consumers and recoveries in any order.
* `copies_add_acknowledged` — no command loses an envelope out of both lists.
* `queued_jobs_kept` — when each envelope in processing has a lease that a recovery returns.
* `crash_strands_message`, `recovery_strands_equal_envelope` — when it has none.
-/

namespace C2Hunter.Redis

open Function List

/-- The text of a message. -/
abbrev Envelope : Type := String

/-! ## Commands -/

/-- The keys of a queue. The left end of a list is its head. -/
structure Keys where
  waiting : List Envelope := []
  processing : List Envelope := []
  /-- the due time of each lease, by its envelope -/
  leases : Dict Envelope Int := .empty

namespace Keys

section

variable (q : Keys)

/-- `LPUSH waiting e`. -/
def lpush (e : Envelope) : Keys := { q with waiting := e :: q.waiting }

/-- `BRPOPLPUSH waiting processing`, or `RPOPLPUSH`. -/
def rpoplpush : Option (Envelope × Keys) :=
  q.waiting.getLast?.map fun e =>
    (e, { q with waiting := q.waiting.dropLast, processing := e :: q.processing })

/-- `ZADD leases due e`. -/
def zadd (e : Envelope) (due : Int) : Keys := { q with leases := q.leases.put (e, due) }

/-- `LREM processing 1 e` and `ZREM leases e`. -/
def remove (e : Envelope) : Keys :=
  { q with processing := q.processing.erase e, leases := q.leases.erase e }

/-- The script of `_requeue` and of the recoveries. -/
def requeue (e : Envelope) : Keys :=
  if e ∈ q.processing then (q.lpush e).remove e else q.remove e

/-- `ZRANGEBYSCORE leases -inf now`. -/
def expired (now : Int) : List Envelope :=
  ((q.leases.rows.filter fun row : Envelope × Int => row.2 ≤ now).insertionSort fun x y =>
    x.2 < y.2 ∨ x.2 = y.2 ∧ x.1 ≤ y.1).map Prod.fst

/-- The script of `ensure_enqueued`: push an envelope that is in neither list. -/
def present (e : Envelope) : Bool := e ∈ q.waiting ∨ e ∈ q.processing

end

end Keys

/-! ## Processes -/

/-- The three queues. -/
inductive Kind where
  /-- of `RedisQueue` -/
  | jobs
  /-- of `RedisControllerQueue` -/
  | results
  /-- of `RedisAIAnalysisWorkerQueue` -/
  | ai
  deriving DecidableEq, Repr

/-- What `json.loads` makes of an envelope. -/
inductive Shape where
  | notJson
  /-- JSON, but not an object -/
  | other
  /-- an object, and whether its `ai_run_id` is a string -/
  | object (run : Bool)
  deriving DecidableEq, Repr

/-- Where a process is. -/
inductive Process where
  | idle
  /-- in the loop of a recovery, with the receipts that are left -/
  | recovering (k : Kind) (rest : List Envelope)
  /-- between `BRPOPLPUSH` and `ZADD` -/
  | popped (k : Kind) (e : Envelope)
  /-- before the command that gets rid of a message that is not valid -/
  | rejecting (k : Kind) (e : Envelope)
  /-- at work on a message, with its receipt -/
  | holding (k : Kind) (e : Envelope)
  deriving DecidableEq, Repr

/-- What a claim does with a message after it has its lease. A result that is not an object, and
text that is not JSON, raises and keeps its lease. -/
def Process.decoded (k : Kind) (e : Envelope) : Shape → Process
  | .notJson => .idle
  | .other =>
    match k with
    | .results => .idle
    | .jobs | .ai => .rejecting k e
  | .object run =>
    match k with
    | .ai => if run then .holding k e else .rejecting k e
    | .jobs | .results => .holding k e

/-- What the queues know of messages. -/
structure Codec where
  shape : Envelope → Shape
  /-- the dedupe key that the acknowledgement of a result deletes -/
  releases : Envelope → Option String
  visibilityTimeout : Int

/-- Redis, the processes, and two counts that no code reads: how often an envelope was enqueued,
and how often it was acknowledged. -/
structure World where
  queue : Kind → Keys := fun _ => {}
  /-- the dedupe keys that are set -/
  dedupe : List String := []
  process : Nat → Process := fun _ => .idle
  enqueued : Kind → Envelope → Nat := fun _ _ => 0
  acknowledged : Kind → Envelope → Nat := fun _ _ => 0

open World

/-- What can happen next. -/
inductive Action where
  /-- `LPUSH` of `enqueue` without a message id, of `publish_event`, or of the AI `enqueue` -/
  | push (k : Kind) (e : Envelope)
  /-- the script of `enqueue` with a message id -/
  | submit (key : String) (e : Envelope)
  /-- the script of `ensure_enqueued` -/
  | ensure (e : Envelope)
  /-- the first command of a recovery, on its own or in a claim -/
  | scan (pid : Nat) (k : Kind) (now : Int)
  /-- one turn of the loop of a recovery -/
  | requeue (pid : Nat)
  /-- the `BRPOPLPUSH` of a claim after its recovery -/
  | pop (pid : Nat)
  /-- the `ZADD` of a claim -/
  | lease (pid : Nat) (now : Int)
  | reject (pid : Nat)
  /-- `complete` with a result, `ack_result` or `ack` -/
  | finish (pid : Nat) (result : Envelope)
  /-- the process is gone, or its call has returned or raised -/
  | crash (pid : Nat)
  deriving Repr

namespace World

/-- Redis after commands on one queue. -/
def write (w : World) (k : Kind) (q : Keys) : World :=
  { w with queue := Function.update w.queue k q }

/-- The state of a process. -/
def become (w : World) (pid : Nat) (p : Process) : World :=
  { w with process := Function.update w.process pid p }

/-- A push of a producer. -/
def enqueue (w : World) (k : Kind) (e : Envelope) : World :=
  { w.write k ((w.queue k).lpush e) with
    enqueued := Function.update w.enqueued k
      (Function.update (w.enqueued k) e (w.enqueued k e + 1)) }

/-- `LREM` and `ZREM` of an acknowledgement. -/
def acknowledge (w : World) (k : Kind) (e : Envelope) : World :=
  { w.write k ((w.queue k).remove e) with
    acknowledged := Function.update w.acknowledged k
      (Function.update (w.acknowledged k) e
        (w.acknowledged k e + if e ∈ (w.queue k).processing then 1 else 0)) }

/-- The commands with which the work on a message ends, as one script. -/
def conclude (c : Codec) (w : World) (k : Kind) (e result : Envelope) : World :=
  match k with
  | .jobs => (w.enqueue .results result).acknowledge .jobs e
  | .results =>
    let w := w.acknowledge .results e
    { w with dedupe := (c.releases e).elim w.dedupe fun key => w.dedupe.filter (· ≠ key) }
  | .ai => w.acknowledge .ai e

/-- One command. An action for which the process is not ready does nothing. -/
def step (c : Codec) (w : World) : Action → World
  | .push k e => w.enqueue k e
  | .submit key e =>
    if key ∈ w.dedupe then w else { w.enqueue .jobs e with dedupe := key :: w.dedupe }
  | .ensure e => if (w.queue .ai).present e then w else w.enqueue .ai e
  | .scan pid k now =>
    match w.process pid with
    | .idle => w.become pid (.recovering k ((w.queue k).expired now))
    | _ => w
  | .requeue pid =>
    match w.process pid with
    | .recovering k (e :: rest) =>
      (w.write k ((w.queue k).requeue e)).become pid (.recovering k rest)
    | _ => w
  | .pop pid =>
    match w.process pid with
    | .recovering k [] =>
      match (w.queue k).rpoplpush with
      | none => w.become pid .idle
      | some (e, q) => (w.write k q).become pid (.popped k e)
    | _ => w
  | .lease pid now =>
    match w.process pid with
    | .popped k e =>
      (w.write k ((w.queue k).zadd e (now + c.visibilityTimeout))).become pid
        (.decoded k e (c.shape e))
    | _ => w
  | .reject pid =>
    match w.process pid with
    | .rejecting .jobs e => (w.write .jobs ((w.queue .jobs).requeue e)).become pid .idle
    | .rejecting .ai e => (w.acknowledge .ai e).become pid .idle
    | _ => w
  | .finish pid result =>
    match w.process pid with
    | .holding k e => (w.conclude c k e result).become pid .idle
    | _ => w
  | .crash pid => w.become pid .idle

/-- Any number of processes, in any order. -/
def run (c : Codec) (w : World) (actions : List Action) : World := actions.foldl (step c) w

end World

/-! ## What a command does to a queue -/

namespace Keys

variable (q : Keys) (e e' : Envelope)

/-- The occurrences of an envelope in both lists. -/
def copies : Nat := q.waiting.count e + q.processing.count e

theorem copies_lpush : (q.lpush e).copies e' = q.copies e' + if e' = e then 1 else 0 := by
  rw [copies, lpush, count_cons, copies]
  by_cases he : e' = e
  · subst he
    simp only [beq_self_eq_true, if_true]
    omega
  · have hbeq : (e == e') = false := beq_false_of_ne (Ne.symm he)
    simp only [hbeq, he, if_false, Bool.false_eq_true]
    omega

theorem copies_rpoplpush {q' : Keys} (h : q.rpoplpush = some (e, q')) : q'.copies e' = q.copies e' := by
  rw [rpoplpush, Option.map_eq_some_iff] at h
  obtain ⟨x, hlast, heq⟩ := h
  obtain ⟨rfl, rfl⟩ := Prod.mk.inj heq
  have hcount : q.waiting.count e' = q.waiting.dropLast.count e' + [x].count e' := by
    rw [← count_append, dropLast_append_getLast? x hlast]
  have hcons : (x :: q.processing).count e' = [x].count e' + q.processing.count e' := by
    rw [← count_append, singleton_append]
  rw [copies, copies]
  simp only [hcons]
  omega

theorem copies_remove : (q.remove e).copies e' + (if e' = e ∧ e ∈ q.processing then 1 else 0) = q.copies e' := by
  rw [copies, remove, copies, count_erase]
  by_cases he : e' = e
  · subst he
    by_cases hmem : e' ∈ q.processing
    · have := count_pos_iff.mpr hmem
      simp only [beq_self_eq_true, hmem, and_self, if_true]
      omega
    · rw [count_eq_zero.mpr hmem]
      simp [hmem]
  · have hbeq : (e == e') = false := beq_false_of_ne (Ne.symm he)
    simp [hbeq, he]

theorem copies_requeue : (q.requeue e).copies e' = q.copies e' := by
  rw [requeue]
  by_cases hmem : e ∈ q.processing
  · have hremove := copies_remove (q.lpush e) e e'
    have hpush := copies_lpush q e e'
    have hmem' : e ∈ (q.lpush e).processing := hmem
    rw [if_pos hmem]
    simp only [hmem', and_true] at hremove
    omega
  · have hremove := copies_remove q e e'
    simp only [hmem, and_false, if_false] at hremove
    rw [if_neg hmem]
    exact hremove

theorem processing_requeue : (q.requeue e).processing = q.processing.erase e := by
  rw [requeue]
  split <;> rfl

theorem leases_requeue : (q.requeue e).leases = q.leases.erase e := by
  rw [requeue]
  split <;> rfl

end Keys

/-- What is known of a queue: its keys, and how often envelopes were enqueued and acknowledged. -/
def World.ledger (w : World) (k : Kind) : Keys × (Envelope → Nat) × (Envelope → Nat) :=
  (w.queue k, w.enqueued k, w.acknowledged k)

/-- What an action does to one queue. -/
inductive Effect (c : Codec) (k : Kind) (w : World) : Action → World → Prop where
  | same {a : Action} {w' : World} (h : w'.ledger k = w.ledger k) : Effect c k w a w'
  | pushed {a : Action} {w' : World} (e : Envelope)
      (h : w'.ledger k = ((w.queue k).lpush e,
        Function.update (w.enqueued k) e (w.enqueued k e + 1), w.acknowledged k)) : Effect c k w a w'
  | popped {pid : Nat} {w' : World} (e : Envelope) (q : Keys)
      (hpop : (w.queue k).rpoplpush = some (e, q))
      (h : w'.ledger k = (q, w.enqueued k, w.acknowledged k))
      (hprocess : w'.process pid = .popped k e) : Effect c k w (.pop pid) w'
  | leased {pid : Nat} {now : Int} {w' : World} (e : Envelope) (hprocess : w.process pid = .popped k e)
      (h : w'.ledger k = ((w.queue k).zadd e (now + c.visibilityTimeout), w.enqueued k,
        w.acknowledged k)) : Effect c k w (.lease pid now) w'
  | requeued {a : Action} {w' : World} (e : Envelope)
      (h : w'.ledger k = ((w.queue k).requeue e, w.enqueued k, w.acknowledged k)) : Effect c k w a w'
  | removed {a : Action} {w' : World} (e : Envelope)
      (h : w'.ledger k = ((w.queue k).remove e, w.enqueued k,
        Function.update (w.acknowledged k) e
          (w.acknowledged k e + if e ∈ (w.queue k).processing then 1 else 0))) : Effect c k w a w'

variable {a : Action}

section Effects

variable (c : Codec) (w : World) (k k' : Kind) (e : Envelope)

theorem ledger_write (q : Keys) : (w.write k' q).ledger k =
    if k = k' then (q, w.enqueued k, w.acknowledged k) else w.ledger k := by
  rw [ledger, write]
  by_cases hk : k = k'
  · subst hk
    rw [if_pos rfl]
    simp only [update_self]
  · rw [if_neg hk]
    simp only [update_of_ne hk]
    rfl

theorem ledger_enqueue : (w.enqueue k' e).ledger k =
    if k = k' then ((w.queue k).lpush e, update (w.enqueued k) e (w.enqueued k e + 1),
      w.acknowledged k) else w.ledger k := by
  rw [ledger, World.enqueue, write]
  by_cases hk : k = k'
  · subst hk
    rw [if_pos rfl]
    simp only [update_self]
  · rw [if_neg hk]
    simp only [update_of_ne hk]
    rfl

theorem ledger_acknowledge : (w.acknowledge k' e).ledger k =
    if k = k' then ((w.queue k).remove e, w.enqueued k, update (w.acknowledged k) e
      (w.acknowledged k e + if e ∈ (w.queue k).processing then 1 else 0)) else w.ledger k := by
  rw [ledger, acknowledge, write]
  by_cases hk : k = k'
  · subst hk
    rw [if_pos rfl]
    simp only [update_self]
  · rw [if_neg hk]
    simp only [update_of_ne hk]
    rfl

variable {c w k k' e} {w' : World}

theorem Effect.of_enqueue (h : w'.ledger k = (w.enqueue k' e).ledger k) : Effect c k w a w' := by
  rw [ledger_enqueue] at h
  split at h
  · exact .pushed e h
  · exact .same h

theorem Effect.of_acknowledge (h : w'.ledger k = (w.acknowledge k' e).ledger k) : Effect c k w a w' := by
  rw [ledger_acknowledge] at h
  split at h
  · exact .removed e h
  · exact .same h

theorem Effect.of_requeue (h : w'.ledger k = (w.write k' ((w.queue k').requeue e)).ledger k) :
    Effect c k w a w' := by
  rw [ledger_write] at h
  by_cases hk : k = k'
  · subst hk
    rw [if_pos rfl] at h
    exact .requeued e h
  · rw [if_neg hk] at h
    exact .same h

/-- The work on a message ends with a push to one queue and a removal from another, or with a
removal. -/
theorem Effect.of_conclude {result : Envelope}
    (h : w'.ledger k = (w.conclude c k' e result).ledger k) : Effect c k w a w' := by
  cases k' with
  | jobs =>
    rw [conclude, ledger_acknowledge] at h
    by_cases hk : k = .jobs
    · subst hk
      exact .removed e h
    · rw [if_neg hk] at h
      exact .of_enqueue h
  | results | ai => exact .of_acknowledge h

end Effects

/-- Every action has one of the effects on each queue. -/
theorem World.step_effect (c : Codec) (w : World) (a : Action) (k : Kind) : Effect c k w a (w.step c a) := by
  cases a with
  | push => exact .of_enqueue rfl
  | submit | ensure =>
    rw [step]
    split
    · exact .same rfl
    · exact .of_enqueue rfl
  | scan =>
    rw [step]
    split
    · exact .same rfl
    · exact .same rfl
  | requeue =>
    rw [step]
    split
    · exact .of_requeue rfl
    · exact .same rfl
  | pop =>
    rw [step]
    split
    · rename_i k' hprocess
      cases hpop : (w.queue k').rpoplpush with
      | none => exact .same rfl
      | some row =>
        have hledger := ledger_write w k k' row.2
        by_cases hk : k = k'
        · subst hk
          rw [if_pos rfl] at hledger
          refine .popped row.1 row.2 hpop hledger ?_
          exact update_self _ _ _
        · rw [if_neg hk] at hledger
          exact .same hledger
    · exact .same rfl
  | lease pid now =>
    rw [step]
    split
    · rename_i k' e hprocess
      have hledger := ledger_write w k k' ((w.queue k').zadd e (now + c.visibilityTimeout))
      by_cases hk : k = k'
      · subst hk
        rw [if_pos rfl] at hledger
        exact .leased e hprocess hledger
      · rw [if_neg hk] at hledger
        exact .same hledger
    · exact .same rfl
  | reject =>
    rw [step]
    split
    · exact .of_requeue rfl
    · exact .of_acknowledge rfl
    · exact .same rfl
  | finish =>
    rw [step]
    split
    · exact .of_conclude rfl
    · exact .same rfl
  | crash => exact .same rfl

variable {actions : List Action}

section

variable {w : World} {c : Codec} {e : Envelope} {pid : Nat} {k : Kind}

/-- A process between its two commands stays there, unless it goes on or is gone. -/
theorem World.popped_stays (h : w.process pid = .popped k e) (hcrash : a ≠ .crash pid)
    (hlease : ∀ now, a ≠ .lease pid now) : (w.step c a).process pid = .popped k e := by
  have hother {w' : World} (pid' : Nat) (p : Process) (hw : w'.process = w.process)
      (hne : pid ≠ pid') : (w'.become pid' p).process pid = .popped k e := by
    simp only [become, hw, update_of_ne hne, h]
  have hne {pid' : Nat} {p : Process} (hp : w.process pid' = p) (hneq : p ≠ .popped k e) : pid ≠ pid' := by
    rintro rfl
    exact hneq (hp.symm.trans h)
  cases a with
  | push => exact h
  | submit | ensure =>
    rw [step]
    split
    · exact h
    · exact h
  | scan pid' | requeue pid' =>
    rw [step]
    split
    · rename_i hp
      exact hother pid' _ rfl (hne hp (by simp))
    · exact h
  | pop pid' =>
    rw [step]
    split
    · rename_i hp
      split
      · exact hother pid' _ rfl (hne hp (by simp))
      · exact hother pid' _ rfl (hne hp (by simp))
    · exact h
  | lease pid' now =>
    rw [step]
    split
    · refine hother pid' _ rfl ?_
      rintro rfl
      exact hlease now rfl
    · exact h
  | reject pid' =>
    rw [step]
    split
    · rename_i hp
      exact hother pid' _ rfl (hne hp (by simp))
    · rename_i hp
      exact hother pid' _ rfl (hne hp (by simp))
    · exact h
  | finish pid' =>
    rw [step]
    split
    · rename_i k' e' hp
      refine hother pid' _ ?_ (hne hp (by simp))
      cases k' <;> rfl
    · exact h
  | crash pid' =>
    refine hother pid' _ rfl ?_
    rintro rfl
    exact hcrash rfl

/-! ## Runs -/

/-- The rule for runs: what a step keeps, a run keeps. -/
theorem World.run_induction {P : World → Prop} (hstep : ∀ w a, P w → P (w.step c a)) (h : P w)
    (actions : List Action) : P (w.run c actions) := by
  induction actions generalizing w with
  | nil => exact h
  | cons a actions ih => exact ih (hstep w a h)

/-- Every occurrence that was enqueued is in a list or was acknowledged. -/
def World.Balanced (w : World) : Prop :=
  ∀ k e, (w.queue k).copies e + w.acknowledged k e = w.enqueued k e

theorem update_succ (f : Envelope → Nat) (e e' : Envelope) (n : Nat) :
    update f e (f e + n) e' = f e' + if e' = e then n else 0 := by
  by_cases he : e' = e
  · subst he
    rw [update_self, if_pos rfl]
  · rw [update_of_ne he, if_neg he, add_zero]

theorem World.step_balanced (c : Codec) (w : World) (a : Action) (h : w.Balanced) : (w.step c a).Balanced := by
  intro k e
  have hbefore := h k e
  have hledger {q : Keys} {enqueued acknowledged : Envelope → Nat}
      (hw : (w.step c a).ledger k = (q, enqueued, acknowledged))
      (hq : q.copies e + acknowledged e = enqueued e) :
      ((w.step c a).queue k).copies e + (w.step c a).acknowledged k e = (w.step c a).enqueued k e := by
    obtain ⟨hqueue, henqueued, hacknowledged⟩ := Prod.ext_iff.trans (and_congr_right fun _ =>
      Prod.ext_iff) |>.mp hw
    simp only [ledger] at hqueue henqueued hacknowledged
    rw [hqueue, henqueued, hacknowledged]
    exact hq
  cases step_effect c w a k with
  | same h | leased x _ h => exact hledger h hbefore
  | pushed x h =>
    refine hledger h ?_
    rw [Keys.copies_lpush, update_succ]
    omega
  | popped x q hpop h =>
    refine hledger h ?_
    rw [Keys.copies_rpoplpush _ _ _ hpop]
    exact hbefore
  | requeued x h =>
    refine hledger h ?_
    rw [Keys.copies_requeue]
    exact hbefore
  | removed x h =>
    refine hledger h ?_
    have hremove := Keys.copies_remove (w.queue k) x e
    rw [update_succ, ← ite_and]
    omega

/-- No command loses an envelope out of both lists. -/
theorem copies_add_acknowledged (c : Codec) (actions : List Action) (k : Kind) (e : Envelope) :
    ((run c {} actions).queue k).copies e + (run c {} actions).acknowledged k e = (run c {} actions).enqueued k e :=
  run_induction (step_balanced c) (fun _ _ => rfl) actions k e

/-- An envelope in processing has a lease, or is about to get one. -/
def World.Leased (w : World) : Prop :=
  ∀ k, ∀ e ∈ (w.queue k).processing,
    ((w.queue k).leases.find? e).isSome ∨ ∃ pid, w.process pid = .popped k e

/-- A run in which no process is lost between `BRPOPLPUSH` and `ZADD`, and no envelope is in
processing twice. -/
def Careful (c : Codec) : World → List Action → Prop
  | _, [] => True
  | w, a :: actions =>
    (∀ pid k e, a = .crash pid → w.process pid ≠ .popped k e) ∧
      (∀ k, ((w.step c a).queue k).processing.Nodup) ∧ Careful c (w.step c a) actions

/-- Removing an envelope that is in processing once leaves the others leased. -/
theorem leased_erase {processing : List Envelope} (hnodup : processing.Nodup)
    {leases : Dict Envelope Int} {x : Envelope} (he : e ∈ processing.erase x) :
    e ∈ processing ∧ Dict.find? (leases.erase x) e = leases.find? e := by
  obtain ⟨hne, hmem⟩ := (hnodup.mem_erase_iff).mp he
  exact ⟨hmem, by rw [Dict.find?_erase, if_neg hne]⟩

/-- The `ZADD` of a claim. -/
theorem World.lease_leased (h : w.Leased) (pid : Nat) (now : Int) : (w.step c (.lease pid now)).Leased := by
  rw [step]
  split
  · rename_i k' x hprocess
    intro k e he
    by_cases hk : k = k'
    · subst hk
      simp only [become, write, update_self, Keys.zadd] at he ⊢
      rw [Dict.find?_put]
      by_cases hx : e = x
      · rw [if_pos hx]
        exact .inl rfl
      rw [if_neg hx]
      refine (h k e he).imp_right fun hpopped => ?_
      obtain ⟨pid', hpid'⟩ := hpopped
      refine ⟨pid', ?_⟩
      have hne : pid' ≠ pid := by
        rintro rfl
        rw [hprocess, Process.popped.injEq] at hpid'
        exact hx hpid'.2.symm
      rw [update_of_ne hne, hpid']
    · simp only [become, write, update_of_ne hk] at he ⊢
      refine (h k e he).imp_right fun hpopped => ?_
      obtain ⟨pid', hpid'⟩ := hpopped
      refine ⟨pid', ?_⟩
      have hne : pid' ≠ pid := by
        rintro rfl
        rw [hprocess, Process.popped.injEq] at hpid'
        exact hk hpid'.1.symm
      rw [update_of_ne hne, hpid']
  · exact h

theorem World.step_leased (h : w.Leased) (hnodup : ∀ k, (w.queue k).processing.Nodup)
    (hcrash : ∀ pid k e, a = .crash pid → w.process pid ≠ .popped k e) : (w.step c a).Leased := by
  by_cases hlease : ∃ pid now, a = .lease pid now
  · obtain ⟨pid, now, rfl⟩ := hlease
    exact lease_leased h pid now
  intro k
  -- what holds of a lease before holds after, since processes between their commands stay there
  have hstays {e : Envelope} (hmem : e ∈ (w.queue k).processing) :
      ((w.queue k).leases.find? e).isSome ∨ ∃ pid, (w.step c a).process pid = .popped k e := by
    refine (h k e hmem).imp_right fun hpopped => ?_
    obtain ⟨pid, hpid⟩ := hpopped
    refine ⟨pid, ?_⟩
    exact popped_stays hpid (fun ha => hcrash pid k e ha hpid) fun now ha => hlease ⟨pid, now, ha⟩
  cases step_effect c w a k with
  | same heq =>
    have hqueue : (w.step c a).queue k = w.queue k := congrArg Prod.fst heq
    rw [hqueue]
    exact fun e => hstays
  | pushed x heq =>
    have hqueue : (w.step c a).queue k = (w.queue k).lpush x := congrArg Prod.fst heq
    rw [hqueue]
    exact fun e => hstays
  | @popped pid _ x q hpop heq hprocess =>
    have hqueue : (w.step c (.pop pid)).queue k = q := congrArg Prod.fst heq
    rw [Keys.rpoplpush, Option.map_eq_some_iff] at hpop
    obtain ⟨y, -, hpop⟩ := hpop
    obtain ⟨rfl, rfl⟩ := Prod.mk.inj hpop
    rw [hqueue]
    intro e he
    obtain rfl | he := mem_cons.mp he
    · exact .inr ⟨pid, hprocess⟩
    · exact hstays he
  | @leased pid now => exact absurd ⟨pid, now, rfl⟩ hlease
  | requeued x heq =>
    have hqueue : (w.step c a).queue k = (w.queue k).requeue x := congrArg Prod.fst heq
    rw [hqueue, Keys.processing_requeue, Keys.leases_requeue]
    intro e he
    obtain ⟨hmem, hfind⟩ := leased_erase (hnodup k) he
    rw [hfind]
    exact hstays hmem
  | removed x heq =>
    have hqueue : (w.step c a).queue k = (w.queue k).remove x := congrArg Prod.fst heq
    rw [hqueue]
    intro e he
    obtain ⟨hmem, hfind⟩ := leased_erase (hnodup k) he
    rw [Keys.remove, hfind]
    exact hstays hmem

theorem run_leased (h : w.Leased) (hnodup : ∀ k, (w.queue k).processing.Nodup)
    (hcareful : Careful c w actions) : (w.run c actions).Leased := by
  induction actions generalizing w with
  | nil => exact h
  | cons a actions ih =>
    obtain ⟨hcrash, hnodup', hrest⟩ := hcareful
    exact ih (step_leased h hnodup hcrash) hnodup' hrest

/-! ## Recovery -/

theorem mem_expired {q : Keys} {due now : Int} (h : q.leases.find? e = some due) (hdue : due ≤ now) :
    e ∈ q.expired now := by
  refine mem_map.mpr ⟨(e, due), ?_, rfl⟩
  refine (perm_insertionSort _ _).mem_iff.mpr (mem_filter.mpr ⟨?_, by simpa using hdue⟩)
  exact Dict.find?_eq_some.mp h

/-- The loop of a recovery returns the envelopes of its list. -/
theorem recovering_returns (c : Codec) {rest : List Envelope} (hprocess : w.process pid = .recovering k rest)
    (h : e ∈ (w.queue k).waiting ∨ e ∈ (w.queue k).processing ∧ e ∈ rest) :
    e ∈ ((w.run c (List.replicate rest.length (.requeue pid))).queue k).waiting := by
  induction rest generalizing w with
  | nil => exact h.resolve_right fun h => not_mem_nil h.2
  | cons x rest ih =>
    have hstep : w.step c (.requeue pid) = (w.write k ((w.queue k).requeue x)).become pid (.recovering k rest) := by
      rw [step, hprocess]
    have hqueue : (w.step c (.requeue pid)).queue k = (w.queue k).requeue x := by
      rw [hstep]
      exact update_self _ _ _
    rw [length_cons, replicate_succ, run, foldl_cons, ← run]
    refine ih ?_ ?_
    · rw [hstep]
      exact update_self _ _ _
    rw [hqueue, Keys.requeue]
    obtain hwaiting | ⟨hprocessing, hmem⟩ := h
    · left
      split
      · exact mem_cons_of_mem _ hwaiting
      · exact hwaiting
    by_cases hx : e = x
    · subst hx
      rw [if_pos hprocessing]
      exact .inl mem_cons_self
    right
    have herase : e ∈ (w.queue k).processing.erase x := (mem_erase_of_ne hx).mpr hprocessing
    refine ⟨?_, (mem_cons.mp hmem).resolve_left hx⟩
    split
    · exact herase
    · exact herase

/-- A recovery: its first command, and then its loop. -/
def recovery (w : World) (pid : Nat) (k : Kind) (now : Int) : List Action :=
  .scan pid k now :: List.replicate ((w.queue k).expired now).length (.requeue pid)

/-- A recovery after the due time of a lease returns the envelope to the waiting list. -/
theorem recovery_returns (c : Codec) {due now : Int} (hprocessing : e ∈ (w.queue k).processing)
    (hlease : (w.queue k).leases.find? e = some due) (hdue : due ≤ now) (hidle : w.process pid = .idle) :
    e ∈ ((w.run c (recovery w pid k now)).queue k).waiting := by
  have hstep : w.step c (.scan pid k now) = w.become pid (.recovering k ((w.queue k).expired now)) := by
    rw [step, hidle]
  rw [recovery, run, foldl_cons, ← run, hstep]
  refine recovering_returns c (update_self _ _ _) (.inr ⟨hprocessing, ?_⟩)
  exact mem_expired hlease hdue

/-- A codec to which every envelope is an object. -/
def sampleCodec : Codec := ⟨fun _ => .object true, fun _ => none, 300⟩

/-- Whether an action is one of a producer. -/
def Action.enqueues : Action → Bool
  | .push .. | .submit .. | .ensure .. => true
  | _ => false

end

/-- Nothing waits, nothing is leased, and no process has a message. -/
structure World.Stranded (q : Kind → Keys) (w : World) : Prop where
  queue : w.queue = q
  waiting : ∀ k, (q k).waiting = []
  leases : ∀ k, (q k).leases = .empty
  process : ∀ pid, w.process pid = .idle ∨ ∃ k, w.process pid = .recovering k []

variable {q : Kind → Keys} {w : World}

theorem World.Stranded.become (h : w.Stranded q) (pid : Nat) {p : Process}
    (hp : p = .idle ∨ ∃ k, p = .recovering k []) : (w.become pid p).Stranded q := by
  refine { h with process := fun pid' => ?_ }
  by_cases hpid : pid' = pid
  · subst hpid
    simpa only [World.become, update_self] using hp
  · simpa only [World.become, update_of_ne hpid] using h.process pid'

theorem World.step_stranded (c : Codec) (h : w.Stranded q) (ha : a.enqueues = false) : (w.step c a).Stranded q := by
  cases a with
  | push | submit | ensure => cases ha
  | crash pid => exact h.become pid (.inl rfl)
  | scan pid k now =>
    have hexpired : (w.queue k).expired now = [] := by
      rw [h.queue, Keys.expired, h.leases]
      rfl
    rw [step, hexpired]
    split
    · exact h.become pid (.inr ⟨k, rfl⟩)
    · exact h
  | pop pid =>
    rw [step]
    obtain hp | ⟨k, hp⟩ := h.process pid
    · rw [hp]
      exact h
    have hpop : (w.queue k).rpoplpush = none := by
      rw [h.queue, Keys.rpoplpush, h.waiting]
      rfl
    simp only [hp, hpop]
    exact h.become pid (.inl rfl)
  | requeue pid | lease pid | reject pid | finish pid =>
    rw [step]
    obtain hp | ⟨k, hp⟩ := h.process pid
    · rw [hp]
      exact h
    · rw [hp]
      exact h

theorem run_stranded (c : Codec) (h : w.Stranded q)
    (hactions : ∀ a ∈ actions, a.enqueues = false) : (w.run c actions).Stranded q := by
  induction actions generalizing w with
  | nil => exact h
  | cons a actions ih =>
    exact ih (step_stranded c h (hactions a mem_cons_self)) fun a ha => hactions a (mem_cons_of_mem _ ha)

/-- A process that is lost between `BRPOPLPUSH` and `ZADD` leaves its message in processing for
good: no recovery returns it, however long the consumers go on. -/
theorem crash_strands_message (k : Kind) (actions : List Action) (hactions : ∀ a ∈ actions, a.enqueues = false) :
    ((run sampleCodec {} ([.push k "job", .scan 0 k 0, .pop 0, .crash 0] ++ actions)).queue k) =
      { waiting := [], processing := ["job"], leases := .empty } := by
  rw [run, foldl_append, ← run, ← run]
  have hstart : (run sampleCodec {} [.push k "job", .scan 0 k 0, .pop 0, .crash 0]).Stranded
      (update (fun _ => {}) k { processing := ["job"] }) := by
    refine ⟨funext fun k' => ?_, fun k' => ?_, fun k' => ?_, fun pid => .inl ?_⟩
    · cases k <;> cases k' <;> rfl
    · cases k <;> cases k' <;> rfl
    · cases k <;> cases k' <;> rfl
    · cases pid <;> cases k <;> rfl
  have hend := (run_stranded sampleCodec hstart hactions).queue
  rw [hend, update_self]

/-- Two equal envelopes in processing have one lease: a recovery returns one of them and leaves the
other one without. -/
theorem recovery_strands_equal_envelope :
    ((run sampleCodec {} [.push .ai "run", .push .ai "run", .scan 0 .ai 0, .pop 0, .lease 0 0,
      .scan 1 .ai 0, .pop 1, .lease 1 0, .crash 0, .crash 1, .scan 2 .ai 300, .requeue 2]).queue .ai) =
      { waiting := ["run"], processing := ["run"], leases := .empty } :=
  rfl

end C2Hunter.Redis
