import C2Hunter.ExportQueue

/-!
# Index tasks

The task record that the two index queues share: `LiveIndexTask` of
`pcap_offset_index_queue.py` and `PostingIndexTask` of `pcap_posting_index_queue.py`
have the same fields over their own specification.

* `IndexTask σ` — a task over specifications `σ`, with the updates the queues make.
* `IndexTask.ownsUnexpired` — the lease check in front of every guarded operation.
* `IndexTask.Good` — a lease exactly while running, an attempt left while queued; one
  lemma an update.
* `earliest` — the first minimum of a list, as `min` with a key picks it.
-/

namespace C2Hunter

/-- The state of an index task. -/
inductive TaskStatus where
  | queued
  | running
  | completed
  | failed
  deriving DecidableEq, Repr

namespace TaskStatus

/-- `QUEUED` or `RUNNING`. -/
def active : TaskStatus → Bool
  | queued | running => true
  | completed | failed => false

/-- `COMPLETED` or `FAILED`. -/
def terminal : TaskStatus → Bool
  | queued | running => false
  | completed | failed => true

end TaskStatus

/-- A task of an index queue. -/
structure IndexTask (σ : Type) : Type where
  spec : σ
  status : TaskStatus
  attempt : Int
  maxAttempts : Int
  leaseToken : Option String
  leaseExpiresAt : Option Time
  nextAttemptAt : Time
  queuedAt : Time
  updatedAt : Time
  errorCode : Option String
  deriving DecidableEq

namespace IndexTask

variable {σ : Type}

/-- The task an admission creates. -/
def admitted (spec : σ) (maxAttempts : Int) (now : Time) : IndexTask σ where
  spec := spec
  status := .queued
  attempt := 0
  maxAttempts := maxAttempts
  leaseToken := none
  leaseExpiresAt := none
  nextAttemptAt := now
  queuedAt := now
  updatedAt := now
  errorCode := none

section

variable (task : IndexTask σ)

/-- The task a claim writes. -/
def claimed (token : String) (expires now : Time) : IndexTask σ :=
  { task with
    status := .running
    attempt := task.attempt + 1
    leaseToken := some token
    leaseExpiresAt := some expires
    updatedAt := now }

/-- The task a heartbeat writes. -/
def renewed (expires now : Time) : IndexTask σ :=
  { task with leaseExpiresAt := some expires, updatedAt := now }

/-- The task without its lease, in another state. -/
def released (status : TaskStatus) (nextAttemptAt now : Time) (errorCode : Option String) :
    IndexTask σ :=
  { task with
    status := status
    leaseToken := none
    leaseExpiresAt := none
    nextAttemptAt := nextAttemptAt
    updatedAt := now
    errorCode := errorCode }

/-- The lease check: running, of this attempt, under this token, and not expired. -/
def ownsUnexpired (attempt : Int) (token : String) (now : Time) : Bool :=
  task.status = .running ∧ task.attempt = attempt ∧ task.leaseToken = some token ∧
    ∃ expires ∈ task.leaseExpiresAt, now < expires

end

variable {task : IndexTask σ}

theorem ownsUnexpired_iff {attempt : Int} {token : String} {now : Time} :
    task.ownsUnexpired attempt token now = true ↔
      task.status = .running ∧ task.attempt = attempt ∧ task.leaseToken = some token ∧
        ∃ expires ∈ task.leaseExpiresAt, now < expires := by
  rw [ownsUnexpired, decide_eq_true_eq]

/-- Whether the attempt that runs is not the last. -/
def retries (task : IndexTask σ) : Bool := task.attempt < task.maxAttempts

/-! ## Good tasks -/

/-- A lease exactly while running, and an attempt left while queued. -/
structure Good (task : IndexTask σ) : Prop where
  token_iff : task.leaseToken.isSome ↔ task.status = .running
  expires_iff : task.leaseExpiresAt.isSome ↔ task.status = .running
  queued_attempt : task.status = .queued → task.attempt < task.maxAttempts

theorem good_admitted (spec : σ) {maxAttempts : Int} (h : 1 ≤ maxAttempts) (now : Time) :
    Good (admitted spec maxAttempts now) where
  token_iff := ⟨nofun, nofun⟩
  expires_iff := ⟨nofun, nofun⟩
  queued_attempt _ := by
    change 0 < maxAttempts
    omega

theorem good_claimed (task : IndexTask σ) (token : String) (expires now : Time) :
    Good (task.claimed token expires now) where
  token_iff := ⟨fun _ => rfl, fun _ => rfl⟩
  expires_iff := ⟨fun _ => rfl, fun _ => rfl⟩
  queued_attempt := nofun

theorem Good.renewed (h : Good task) (hstatus : task.status = .running)
    (expires now : Time) : Good (task.renewed expires now) where
  token_iff := h.token_iff
  expires_iff := ⟨fun _ => hstatus, fun _ => rfl⟩
  queued_attempt := h.queued_attempt

theorem good_released {status : TaskStatus} (hstatus : status ≠ .running)
    (hretry : status = .queued → task.retries = true) (next now : Time) (code : Option String) :
    Good (task.released status next now code) where
  token_iff := ⟨nofun, fun h => absurd h hstatus⟩
  expires_iff := ⟨nofun, fun h => absurd h hstatus⟩
  queued_attempt h := by
    have hleft := hretry h
    rw [retries, decide_eq_true_eq] at hleft
    exact hleft

end IndexTask

/-! ## The first minimum -/

/-- `min(items, key=…)` with `lt` the strict order of the keys: the first of the least. -/
def earliest {α : Type} (lt : α → α → Bool) : List α → Option α
  | [] => none
  | item :: items => some (items.foldl (fun best item => if lt item best then item else best) item)

theorem mem_of_earliest {α : Type} {lt : α → α → Bool} {items : List α} {item : α}
    (h : earliest lt items = some item) : item ∈ items := by
  cases items with
  | nil => cases h
  | cons first items =>
    rw [earliest, Option.some.injEq] at h
    rw [← h]
    clear h
    induction items generalizing first with
    | nil => exact List.mem_singleton_self first
    | cons next items ih =>
      rw [List.foldl_cons]
      split
      · exact List.mem_cons_of_mem _ (ih next)
      · rcases List.mem_cons.mp (ih first) with hfirst | hrest
        · exact List.mem_cons.mpr (.inl hfirst)
        · exact List.mem_cons_of_mem _ (List.mem_cons_of_mem _ hrest)

end C2Hunter
