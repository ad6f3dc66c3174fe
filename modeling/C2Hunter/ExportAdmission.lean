import C2Hunter.ExportLifecycle

/-!
# Admission to the export queue

What `enqueue` promises over whole runs: the active limits, coalescing and
idempotency keys. The limits are checked at admission only, while retries, recovery,
cancellation and retention move jobs later; what carries them is that none of those
makes a job active that was not, and none touches the four columns that say what a
job was admitted for.

* `Call` — a call of the queue: any row can be enqueued (the synchronous path enqueues
  rows that are already running), or one of the operations `Op`.
* `enqueue_eq_ok` — the three ways `enqueue` answers.
* `Job.Continues`, `Call.effect_cases` — what a call does to the request columns of a row.
* `LimitInv`, `RequestInv`, `admission_limits` — the limits and the uniqueness over all runs.
* `key_names_request` — what an idempotency key names, and when.
-/

namespace C2Hunter

open List Table

/-! ## Calls -/

/-- The arguments of one `enqueue`. -/
structure Admission where
  job : Job
  capacity : Int
  perPrincipalLimit : Int
  sourceValid : Bool

/-- The answer of the store to an admission. -/
def Admission.answer (a : Admission) (s : Store) : Except QueueError ((Job × Bool) × Store) :=
  enqueue s a.job a.capacity a.perPrincipalLimit a.sourceValid

/-- A call of the queue. -/
inductive Call where
  /-- `enqueue` of any row, as the synchronous path does it -/
  | submit (a : Admission)
  /-- an operation that draws the uuid `id` or the lease token `token` -/
  | act (id : String) (token : LeaseToken) (op : Op)

variable {call : Call} {a : Admission}

namespace Call

/-- The arguments of the call, if it is an `enqueue`. -/
def admission : Call → Option Admission
  | .submit a => some a
  | .act id _ (.enqueue settings request capacity limit valid now) =>
    some ⟨buildAsyncJob settings request id now, capacity, limit, valid⟩
  | .act _ _ _ => none

/-- The store after the call. -/
def effect (s : Store) : Call → Store
  | .submit a => settle s (a.answer s)
  | .act id token op => op.effect id token s

/-- The store after a sequence of calls. -/
def run (calls : List Call) : Store := calls.foldl effect .empty

theorem run_concat (calls : List Call) (call : Call) : run (calls ++ [call]) = call.effect (run calls) := by
  rw [run, run, foldl_append, foldl_cons, foldl_nil]

theorem effect_of_admission (h : call.admission = some a) (s : Store) : call.effect s = settle s (a.answer s) := by
  cases call with
  | submit =>
    cases h
    rfl
  | act id token op =>
    cases op with
    | enqueue settings request capacity limit valid now =>
      cases h
      rfl
    | _ => cases h

end Call

/-! ## The answers of `enqueue` -/

/-- Membership in `{"QUEUED", "RUNNING", "COMPLETED"}`: rows an equal request shares. -/
def Status.reusable : Status → Bool
  | queued | running | completed => true
  | failed | cancelled => false

/-- Two rows of one principal under one idempotency key. -/
def Job.SameKey (job other : Job) : Prop :=
  job.principalScope = other.principalScope ∧ job.idempotencyKey = other.idempotencyKey

/-- Two rows of one principal that ask for the same work. -/
def Job.SameWork (job other : Job) : Prop :=
  job.principalScope = other.principalScope ∧ job.coalesceFingerprint = other.coalesceFingerprint

variable {s : Store} {job : Job}

section

theorem keyedJob_eq_none : keyedJob s job = none ↔
      job.idempotencyKey = none ∨ ∀ item ∈ s.jobs.rows, ¬item.SameKey job := by
  rw [keyedJob]
  cases hkey : job.idempotencyKey with
  | none => simp
  | some => simp [Job.SameKey, hkey]

theorem keyedJob_some {item : Job} (h : keyedJob s job = some item) : item ∈ s.jobs.rows ∧ item.SameKey job := by
  rw [keyedJob, Option.bind_eq_some_iff] at h
  obtain ⟨key, hkey, hfind⟩ := h
  have hsame := find?_some hfind
  rw [decide_eq_true_eq] at hsame
  exact ⟨mem_of_find?_eq_some hfind, hsame.1, hsame.2.trans hkey.symm⟩

theorem Status.reusable_iff {status : Status} :
    status.reusable = true ↔ status = .queued ∨ status = .running ∨ status = .completed := by
  cases status <;> decide

theorem reusableJob_eq_none : reusableJob s job = none ↔
      ∀ item ∈ s.jobs.rows, item.SameWork job → item.status.reusable = false := by
  rw [reusableJob, find?_eq_none]
  refine forall₂_congr fun item _ => ?_
  rw [decide_eq_true_eq, ← Status.reusable_iff, ← and_assoc, not_and, Bool.not_eq_true]
  rfl

theorem reusableJob_some {item : Job} (h : reusableJob s job = some item) :
    item ∈ s.jobs.rows ∧ item.SameWork job ∧ item.status.reusable = true := by
  have hsame := find?_some h
  rw [decide_eq_true_eq, ← Status.reusable_iff] at hsame
  exact ⟨mem_of_find?_eq_some h, ⟨hsame.1, hsame.2.1⟩, hsame.2.2⟩

/-- The active rows of a table. -/
def Store.active (s : Store) : List Job := s.jobs.rows.filter fun item => item.status.active

/-- The active rows of a principal. -/
def Store.activeOf (s : Store) (principal : String) : List Job :=
  s.jobs.rows.filter fun item => item.status.active && item.principalScope = principal

end

/-- What it takes to store a new row. -/
structure Admission.Admitted (a : Admission) (s : Store) : Prop where
  unkeyed : keyedJob s a.job = none
  unshared : reusableJob s a.job = none
  below : (s.active.length : Int) < a.capacity
  belowOf : ((s.activeOf a.job.principalScope).length : Int) < a.perPrincipalLimit
  valid : a.sourceValid = true

variable {s' : Store} {row : Job}

/-- The three ways `enqueue` answers: replay of a key, a shared row, a new row. -/
theorem enqueue_eq_ok {created : Bool} : a.answer s = .ok ((row, created), s') ↔
      (keyedJob s a.job = some row ∧ row.requestFingerprint = a.job.requestFingerprint ∧ created = false ∧ s' = s) ∨
      (keyedJob s a.job = none ∧ reusableJob s a.job = some row ∧ created = false ∧ s' = s) ∨
      (a.Admitted s ∧ row = a.job ∧ created = true ∧ s' = s.save a.job) := by
  have hof : (s.active.filter fun item => item.principalScope = a.job.principalScope) =
      s.activeOf a.job.principalScope := by
    rw [Store.active, Store.activeOf, filter_filter]
    refine filter_congr fun item _ => ?_
    rw [Bool.and_comm]
  rw [Admission.answer, enqueue]
  cases hkeyed : keyedJob s a.job with
  | some =>
    have hnot : ¬a.Admitted s := fun h => by cases hkeyed.symm.trans h.unkeyed
    simp only [Except.guard_eq_ok, not_not, Except.ok.injEq, Prod.mk.injEq, Option.some.injEq,
      reduceCtorEq, false_and, hnot, or_false]
    constructor
    · rintro ⟨hfp, ⟨rfl, rfl⟩, rfl⟩
      exact ⟨rfl, hfp, rfl, rfl⟩
    · rintro ⟨rfl, hfp, rfl, rfl⟩
      exact ⟨hfp, ⟨rfl, rfl⟩, rfl⟩
  | none =>
    cases hreuse : reusableJob s a.job with
    | some reusable =>
      have hnot : ¬a.Admitted s := fun h => by cases hreuse.symm.trans h.unshared
      simp only [Except.ok.injEq, Prod.mk.injEq, Option.some.injEq, reduceCtorEq, false_and, hnot,
        or_false, false_or, true_and]
      constructor
      · rintro ⟨⟨rfl, rfl⟩, rfl⟩
        exact ⟨rfl, rfl, rfl⟩
      · rintro ⟨rfl, rfl, rfl⟩
        exact ⟨⟨rfl, rfl⟩, rfl⟩
    | none =>
      have hlengths : (s.jobs.rows.filter fun item => item.status.active) = s.active := rfl
      simp only [hlengths, hof, Except.guard_eq_ok, not_le, ge_iff_le, not_not, Except.ok.injEq,
        Prod.mk.injEq, reduceCtorEq, false_and, and_false, false_or]
      constructor
      · rintro ⟨hbelow, hbelowOf, hvalid, ⟨rfl, rfl⟩, rfl⟩
        exact ⟨⟨hkeyed, hreuse, hbelow, hbelowOf, hvalid⟩, rfl, rfl, rfl⟩
      · rintro ⟨h, rfl, rfl, rfl⟩
        exact ⟨h.below, h.belowOf, h.valid, ⟨rfl, rfl⟩, rfl⟩

/-- A conflict is a stored key with another fingerprint. -/
theorem enqueue_conflict : a.answer s = .error .idempotencyConflict ↔ ∃ keyed, keyedJob s a.job = some keyed ∧
        keyed.requestFingerprint ≠ a.job.requestFingerprint := by
  rw [Admission.answer, enqueue]
  cases keyedJob s a.job with
  | some => simp
  | none =>
    cases reusableJob s a.job with
    | some reusable => simp
    | none =>
      simp only
      split_ifs <;> simp

/-- An admission leaves the store as it was, or stores its row. -/
theorem settle_answer (a : Admission) (s : Store) :
    settle s (a.answer s) = s ∨ a.Admitted s ∧ settle s (a.answer s) = s.save a.job := by
  cases hanswer : a.answer s with
  | error => exact .inl rfl
  | ok r =>
    obtain ⟨⟨row, created⟩, s'⟩ := r
    rcases enqueue_eq_ok.mp hanswer with ⟨-, -, -, rfl⟩ | ⟨-, -, -, rfl⟩ | ⟨h, -, -, rfl⟩
    · exact .inl rfl
    · exact .inl rfl
    · exact .inr ⟨h, rfl⟩

/-! ## What a call does to the request columns

The executor copies the principal of the leased job into the artifact it returns, and
`complete` merges the artifact over the row: `KeepsScope` is that copy, read off the
caller. Nothing else writes the four columns. -/

/-- A completion brings an artifact of the principal whose job it completes. -/
def Op.KeepsScope (s : Store) : Op → Prop
  | .complete k a t artifact _ _ => ∀ job, s.jobs.get? k = some job → job.owns a t = true →
    artifact.principalScope = job.principalScope
  | _ => True

/-- `Op.KeepsScope` of the operation of a call. -/
def Call.KeepsScope (s : Store) : Call → Prop
  | .submit _ => True
  | .act _ _ op => op.KeepsScope s

/-- A row and a later row of the same admitted request: the request columns stay, and the
job does not become active or reusable again. -/
structure Job.Continues (job later : Job) : Prop where
  scope : later.principalScope = job.principalScope
  key : later.idempotencyKey = job.idempotencyKey
  request : later.requestFingerprint = job.requestFingerprint
  work : later.coalesceFingerprint = job.coalesceFingerprint
  active : later.status.active = true → job.status.active = true
  reusable : later.status.reusable = true → job.status.reusable = true

theorem Job.Continues.refl (job : Job) : job.Continues job := ⟨rfl, rfl, rfl, rfl, fun h => h, fun h => h⟩

theorem Job.Continues.trans {a b c : Job} (hab : a.Continues b) (hbc : b.Continues c) : a.Continues c where
  scope := hbc.scope.trans hab.scope
  key := hbc.key.trans hab.key
  request := hbc.request.trans hab.request
  work := hbc.work.trans hab.work
  active h := hab.active (hbc.active h)
  reusable h := hab.reusable (hbc.reusable h)

/-- A job that is active continues as any row with its request columns. -/
theorem Job.Continues.of_active {later : Job} (hactive : job.status.active = true)
    (hscope : later.principalScope = job.principalScope)
    (hkey : later.idempotencyKey = job.idempotencyKey)
    (hrequest : later.requestFingerprint = job.requestFingerprint)
    (hwork : later.coalesceFingerprint = job.coalesceFingerprint) : job.Continues later where
  scope := hscope
  key := hkey
  request := hrequest
  work := hwork
  active _ := hactive
  reusable _ := by
    cases hstatus : job.status <;> rw [hstatus] at hactive <;> first | rfl | cases hactive

theorem Job.Continues.of_endsAs {next : Job} (hstatus : job.status = .running)
    (hends : job.EndsAs next) (savedAt : Time) : job.Continues (next.released.stamp savedAt) := by
  have hactive : job.status.active = true := by rw [hstatus]; rfl
  rcases hends with ⟨-, now, rfl⟩ | ⟨-, -, next, rfl⟩ | ⟨-, code, error, now, rfl⟩
  · exact .of_active hactive rfl rfl rfl rfl
  · exact .of_active hactive rfl rfl rfl rfl
  · exact .of_active hactive rfl rfl rfl rfl

variable {k : String}

/-- Every operation but `enqueue` continues the rows it keeps. -/
theorem JobStep.continues {id : String} {token : LeaseToken} {op : Op}
    {x : Option Job} {job' : Job} (hstep : JobStep id token op k x (some job'))
    (hx : s.jobs.get? k = x) (hscope : op.KeepsScope s)
    (hact : (Call.act id token op).admission = none) : ∃ job, x = some job ∧ job.Continues job' := by
  cases hstep with
  | same => exact ⟨job', rfl, .refl job'⟩
  | enqueued => cases hact
  | claimed hstatus | cancelledQueued hstatus | cancelledRunning hstatus =>
    exact ⟨_, rfl, .of_active (by rw [hstatus]; rfl) rfl rfl rfl rfl⟩
  | renewed howns | progressed howns =>
    exact ⟨_, rfl, .of_active (by rw [(Job.owns_iff.mp howns).1]; rfl) rfl rfl rfl rfl⟩
  | finished howns =>
    -- the artifact overwrites the principal, with the same one
    have hrunning := (Job.owns_iff.mp howns).1
    exact ⟨_, rfl, .of_active (by rw [hrunning]; rfl) (hscope _ hx howns) rfl rfl rfl⟩
  | declined howns hcancel =>
    exact ⟨_, rfl, .of_endsAs (Job.owns_iff.mp howns).1 (.inl ⟨hcancel, _, rfl⟩) _⟩
  | retried howns hends => exact ⟨_, rfl, .of_endsAs (Job.owns_iff.mp howns).1 hends _⟩
  | recovered hstatus hends => exact ⟨_, rfl, .of_endsAs hstatus hends _⟩

/-- **A call stores the row of its admission, or continues the rows it keeps.** -/
theorem Call.effect_cases (call : Call) (s : Store) (hscope : call.KeepsScope s) :
    (∃ a, call.admission = some a ∧ a.Admitted s ∧ call.effect s = s.save a.job) ∨
    ∀ job' ∈ (call.effect s).jobs.rows, ∃ job ∈ s.jobs.rows, job.id = job'.id ∧ job.Continues job' := by
  cases hadm : call.admission with
  | some a =>
    rw [Call.effect_of_admission hadm]
    rcases settle_answer a s with hsame | ⟨hadmitted, hsave⟩
    · right
      intro job hjob
      rw [hsame] at hjob
      exact ⟨job, hjob, rfl, .refl job⟩
    · exact .inl ⟨a, rfl, hadmitted, hsave⟩
  | none =>
    right
    intro job' hjob'
    cases call with
    | submit a => cases hadm
    | act id token op =>
      have hstep : JobStep id token op job'.id _ _ := effect_job s job'.id op
      have hget : (op.effect id token s).jobs.get? job'.id = some job' := get?_of_mem hjob'
      rw [hget] at hstep
      obtain ⟨job, hjob, hcont⟩ := hstep.continues rfl hscope hadm
      exact ⟨job, mem_of_get? hjob, key_of_get? hjob, hcont⟩

/-! ## The invariant -/

/-- No admission of the call exceeds these limits. -/
def Call.LimitedBy (capacity perPrincipalLimit : Int) (call : Call) : Prop :=
  ∀ a, call.admission = some a →
    a.capacity ≤ capacity ∧ a.perPrincipalLimit ≤ perPrincipalLimit

/-- One row for each piece of shared work, and one for each idempotency key. -/
structure RequestInv (s : Store) : Prop where
  work_unique : ∀ job ∈ s.jobs.rows, ∀ other ∈ s.jobs.rows, job.SameWork other →
    job.status.reusable = true → other.status.reusable = true → job = other
  key_unique : ∀ job ∈ s.jobs.rows, ∀ other ∈ s.jobs.rows, job.SameKey other →
    job.idempotencyKey.isSome → job = other

/-- The active rows are within the limits. -/
structure LimitInv (capacity perPrincipalLimit : Int) (s : Store) : Prop where
  active_le : (s.active.length : Int) ≤ max capacity 0
  activeOf_le : ∀ principal, ((s.activeOf principal).length : Int) ≤ max perPrincipalLimit 0

/-- Rows of one id are one row. -/
theorem Store.eq_of_id {other : Job} (hjob : job ∈ s.jobs.rows)
    (hother : other ∈ s.jobs.rows) (hid : job.id = other.id) : job = other := by
  have hget := get?_of_mem hjob
  rw [hid, get?_of_mem hother] at hget
  exact (Option.some.inj hget).symm

/-- A row of the store after a save is the saved row, or another row that was there. -/
theorem Store.mem_save (h : row ∈ (s.save job).jobs.rows) : row = job ∨ row.id ≠ job.id ∧ row ∈ s.jobs.rows := by
  have hget := get?_of_mem h
  rw [Store.get?_save] at hget
  split at hget
  · exact .inl (Option.some.inj hget).symm
  · next hne => exact .inr ⟨hne, mem_of_get? hget⟩

namespace RequestInv

theorem empty : RequestInv Store.empty where
  work_unique job hjob := by cases hjob
  key_unique job hjob := by cases hjob

section

variable (h : RequestInv s)

include h

/-- Storing an admitted row keeps the rows unique: `enqueue` looked for both kinds. -/
theorem save (ha : a.Admitted s) : RequestInv (s.save a.job) where
  work_unique job hjob other hother hsame hr hr' := by
    have hfree := reusableJob_eq_none.mp ha.unshared
    rcases Store.mem_save hjob with rfl | ⟨-, hjob⟩
    · rcases Store.mem_save hother with rfl | ⟨-, hother⟩
      · rfl
      · rw [hfree other hother ⟨hsame.1.symm, hsame.2.symm⟩] at hr'
        cases hr'
    · rcases Store.mem_save hother with rfl | ⟨-, hother⟩
      · rw [hfree job hjob hsame] at hr
        cases hr
      · exact h.work_unique job hjob other hother hsame hr hr'
  key_unique job hjob other hother hsame hkey := by
    have hfree := (keyedJob_eq_none.mp ha.unkeyed).resolve_left
    rcases Store.mem_save hjob with rfl | ⟨-, hjob⟩
    · rcases Store.mem_save hother with rfl | ⟨-, hother⟩
      · rfl
      · exact absurd ⟨hsame.1.symm, hsame.2.symm⟩ (hfree (Option.isSome_iff_ne_none.mp hkey) other hother)
    · rcases Store.mem_save hother with rfl | ⟨-, hother⟩
      · rw [hsame.2] at hkey
        exact absurd hsame (hfree (Option.isSome_iff_ne_none.mp hkey) job hjob)
      · exact h.key_unique job hjob other hother hsame hkey

/-- So does a call that only continues rows. -/
theorem continues (hcont : ∀ job' ∈ s'.jobs.rows, ∃ job ∈ s.jobs.rows, job.id = job'.id ∧ job.Continues job') :
    RequestInv s' where
  work_unique job' hjob' other' hother' hsame hr hr' := by
    obtain ⟨job, hjob, hid, hc⟩ := hcont job' hjob'
    obtain ⟨other, hother, hid', hc'⟩ := hcont other' hother'
    have hsame₀ : job.SameWork other :=
      ⟨by rw [← hc.scope, ← hc'.scope, hsame.1], by rw [← hc.work, ← hc'.work, hsame.2]⟩
    have heq := h.work_unique job hjob other hother hsame₀ (hc.reusable hr) (hc'.reusable hr')
    exact Store.eq_of_id hjob' hother' (by rw [← hid, ← hid', heq])
  key_unique job' hjob' other' hother' hsame hkey := by
    obtain ⟨job, hjob, hid, hc⟩ := hcont job' hjob'
    obtain ⟨other, hother, hid', hc'⟩ := hcont other' hother'
    have hsame₀ : job.SameKey other :=
      ⟨by rw [← hc.scope, ← hc'.scope, hsame.1], by rw [← hc.key, ← hc'.key, hsame.2]⟩
    have heq := h.key_unique job hjob other hother hsame₀ (by rw [← hc.key]; exact hkey)
    exact Store.eq_of_id hjob' hother' (by rw [← hid, ← hid', heq])

theorem effect (hscope : call.KeepsScope s) : RequestInv (call.effect s) := by
  rcases call.effect_cases s hscope with ⟨a, -, hadmitted, heq⟩ | hcont
  · rw [heq]
    exact h.save hadmitted
  · exact h.continues hcont

/-- A key that is stored is replayed, whatever the limits. -/
theorem replay (hrow : row ∈ s.jobs.rows) (hsame : row.SameKey a.job)
    (hkey : a.job.idempotencyKey.isSome) : keyedJob s a.job = some row := by
  cases hkeyed : keyedJob s a.job with
  | none =>
    have hfree := (keyedJob_eq_none.mp hkeyed).resolve_left (Option.isSome_iff_ne_none.mp hkey)
    exact absurd hsame (hfree row hrow)
  | some item =>
    obtain ⟨hitem, hsame'⟩ := keyedJob_some hkeyed
    have hitems : item.SameKey row :=
      ⟨hsame'.1.trans hsame.1.symm, hsame'.2.trans hsame.2.symm⟩
    rw [h.key_unique item hitem row hrow hitems (by rw [hsame'.2]; exact hkey)]

/-- A row with the requested work is shared, whatever the limits. -/
theorem share (hrow : row ∈ s.jobs.rows) (hsame : row.SameWork a.job)
    (hr : row.status.reusable = true) : reusableJob s a.job = some row := by
  cases hreuse : reusableJob s a.job with
  | none =>
    rw [reusableJob_eq_none.mp hreuse row hrow hsame] at hr
    cases hr
  | some item =>
    obtain ⟨hitem, hsame', hr'⟩ := reusableJob_some hreuse
    have hitems : item.SameWork row :=
      ⟨hsame'.1.trans hsame.1.symm, hsame'.2.trans hsame.2.symm⟩
    rw [h.work_unique item hitem row hrow hitems hr' hr]

end

end RequestInv

variable {perPrincipalLimit : Int}

namespace LimitInv

variable {capacity : Int}

theorem empty : LimitInv capacity perPrincipalLimit Store.empty where
  active_le := le_max_right _ _
  activeOf_le _ := le_max_right _ _

/-- Storing an admitted row keeps the limits: `enqueue` counted. -/
theorem save (h : LimitInv capacity perPrincipalLimit s) (ha : a.Admitted s)
    (hcapacity : a.capacity ≤ capacity) (hlimit : a.perPrincipalLimit ≤ perPrincipalLimit) :
    LimitInv capacity perPrincipalLimit (s.save a.job) where
  active_le := by
    have hput : (s.save a.job).active.length ≤ s.active.length + 1 :=
      length_filter_put_le s.jobs a.job _
    have hbelow := ha.below
    omega
  activeOf_le principal := by
    by_cases hp : a.job.principalScope = principal
    · have hput : ((s.save a.job).activeOf principal).length ≤ (s.activeOf principal).length + 1 :=
        length_filter_put_le s.jobs a.job _
      have hbelow := ha.belowOf
      rw [hp] at hbelow
      omega
    · -- the new row is not of this principal
      have hle : ((s.save a.job).activeOf principal).length ≤ (s.activeOf principal).length + 0 := by
        refine length_filter_le [] fun row hrow hactive _ => ?_
        rcases Store.mem_save hrow with rfl | ⟨-, hold⟩
        · simp [hp] at hactive
        · exact ⟨row, hold, rfl, hactive⟩
      have hbefore := h.activeOf_le principal
      omega

/-- A call that only continues rows makes none active. -/
theorem continues (h : LimitInv capacity perPrincipalLimit s)
    (hcont : ∀ job' ∈ s'.jobs.rows, ∃ job ∈ s.jobs.rows, job.id = job'.id ∧ job.Continues job') :
    LimitInv capacity perPrincipalLimit s' where
  active_le := by
    have hle : s'.active.length ≤ s.active.length + 0 := by
      refine length_filter_le [] fun row hrow hactive _ => ?_
      obtain ⟨job, hjob, hid, hc⟩ := hcont row hrow
      exact ⟨job, hjob, hid, hc.active hactive⟩
    have hbefore := h.active_le
    omega
  activeOf_le principal := by
    have hle : (s'.activeOf principal).length ≤ (s.activeOf principal).length + 0 := by
      refine length_filter_le [] fun row hrow hactive _ => ?_
      obtain ⟨job, hjob, hid, hc⟩ := hcont row hrow
      rw [Bool.and_eq_true, decide_eq_true_eq, hc.scope] at hactive
      refine ⟨job, hjob, hid, ?_⟩
      rw [Bool.and_eq_true, decide_eq_true_eq]
      exact ⟨hc.active hactive.1, hactive.2⟩
    have hbefore := h.activeOf_le principal
    omega

theorem effect (h : LimitInv capacity perPrincipalLimit s)
    (hlimited : call.LimitedBy capacity perPrincipalLimit) (hscope : call.KeepsScope s) :
    LimitInv capacity perPrincipalLimit (call.effect s) := by
  rcases call.effect_cases s hscope with ⟨a, hadm, hadmitted, heq⟩ | hcont
  · obtain ⟨hcapacity, hlimit⟩ := hlimited a hadm
    rw [heq]
    exact h.save hadmitted hcapacity hlimit
  · exact h.continues hcont

end LimitInv

/-! ## Whole runs -/

/-- Every completion of the run brings an artifact of its job's principal. -/
def Scoped (calls : List Call) : Prop :=
  ∀ (n : Nat) (call : Call), calls[n]? = some call → call.KeepsScope (Call.run (calls.take n))

variable {calls : List Call}

section

theorem Scoped.of_concat (h : Scoped (calls ++ [call])) : Scoped calls ∧ call.KeepsScope (Call.run calls) := by
  constructor
  · intro n c hc
    have hlt : n < calls.length := (List.getElem?_eq_some_iff.mp hc).1
    have hkeep := h n c (by rw [getElem?_append_left hlt, hc])
    rwa [take_append_of_le_length hlt.le] at hkeep
  · have hkeep := h calls.length call (by simp)
    rwa [take_left] at hkeep

theorem requestInv_run (hscoped : Scoped calls) : RequestInv (Call.run calls) := by
  induction calls using List.reverseRecOn with
  | nil => exact .empty
  | append_singleton calls call ih =>
    obtain ⟨hscoped, hkeep⟩ := hscoped.of_concat
    rw [Call.run_concat]
    exact (ih hscoped).effect hkeep

theorem limitInv_run {capacity : Int}
    (hlimited : ∀ call ∈ calls, call.LimitedBy capacity perPrincipalLimit) (hscoped : Scoped calls) :
    LimitInv capacity perPrincipalLimit (Call.run calls) := by
  induction calls using List.reverseRecOn with
  | nil => exact .empty
  | append_singleton calls call ih =>
    obtain ⟨hscoped, hkeep⟩ := hscoped.of_concat
    rw [Call.run_concat]
    have hinv := ih (fun c hc => hlimited c (mem_append_left _ hc)) hscoped
    exact hinv.effect (hlimited call (by simp)) hkeep

/-- **Admission limits and coalescing.** After any calls under fixed limits, the active
jobs are within the capacity, those of a principal within the limit for it, and no two
jobs that are queued, running or completed do the same work for one principal. An
`enqueue` that raises changes nothing; and one that replays a key, or shares a row, answers
with that row whatever the limits and however full the queue. -/
theorem admission_limits (capacity perPrincipalLimit : Int) (calls : List Call)
    (hlimited : ∀ call ∈ calls, call.LimitedBy capacity perPrincipalLimit)
    (hscoped : Scoped calls) :
    ((Call.run calls).active.length : Int) ≤ max capacity 0 ∧
    (∀ principal, (((Call.run calls).activeOf principal).length : Int) ≤ max perPrincipalLimit 0) ∧
    (∀ job ∈ (Call.run calls).jobs.rows, ∀ other ∈ (Call.run calls).jobs.rows,
      job.principalScope = other.principalScope →
      job.coalesceFingerprint = other.coalesceFingerprint →
      job.status ∈ [Status.queued, .running, .completed] →
      other.status ∈ [Status.queued, .running, .completed] → job = other) ∧
    (∀ (a : Admission) (e : QueueError), a.answer (Call.run calls) = .error e →
      (Call.submit a).effect (Call.run calls) = Call.run calls) ∧
    (∀ (a : Admission), ∀ row ∈ (Call.run calls).jobs.rows,
      row.principalScope = a.job.principalScope → a.job.idempotencyKey ≠ none →
      row.idempotencyKey = a.job.idempotencyKey →
      row.requestFingerprint = a.job.requestFingerprint →
      a.answer (Call.run calls) = .ok ((row, false), Call.run calls)) ∧
    (∀ (a : Admission), ∀ row ∈ (Call.run calls).jobs.rows, row.principalScope = a.job.principalScope →
      row.coalesceFingerprint = a.job.coalesceFingerprint →
      row.status ∈ [Status.queued, .running, .completed] →
      (∀ other ∈ (Call.run calls).jobs.rows, other.principalScope = a.job.principalScope →
        a.job.idempotencyKey ≠ none → other.idempotencyKey ≠ a.job.idempotencyKey) →
      a.answer (Call.run calls) = .ok ((row, false), Call.run calls)) := by
  have hlimits := limitInv_run hlimited hscoped
  have hinv := requestInv_run hscoped
  have hreusable : ∀ status : Status, status ∈ [Status.queued, .running, .completed] → status.reusable = true := by
    intro status hstatus
    cases status <;> revert hstatus <;> decide
  refine ⟨hlimits.active_le, hlimits.activeOf_le, ?_, ?_, ?_, ?_⟩
  · intro job hjob other hother hscope hwork hr hr'
    exact hinv.work_unique job hjob other hother ⟨hscope, hwork⟩ (hreusable _ hr) (hreusable _ hr')
  · intro a e herror
    rw [Call.effect, herror, settle]
  · intro a row hrow hscope hkey hsame hrequest
    rw [enqueue_eq_ok]
    have hkeyed := hinv.replay (a := a) hrow ⟨hscope, hsame⟩ (Option.isSome_iff_ne_none.mpr hkey)
    exact .inl ⟨hkeyed, hrequest, rfl, rfl⟩
  · intro a row hrow hscope hwork hr hfree
    rw [enqueue_eq_ok]
    have hunkeyed : keyedJob (Call.run calls) a.job = none := by
      rw [keyedJob_eq_none]
      by_cases hkey : a.job.idempotencyKey = none
      · exact .inl hkey
      · exact .inr fun other hother hsame => hfree other hother hsame.1 hkey hsame.2
    exact .inr (.inl ⟨hunkeyed, hinv.share hrow ⟨hscope, hwork⟩ (hreusable _ hr), rfl, rfl⟩)

/-- A token of the sample runs. -/
def sampleToken : LeaseToken := ⟨"token", by simp⟩

/-- A keyed request that is admitted, claimed and completed, and a second one that finds the
queue free again. -/
def sampleCalls : List Call :=
  [.act "a" sampleToken (.enqueue ⟨3, by decide⟩ ⟨"principal", some "key", "request", "work"⟩ 1 1 true 0),
    .act "" sampleToken (.claim 0 120),
    .act "" sampleToken (.complete "a" 1 sampleToken
      ⟨"a", rfl, none, none, none, none, "principal", 0, "", none, none⟩ 1 1),
    .act "b" sampleToken (.enqueue ⟨3, by decide⟩ ⟨"principal", none, "other", "other"⟩ 1 1 true 2)]

theorem sampleCalls_limited : ∀ call ∈ sampleCalls, call.LimitedBy 1 1 := by
  intro call hcall a ha
  simp only [sampleCalls, mem_cons, not_mem_nil, or_false] at hcall
  rcases hcall with rfl | rfl | rfl | rfl
  · cases ha
    exact ⟨le_rfl, le_rfl⟩
  · cases ha
  · cases ha
  · cases ha
    exact ⟨le_rfl, le_rfl⟩

theorem sampleCalls_scoped : Scoped sampleCalls := by
  intro n call hcall
  match n, hcall with
  | 0, rfl => trivial
  | 1, rfl => trivial
  | 2, rfl =>
    intro job hjob _
    have hscope : ((Call.run (sampleCalls.take 2)).jobs.get? "a").map Job.principalScope =
        some "principal" := by decide +kernel
    rw [hjob] at hscope
    exact (Option.some.inj hscope).symm
  | 3, rfl => trivial

theorem admission_limits_sample : (∀ call ∈ sampleCalls, call.LimitedBy 1 1) ∧ Scoped sampleCalls ∧
      ((Call.run sampleCalls).active.length : Int) ≤ max 1 0 :=
  ⟨sampleCalls_limited, sampleCalls_scoped,
    (admission_limits 1 1 sampleCalls sampleCalls_limited sampleCalls_scoped).1⟩

/-! ## Idempotency keys

A key is stored on the row a call creates, and nowhere else: a keyed request that is
answered with a shared row leaves no trace of its key. -/

/-- The call is `retain_terminal`. -/
def Call.Retains : Call → Prop
  | .act _ _ (.retainTerminal _ _ _ _) => True
  | _ => False

end

/-- A call of a run without retention, whose new rows have new ids (`uuid4`). -/
structure Call.Legal (s : Store) (call : Call) : Prop where
  scope : call.KeepsScope s
  fresh : ∀ a, call.admission = some a → s.jobs.get? a.job.id = none
  kept : ¬call.Retains

variable {n : Nat}

/-- A row is continued by every such call. -/
theorem Call.Legal.persists (h : call.Legal s) (hjob : s.jobs.get? k = some job) :
    ∃ job', (call.effect s).jobs.get? k = some job' ∧ job.Continues job' := by
  cases hadm : call.admission with
  | some a =>
    rw [Call.effect_of_admission hadm]
    rcases settle_answer a s with hsame | ⟨-, hsave⟩
    · rw [hsame]
      exact ⟨job, hjob, .refl job⟩
    have hne : k ≠ a.job.id := by
      rintro rfl
      cases hjob.symm.trans (h.fresh a hadm)
    rw [hsave, Store.get?_save, if_neg hne]
    exact ⟨job, hjob, .refl job⟩
  | none =>
    cases call with
    | submit a => cases hadm
    | act id token op =>
      have hstep : JobStep id token op k _ _ := effect_job s k op
      cases hafter : (op.effect id token s).jobs.get? k with
      | none =>
        rw [hafter, hjob] at hstep
        cases hstep with
        | removed => exact absurd trivial h.kept
      | some job' =>
        rw [hafter] at hstep
        obtain ⟨job₀, hjob₀, hcont⟩ := hstep.continues rfl h.scope hadm
        cases hjob.symm.trans hjob₀
        exact ⟨job', hafter, hcont⟩

/-- A run of such calls. -/
def Legal (calls : List Call) : Prop :=
  ∀ (n : Nat) (call : Call), calls[n]? = some call → call.Legal (Call.run (calls.take n))

theorem Legal.scoped (h : Legal calls) : Scoped calls :=
  fun n call hcall => (h n call hcall).scope

theorem Scoped.take (h : Scoped calls) (n : Nat) : Scoped (calls.take n) := by
  intro m call hcall
  rw [getElem?_take] at hcall
  split at hcall
  case isFalse => cases hcall
  case isTrue hlt =>
    rw [take_take, Nat.min_eq_left hlt.le]
    exact h m call hcall

theorem Call.run_take_succ (h : calls[n]? = some call) :
    Call.run (calls.take (n + 1)) = call.effect (Call.run (calls.take n)) := by
  rw [take_add_one, h, Option.toList_some, Call.run_concat]

/-- A row is continued through the rest of the run. -/
theorem Legal.persists (h : Legal calls) {m : Nat} (hnm : n ≤ m)
    (hjob : (Call.run (calls.take n)).jobs.get? k = some job) :
    ∃ job', (Call.run (calls.take m)).jobs.get? k = some job' ∧ job.Continues job' := by
  induction m, hnm using Nat.le_induction with
  | base => exact ⟨job, hjob, .refl job⟩
  | succ m _ ih =>
    obtain ⟨mid, hmid, hcont⟩ := ih
    cases hcall : calls[m]? with
    | none =>
      rw [take_add_one, hcall, Option.toList_none, append_nil]
      exact ⟨mid, hmid, hcont⟩
    | some call =>
      rw [Call.run_take_succ hcall]
      obtain ⟨job', hjob', hcont'⟩ := (h m call hcall).persists hmid
      exact ⟨job', hjob', hcont.trans hcont'⟩

/-- The row an admission answers with is stored when the call returns. -/
theorem answer_stored {created : Bool} (h : a.answer s = .ok ((row, created), s')) : row ∈ s'.jobs.rows := by
  rcases enqueue_eq_ok.mp h with ⟨hkeyed, -, -, rfl⟩ | ⟨-, hshared, -, rfl⟩ | ⟨-, rfl, -, rfl⟩
  · exact (keyedJob_some hkeyed).1
  · exact (reusableJob_some hshared).1
  · exact mem_of_get? (by rw [Store.get?_save, if_pos rfl])

/-- The `n`-th call of the run is this admission, and it answers with `row`. -/
def Answered (calls : List Call) (n : Nat) (a : Admission) (row : Job) : Prop :=
  ∃ call created s', calls[n]? = some call ∧ call.admission = some a ∧
    a.answer (Call.run (calls.take n)) = .ok ((row, created), s')

/-- The row of an answer, as the run has it at any later call. -/
theorem Answered.later (hlegal : Legal calls) {m : Nat} (hnm : n < m) (h : Answered calls n a row) :
    ∃ row', (Call.run (calls.take m)).jobs.get? row.id = some row' ∧ row.Continues row' := by
  obtain ⟨call, created, s', hcall, hadm, hanswer⟩ := h
  have hafter : Call.run (calls.take (n + 1)) = s' := by
    rw [Call.run_take_succ hcall, Call.effect_of_admission hadm, hanswer, settle]
  refine hlegal.persists (n := n + 1) hnm ?_
  rw [hafter]
  exact get?_of_mem (answer_stored hanswer)

/-- Runs made of admissions with new ids are legal. -/
theorem legal_of_admissions (h : ∀ (n : Nat) (call : Call), calls[n]? = some call → ∃ a, call.admission = some a ∧
      (Call.run (calls.take n)).jobs.get? a.job.id = none) : Legal calls := by
  intro n call hcall
  obtain ⟨a, hadm, hfresh⟩ := h n call hcall
  refine ⟨?_, fun b hb => ?_, fun hretains => ?_⟩
  · cases call with
    | submit => trivial
    | act id token op =>
      cases op with
      | complete => cases hadm
      | _ => trivial
  · cases hadm.symm.trans hb
    exact hfresh
  · cases call with
    | submit => exact hretains
    | act id token op =>
      cases op with
      | retainTerminal => cases hadm
      | _ => exact hretains

/-- An answer, from the columns of its row. -/
theorem answered_of_columns {id : String} {key : Option String} (hcall : calls[n]? = some call)
    (hadm : call.admission = some a)
    (h : (a.answer (Call.run (calls.take n))).toOption.map
      (fun r => (r.1.1.id, r.1.1.idempotencyKey)) = some (id, key)) :
    ∃ row, Answered calls n a row ∧ row.id = id ∧ row.idempotencyKey = key := by
  cases hanswer : a.answer (Call.run (calls.take n)) with
  | error =>
    rw [hanswer] at h
    cases h
  | ok r =>
    rw [hanswer] at h
    obtain ⟨⟨row, created⟩, s'⟩ := r
    cases h
    exact ⟨row, ⟨call, created, s', hcall, hadm, hanswer⟩, rfl, rfl⟩

/-- `enqueue` of a request of one principal. -/
def sampleEnqueue (id : String) (key : Option String) (request work : String) : Admission :=
  ⟨buildAsyncJob ⟨3, by decide⟩ ⟨"principal", key, request, work⟩ id 0, 10, 10, true⟩

/-- A request without a key, the same work under a key, and other work under that key. -/
def reusedKeyCalls : List Call :=
  [.submit (sampleEnqueue "a" none "request" "work"),
    .submit (sampleEnqueue "b" (some "key") "request" "work"),
    .submit (sampleEnqueue "c" (some "key") "other request" "other work")]

theorem reusedKeyCalls_legal : Legal reusedKeyCalls := by
  refine legal_of_admissions fun n call hcall => ?_
  match n, hcall with
  | 0, rfl => exact ⟨_, rfl, rfl⟩
  | 1, rfl => exact ⟨_, rfl, Option.isNone_iff_eq_none.mp (by decide +kernel)⟩
  | 2, rfl => exact ⟨_, rfl, Option.isNone_iff_eq_none.mp (by decide +kernel)⟩

theorem reusedKeyCalls_shared : ∃ row,
    Answered reusedKeyCalls 1 (sampleEnqueue "b" (some "key") "request" "work") row ∧
      row.id = "a" ∧ row.idempotencyKey = none :=
  answered_of_columns rfl rfl (by decide +kernel)

theorem reusedKeyCalls_created : ∃ row,
    Answered reusedKeyCalls 2 (sampleEnqueue "c" (some "key") "other request" "other work") row ∧
      row.id = "c" ∧ row.idempotencyKey = some "key" :=
  answered_of_columns rfl rfl (by decide +kernel)

end C2Hunter
