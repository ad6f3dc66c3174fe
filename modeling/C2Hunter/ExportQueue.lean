import C2Hunter.Outcome
import C2Hunter.Table
import Mathlib.Algebra.Order.Ring.Int
import Mathlib.Data.List.Induction

/-!
# The PCAP export queue

`RepositoryQueueStore` of `pcap_export_store.py`, `build_async_job` of
`pcap_export_service.py`, and the three functions of the repository that touch
the stored exports next to the queue. Every public function runs under the
repository lock, so it is one atomic step of the store; a function that raises
works on copies and leaves the store as it was.

* `Job`, `StoredExport`, `Store` — the rows of `pcap_export_jobs` and `exports`
  with the fields these functions read or write.
* `claim`, `heartbeat`, …, `retainTerminal` — one definition a function, under the
  source's names, each from a store to an answer and a store, or an exception.
* `Op`, `World.exec`, `World.run` — clients and workers in any order: each
  operation of a run carries its own arguments and clock readings, and draws the
  run's next unused uuid and lease token.

Instants are microseconds from the epoch (all times of the queue are UTC, where the
order of ISO texts is the order of the instants). A value that a caller passes in a
progress document is known to the queue only through `int(value)` and `str(value)`.
-/

namespace C2Hunter

/-! ## Data -/

/-- An instant, in microseconds from the epoch. -/
abbrev Time : Type := Int

/-- The state of a job. `ACTIVE_EXPORT_STATES` are the first two. -/
inductive Status where
  | queued
  | running
  | completed
  | failed
  | cancelled
  deriving DecidableEq, Repr

namespace Status

/-- Membership in `ACTIVE_EXPORT_STATES`. -/
def active : Status → Bool
  | queued | running => true
  | completed | failed | cancelled => false

/-- Membership in `TERMINAL_EXPORT_STATES`. -/
def terminal : Status → Bool
  | queued | running => false
  | completed | failed | cancelled => true

end Status

/-- A token of `secrets.token_urlsafe`: text on which `compare_digest` is defined. -/
structure LeaseToken where
  /-- the text of the token -/
  text : String
  /-- `compare_digest` accepts ASCII text only -/
  ascii : ∀ c ∈ text.toList, c.toNat < 128
  deriving DecidableEq

/-- `_PROGRESS_COUNTERS`. -/
inductive Counter where
  | percent
  | scannedSourceBytes
  | scannedPacketCount
  | matchedPacketCount
  | exportedPacketCount
  deriving DecidableEq, Repr

/-- The progress key that names a counter. -/
def Counter.ofKey? : String → Option Counter
  | "percent" => some .percent
  | "scanned_source_bytes" => some .scannedSourceBytes
  | "scanned_packet_count" => some .scannedPacketCount
  | "matched_packet_count" => some .matchedPacketCount
  | "exported_packet_count" => some .exportedPacketCount
  | _ => none

/-- The `progress` document of a job. -/
structure Progress where
  /-- the phase shown to clients -/
  phase : String
  /-- the counters -/
  counters : Counter → Int

/-- Assign one counter. -/
def Progress.set (p : Progress) (c : Counter) (v : Int) : Progress :=
  { p with counters := fun c' => if c' = c then v else p.counters c' }

/-- A value of a caller's progress document, through the two conversions the queue
applies to it. -/
structure Raw where
  /-- `int(value)`, or `none` where it raises -/
  asInt : Option Int
  /-- `str(value)` -/
  asText : String

/-- A row of `pcap_export_jobs`. -/
structure Job where
  id : String
  principalScope : String
  idempotencyKey : Option String
  requestFingerprint : String
  coalesceFingerprint : String
  status : Status
  progress : Progress
  cancellationRequested : Bool
  cancellationRequestedAt : Option Time
  cancellationReason : Option String
  attempt : Int
  maxAttempts : Int
  leaseToken : Option LeaseToken
  leaseExpiresAt : Option Time
  queuedAt : Time
  updatedAt : Time
  startedAt : Option Time
  completedAt : Option Time
  nextAttemptAt : Option Time
  errorCode : Option String
  error : Option String
  /-- the artifact keys `complete` merges into the row -/
  objectKey : Option String
  published : Option Bool
  sizeBytes : Option Int
  sha256 : Option String

/-- A row of `exports`, with its content. -/
structure StoredExport where
  id : String
  attempt : Option Int
  leaseToken : Option LeaseToken
  objectKey : Option String
  published : Option Bool
  createdAt : Time
  sha256 : String
  content : List UInt8

/-- What the functions of this module read and write of the repository. -/
structure Store where
  /-- `pcap_export_jobs` -/
  jobs : Table Job.id
  /-- `exports`, with `export_content` -/
  exports : Table StoredExport.id

/-- The repository before the first request. -/
def Store.empty : Store := ⟨Table.empty, Table.empty⟩

/-- The exceptions of these functions. -/
inductive QueueError where
  | idempotencyConflict
  | queueFull
  | principalLimit
  | sourceChanged
  | unknownJob
  | badProgressValue
  | timeOverflow
  | emptyPop
  | artifactExists
  deriving DecidableEq, Repr

/-- `_save_locked`. -/
def Store.save (s : Store) (job : Job) : Store := { s with jobs := s.jobs.put job }

/-- `datetime + timedelta(seconds=…)`, which raises outside years 1 to 9999. -/
def addSeconds (t : Time) (seconds : Int) : Except QueueError Time :=
  let sum := t + seconds * 1000000
  if sum < -62135596800000000 ∨ sum > 253402300799999999 then .error .timeOverflow else .ok sum

/-! ## Admission -/

/-- The setting `pcap_export_max_attempts`, declared with `ge=1`. -/
structure ExportSettings where
  maxAttempts : Int
  one_le : 1 ≤ maxAttempts

/-- What `build_async_job` takes from the request and its source snapshot. -/
structure ExportRequest where
  principalScope : String
  idempotencyKey : Option String
  requestFingerprint : String
  coalesceFingerprint : String

/-- `build_async_job`; `exportId` is the `uuid4` it draws. -/
def buildAsyncJob (settings : ExportSettings) (request : ExportRequest) (exportId : String)
    (now : Time) : Job where
  id := exportId
  principalScope := request.principalScope
  idempotencyKey := request.idempotencyKey
  requestFingerprint := request.requestFingerprint
  coalesceFingerprint := request.coalesceFingerprint
  status := .queued
  progress := { phase := "QUEUED", counters := fun _ => 0 }
  cancellationRequested := false
  cancellationRequestedAt := none
  cancellationReason := none
  attempt := 0
  maxAttempts := settings.maxAttempts
  leaseToken := none
  leaseExpiresAt := none
  queuedAt := now
  updatedAt := now
  startedAt := none
  completedAt := none
  nextAttemptAt := some now
  errorCode := none
  error := none
  objectKey := none
  published := none
  sizeBytes := none
  sha256 := none

/-- The row that replays an idempotency key, if the request carries one. -/
def keyedJob (s : Store) (job : Job) : Option Job :=
  job.idempotencyKey.bind fun key =>
    s.jobs.rows.find? fun item =>
      item.principalScope = job.principalScope ∧ item.idempotencyKey = some key

/-- The row an equal request can share. -/
def reusableJob (s : Store) (job : Job) : Option Job :=
  s.jobs.rows.find? fun item =>
    item.principalScope = job.principalScope ∧ item.coalesceFingerprint = job.coalesceFingerprint ∧
      (item.status = .queued ∨ item.status = .running ∨ item.status = .completed)

/-- `enqueue`. `sourceValid` is the answer of the repository's
`validate_pcap_export_admission`. -/
def enqueue (s : Store) (job : Job) (capacity perPrincipalLimit : Int) (sourceValid : Bool) :
    Except QueueError ((Job × Bool) × Store) :=
  match keyedJob s job with
  | some keyed =>
    if keyed.requestFingerprint ≠ job.requestFingerprint then .error .idempotencyConflict
    else .ok ((keyed, false), s)
  | none =>
    match reusableJob s job with
    | some reusable => .ok ((reusable, false), s)
    | none =>
      let active := s.jobs.rows.filter fun item => item.status.active
      let principalActive := active.filter fun item => item.principalScope = job.principalScope
      if (active.length : Int) ≥ capacity then .error .queueFull
      else if (principalActive.length : Int) ≥ perPrincipalLimit then .error .principalLimit
      else if ¬sourceValid then .error .sourceChanged
      else .ok ((job, true), s.save job)

/-! ## Leases -/

/-- The order in which `claim` tries jobs: `(queued_at, id)`. -/
def claimOrder (a b : Job) : Bool :=
  a.queuedAt < b.queuedAt ∨ a.queuedAt = b.queuedAt ∧ a.id ≤ b.id

/-- A job `claim` may take at `now`. -/
def claimable (now : Time) (job : Job) : Bool :=
  job.status = .queued ∧ ∀ t ∈ job.nextAttemptAt, t ≤ now

/-- The row `claim` writes for the job it takes. -/
def Job.claimed (job : Job) (token : LeaseToken) (expires now : Time) : Job :=
  { job with
    status := .running
    attempt := job.attempt + 1
    leaseToken := some token
    leaseExpiresAt := some expires
    startedAt := some (job.startedAt.getD now)
    updatedAt := now
    progress := { job.progress with phase := "SNAPSHOT_VALIDATION" } }

/-- `claim`; `token` is the `secrets.token_urlsafe(32)` it draws. -/
def claim (s : Store) (token : LeaseToken) (now : Time) (leaseSeconds : Int) :
    Except QueueError (Option Job × Store) :=
  match (s.jobs.rows.mergeSort claimOrder).find? (claimable now) with
  | none => .ok (none, s)
  | some job => do
    let expires ← addSeconds now leaseSeconds
    let job := job.claimed token expires now
    return (some job, s.save job)

/-- `str(job.get("lease_token", ""))`. -/
def leaseText : Option LeaseToken → String
  | some token => token.text
  | none => "None"

/-- `_owns`. -/
def Job.owns (job : Job) (attempt : Int) (token : LeaseToken) : Bool :=
  job.status = .running ∧ job.attempt = attempt ∧ leaseText job.leaseToken = token.text

/-- `job["updated_at"] = …`. -/
def Job.stamp (job : Job) (savedAt : Time) : Job := { job with updatedAt := savedAt }

/-- `_guarded_update`. `mutate` answers `none` where the source's returns `False`;
otherwise the changed row, the store with its side effects, and an extra answer. -/
def guardedUpdate {α : Type} (s : Store) (exportId : String) (attempt : Int) (token : LeaseToken)
    (savedAt : Time) (mutate : Store → Job → Except QueueError (Option (α × Job × Store))) :
    Except QueueError (Option α × Store) :=
  match s.jobs.get? exportId with
  | none => .ok (none, s)
  | some job =>
    if ¬job.owns attempt token then .ok (none, s)
    else do
      match ← mutate s job with
      | none => return (none, s)
      | some (a, job, s) => return (some a, s.save (job.stamp savedAt))

/-- `heartbeat`. -/
def heartbeat (s : Store) (exportId : String) (attempt : Int) (token : LeaseToken)
    (leaseSeconds : Int) (now savedAt : Time) : Except QueueError (Bool × Store) := do
  let (done, s) ← guardedUpdate s exportId attempt token savedAt fun s job => do
    let expires ← addSeconds now leaseSeconds
    return some ((), { job with leaseExpiresAt := some expires }, s)
  return (done.isSome, s)

/-- One assignment of the loop over a progress document. -/
def progressItem (current : Progress) (item : String × Raw) : Except QueueError Progress :=
  match Counter.ofKey? item.1 with
  | some counter =>
    match item.2.asInt with
    | none => .error .badProgressValue
    | some value =>
      let value := if counter = .percent then min 99 value else value
      .ok (current.set counter (max (current.counters counter) value))
  | none => if item.1 = "phase" then .ok { current with phase := item.2.asText } else .ok current

/-- `progress`. -/
def progress (s : Store) (exportId : String) (attempt : Int) (token : LeaseToken)
    (items : List (String × Raw)) (savedAt : Time) : Except QueueError (Bool × Store) := do
  let (done, s) ← guardedUpdate s exportId attempt token savedAt fun s job => do
    let current ← items.foldlM progressItem job.progress
    return some ((), { job with progress := current }, s)
  return (done.isSome, s)

/-! ## Completion -/

/-- What `PcapExportExecutor.execute` returns for the export it was called for. The
keys the queue does not use are left out; `published` is `False` whenever the job
was leased. -/
structure Artifact (exportId : String) : Type where
  id : String
  id_eq : id = exportId
  status : Option Status
  published : Option Bool
  objectKey : Option String
  attempt : Option Int
  principalScope : String
  sizeBytes : Int
  sha256 : String
  errorCode : Option String
  error : Option String

/-- The cancelled row of `complete`, `retry_or_fail` and `recover_expired`. -/
def Job.cancelledAt (job : Job) (now : Time) : Job :=
  { job with
    status := .cancelled
    completedAt := some now
    errorCode := some "PCAP_EXPORT_CANCELLED"
    error := some "PCAP export was cancelled" }

/-- `lease_token=None, lease_expires_at=None`. -/
def Job.released (job : Job) : Job := { job with leaseToken := none, leaseExpiresAt := none }

/-- `job.update(artifact)`. -/
def Job.merge {exportId : String} (job : Job) (artifact : Artifact exportId)
    (published : Option Bool) : Job :=
  { job with
    id := artifact.id
    principalScope := artifact.principalScope
    attempt := artifact.attempt.getD job.attempt
    objectKey := artifact.objectKey
    published := published
    sizeBytes := some artifact.sizeBytes
    sha256 := some artifact.sha256
    errorCode := artifact.errorCode
    error := artifact.error }

/-- The publication step of `complete`: the stored export must be the one written
under this very lease. `none` where it is not. -/
def publish {exportId : String} (s : Store) (attempt : Int) (token : LeaseToken)
    (artifact : Artifact exportId) : Option Store :=
  match s.exports.get? exportId with
  | none => none
  | some stored =>
    if stored.attempt ≠ some attempt ∨ stored.leaseToken ≠ some token ∨
        stored.objectKey ≠ artifact.objectKey then none
    else some { s with exports := s.exports.put { stored with published := some true } }

/-- The terminal row of `complete`. -/
def Job.finished {exportId : String} (job : Job) (artifact : Artifact exportId)
    (status : Status) (published : Option Bool) (now : Time) : Job :=
  let job := (job.merge artifact published).released
  let percent := if status = .completed then 100 else min 99 (job.progress.counters .percent)
  { job with
    status := status
    completedAt := some now
    errorCode := if status = .completed then none else job.errorCode
    error := if status = .completed then none else job.error
    progress := { job.progress with phase := "TERMINAL" }.set .percent percent }

/-- The `mutate` of `complete`; its extra answer is `artifact_accepted`. -/
def completeMutate {exportId : String} (attempt : Int) (token : LeaseToken)
    (artifact : Artifact exportId) (now : Time) (s : Store) (job : Job) :
    Option (Bool × Job × Store) :=
  if job.cancellationRequested then some (false, (job.cancelledAt now).released, s)
  else
    let status : Status := artifact.status.getD .completed
    if ¬(status = .completed ∨ status = .failed) then none
    else if status = .completed ∧ artifact.published = some false then
      match publish s attempt token artifact with
      | none => none
      | some s => some (true, job.finished artifact status (some true) now, s)
    else some (true, job.finished artifact status artifact.published now, s)

/-- `complete`. -/
def complete (s : Store) (exportId : String) (attempt : Int) (token : LeaseToken)
    (artifact : Artifact exportId) (now savedAt : Time) : Except QueueError (Bool × Store) := do
  let (done, s) ← guardedUpdate s exportId attempt token savedAt fun s job =>
    return completeMutate attempt token artifact now s job
  return (done.getD false, s)

/-! ## Retry, cancellation, recovery -/

/-- The row of a job that waits for another attempt. -/
def Job.requeuedAt (job : Job) (next : Time) : Job :=
  { job with status := .queued, nextAttemptAt := some next }

/-- The row of a job that has failed. -/
def Job.failedAt (job : Job) (errorCode error : String) (now : Time) : Job :=
  { job with
    status := .failed
    errorCode := some errorCode
    error := some error
    completedAt := some now }

/-- `retry_or_fail`. -/
def retryOrFail (s : Store) (exportId : String) (attempt : Int) (token : LeaseToken)
    (transient : Bool) (errorCode error : String) (retryBaseSeconds : Int) (now savedAt : Time) :
    Except QueueError (Bool × Store) := do
  let (done, s) ← guardedUpdate s exportId attempt token savedAt fun s job =>
    if job.cancellationRequested then
      return some ((), (job.cancelledAt now).released, s)
    else if transient ∧ attempt < job.maxAttempts then do
      let next ← addSeconds now (retryBaseSeconds * 2 ^ (attempt - 1).toNat)
      return some ((), (job.requeuedAt next).released, s)
    else
      let code := if transient then "PCAP_EXPORT_RETRY_EXHAUSTED" else errorCode
      return some ((), (job.failedAt code error now).released, s)
  return (done.isSome, s)

/-- `cancellation_requested=True` with its stamp and reason. -/
def Job.requestCancellation (job : Job) (reason : Option String) (now : Time) : Job :=
  { job with
    cancellationRequested := true
    cancellationRequestedAt := some now
    cancellationReason := reason }

/-- `cancel`. -/
def cancel (s : Store) (exportId : String) (reason : Option String) (now later : Time) :
    Except QueueError (Job × Store) :=
  match s.jobs.get? exportId with
  | none => .error .unknownJob
  | some job =>
    match job.status with
    | .completed | .failed => .ok (job, s)
    | .queued =>
      let job := (job.requestCancellation reason now).cancelledAt later
      .ok (job, s.save job)
    | .running =>
      let job := job.requestCancellation reason now
      .ok (job, s.save job)
    | .cancelled => .ok (job, s.save job)

/-- The row `recover_expired` writes for a job, or `none` where it skips the job. -/
def Job.recovered (now : Time) (job : Job) : Option Job :=
  if job.status ≠ .running then none
  else
    match job.leaseExpiresAt with
    | none => none
    | some expiry =>
      if expiry > now then none
      else
        let next :=
          if job.cancellationRequested then job.cancelledAt now
          else if job.attempt ≥ job.maxAttempts then
            job.failedAt "PCAP_EXPORT_RETRY_EXHAUSTED"
              "PCAP export retry attempts were exhausted" now
          else job.requeuedAt now
        some (next.released.stamp now)

/-- `recover_expired`: the loop over a snapshot of the rows. -/
def recoverExpired (s : Store) (now : Time) : Nat × Store :=
  ((s.jobs.rows.filter fun job => (job.recovered now).isSome).length,
    { s with jobs := s.jobs.writeBack (Job.recovered now) })

/-! ## Retention and stored exports -/

/-- The order of `retain_terminal`: oldest completion first, then by id. -/
def retainOrder (a b : Job) : Bool :=
  a.completedAt.getD a.updatedAt < b.completedAt.getD b.updatedAt ∨
    a.completedAt.getD a.updatedAt = b.completedAt.getD b.updatedAt ∧ a.id ≤ b.id

/-- `int(job.get("size_bytes", 0) or 0)`. -/
def Job.artifactBytes (job : Job) : Int := job.sizeBytes.getD 0

/-- The loop that drops the oldest survivors while their artifacts exceed the byte
bound. Returns those it drops. -/
def overBytes (maxArtifactBytes : Int) : (survivors : List Job) → (retainedBytes : Int) → List Job
  | [], _ => []
  | job :: survivors, retainedBytes =>
    if retainedBytes > maxArtifactBytes then
      job :: overBytes maxArtifactBytes survivors (retainedBytes - job.artifactBytes)
    else []

/-- `retain_terminal`; the answer is the list of removed ids. -/
def retainTerminal (s : Store) (now : Time) (maxAgeSeconds maxCount maxArtifactBytes : Int) :
    Except QueueError (List String × Store) := do
  let terminal := (s.jobs.rows.filter fun job => job.status.terminal).mergeSort retainOrder
  let cutoff ← addSeconds now (-maxAgeSeconds)
  let aged := terminal.filter fun job => job.completedAt.getD job.updatedAt < cutoff
  let survivors := terminal.filter fun job => ¬job.completedAt.getD job.updatedAt < cutoff
  -- `while len(survivors) > max_count: survivors.pop(0)` pops an empty list
  if maxCount < 0 then .error .emptyPop
  else
    let counted := survivors.take (survivors.length - maxCount.toNat)
    let survivors := survivors.drop (survivors.length - maxCount.toNat)
    let retainedBytes := (survivors.map Job.artifactBytes).sum
    let dropped := overBytes maxArtifactBytes survivors retainedBytes
    let selected := (aged ++ counted ++ dropped).map Job.id
    let ordered := (terminal.filter fun job => job.id ∈ selected).map Job.id
    return (ordered,
      { jobs := ordered.foldl Table.erase s.jobs, exports := ordered.foldl Table.erase s.exports })

/-- `save_export_stream` as `execute` calls it for a leased job: the metadata carry
the lease and `published = False`. `jobExists` says whether the analysis job is
still there; the answer is whether the export was stored. -/
def saveExport (s : Store) (exportId : String) (attempt : Int) (token : LeaseToken)
    (objectKey : Option String) (createdAt : Time) (sha256 : String) (content : List UInt8)
    (jobExists : Bool) : Except QueueError (Bool × Store) :=
  if ¬jobExists then .ok (false, s)
  else
    match s.exports.get? exportId with
    | some _ => .error .artifactExists
    | none =>
      let stored : StoredExport :=
        { id := exportId, attempt := some attempt, leaseToken := some token, objectKey := objectKey,
          published := some false, createdAt := createdAt, sha256 := sha256, content := content }
      .ok (true, { s with exports := s.exports.put stored })

/-- `compensate_pcap_export_artifact`: drop the export of an attempt that did not
win, unless the job was completed with this very artifact. -/
def compensate {exportId : String} (s : Store) (attempt : Int) (token : LeaseToken)
    (artifact : Artifact exportId) : Store :=
  let lifecycle := s.jobs.get? exportId
  let publishedWinner : Bool := lifecycle.any fun job =>
    job.status = .completed ∧ job.attempt = attempt ∧
      job.sha256 = some artifact.sha256 ∧ job.sizeBytes = some artifact.sizeBytes
  let sameObject : Bool := artifact.objectKey.any fun key =>
    key ≠ "" ∧ lifecycle.any fun job => job.objectKey = some key
  if publishedWinner ∨ sameObject then s
  else
    match s.exports.get? exportId with
    | none => s
    | some stored =>
      if stored.attempt = some attempt ∧ stored.leaseToken = some token ∧
          stored.objectKey = artifact.objectKey then
        { s with exports := s.exports.erase exportId }
      else s

/-- An export `cleanup_pcap_export_orphans` may drop: unpublished, old, and with an
object that no job refers to. -/
def orphan (s : Store) (cutoff : Time) (stored : StoredExport) : Bool :=
  stored.published = some false ∧
    (∃ key ∈ stored.objectKey, key ≠ "" ∧ ∀ job ∈ s.jobs.rows, job.objectKey ≠ some key) ∧
    stored.createdAt ≤ cutoff

/-- `cleanup_pcap_export_orphans`; a negative `limit` cuts from the end, as slices do. -/
def cleanupOrphans (s : Store) (now : Time) (maxAgeSeconds limit : Int) :
    Except QueueError (List String × Store) := do
  let cutoff ← addSeconds now (-maxAgeSeconds)
  let found := (s.exports.rows.filter (orphan s cutoff)).mergeSort fun a b =>
    a.createdAt < b.createdAt ∨ a.createdAt = b.createdAt ∧ a.id ≤ b.id
  let kept := if limit < 0 then found.length - (-limit).toNat else limit.toNat
  let candidates := found.take kept
  return (candidates.filterMap StoredExport.objectKey,
    { s with exports := (candidates.map StoredExport.id).foldl Table.erase s.exports })

/-! ## Runs -/

/-- One call of a client or a worker, with its arguments and clock readings. -/
inductive Op where
  | enqueue (settings : ExportSettings) (request : ExportRequest)
      (capacity perPrincipalLimit : Int) (sourceValid : Bool) (now : Time)
  | claim (now : Time) (leaseSeconds : Int)
  | heartbeat (exportId : String) (attempt : Int) (token : LeaseToken) (leaseSeconds : Int)
      (now savedAt : Time)
  | progress (exportId : String) (attempt : Int) (token : LeaseToken)
      (items : List (String × Raw)) (savedAt : Time)
  | complete (exportId : String) (attempt : Int) (token : LeaseToken)
      (artifact : Artifact exportId) (now savedAt : Time)
  | retryOrFail (exportId : String) (attempt : Int) (token : LeaseToken) (transient : Bool)
      (errorCode error : String) (retryBaseSeconds : Int) (now savedAt : Time)
  | cancel (exportId : String) (reason : Option String) (now later : Time)
  | recoverExpired (now : Time)
  | retainTerminal (now : Time) (maxAgeSeconds maxCount maxArtifactBytes : Int)
  | saveExport (exportId : String) (attempt : Int) (token : LeaseToken)
      (objectKey : Option String) (createdAt : Time) (sha256 : String) (content : List UInt8)
      (jobExists : Bool)
  | compensate (exportId : String) (attempt : Int) (token : LeaseToken)
      (artifact : Artifact exportId)
  | cleanupOrphans (now : Time) (maxAgeSeconds limit : Int)

/-- The store after a call: a call that raises changes nothing. -/
def settle {α : Type} (s : Store) : Except QueueError (α × Store) → Store
  | .ok (_, s') => s'
  | .error _ => s

/-- What holds of the old store and of the store of every answer holds after the call. -/
theorem settle_induction {α : Type} {s : Store} {x : Except QueueError (α × Store)}
    {P : Store → Prop} (hold : P s) (hanswer : ∀ r s', x = .ok (r, s') → P s') :
    P (settle s x) := by
  cases x with
  | error => exact hold
  | ok r => exact hanswer r.1 r.2 rfl

/-- The store after an operation that draws the uuid `id` or the token `token`. -/
def Op.effect (id : String) (token : LeaseToken) (s : Store) : Op → Store
  | .enqueue settings request capacity limit valid now =>
    settle s (C2Hunter.enqueue s (buildAsyncJob settings request id now) capacity limit valid)
  | .claim now seconds => settle s (C2Hunter.claim s token now seconds)
  | .heartbeat k a t seconds now savedAt => settle s (C2Hunter.heartbeat s k a t seconds now savedAt)
  | .progress k a t items savedAt => settle s (C2Hunter.progress s k a t items savedAt)
  | .complete k a t artifact now savedAt => settle s (C2Hunter.complete s k a t artifact now savedAt)
  | .retryOrFail k a t transient code error base now savedAt =>
    settle s (C2Hunter.retryOrFail s k a t transient code error base now savedAt)
  | .cancel k reason now later => settle s (C2Hunter.cancel s k reason now later)
  | .recoverExpired now => (C2Hunter.recoverExpired s now).2
  | .retainTerminal now age count bytes => settle s (C2Hunter.retainTerminal s now age count bytes)
  | .saveExport k a t key created sha content ok =>
    settle s (C2Hunter.saveExport s k a t key created sha content ok)
  | .compensate _ a t artifact => C2Hunter.compensate s a t artifact
  | .cleanupOrphans now age limit => settle s (C2Hunter.cleanupOrphans s now age limit)

/-- The names a run draws: `uuid4` and `secrets.token_urlsafe` never repeat. -/
structure Names where
  /-- the uuid an enqueue at this position of the run draws -/
  ids : Nat → String
  /-- the token a claim at this position of the run draws -/
  tokens : Nat → LeaseToken
  ids_inj : Function.Injective ids
  tokens_inj : Function.Injective tokens

/-- Names that grow by a letter at every operation. -/
def Names.unary : Names where
  ids n := String.ofList (List.replicate n 'a')
  tokens n := ⟨String.ofList (List.replicate n 'a'), by
    intro c hc
    rw [String.toList_ofList, List.mem_replicate] at hc
    rw [hc.2]
    decide⟩
  ids_inj n m h := by
    have hlen := congrArg (fun s => s.toList.length) h
    simpa using hlen
  tokens_inj n m h := by
    have hlen := congrArg (fun t => t.text.toList.length) h
    simpa using hlen

/-- The store, and how many operations have run. -/
structure World where
  store : Store
  drawn : Nat

/-- One operation. -/
def World.exec (names : Names) (w : World) (op : Op) : World where
  store := op.effect (names.ids w.drawn) (names.tokens w.drawn) w.store
  drawn := w.drawn + 1

/-- A run of the queue from the empty repository. -/
def World.run (names : Names) (ops : List Op) : World := ops.foldl (World.exec names) ⟨.empty, 0⟩

theorem World.run_append (names : Names) (ops later : List Op) :
    World.run names (ops ++ later) = later.foldl (World.exec names) (World.run names ops) :=
  List.foldl_append

end C2Hunter
