import C2Hunter.IndexBinding
import C2Hunter.LiveIndexQueue

/-!
# The queue of posting indexes

`pcap_posting_index_queue.py` over the in-memory repository. A source has at most one
intent (that its postings are wanted, and what became of it) and at most one task (the
lease queue entry that builds them); both name the structural parent the postings are
built over.

* `PostingStore` — the maps of the repository that the lifecycle reads and writes.
* `PostingQueue.request`, …, `PostingQueue.cleanupTerminal` — one definition a function.

The repository owns the clock: every function takes what `_posting_now` answers.
-/

namespace C2Hunter

/-- `PostingIndexTaskSpec`. -/
abbrev PostingIndexTaskSpec : Type := PostingIndexBinding

/-- `identity`: what makes two specifications the same request. -/
structure PostingIdentity where
  key : SourceKey
  sourceVersionId : String
  parentStructuralBuildId : String
  postingSchemaVersion : Int
  postingParserContractVersion : Int
  filterContractVersion : Int
  deriving DecidableEq

/-- `spec.identity`. -/
def PostingIndexBinding.identity (spec : PostingIndexTaskSpec) : PostingIdentity where
  key := spec.key
  sourceVersionId := spec.sourceVersionId
  parentStructuralBuildId := spec.parentStructuralBuildId
  postingSchemaVersion := spec.postingSchemaVersion
  postingParserContractVersion := spec.postingParserContractVersion
  filterContractVersion := spec.filterContractVersion

/-- `__post_init__` of `PostingIndexTaskSpec`. -/
def PostingIndexBinding.validSpec (spec : PostingIndexTaskSpec) : Bool :=
  spec.valid ∧ (spec.sourceKind = .liveSegment → spec.captureFormat = .pcap) ∧
  0 < spec.structuralSchemaVersion ∧ 0 < spec.structuralParserContractVersion ∧
  0 < spec.postingSchemaVersion ∧ 0 < spec.postingParserContractVersion ∧
  0 < spec.filterContractVersion

/-- `PostingIndexTaskSpec.from_binding`; `none` where the constructor raises `ValueError`. -/
def specFromBinding (source : CaptureSourceVersion) (parent : StructuralIndexSnapshot) :
    Option PostingIndexTaskSpec :=
  some (bindingFields source parent) |>.filter PostingIndexBinding.validSpec

/-- `PostingIndexIntent`. -/
structure PostingIndexIntent where
  spec : PostingIndexTaskSpec
  status : IntentState
  requestedAt : Time
  updatedAt : Option Time
  publishedBuildId : Option String
  errorCode : Option String
  deriving DecidableEq

/-- The source of an intent. -/
def PostingIndexIntent.key (intent : PostingIndexIntent) : SourceKey := intent.spec.key

/-- The intent a request writes. -/
def PostingIndexIntent.pending (spec : PostingIndexTaskSpec) (at' : Time) : PostingIndexIntent :=
  ⟨spec, .pending, at', some at', none, none⟩

/-- `PostingIndexTask`. -/
abbrev PostingIndexTask : Type := IndexTask PostingIndexTaskSpec

/-- The source of a task. -/
def PostingIndexTask.key (task : PostingIndexTask) : SourceKey := task.spec.key

/-- An entry of `posting_index_staging`. -/
structure StagedPostings where
  /-- the metadata, with no chunks -/
  snapshot : PostingIndexSnapshot
  attempt : Int
  leaseToken : String
  /-- the owner when the build began -/
  expectedOwner : Option String
  chunks : List PostingChunk

/-- The maps of the repository that the posting lifecycle uses. -/
structure PostingStore where
  /-- `capture_source_versions` -/
  sources : Dict SourceKey CaptureSourceVersion
  /-- `structural_index_generations`, by build id -/
  structuralGenerations : Dict String StructuralIndexSnapshot
  /-- `structural_index_owners` -/
  structuralOwners : Dict SourceKey String
  /-- `posting_index_intents` -/
  intents : Table PostingIndexIntent.key
  /-- `posting_index_tasks` -/
  tasks : Table PostingIndexTask.key
  /-- `posting_index_staging`, by build id -/
  staging : Dict String StagedPostings
  /-- `posting_index_generations`, by build id -/
  generations : Dict String PostingIndexSnapshot
  /-- `posting_index_owners`, by source and structural parent -/
  owners : Dict (SourceKey × String) String

/-- The exceptions of the lifecycle. -/
inductive PostingError where
  /-- a bound that must be positive is not -/
  | badBound
  /-- `"posting task lease is required"` -/
  | leaseRequired
  /-- `"posting task lease is not current"` -/
  | leaseNotCurrent
  /-- a record whose constructor refuses its fields -/
  | invalidRecord
  | timeOverflow
  deriving DecidableEq, Repr

/-- `PostingIndexAdmission`. -/
inductive PostingIndexAdmission where
  | queued
  | coalesced
  | deferred
  | ineligible
  deriving DecidableEq, Repr

namespace PostingQueue

/-- `_put_intent`. -/
def putIntent (s : PostingStore) (intent : PostingIndexIntent) : PostingStore :=
  { s with intents := s.intents.put intent }

/-- `_put_task`. -/
def putTask (s : PostingStore) (task : PostingIndexTask) : PostingStore :=
  { s with tasks := s.tasks.put task }

/-- `datetime + timedelta(seconds=…)`. -/
def later (t : Time) (seconds : Int) : Except PostingError Time :=
  (addSeconds t seconds).mapError fun _ => .timeOverflow

/-- Whether two structural generations have the same contents. -/
def sameParent (current parent : StructuralIndexSnapshot) : Bool :=
  current.binding = parent.binding ∧ current.indexSha256 = parent.indexSha256 ∧
  current.interfaces = parent.interfaces ∧ current.packets = parent.packets

section

variable (py : Python) (s : PostingStore) (source : CaptureSourceVersion)
  (parent : StructuralIndexSnapshot)

/-- `eligible_posting_index`. -/
def eligiblePostingIndex : Bool :=
  (specFromBinding source parent).isSome ∧ validateStructuralIndex py parent ∧
  parent.binding.sourceKind = source.sourceKind ∧ parent.binding.sourceId = source.sourceId ∧
  parent.binding.sourceVersionId = source.sourceVersionId ∧
  parent.binding.sourceSizeBytes = source.sourceSizeBytes ∧
  parent.binding.sourceSha256 = source.sourceSha256 ∧
  s.sources.find? source.key = some source ∧
  s.structuralOwners.find? source.key = some parent.buildId ∧
  ∃ current ∈ s.structuralGenerations.find? parent.buildId, sameParent current parent

/-- `request`. -/
def request (now : Time) : Option PostingIndexIntent × PostingStore :=
  if ¬eligiblePostingIndex py s source parent then (none, s)
  else
    let spec := bindingFields source parent
    match (s.intents.get? spec.key).filter fun current => current.spec.identity = spec.identity with
    | some current => (some current, s)
    | none =>
      -- a new structural parent supersedes the old lifecycle of its source
      let s := { s with tasks := s.tasks.erase spec.key }
      let intent := PostingIndexIntent.pending spec now
      (some intent, putIntent s intent)

end

/-- What `request_backfill` reads of the jobs, the LIVE tasks and the segments. -/
structure Surroundings where
  /-- `jobs[id]["mode"]` -/
  jobMode : String → Option String
  /-- `live_segment_index_tasks[id].status` -/
  liveStatus : String → Option TaskStatus
  /-- `sensor_pcaps[id]["analysis_job_id"]` -/
  segmentJob : String → Option String

/-- Whether a source is still backed by its job. -/
def Surroundings.backs (env : Surroundings) (key : SourceKey) : Bool :=
  match key.1 with
  | .pcapUpload => env.jobMode key.2 = some "PCAP_UPLOAD"
  | .liveSegment =>
    env.liveStatus key.2 = some .completed ∧
      (env.segmentJob key.2).bind env.jobMode = some "LIVE"

/-- Whether the READY postings of a parent are already those of the specification. -/
def readyFor (s : PostingStore) (spec : PostingIndexTaskSpec) : Bool :=
  match (s.owners.find? (spec.key, spec.parentStructuralBuildId)).bind s.generations.find? with
  | none => false
  | some ready =>
    ready.binding.sourceVersionId = spec.sourceVersionId ∧
    ready.binding.parentStructuralBuildId = spec.parentStructuralBuildId ∧
    ready.binding.postingSchemaVersion = spec.postingSchemaVersion ∧
    ready.binding.postingParserContractVersion = spec.postingParserContractVersion ∧
    ready.binding.filterContractVersion = spec.filterContractVersion

section

variable (py : Python) (s : PostingStore) (env : Surroundings)

/-- The specification `request_backfill` collects for an entry of `structural_index_owners`. -/
def backfillCandidate (owner : SourceKey × String) : Option PostingIndexTaskSpec :=
  match s.structuralGenerations.find? owner.2, s.sources.find? owner.1 with
  | some parent, some source =>
    let spec := bindingFields source parent
    if ¬eligiblePostingIndex py s source parent then none
    else if ¬env.backs owner.1 then none
    else if (s.intents.get? owner.1).any (fun intent => intent.spec.identity = spec.identity) then none
    else if (s.tasks.get? owner.1).any (fun task => task.spec.identity = spec.identity) then none
    else if readyFor s spec then none
    else some spec
  | _, _ => none

/-- The specifications of `request_backfill`, in its order. -/
def backfillCandidates : List PostingIndexTaskSpec :=
  (s.structuralOwners.rows.filterMap (backfillCandidate py s env)).mergeSort fun a b =>
    a.sourceKind.text < b.sourceKind.text ∨
      a.sourceKind.text = b.sourceKind.text ∧ a.sourceId ≤ b.sourceId

/-- `request_backfill`. -/
def requestBackfill (limit : Int) (now : Time) : Except PostingError (Nat × PostingStore) :=
  if limit ≤ 0 then .error .badBound
  else
    let candidates := (backfillCandidates py s env).take limit.toNat
    .ok (candidates.length,
      candidates.foldl (fun s spec => putIntent s (.pending spec now)) s)

end

/-- The tasks that are queued or running. -/
def activeTasks (s : PostingStore) : List PostingIndexTask :=
  s.tasks.rows.filter fun task => task.status.active

/-- `admit`. -/
def admitSource (s : PostingStore) (key : SourceKey) (capacity maxAttempts : Int) (now : Time) :
    Except PostingError (PostingIndexAdmission × PostingStore) :=
  if capacity ≤ 0 ∨ maxAttempts ≤ 0 then .error .badBound
  else
    match s.tasks.get? key with
    | some _ => .ok (.coalesced, s)
    | none =>
      match s.intents.get? key with
      | none => .ok (.ineligible, s)
      | some intent =>
        if intent.status.terminal then .ok (.coalesced, s)
        else if ((activeTasks s).length : Int) ≥ capacity then
          .ok (.deferred, putIntent s { intent with status := .deferred, updatedAt := some now })
        else
          let s := putTask s (.admitted intent.spec maxAttempts now)
          .ok (.queued, putIntent s { intent with status := .pending, updatedAt := some now })

/-- Whether the intent of a task still wants it. -/
def wanted (s : PostingStore) (task : PostingIndexTask) : Bool :=
  (s.intents.get? task.spec.key).any fun intent =>
    intent.spec.identity = task.spec.identity ∧ intent.status.eligible

/-- The order in which `claim` picks. -/
def claimBefore (a b : PostingIndexTask) : Bool :=
  a.nextAttemptAt < b.nextAttemptAt ∨ a.nextAttemptAt = b.nextAttemptAt ∧
    (a.queuedAt < b.queuedAt ∨ a.queuedAt = b.queuedAt ∧
      (a.spec.sourceKind.text < b.spec.sourceKind.text ∨
        a.spec.sourceKind.text = b.spec.sourceKind.text ∧ a.spec.sourceId < b.spec.sourceId))

/-- `claim`; `token` is the `secrets.token_hex(16)` it draws. -/
def claim (s : PostingStore) (token : String) (leaseSeconds : Int) (now : Time) :
    Except PostingError (Option PostingIndexTask × PostingStore) :=
  if leaseSeconds ≤ 0 then .error .badBound
  else
    let candidates := s.tasks.rows.filter fun task =>
      task.status = .queued ∧ task.nextAttemptAt ≤ now ∧ wanted s task
    match earliest claimBefore candidates with
    | none => .ok (none, s)
    | some current => do
      let expires ← later now leaseSeconds
      let claimed := current.claimed token expires now
      return (some claimed, putTask s claimed)

section

variable (s : PostingStore) (key : SourceKey) (attempt : Int) (token : String)

/-- `owns_unexpired` on what `_get_task` answers: the task, if this lease holds it. -/
def leased (now : Time) : Option PostingIndexTask :=
  (s.tasks.get? key).filter fun task => task.ownsUnexpired attempt token now

/-- `heartbeat`. -/
def heartbeat (leaseSeconds : Int) (now : Time) : Except PostingError (Bool × PostingStore) :=
  if leaseSeconds ≤ 0 then .error .badBound
  else
    match leased s key attempt token now with
    | none => .ok (false, s)
    | some task => do
      let expires ← later now leaseSeconds
      return (true, putTask s (task.renewed expires now))

end

/-- `sanitize_error_code`. -/
def sanitizeErrorCode (value : String) : String :=
  let valid :=
    match value.toList with
    | [] => false
    | c :: cs => c.isUpper && decide (cs.length ≤ 63) &&
      cs.all fun c => c.isUpper || c.isDigit || c == '_'
  if valid then value else "POSTING_BUILD_FAILED"

/-- The intent of a task's source after the task left its lease; an intent for another
identity is not touched. -/
def settleIntent (s : PostingStore) (task : PostingIndexTask) (status : IntentState) (now : Time)
    (errorCode : Option String) : PostingStore :=
  match (s.intents.get? task.spec.key).filter fun intent =>
    intent.spec.identity = task.spec.identity with
  | none => s
  | some intent =>
    putIntent s { intent with status := status, updatedAt := some now, errorCode := errorCode }

/-- `fail`. -/
def fail (s : PostingStore) (key : SourceKey) (attempt : Int) (token : String) (transient : Bool)
    (errorCode : String) (retryBaseSeconds : Int) (now : Time) :
    Except PostingError (Bool × PostingStore) :=
  if retryBaseSeconds ≤ 0 then .error .badBound
  else
    let code := some (sanitizeErrorCode errorCode)
    match leased s key attempt token now with
    | none => .ok (false, s)
    | some task =>
      if transient && task.retries then do
        let next ← later now (retryBaseSeconds * 2 ^ (max (task.attempt - 1) 0).toNat)
        let s := putTask s (task.released .queued next now code)
        return (true, settleIntent s task .pending now code)
      else
        let s := putTask s (task.released .failed task.nextAttemptAt now code)
        .ok (true, settleIntent s task .failed now code)

/-- The tasks whose lease has expired, in the order of `recover`. -/
def expiredTasks (s : PostingStore) (now : Time) : List PostingIndexTask :=
  let expired := s.tasks.rows.filter fun task =>
    task.status = .running ∧ ∃ expires ∈ task.leaseExpiresAt, expires ≤ now
  expired.mergeSort fun a b =>
    a.leaseExpiresAt.getD 0 < b.leaseExpiresAt.getD 0 ∨
      a.leaseExpiresAt.getD 0 = b.leaseExpiresAt.getD 0 ∧
        (a.spec.sourceKind.text < b.spec.sourceKind.text ∨
          a.spec.sourceKind.text = b.spec.sourceKind.text ∧ a.spec.sourceId ≤ b.spec.sourceId)

/-- One round of the loop of `recover`. -/
def recoverTask (now : Time) (s : PostingStore) (task : PostingIndexTask) : PostingStore :=
  if task.retries then
    settleIntent (putTask s (task.released .queued now now none)) task .pending now none
  else
    let code := some "POSTING_LEASE_EXPIRED"
    settleIntent (putTask s (task.released .failed now now code)) task .failed now code

/-- `recover`. -/
def recover (s : PostingStore) (now : Time) : Nat × PostingStore :=
  ((expiredTasks s now).length, (expiredTasks s now).foldl (recoverTask now) s)

/-- The sources `reconcile` admits, in its order. -/
def waitingSources (s : PostingStore) (limit : Int) : List SourceKey :=
  let waiting := s.intents.rows.filter fun intent =>
    intent.status.eligible ∧ (s.tasks.get? intent.key).isNone
  let sorted := waiting.mergeSort fun a b =>
    a.requestedAt < b.requestedAt ∨ a.requestedAt = b.requestedAt ∧
      (a.spec.sourceKind.text < b.spec.sourceKind.text ∨
        a.spec.sourceKind.text = b.spec.sourceKind.text ∧ a.spec.sourceId ≤ b.spec.sourceId)
  (sorted.take limit.toNat).map PostingIndexIntent.key

/-- The loop of `reconcile`; `clock` is what each `admit` reads. -/
def reconcileLoop (capacity maxAttempts : Int) (clock : SourceKey → Time) :
    (keys : List SourceKey) → (admitted : Nat) → PostingStore →
      Except PostingError Nat × PostingStore
  | [], admitted, s => (.ok admitted, s)
  | key :: keys, admitted, s =>
    match admitSource s key capacity maxAttempts (clock key) with
    | .error e => (.error e, s)
    | .ok (.queued, s) => reconcileLoop capacity maxAttempts clock keys (admitted + 1) s
    | .ok (_, s) => reconcileLoop capacity maxAttempts clock keys admitted s

/-- `reconcile`. -/
def reconcile (s : PostingStore) (capacity maxAttempts limit : Int) (clock : SourceKey → Time) :
    Except PostingError Nat × PostingStore :=
  if limit ≤ 0 then (.error .badBound, s)
  else reconcileLoop capacity maxAttempts clock (waitingSources s limit) 0 s

/-- `cleanup_terminal`. -/
def cleanupTerminal (s : PostingStore) (maxAgeSeconds limit : Int) (now : Time) :
    Except PostingError (Nat × PostingStore) :=
  if limit ≤ 0 ∨ maxAgeSeconds ≤ 0 then .error .badBound
  else do
    let before ← later now (-maxAgeSeconds)
    let found := s.tasks.rows.filter fun task => task.status.terminal ∧ task.updatedAt ≤ before
    let sorted := found.mergeSort fun a b =>
      a.updatedAt < b.updatedAt ∨ a.updatedAt = b.updatedAt ∧
        (a.spec.sourceKind.text < b.spec.sourceKind.text ∨
          a.spec.sourceKind.text = b.spec.sourceKind.text ∧ a.spec.sourceId ≤ b.spec.sourceId)
    let selected := (sorted.take limit.toNat).map PostingIndexTask.key
    return (selected.length, { s with tasks := selected.foldl Table.erase s.tasks })

end PostingQueue

end C2Hunter
