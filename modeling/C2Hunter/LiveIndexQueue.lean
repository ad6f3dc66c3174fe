import C2Hunter.IndexTask

/-!
# The queue of LIVE segment indexes

`pcap_offset_index_queue.py` over the in-memory repository: tasks under the id of
their segment, and the segment rows whose `index_intent_state` outlives the task.
Every function but `reconcile` runs under the repository lock and is one step;
`reconcile` takes a snapshot of the segments and then calls `admit` one by one, so the
admissions it made before an exception stay.

* `Segment`, `LiveStore` — the rows of `sensor_pcaps` and `live_segment_index_tasks`.
* `LiveIndex.admitSource`, …, `LiveIndex.reconcile` — one definition a function.
* `LiveOp`, `LiveStore.run` — operations in any order, with their own arguments and
  clock readings.
-/

namespace C2Hunter

/-- `index_intent_state`. -/
inductive IntentState where
  | pending
  | deferred
  | completed
  | failed
  deriving DecidableEq, Repr

namespace IntentState

/-- `_ELIGIBLE_INTENT_STATES`. -/
def eligible : IntentState → Bool
  | pending | deferred => true
  | completed | failed => false

/-- `_TERMINAL_INTENT_STATES`. -/
def terminal : IntentState → Bool
  | pending | deferred => false
  | completed | failed => true

end IntentState

/-- `LiveIndexTaskSpec`; the fields with a default are constants. -/
structure LiveIndexTaskSpec where
  sourceId : String
  sensorId : String
  analysisJobId : String
  objectKey : String
  sourceSizeBytes : Int
  sourceSha256 : String
  deriving DecidableEq

/-- `LiveIndexTask`. -/
abbrev LiveIndexTask : Type := IndexTask LiveIndexTaskSpec

/-- The id a task is stored under. -/
def LiveIndexTask.sourceId (task : LiveIndexTask) : String := task.spec.sourceId

/-- A row of `sensor_pcaps`, with the fields the queue uses. -/
structure Segment where
  id : String
  filename : String
  sensorId : String
  analysisJobId : String
  objectKey : Option String
  sizeBytes : Int
  sha256 : String
  indexRequestedAt : Option String
  indexIntentState : Option IntentState
  indexIntentSchemaVersion : Option Int
  indexIntentParserContractVersion : Option Int
  deriving DecidableEq

/-- The truth of `segment.get("index_requested_at")`. -/
def Segment.requested (segment : Segment) : Bool := segment.indexRequestedAt.any (· ≠ "")

/-- `PCAP_OFFSET_INDEX_SCHEMA_VERSION`. -/
def offsetSchemaVersion : Int := 1

/-- `PCAP_OFFSET_INDEX_PARSER_CONTRACT_VERSION`. -/
def offsetParserContractVersion : Int := 1

/-- The exceptions of the queue. -/
inductive LiveIndexError where
  /-- `"LIVE indexing requires a finalized classic PCAP"` -/
  | notClassicPcap
  /-- `"LIVE indexing requires canonical ownership"` -/
  | noOwnership
  /-- `"terminal cleanup limit must be positive"` -/
  | cleanupLimit
  /-- an instant outside the calendar -/
  | timeOverflow
  deriving DecidableEq, Repr

/-- What the queue reads and writes of the repository. -/
structure LiveStore where
  /-- `live_segment_index_tasks` -/
  tasks : Table LiveIndexTask.sourceId
  /-- `sensor_pcaps` -/
  segments : Table Segment.id

/-- The repository before the first upload. -/
def LiveStore.empty : LiveStore := ⟨Table.empty, Table.empty⟩

/-- `IndexAdmission`. -/
inductive IndexAdmission where
  | queued
  | coalesced
  | deferred
  deriving DecidableEq, Repr

/-- The setting `pcap_offset_index_max_attempts`, declared with `ge=1`. -/
structure LiveIndexSettings where
  maxAttempts : Int
  one_le : 1 ≤ maxAttempts

namespace LiveIndex

/-- `LiveIndexTaskSpec.from_segment`. -/
def fromSegment (segment : Segment) : Except LiveIndexError LiveIndexTaskSpec :=
  if ¬segment.filename.endsWith ".pcap" then .error .notClassicPcap
  else if segment.sensorId = "" ∨ segment.id = "" ∨ segment.analysisJobId = "" then
    .error .noOwnership
  else
    let objectKey :=
      match segment.objectKey with
      | some key =>
        if key ≠ "" then key
        else "sensor-pcaps/" ++ segment.sensorId ++ "/" ++ segment.id ++ ".pcap"
      | none => "sensor-pcaps/" ++ segment.sensorId ++ "/" ++ segment.id ++ ".pcap"
    .ok
      { sourceId := segment.id, sensorId := segment.sensorId
        analysisJobId := segment.analysisJobId, objectKey := objectKey
        sourceSizeBytes := segment.sizeBytes, sourceSha256 := segment.sha256 }

/-- The segment with another `index_intent_state`. -/
def marked (segment : Segment) (state : IntentState) : Segment :=
  { segment with
    indexIntentState := some state
    indexIntentSchemaVersion := some offsetSchemaVersion
    indexIntentParserContractVersion := some offsetParserContractVersion }

/-- `_mark_intent`. -/
def markIntent (s : LiveStore) (sourceId : String) (state : IntentState) : LiveStore :=
  match s.segments.get? sourceId with
  | none => s
  | some segment => { s with segments := s.segments.put (marked segment state) }

/-- `_put`. -/
def putTask (s : LiveStore) (task : LiveIndexTask) : LiveStore :=
  { s with tasks := s.tasks.put task }

/-- `datetime + timedelta(seconds=…)`. -/
def later (t : Time) (seconds : Int) : Except LiveIndexError Time :=
  (addSeconds t seconds).mapError fun _ => .timeOverflow

/-- How many tasks are queued or running. -/
def activeTasks (s : LiveStore) : List LiveIndexTask :=
  s.tasks.rows.filter fun task => task.status.active

/-- `admit`. -/
def admitSource (s : LiveStore) (sourceId : String) (capacity : Int) (settings : LiveIndexSettings)
    (now : Time) : Except LiveIndexError (IndexAdmission × LiveStore) :=
  match s.tasks.get? sourceId with
  | some _ => .ok (.coalesced, s)
  | none =>
    match s.segments.get? sourceId with
    | none => .ok (.deferred, s)
    | some segment =>
      if ¬segment.requested then .ok (.deferred, s)
      else if segment.indexIntentState.any (·.terminal) then .ok (.coalesced, s)
      else if ((activeTasks s).length : Int) ≥ capacity then
        .ok (.deferred, markIntent s sourceId .deferred)
      else do
        let spec ← fromSegment segment
        let task := IndexTask.admitted spec settings.maxAttempts now
        return (.queued, markIntent (putTask s task) sourceId .pending)

/-- The order in which `claim` picks: `(next_attempt_at, queued_at, source_id)`. -/
def claimBefore (a b : LiveIndexTask) : Bool :=
  a.nextAttemptAt < b.nextAttemptAt ∨ a.nextAttemptAt = b.nextAttemptAt ∧
    (a.queuedAt < b.queuedAt ∨ a.queuedAt = b.queuedAt ∧ a.spec.sourceId < b.spec.sourceId)

/-- `claim`; `token` is the `secrets.token_hex(16)` it draws. -/
def claim (s : LiveStore) (token : String) (now : Time) (leaseSeconds : Int) :
    Except LiveIndexError (Option LiveIndexTask × LiveStore) :=
  let candidates := s.tasks.rows.filter fun task => task.status = .queued ∧ task.nextAttemptAt ≤ now
  match earliest claimBefore candidates with
  | none => .ok (none, s)
  | some current => do
    let expires ← later now leaseSeconds
    let claimed := current.claimed token expires now
    return (some claimed, putTask s claimed)

section

variable (s : LiveStore) (sourceId : String) (attempt : Int) (token : String) (now : Time)

/-- The check of `heartbeat`, `complete` and `fail`: the task, if this lease holds it. -/
def leased : Option LiveIndexTask :=
  (s.tasks.get? sourceId).filter fun task => task.ownsUnexpired attempt token now

/-- `heartbeat`. -/
def heartbeat (leaseSeconds : Int) : Except LiveIndexError (Bool × LiveStore) :=
  match leased s sourceId attempt token now with
  | none => .ok (false, s)
  | some task => do
    let expires ← later now leaseSeconds
    return (true, putTask s (task.renewed expires now))

/-- `complete`. -/
def complete : Bool × LiveStore :=
  match leased s sourceId attempt token now with
  | none => (false, s)
  | some task =>
    let task := task.released .completed task.nextAttemptAt now task.errorCode
    (true, markIntent (putTask s task) sourceId .completed)

end

/-- `error_code[:64]`. -/
def clip (errorCode : String) : String := String.ofList (errorCode.toList.take 64)

/-- `fail`. -/
def fail (s : LiveStore) (sourceId : String) (attempt : Int) (token : String) (transient : Bool)
    (errorCode : String) (now : Time) (retryBaseSeconds : Int) :
    Except LiveIndexError (Bool × LiveStore) :=
  match leased s sourceId attempt token now with
  | none => .ok (false, s)
  | some task =>
    if transient && task.retries then do
      let next ← later now (retryBaseSeconds * 2 ^ (max (task.attempt - 1) 0).toNat)
      let task := task.released .queued next now (some (clip errorCode))
      return (true, markIntent (putTask s task) sourceId .pending)
    else
      let task := task.released .failed task.nextAttemptAt now (some (clip errorCode))
      .ok (true, markIntent (putTask s task) sourceId .failed)

/-- The task and the intent state `recover` writes for a task, or `none` where it skips it. -/
def recovered (now : Time) (task : LiveIndexTask) : Option (LiveIndexTask × IntentState) :=
  if task.status ≠ .running then none
  else
    match task.leaseExpiresAt with
    | none => none
    | some expires =>
      if expires > now then none
      else if task.retries then some (task.released .queued now now none, .pending)
      else some (task.released .failed now now (some "LEASE_EXPIRED"), .failed)

/-- One round of the loop of `recover`. -/
def recoverTask (now : Time) (s : LiveStore) (task : LiveIndexTask) : LiveStore :=
  match recovered now task with
  | none => s
  | some (next, state) => markIntent (putTask s next) task.spec.sourceId state

/-- `recover`: the loop over a snapshot of the tasks. -/
def recover (s : LiveStore) (now : Time) : Nat × LiveStore :=
  ((s.tasks.rows.filter fun task => (recovered now task).isSome).length,
    s.tasks.rows.foldl (recoverTask now) s)

/-- `cleanup_terminal`. -/
def cleanupTerminal (s : LiveStore) (before : Time) (limit : Int) :
    Except LiveIndexError (Nat × LiveStore) :=
  if limit ≤ 0 then .error .cleanupLimit
  else
    let found := s.tasks.rows.filter fun task => task.status.terminal ∧ task.updatedAt ≤ before
    let sorted := found.mergeSort fun a b =>
      a.updatedAt < b.updatedAt ∨ a.updatedAt = b.updatedAt ∧ a.spec.sourceId ≤ b.spec.sourceId
    let selected := (sorted.take limit.toNat).map LiveIndexTask.sourceId
    .ok (selected.length, { s with tasks := selected.foldl Table.erase s.tasks })

/-- The segments `reconcile` tries, in its order. -/
def eligibleSegments (s : LiveStore) : List Segment :=
  let selected := s.segments.rows.filter fun item =>
    item.requested ∧ (item.indexIntentState.getD .pending).eligible
  selected.mergeSort fun a b =>
    a.indexRequestedAt.getD "" < b.indexRequestedAt.getD "" ∨
      a.indexRequestedAt.getD "" = b.indexRequestedAt.getD "" ∧ a.id ≤ b.id

/-- The loop of `reconcile`; `clock` is what each `admit` reads. The store is the one at
the end of the loop or at its exception. -/
def reconcileLoop (capacity : Int) (settings : LiveIndexSettings) (limit : Int)
    (clock : String → Time) :
    (segments : List Segment) → (admitted : Int) → LiveStore → Except LiveIndexError Int × LiveStore
  | [], admitted, s => (.ok admitted, s)
  | segment :: segments, admitted, s =>
    if admitted ≥ limit then (.ok admitted, s)
    else if (s.tasks.get? segment.id).isSome then
      reconcileLoop capacity settings limit clock segments admitted s
    else
      match admitSource s segment.id capacity settings (clock segment.id) with
      | .error e => (.error e, s)
      | .ok (.queued, s) => reconcileLoop capacity settings limit clock segments (admitted + 1) s
      | .ok (_, s) => reconcileLoop capacity settings limit clock segments admitted s

/-- `reconcile`. -/
def reconcile (s : LiveStore) (capacity : Int) (settings : LiveIndexSettings) (limit : Int)
    (clock : String → Time) : Except LiveIndexError Int × LiveStore :=
  reconcileLoop capacity settings limit clock (eligibleSegments s) 0 s

/-- `save_sensor_pcap`, as far as it creates a row: a segment that is there stays, and an
eligible new one asks for its index. -/
def saveSegment (s : LiveStore) (segment : Segment) (eligible : Bool) (requestedAt : String) :
    LiveStore :=
  match s.segments.get? segment.id with
  | some _ => s
  | none =>
    let stored :=
      if eligible then { marked segment .pending with indexRequestedAt := some requestedAt }
      else segment
    { s with segments := s.segments.put stored }

end LiveIndex

/-! ## Runs -/

/-- One call, with its arguments and clock readings. -/
inductive LiveOp where
  | saveSegment (segment : Segment) (eligible : Bool) (requestedAt : String)
  | admitSource (sourceId : String) (capacity : Int) (settings : LiveIndexSettings) (now : Time)
  | claim (token : String) (now : Time) (leaseSeconds : Int)
  | heartbeat (sourceId : String) (attempt : Int) (token : String) (now : Time)
      (leaseSeconds : Int)
  | complete (sourceId : String) (attempt : Int) (token : String) (now : Time)
  | fail (sourceId : String) (attempt : Int) (token : String) (transient : Bool)
      (errorCode : String) (now : Time) (retryBaseSeconds : Int)
  | recover (now : Time)
  | cleanupTerminal (before : Time) (limit : Int)
  | reconcile (capacity : Int) (settings : LiveIndexSettings) (limit : Int)
      (clock : String → Time)

/-- The store after a call: a call that raises changes nothing. -/
def LiveStore.settle {α : Type} (s : LiveStore) : Except LiveIndexError (α × LiveStore) → LiveStore
  | .ok (_, s') => s'
  | .error _ => s

/-- The store after an operation. -/
def LiveOp.effect (s : LiveStore) : LiveOp → LiveStore
  | .saveSegment segment eligible requestedAt => LiveIndex.saveSegment s segment eligible requestedAt
  | .admitSource k capacity settings now =>
    s.settle (LiveIndex.admitSource s k capacity settings now)
  | .claim token now seconds => s.settle (LiveIndex.claim s token now seconds)
  | .heartbeat k attempt token now seconds =>
    s.settle (LiveIndex.heartbeat s k attempt token now seconds)
  | .complete k attempt token now => (LiveIndex.complete s k attempt token now).2
  | .fail k attempt token transient code now base =>
    s.settle (LiveIndex.fail s k attempt token transient code now base)
  | .recover now => (LiveIndex.recover s now).2
  | .cleanupTerminal before limit => s.settle (LiveIndex.cleanupTerminal s before limit)
  | .reconcile capacity settings limit clock =>
    (LiveIndex.reconcile s capacity settings limit clock).2

/-- A run of the queue from the empty repository. -/
def LiveStore.run (ops : List LiveOp) : LiveStore := ops.foldl LiveOp.effect .empty

theorem LiveStore.run_append (ops more : List LiveOp) :
    LiveStore.run (ops ++ more) = more.foldl LiveOp.effect (LiveStore.run ops) :=
  List.foldl_append

end C2Hunter
