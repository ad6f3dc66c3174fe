import C2Hunter.PostingQueue

/-!
# Staging and publishing of posting indexes

The in-memory branch of `begin_posting_index`, `stage_posting_index_chunks`,
`publish_posting_index` and `abort_posting_index` of `repositories.py`, and of the two
functions that publish the structural parent. A worker stages under a build id; what
it may touch is decided by the lease of the source's task.

* `PostingIndex.begin`, `stage`, `publish`, `abort` — the calls of a worker.
* `PostingIndex.publishStructural`, `publishLiveStructural` — publication of a structural
  index, with the deletion of the postings of the parent it supersedes.
* `PostingOp`, `PostingOp.effect` — operations in any order.

A publication that a mapping fails in the middle of is rolled back by the source, so a call
is one step that either changes the store or leaves it.
-/

namespace C2Hunter

namespace PostingIndex

open PostingQueue

/-- `_posting_task_matches_snapshot`. -/
def matchesSnapshot (task : PostingIndexTask) (snapshot : PostingIndexSnapshot) : Bool :=
  snapshot.binding.validSpec ∧ task.spec = snapshot.binding

/-- `begin_posting_index`; the metadata are stored without chunks, under the repository's
own creation time. -/
def begin (s : PostingStore) (snapshot : PostingIndexSnapshot) (attempt : Int) (token : String)
    (stagedAt now : Time) : Except PostingError PostingStore :=
  if token = "" ∨ attempt ≤ 0 then .error .leaseRequired
  else
    let key := snapshot.binding.key
    match (leased s key attempt token now).filter (matchesSnapshot · snapshot) with
    | none => .error .leaseNotCurrent
    | some _ =>
      let owner := s.owners.find? (key, snapshot.binding.parentStructuralBuildId)
      let metadata :=
        { snapshot with
          createdAt := stagedAt
          generation := { snapshot.generation with chunks := [] } }
      let entry : StagedPostings := ⟨metadata, attempt, token, owner, []⟩
      .ok { s with staging := Table.put s.staging (snapshot.buildId, entry) }

/-- The check of `stage_posting_index_chunks`. -/
def stageable (s : PostingStore) (buildId : String) (key : SourceKey) (attempt : Int)
    (token : String) (now : Time) : Option StagedPostings :=
  (s.staging.find? buildId).filter fun staged =>
    staged.attempt = attempt ∧ staged.leaseToken = token ∧ staged.snapshot.binding.key = key ∧
      (leased s key attempt token now).isSome

/-- `stage_posting_index_chunks`. -/
def stage (s : PostingStore) (buildId : String) (chunks : List PostingChunk) (key : SourceKey)
    (attempt : Int) (token : String) (now : Time) : Except PostingError PostingStore :=
  match stageable s buildId key attempt token now with
  | none => .error .leaseNotCurrent
  | some staged =>
    let entry := { staged with chunks := staged.chunks ++ chunks }
    .ok { s with staging := Table.put s.staging (buildId, entry) }

/-- The snapshot a staging entry stands for: its metadata with the chunks in the order they
were staged. -/
def assembled (staged : StagedPostings) : PostingIndexSnapshot :=
  { staged.snapshot with
    generation := { staged.snapshot.generation with chunks := staged.chunks } }

/-- What `publish_posting_index` found to publish under. -/
structure Publishable where
  staged : StagedPostings
  task : PostingIndexTask
  intent : PostingIndexIntent

/-- The checks of `publish_posting_index`. -/
def publishable (py : Python) (s : PostingStore) (buildId : String)
    (source : CaptureSourceVersion) (parent : StructuralIndexSnapshot) (attempt : Int)
    (token : String) (now : Time) : Option Publishable :=
  match s.staging.find? buildId, leased s source.key attempt token now,
    s.intents.get? source.key, s.structuralGenerations.find? parent.buildId with
  | some staged, some task, some intent, some current =>
    if staged.attempt = attempt ∧ staged.leaseToken = token ∧
        staged.expectedOwner = s.owners.find? (source.key, parent.buildId) ∧
        task.spec.identity = intent.spec.identity ∧
        intent.spec.parentStructuralBuildId = parent.buildId ∧
        s.sources.find? source.key = some source ∧
        s.structuralOwners.find? source.key = some parent.buildId ∧
        sameParent current parent ∧
        validatePostingIndex py (assembled staged) source parent then
      some ⟨staged, task, intent⟩
    else none
  | _, _, _, _ => none

/-- The task after a publication. -/
def publishedTask (task : PostingIndexTask) (now : Time) : PostingIndexTask :=
  task.released .completed task.nextAttemptAt now none

/-- The intent after a publication. -/
def publishedIntent (intent : PostingIndexIntent) (buildId : String) (now : Time) :
    PostingIndexIntent :=
  { intent with
    status := .completed
    updatedAt := some now
    publishedBuildId := some buildId
    errorCode := none }

/-- The READY maps after a publication: the owner is the new build, and the generation it
replaces is dropped. -/
def publishReady (s : PostingStore) (buildId : String) (key : SourceKey × String)
    (snapshot : PostingIndexSnapshot) : PostingStore :=
  let generations := Table.put s.generations (buildId, snapshot)
  let generations :=
    match s.owners.find? key with
    | some owner => if owner ≠ "" ∧ owner ≠ buildId then Table.erase generations owner else generations
    | none => generations
  { s with
    generations := generations
    owners := Table.put s.owners (key, buildId)
    staging := Table.erase s.staging buildId }

/-- `publish_posting_index`. -/
def publish (py : Python) (s : PostingStore) (buildId : String) (source : CaptureSourceVersion)
    (parent : StructuralIndexSnapshot) (attempt : Int) (token : String) (now : Time) :
    Bool × PostingStore :=
  match publishable py s buildId source parent attempt token now with
  | none => (false, s)
  | some found =>
    let s := publishReady s buildId (source.key, parent.buildId) (assembled found.staged)
    let s := putTask s (publishedTask found.task now)
    (true, putIntent s (publishedIntent found.intent buildId now))

section

variable (s : PostingStore) (buildId : String) (key : SourceKey) (parent : String) (attempt : Int)
  (token : String) (now : Time)

/-- The check of `abort_posting_index`. -/
def abortable : Bool :=
  (leased s key attempt token now).any fun task =>
    (s.intents.get? key).any fun intent =>
      (s.staging.find? buildId).any fun staged =>
        task.spec.identity = intent.spec.identity ∧
        task.spec.parentStructuralBuildId = parent ∧
        intent.spec.parentStructuralBuildId = parent ∧ intent.status.eligible ∧
        staged.snapshot.binding.key = key ∧
        staged.snapshot.binding.parentStructuralBuildId = parent ∧
        staged.attempt = attempt ∧ staged.leaseToken = token

/-- `abort_posting_index`. -/
def abort : Bool × PostingStore :=
  if attempt ≤ 0 ∨ token = "" then (false, s)
  else if abortable s buildId key parent attempt token now then
    (true, { s with staging := Table.erase s.staging buildId })
  else (false, s)

end

/-! ## The structural parent -/

/-- `_delete_posting_indexes_for_source` for one superseded parent. -/
def deletePostings (s : PostingStore) (key : SourceKey) (parent : String) : PostingStore :=
  let staleBuild := fun (binding : PostingIndexBinding) =>
    binding.key = key ∧ binding.parentStructuralBuildId = parent
  let tasks :=
    if (s.tasks.get? key).any (fun task => task.spec.parentStructuralBuildId = parent) then
      s.tasks.erase key
    else s.tasks
  let intents :=
    if (s.intents.get? key).any (fun intent => intent.spec.parentStructuralBuildId = parent) then
      s.intents.erase key
    else s.intents
  let staged := (s.staging.rows.filter fun row => staleBuild row.2.snapshot.binding).map Prod.fst
  -- at most one owner is recorded for a source and a parent
  let owned := (s.owners.find? (key, parent)).toList
  let generations := owned.foldl Table.erase s.generations
  let stale := (generations.rows.filter fun row => staleBuild row.2.binding).map Prod.fst
  { s with
    tasks := tasks
    intents := intents
    staging := staged.foldl Table.erase s.staging
    owners := Table.erase s.owners (key, parent)
    generations := stale.foldl Table.erase generations }

/-- An entry of `structural_index_staging`. -/
structure StagedStructure where
  binding : SourceIndexBinding
  createdAt : Time
  packets : List StructuralPacketEntry

/-- The snapshot that a structural publication makes. -/
def structuralSnapshot (py : Python) (buildId : String) (binding : SourceIndexBinding)
    (staged : StagedStructure) (interfaces : List StructuralInterfaceEntry) :
    StructuralIndexSnapshot :=
  ⟨buildId, binding, staged.createdAt,
    structuralIndexDigest py binding interfaces staged.packets, interfaces, staged.packets⟩

/-- The source version that a structural binding expects. -/
def expectedVersion (binding : SourceIndexBinding) (objectKey : String) : CaptureSourceVersion :=
  ⟨binding.sourceKind, binding.sourceId, objectKey, binding.sourceVersionId,
    binding.sourceSizeBytes, binding.sourceSha256⟩

section

variable (s : PostingStore)

/-- The intent that a structural publication installs: none where the source already has one
for the same identity, an exception where the specification is refused. -/
def postingIntent (source : CaptureSourceVersion) (snapshot : StructuralIndexSnapshot)
    (requestPostings : Bool) (now : Time) : Except PostingError (Option PostingIndexIntent) :=
  if ¬requestPostings then .ok none
  else
    match specFromBinding source snapshot with
    | none => .error .invalidRecord
    | some spec =>
      if (s.intents.get? spec.key).any (fun current => current.spec.identity = spec.identity) then
        .ok none
      else .ok (some (.pending spec now))

/-- `posting_index_intents[key] = intent`, if there is one to install. -/
def installIntent : Option PostingIndexIntent → PostingStore
  | none => s
  | some intent => putIntent s intent

/-- The structural maps after a publication. -/
def installStructure (snapshot : StructuralIndexSnapshot) (previous : Option String) : PostingStore :=
  let generations := Table.put s.structuralGenerations (snapshot.buildId, snapshot)
  let generations :=
    match previous with
    | some old => if old ≠ snapshot.buildId then Table.erase generations old else generations
    | none => generations
  { s with
    structuralGenerations := generations
    structuralOwners := Table.put s.structuralOwners (snapshot.binding.key, snapshot.buildId) }

/-- Whether a task of the superseded parent is queued or running. -/
def parentBusy (key : SourceKey) (previous : String) : Bool :=
  s.tasks.rows.any fun task =>
    task.spec.key = key ∧ task.spec.parentStructuralBuildId = previous ∧ task.status.active

end

section

variable (py : Python) (s : PostingStore) (buildId : String) (binding : SourceIndexBinding)
  (staged : Option StagedStructure) (interfaces : List StructuralInterfaceEntry) (packetCount : Int)

/-- `publish_structural_index`. `staged` is `structural_index_staging.get(build_id)`, and
`jobMatches` the answer of `_job_matches_structural_binding`. -/
def publishStructural (requestPostings : Bool) (jobMatches : Bool) (now : Time) :
    Except PostingError (Bool × PostingStore) :=
  match s.sources.find? (.pcapUpload, binding.sourceId) with
  -- the expected version is built with an empty object key, which its constructor refuses
  | none => .error .invalidRecord
  | some source =>
    match staged with
    | none => .ok (false, s)
    | some staged =>
      let expected := expectedVersion binding source.objectKey
      if staged.binding ≠ binding ∨ (staged.packets.length : Int) ≠ packetCount ∨ ¬jobMatches ∨
          source ≠ expected then .ok (false, s)
      else
        let snapshot := structuralSnapshot py buildId binding staged interfaces
        if ¬validateStructuralIndex py snapshot then .ok (false, s)
        else
          let superseded := (s.structuralOwners.find? binding.key).filter (· ≠ buildId)
          if superseded.any (parentBusy s binding.key) then .ok (false, s)
          else do
            let intent ← postingIntent s expected snapshot requestPostings now
            let s' := superseded.elim s (deletePostings s binding.key)
            return (true, installStructure (installIntent s' intent) snapshot superseded)

/-- `publish_live_structural_index`. `segmentMatches` stands for the conditions on the segment,
its analysis job and its LIVE task. -/
def publishLiveStructural (source : CaptureSourceVersion) (requestPostings : Bool)
    (segmentMatches : Bool) (now : Time) : Except PostingError (Bool × PostingStore) :=
  if binding.sourceKind ≠ .liveSegment ∨ packetCount < 1 then .ok (false, s)
  else if ¬segmentMatches ∨ source ≠ expectedVersion binding source.objectKey then .ok (false, s)
  else
    match staged with
    | none => .ok (false, s)
    | some staged =>
      let snapshot := structuralSnapshot py buildId binding staged interfaces
      if staged.binding ≠ binding ∨ (staged.packets.length : Int) ≠ packetCount ∨
          ¬validateStructuralIndex py snapshot then .ok (false, s)
      else do
        let intent ← postingIntent s source snapshot requestPostings now
        let s' := installIntent s intent
        let s' := { s' with sources := Table.put s'.sources (binding.key, source) }
        return (true, installStructure s' snapshot (s.structuralOwners.find? binding.key))

end

end PostingIndex

/-! ## Runs -/

/-- One call of the lifecycle, with its arguments, clock readings and draws. -/
inductive PostingOp where
  | request (source : CaptureSourceVersion) (parent : StructuralIndexSnapshot) (now : Time)
  | requestBackfill (env : PostingQueue.Surroundings) (limit : Int) (now : Time)
  | admitSource (key : SourceKey) (capacity maxAttempts : Int) (now : Time)
  | claim (token : String) (leaseSeconds : Int) (now : Time)
  | heartbeat (key : SourceKey) (attempt : Int) (token : String) (leaseSeconds : Int) (now : Time)
  | fail (key : SourceKey) (attempt : Int) (token : String) (transient : Bool)
      (errorCode : String) (retryBaseSeconds : Int) (now : Time)
  | recover (now : Time)
  | reconcile (capacity maxAttempts limit : Int) (clock : SourceKey → Time)
  | cleanupTerminal (maxAgeSeconds limit : Int) (now : Time)
  | begin (snapshot : PostingIndexSnapshot) (attempt : Int) (token : String) (stagedAt now : Time)
  | stage (buildId : String) (chunks : List PostingChunk) (key : SourceKey) (attempt : Int)
      (token : String) (now : Time)
  | publish (buildId : String) (source : CaptureSourceVersion) (parent : StructuralIndexSnapshot)
      (attempt : Int) (token : String) (now : Time)
  | abort (buildId : String) (key : SourceKey) (parent : String) (attempt : Int) (token : String)
      (now : Time)
  | publishStructural (buildId : String) (binding : SourceIndexBinding)
      (staged : Option PostingIndex.StagedStructure) (interfaces : List StructuralInterfaceEntry)
      (packetCount : Int) (requestPostings jobMatches : Bool) (now : Time)
  | publishLiveStructural (buildId : String) (binding : SourceIndexBinding)
      (staged : Option PostingIndex.StagedStructure) (interfaces : List StructuralInterfaceEntry)
      (packetCount : Int) (source : CaptureSourceVersion) (requestPostings segmentMatches : Bool)
      (now : Time)

namespace PostingStore

/-- The store after a call that answers with a value: one that raises changes nothing. -/
def settle {α : Type} (s : PostingStore) : Except PostingError (α × PostingStore) → PostingStore
  | .ok (_, s') => s'
  | .error _ => s

/-- The store after a call that answers with nothing. -/
def settleUnit (s : PostingStore) : Except PostingError PostingStore → PostingStore
  | .ok s' => s'
  | .error _ => s

end PostingStore

/-- The store after an operation. -/
def PostingOp.effect (py : Python) (s : PostingStore) : PostingOp → PostingStore
  | .request source parent now => (PostingQueue.request py s source parent now).2
  | .requestBackfill env limit now => s.settle (PostingQueue.requestBackfill py s env limit now)
  | .admitSource key capacity attempts now =>
    s.settle (PostingQueue.admitSource s key capacity attempts now)
  | .claim token seconds now => s.settle (PostingQueue.claim s token seconds now)
  | .heartbeat key attempt token seconds now =>
    s.settle (PostingQueue.heartbeat s key attempt token seconds now)
  | .fail key attempt token transient code base now =>
    s.settle (PostingQueue.fail s key attempt token transient code base now)
  | .recover now => (PostingQueue.recover s now).2
  | .reconcile capacity attempts limit clock =>
    (PostingQueue.reconcile s capacity attempts limit clock).2
  | .cleanupTerminal age limit now => s.settle (PostingQueue.cleanupTerminal s age limit now)
  | .begin snapshot attempt token stagedAt now =>
    s.settleUnit (PostingIndex.begin s snapshot attempt token stagedAt now)
  | .stage build chunks key attempt token now =>
    s.settleUnit (PostingIndex.stage s build chunks key attempt token now)
  | .publish build source parent attempt token now =>
    (PostingIndex.publish py s build source parent attempt token now).2
  | .abort build key parent attempt token now =>
    (PostingIndex.abort s build key parent attempt token now).2
  | .publishStructural build binding staged interfaces count postings job now =>
    s.settle (PostingIndex.publishStructural py s build binding staged interfaces count postings
      job now)
  | .publishLiveStructural build binding staged interfaces count source postings segment now =>
    s.settle (PostingIndex.publishLiveStructural py s build binding staged interfaces count source
      postings segment now)

/-- The store after a run. -/
def PostingOp.run (py : Python) (s : PostingStore) (ops : List PostingOp) : PostingStore :=
  ops.foldl (PostingOp.effect py) s

end C2Hunter
