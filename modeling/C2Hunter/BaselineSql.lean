import C2Hunter.BaselineMemory

/-!
# Baseline operations in SQL

`_SQL.get`, `_PublicationSQL`, `sql_publish` and `sql_control` of `_baseline_storage.py`, on the three
tables of the schema. A transaction is atomic: one that raises is rolled back, and one that only
reads changes nothing. A call is several transactions: a replay or a refusal, the write, a second
look after a refusal that a concurrent writer may explain, and the validation of what was committed.

The tables hold the same rows for SQLite and PostgreSQL.
-/

namespace C2Hunter.Baseline

/-- A row of `baseline_scopes`. -/
structure ScopeRow where
  config : ScopeConfig
  configSha256 : String
  createdBy : String
  createdAt : Instant
  controlRevision : Int
  frozen : Bool
  state : State
  acceptedEventEnd : Option Instant
  activeGenerationId : Option String
  previousGenerationId : Option String
  deriving DecidableEq, Repr

/-- The tables of the schema, by their primary keys. -/
structure Tables where
  scopes : Dict String ScopeRow := .empty
  generations : Dict (String × String) GenerationDocument := .empty
  /-- by scope and revision -/
  operations : Dict (String × Int) OperationRow := .empty

/-- The row of a scope. -/
def ScopeView.row (v : ScopeView) : ScopeRow where
  config := v.config
  configSha256 := v.configSha256
  createdBy := v.createdBy
  createdAt := v.createdAt
  controlRevision := v.controlRevision
  frozen := v.frozen
  state := v.state
  acceptedEventEnd := v.acceptedEventEnd
  activeGenerationId := v.active.map GenerationView.generationId
  previousGenerationId := v.previous.map GenerationView.generationId

namespace Tables

section Read

variable (env : Env) (t : Tables) (id : String)

/-- The view of a pointer, `views.get(pointer)`. -/
def pointed (views : List (String × GenerationView)) (pointer : Option String) :
    Option GenerationView :=
  pointer.bind fun g => (views.find? fun row => row.1 = g).map Prod.snd

/-- `_SQL.get`. -/
def get : Except Failure (Option ScopeView) := do
  require (t.scopes.rows.length ≤ 16)
  match t.scopes.find? id with
  | none => return none
  | some row =>
    let documents := generationsOf t.generations id
    require (documents.length ≤ 2)
    require (row.config.scopeId = id)
    let pointers := (row.activeGenerationId.toList ++ row.previousGenerationId.toList).eraseDups
    require (documents.length = pointers.length)
    require (documents.map Prod.fst ⊆ pointers ∧ pointers ⊆ documents.map Prod.fst)
    let views ← documents.mapM fun d => do
      let view ← documentView env row.config d.1 d.2 row.controlRevision
      return (d.1, view)
    require (row.previousGenerationId.isNone ∨ row.activeGenerationId.isSome ∧
      publishedInOrder t.generations id row.activeGenerationId row.previousGenerationId)
    some <$> asStorage (checkedView env
      { config := row.config
        configSha256 := row.configSha256
        controlRevision := row.controlRevision
        frozen := row.frozen
        state := row.state
        acceptedEventEnd := row.acceptedEventEnd
        active := pointed views row.activeGenerationId
        previous := pointed views row.previousGenerationId
        createdBy := row.createdBy
        createdAt := row.createdAt })

/-- `exists`. -/
def exist : Except Failure Bool := do
  require (t.scopes.rows.length ≤ 16)
  return (t.scopes.find? id).isSome

/-- The operations of a scope. -/
def operationsOf : List OperationRow :=
  (t.operations.rows.filter fun row : (String × Int) × OperationRow => row.1.1 = id).map Prod.snd

/-- `operation_data`. -/
def operationData (key : String) : Except Failure (Option OperationRow) := do
  require ((t.operationsOf id).length ≤ 64)
  return (t.operationsOf id).find? fun row => row.key = key

/-- `document`, for a pointer of the view. -/
def document (view : ScopeView) (g : String) : Except Failure GenerationDocument := do
  require (g ∈ view.pointers)
  match t.generations.find? (view.config.scopeId, g) with
  | none => .error ⟨.storage, .storageUnavailable⟩
  | some d => storedDocument env view g d

/-- The document of the active generation. -/
def currentDocument (view : ScopeView) : Except Failure (Option GenerationDocument) :=
  match view.active with
  | none => .ok none
  | some g => some <$> t.document env view g.generationId

/-- `replay` and `control_replay`, by what they make of a retained row. -/
def replay (key : String) (receiptOf : OperationRow → Except Failure Receipt) :
    Except Failure (Option Answer) := do
  match ← t.operationData id key with
  | none => return none
  | some row =>
    let receipt ← receiptOf row
    let view ← viewOr .storageUnavailable (← t.get env id)
    require (receipt.revision ≤ view.controlRevision)
    return some ⟨view, receipt, false⟩

end Read

section Write

variable (t : Tables)

/-- `insert_publication` of a generation: both keys of the table are unique. -/
def insertGeneration (id : String) (d : GenerationDocument) : Except Failure Tables :=
  if (t.generations.find? (id, d.generationId)).isSome ∨
      (generationsOf t.generations id).any fun row => row.2.publicationRevision = d.publicationRevision
    then .error ⟨.unique, .storageUnavailable⟩
  else .ok { t with generations := t.generations.put ((id, d.generationId), d) }

/-- `insert_publication` of an operation: three keys of the table are unique. -/
def insertOperation (row : OperationRow) : Except Failure Tables :=
  if t.operations.rows.any fun old =>
      (old.2.scopeId = row.scopeId ∧ (old.2.revision = row.revision ∨ old.2.key = row.key)) ∨
        old.2.operationId = row.operationId
    then .error ⟨.unique, .storageUnavailable⟩
  else .ok { t with operations := t.operations.put ((row.scopeId, row.revision), row) }

/-- The deletion of the operations before a revision. -/
def deleteBefore (id : String) (cutoff : Int) : Tables :=
  { t with
    operations := ((t.operationsOf id).filter fun row => row.revision < cutoff).foldl
      (fun d row => Table.erase d (id, row.revision)) t.operations }

/-- `retain_operation`. -/
def retainOperation (id : String) (row : OperationRow) : Except Failure Tables := do
  let t ← t.insertOperation row
  match (byRevision (t.operationsOf id)).reverse[63]? with
  | none => return t
  | some cutoff => return t.deleteBefore id cutoff.revision

/-- `UPDATE baseline_scopes … WHERE scope_id=? AND control_revision=?`; none if no row is found. -/
def updateScope (id : String) (before : Int) (next : ScopeRow) : Option Tables :=
  (t.scopes.find? id).bind fun row =>
    if row.controlRevision = before then some { t with scopes := t.scopes.put (id, next) } else none

/-- `publish`. -/
def publish (before : ScopeView) (staged : Staged) (d : GenerationDocument) :
    Except Failure Tables := do
  let id := before.config.scopeId
  let t := before.previous.elim t fun p =>
    { t with generations := t.generations.erase (id, p.generationId) }
  let t ← t.insertGeneration id d
  match t.updateScope id before.controlRevision staged.scope.row with
  | none => .error ⟨.storage, .revisionConflict⟩
  | some t => t.retainOperation id staged.row

/-- `control`. A generation that is deleted has to be there. -/
def control (before : ScopeView) (staged : Staged) : Except Failure Tables := do
  let id := before.config.scopeId
  let dropped := before.pointers.filter fun g => g ∉ staged.scope.pointers
  require (dropped.all fun g => (t.generations.find? (id, g)).isSome)
  let t :=
    { t with generations := dropped.foldl (fun d g => Table.erase d (id, g)) t.generations }
  match t.updateScope id before.controlRevision staged.scope.row with
  | none => .error ⟨.cas, .revisionConflict⟩
  | some t => t.retainOperation id staged.row

end Write

end Tables

/-- What a write transaction comes to: a replay, or a commit. -/
inductive Written where
  | replayed (answer : Answer)
  | committed (staged : Staged) (t : Tables)

section Calls

variable (env : Env)

/-- The first transaction: a replay, or the check that the scope exists. -/
def Tables.look (t : Tables) (id key : String) (receiptOf : OperationRow → Except Failure Receipt) :
    Except Failure (Option Answer) := do
  match ← t.replay env id key receiptOf with
  | some answer => return some answer
  | none =>
    let found ← t.exist id
    require found .scopeNotFound
    return none

section

variable (t : Tables) (id key : String) (receiptOf : OperationRow → Except Failure Receipt)

/-- A second look after a refusal: a replay, or the refusal. -/
def Tables.recover (failure : Failure) :
    Except Failure Answer := do
  match ← t.replay env id key receiptOf with
  | some answer => return answer
  | none => .error failure

/-- The validation of what was committed starts with its replay. -/
def Tables.reread : Except Failure Answer :=
  match t.replay env id key receiptOf with
  | .error failure =>
    if failure.code = .idempotencyConflict then .error ⟨.storage, .storageUnavailable⟩
    else .error failure
  | .ok none => .error ⟨.storage, .storageUnavailable⟩
  | .ok (some answer) => .ok answer

end

/-- Whether `sql_publish` looks a second time. -/
def Failure.eligible (f : Failure) : Bool :=
  f.kind = .unique ∨
    (f.kind ∈ [Class.storage, Class.cas, Class.read] ∧
      f.code ∈ [Code.sourceNotFound, Code.sourceChanged, Code.sourceLineageInvalid,
        Code.revisionConflict, Code.frozen])

section

variable (t : Tables) (id : String) (request : ApprovalRequest) (draw : Draw)

/-- The write transaction of `sql_publish`. -/
def sqlPublishWrite (binding : Except Failure Binding) : Except Failure Written := do
  let digest := env.digest (.approval id draw.actor request)
  let binding ← binding
  let _ ← t.exist id
  match ← t.replay env id request.idempotencyKey
      (fun row => matchApproval row id request draw.actor digest) with
  | some answer => return .replayed answer
  | none =>
    let view ← viewOr .scopeNotFound (← t.get env id)
    let current ← t.currentDocument env view
    let staged ← stagePublication env view current binding request draw digest
    match staged.document with
    | none => .error ⟨.storage, .storageUnavailable⟩
    | some d =>
      let next ← t.publish view staged d
      return .committed staged next

/-- The last transaction of `sql_publish`. -/
def sqlPublishRead (staged : Staged) : Except Failure Answer := do
  let digest := env.digest (.approval id draw.actor request)
  let answer ← t.reread env id request.idempotencyKey
    (fun row => matchApproval row id request draw.actor digest)
  match staged.document with
  | none => .error ⟨.storage, .storageUnavailable⟩
  | some d =>
    let document ← t.document env answer.scope d.generationId
    require (document = d)
    require (answer.receipt = staged.row.receipt)
    return ⟨answer.scope, staged.row.receipt, true⟩

/-- `sql_publish`: the answer, and the tables. -/
def sqlPublish (admitted : Bool) (binding : Except Failure Binding) : Except Failure Answer × Tables :=
  let digest := env.digest (.approval id draw.actor request)
  let receiptOf := fun row => matchApproval row id request draw.actor digest
  match t.look env id request.idempotencyKey receiptOf with
  | .error failure => (.error failure, t)
  | .ok (some answer) => (.ok answer, t)
  | .ok none =>
    if !admitted then (.error ⟨.storage, .busy⟩, t)
    else
      match sqlPublishWrite env t id request draw binding with
      | .error failure =>
        if failure.eligible then (t.recover env id request.idempotencyKey receiptOf failure, t)
        else (.error failure, t)
      | .ok (.replayed answer) => (.ok answer, t)
      | .ok (.committed staged next) => (sqlPublishRead env next id request draw staged, next)

end

section

variable (t : Tables) (id : String) (request : ControlRequest) (draw : Draw)

/-- The write transaction of `sql_control`. -/
def sqlControlWrite :
    Except Failure Written := do
  let digest := env.digest (.control id draw.actor request)
  let _ ← t.exist id
  match ← t.replay env id request.idempotencyKey
      (fun row => matchControl row id request draw.actor digest) with
  | some answer => return .replayed answer
  | none =>
    let view ← viewOr .scopeNotFound (← t.get env id)
    let staged ← stageControl env view request draw digest
    let next ← t.control view staged
    return .committed staged next

/-- The last transaction of `sql_control`. -/
def sqlControlRead (staged : Staged) : Except Failure Answer := do
  let digest := env.digest (.control id draw.actor request)
  let answer ← t.reread env id request.idempotencyKey
    (fun row => matchControl row id request draw.actor digest)
  require (answer.receipt = staged.row.receipt)
  if answer.scope.controlRevision = staged.scope.controlRevision then
    require (answer.scope = staged.scope)
  else
    require (staged.scope.controlRevision < answer.scope.controlRevision)
    require (answer.scope.config = staged.scope.config &&
      answer.scope.configSha256 = staged.scope.configSha256)
    require (answer.scope.createdBy = staged.scope.createdBy &&
      answer.scope.createdAt = staged.scope.createdAt)
    require (staged.scope.acceptedEventEnd.all fun end' =>
      answer.scope.acceptedEventEnd.any fun now => end' ≤ now)
  return { answer with created := true }

/-- `sql_control`: the answer, and the tables. -/
def sqlControl : Except Failure Answer × Tables :=
  let digest := env.digest (.control id draw.actor request)
  let receiptOf := fun row => matchControl row id request draw.actor digest
  match t.look env id request.idempotencyKey receiptOf with
  | .error failure => (.error failure, t)
  | .ok (some answer) => (.ok answer, t)
  | .ok none =>
    match sqlControlWrite env t id request draw with
    | .error failure =>
      if failure.kind = .unique ∨ failure.kind = .cas then
        (t.recover env id request.idempotencyKey receiptOf failure, t)
      else (.error failure, t)
    | .ok (.replayed answer) => (.ok answer, t)
    | .ok (.committed staged next) => (sqlControlRead env next id request draw staged, next)

end

/-- `sql_create`. -/
def sqlCreate (t : Tables) (config : ScopeConfig) (actor : String) (now : Instant) :
    Except Failure ((ScopeView × Bool) × Tables) := do
  match ← t.get env config.scopeId with
  | some current =>
    require (current.config = config && current.createdBy = actor) .scopeExists
    return ((current, false), t)
  | none =>
    require (t.scopes.rows.length < 16) .scopeLimit
    let proposed := newScope env config actor now
    let next := { t with scopes := t.scopes.put (config.scopeId, proposed.row) }
    let view ← next.get env config.scopeId
    require (view = some proposed)
    return ((proposed, true), next)

end Calls

end C2Hunter.Baseline
