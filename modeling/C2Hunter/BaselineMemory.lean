import C2Hunter.BaselineScope

/-!
# Baseline operations in memory

`memory_get`, `memory_create`, `memory_publish` and `memory_control` of `_baseline_storage.py`, on the
three dicts of `MemoryRepository`. A call holds the lock of the repository, and assigns the dicts
that it returns, so a call that raises changes nothing.

A stored generation is its document; that its text decodes to it is not modelled.
-/

namespace C2Hunter.Baseline

/-- The dicts of `MemoryRepository`. -/
structure Store where
  scopes : Dict String ScopeView := .empty
  /-- by scope and generation -/
  generations : Dict (String × String) GenerationDocument := .empty
  /-- by scope and idempotency key -/
  operations : Dict (String × String) OperationRow := .empty

/-- `PublicationResult`; a `ControlResult` does not say whether it was applied. -/
structure Answer where
  scope : ScopeView
  receipt : Receipt
  created : Bool
  deriving DecidableEq

/-- What a decoder raises becomes a `BaselineStorageError`. -/
def asStorage {α : Type} (x : Except Failure α) : Except Failure α :=
  x.mapError fun _ => ⟨.storage, .storageUnavailable⟩

section Memory

variable (env : Env)

/-- `_document`: the view of a stored generation. -/
def documentView (config : ScopeConfig) (id : String) (d : GenerationDocument) (revision : Int) :
    Except Failure GenerationView := do
  require (1 ≤ d.publicationRevision ∧ d.publicationRevision ≤ revision)
  asStorage (env.reference d config)
  require (d.generationId = id)
  return generationView env d

/-- `_stored_document`. -/
def storedDocument (view : ScopeView) (id : String) (d : GenerationDocument) :
    Except Failure GenerationDocument := do
  let _ ← documentView env view.config id d view.controlRevision
  return d

section

variable (generations : Dict (String × String) GenerationDocument)

/-- The generations of a scope. -/
def generationsOf (id : String) : List (String × GenerationDocument) :=
  (generations.rows.filter fun row : (String × String) × GenerationDocument => row.1.1 = id).map
    fun row => (row.1.2, row.2)

/-- The check of `memory_get` on one pointer. -/
def checkPointer (value : ScopeView) (pointer : Option GenerationView) : Except Failure Unit :=
  match pointer with
  | none => .ok ()
  | some view =>
    match generations.find? (value.config.scopeId, view.generationId) with
    | none => .error ⟨.storage, .storageUnavailable⟩
    | some d => do
      let found ← documentView env value.config view.generationId d value.controlRevision
      require (found = view)

/-- The publication revision of a pointer. -/
def publicationOf (id : String) (pointer : Option String) : Option Int :=
  pointer.bind fun g => (generations.find? (id, g)).map GenerationDocument.publicationRevision

/-- Whether the previous generation was published before the active one. -/
def publishedInOrder (id : String) (active previous : Option String) : Bool :=
  match publicationOf generations id active, publicationOf generations id previous with
  | some a, some p => p < a
  | _, _ => true

end

/-- `memory_get`. -/
def memoryGet (s : Store) (id : String) : Except Failure (Option ScopeView) := do
  require (s.scopes.rows.length ≤ 16)
  match s.scopes.find? id with
  | none => return none
  | some value =>
    require (value.links env)
    require (value.config.scopeId = id)
    require (s.generations.rows.length ≤ 32)
    let retained := (generationsOf s.generations id).map Prod.fst
    require (retained.length ≤ 2 ∧ retained ⊆ value.pointers ∧ value.pointers ⊆ retained)
    checkPointer env s.generations value value.active
    checkPointer env s.generations value value.previous
    require (publishedInOrder s.generations id (value.active.map GenerationView.generationId)
      (value.previous.map GenerationView.generationId))
    return some value

section

variable (row : OperationRow) (id : String)

/-- The checks of `_operation_envelope`. -/
def rowLinks : Bool :=
  row.scopeId = id ∧ 1 ≤ row.revision ∧ row.revision ≤ maxRevision ∧
    row.receipt.revision = row.revision ∧ row.receipt.operationId = row.operationId

/-- `_operation`. -/
def matchApproval (request : ApprovalRequest) (actor digest : String) : Except Failure Receipt := do
  require (rowLinks row id)
  require (row.key = request.idempotencyKey)
  require (row.digest = digest) .idempotencyConflict
  match row.receipt with
  | .approval _ revision actor' _ _ job binding =>
    require (actor' = actor && job = request.sourceJobId &&
      binding = request.sourceBindingSha256 && revision = request.expectedRevision + 1)
    return row.receipt
  | .control .. => .error ⟨.storage, .storageUnavailable⟩

/-- `_control_operation`. -/
def matchControl (request : ControlRequest) (actor digest : String) : Except Failure Receipt := do
  require (rowLinks row id)
  require (row.key = request.idempotencyKey)
  require (row.digest = digest) .idempotencyConflict
  match row.receipt with
  | .approval .. => .error ⟨.storage, .storageUnavailable⟩
  | .control _ action revision actor' _ generation =>
    require (action = request.action && actor' = actor && revision = request.expectedRevision + 1 &&
      generation = request.generationId)
    return row.receipt

end

section

variable (operations : Dict (String × String) OperationRow) (id : String)

/-- The operations of a scope. -/
def operationsOf : List OperationRow :=
  (operations.rows.filter fun row : (String × String) × OperationRow => row.1.1 = id).map Prod.snd

/-- The checks on the dict of the operations. -/
def checkOperations :
    Except Failure Unit := do
  require (operations.rows.length ≤ 1024)
  require (operations.rows.all fun row =>
    row.2.scopeId = row.1.1 ∧ row.2.key = row.1.2 ∧ 1 ≤ row.2.revision ∧ row.2.revision ≤ maxRevision)
  require ((operationsOf operations id).length ≤ 64)

end

/-- The operations, oldest first. -/
def byRevision (rows : List OperationRow) : List OperationRow :=
  rows.insertionSort fun x y => x.revision ≤ y.revision

/-- A new operation, and the newest 64 of the scope. -/
def retain (operations : Dict (String × String) OperationRow) (id : String) (row : OperationRow) :
    Dict (String × String) OperationRow :=
  let rows := byRevision (operationsOf operations id ++ [row])
  (rows.take (rows.length - 64)).foldl (fun d old => Table.erase d (id, old.key))
    (Table.put operations ((id, row.key), row))

/-- The view of a scope, and the failure if there is none. -/
def viewOr (code : Code) (view : Option ScopeView) : Except Failure ScopeView :=
  match view with
  | none => .error ⟨.storage, code⟩
  | some view => .ok view

/-- The document of the active generation. -/
def currentDocument (generations : Dict (String × String) GenerationDocument) (id : String)
    (view : ScopeView) : Except Failure (Option GenerationDocument) :=
  match view.active with
  | none => .ok none
  | some g =>
    match generations.find? (id, g.generationId) with
    | none => .error ⟨.storage, .storageUnavailable⟩
    | some d => some <$> storedDocument env view g.generationId d

section

variable (s : Store) (id : String)

/-- The dicts after a publication. -/
def Store.published (view : ScopeView) (staged : Staged) (document : GenerationDocument) : Store where
  scopes := s.scopes.put (id, staged.scope)
  generations :=
    let kept := view.previous.elim s.generations fun p => s.generations.erase (id, p.generationId)
    Table.put kept ((id, document.generationId), document)
  operations := retain s.operations id staged.row

/-- The dicts after a control operation. -/
def Store.controlled (view : ScopeView) (staged : Staged) : Store where
  scopes := s.scopes.put (id, staged.scope)
  generations := (view.pointers.filter fun g => g ∉ staged.scope.pointers).foldl
    (fun d g => Table.erase d (id, g)) s.generations
  operations := retain s.operations id staged.row

/-- The checks before a call returns: the dicts hold what is returned. -/
def checkStored (staged : Staged) (receipt : Except Failure Receipt) :
    Except Failure Unit := do
  let view ← memoryGet env s id
  require (view = some staged.scope)
  let receipt ← receipt
  require (receipt = staged.row.receipt)

/-- `memory_publish`. `binding` is what `_approval_binding` makes of the stored job, and `admitted`
the answer of the admission. -/
def memoryPublish (request : ApprovalRequest) (draw : Draw) (admitted : Bool)
    (binding : Except Failure Binding) : Except Failure (Answer × Store) := do
  let digest := env.digest (.approval id draw.actor request)
  checkOperations s.operations id
  match s.operations.find? (id, request.idempotencyKey) with
  | some row =>
    let receipt ← matchApproval row id request draw.actor digest
    let view ← viewOr .storageUnavailable (← memoryGet env s id)
    require (receipt.revision ≤ view.controlRevision)
    return (⟨view, receipt, false⟩, s)
  | none =>
    require (s.scopes.find? id).isSome .scopeNotFound
    require admitted .busy
    let binding ← binding
    let view ← viewOr .scopeNotFound (← memoryGet env s id)
    let current ← currentDocument env s.generations id view
    let staged ← stagePublication env view current binding request draw digest
    require (s.operations.rows.all fun row => row.2.operationId ≠ staged.row.operationId)
    match staged.document with
    | none => .error ⟨.storage, .storageUnavailable⟩
    | some document =>
      let next := s.published id view staged document
      checkStored env next id staged (matchApproval staged.row id request draw.actor digest)
      return (⟨staged.scope, staged.row.receipt, true⟩, next)

/-- `memory_control`. -/
def memoryControl (request : ControlRequest) (draw : Draw) :
    Except Failure (Answer × Store) := do
  let digest := env.digest (.control id draw.actor request)
  checkOperations s.operations id
  require ((operationsOf s.operations id).map OperationRow.revision).Nodup
  match s.operations.find? (id, request.idempotencyKey) with
  | some row =>
    let receipt ← matchControl row id request draw.actor digest
    let view ← viewOr .storageUnavailable (← memoryGet env s id)
    require (receipt.revision ≤ view.controlRevision)
    return (⟨view, receipt, false⟩, s)
  | none =>
    let view ← viewOr .scopeNotFound (← memoryGet env s id)
    let staged ← stageControl env view request draw digest
    require (s.operations.rows.all fun row => row.2.operationId ≠ staged.row.operationId)
    let next := s.controlled id view staged
    checkStored env next id staged (matchControl staged.row id request draw.actor digest)
    return (⟨staged.scope, staged.row.receipt, true⟩, next)

end

/-- `new_scope`. -/
def newScope (config : ScopeConfig) (actor : String) (now : Instant) : ScopeView where
  config := config
  configSha256 := env.scopeConfigSha256 config
  controlRevision := 0
  frozen := false
  state := .empty
  acceptedEventEnd := none
  active := none
  previous := none
  createdBy := actor
  createdAt := now

/-- `memory_create`. -/
def memoryCreate (s : Store) (config : ScopeConfig) (actor : String) (now : Instant) :
    Except Failure ((ScopeView × Bool) × Store) := do
  match ← memoryGet env s config.scopeId with
  | some current =>
    require (current.config = config && current.createdBy = actor) .scopeExists
    return ((current, false), s)
  | none =>
    require (s.scopes.rows.length < 16) .scopeLimit
    let proposed := newScope env config actor now
    return ((proposed, true), { s with scopes := s.scopes.put (config.scopeId, proposed) })

end Memory

end C2Hunter.Baseline
