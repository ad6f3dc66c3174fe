import C2Hunter.Outcome
import C2Hunter.Table
import Mathlib.Data.List.Sort
import Mathlib.Data.String.Basic

/-!
# Baseline scopes and generations

The values of `historical_generation.py` and the two staging functions of `_baseline_storage.py`:
what an approval or a control operation makes of the view of a scope, before anything is stored.

* `SourceReceipt`, `GenerationDocument`, `GenerationView`, `ScopeView` — the stored values, with the
  validators of their classes.
* `Env` — the functions of other files: the projection of a source, the building of windows, and
  the texts and hashes of values.
* `produceGeneration`, `stagePublication`, `stageControl` — under the source's names.

Instants are microseconds from the epoch. Of a configuration, a review and a window the functions
read only an identity; the rest is their canonical text.
-/

namespace C2Hunter.Baseline

/-! ## Failures -/

/-- The codes of errors; `other` is a code of the functions that are not modelled. -/
inductive Code where
  | storageUnavailable
  | scopeNotFound
  | scopeExists
  | scopeLimit
  | revisionConflict
  | idempotencyConflict
  | frozen
  | controlLimit
  | busy
  | sourceChanged
  | sourceState
  | sourceQuality
  | sourceDuplicate
  | sourceNotFound
  | sourceLineageInvalid
  | eventOrder
  | generationMismatch
  | rollbackUnavailable
  | other (text : String)
  deriving DecidableEq, Repr

/-- The class of an exception. -/
inductive Class where
  /-- `BaselineStorageError` -/
  | storage
  /-- `_PublicationUnique` -/
  | unique
  /-- `_ControlCAS` -/
  | cas
  /-- `HistoricalReadError` or `SourceInputError` -/
  | read
  /-- another `ValueError` -/
  | value
  deriving DecidableEq, Repr

/-- An exception. -/
structure Failure where
  kind : Class
  code : Code
  deriving DecidableEq, Repr

/-- `_require` of the storage. -/
def require (ok : Bool) (code : Code := .storageUnavailable) : Except Failure Unit :=
  if ok then .ok () else .error ⟨.storage, code⟩

/-- `_require` of the generations, and `raise ValueError(code)`. -/
def check (ok : Bool) (code : Code := .generationMismatch) : Except Failure Unit :=
  if ok then .ok () else .error ⟨.value, code⟩

theorem require_eq_ok {ok : Bool} {code : Code} {u : Unit} : require ok code = .ok u ↔ ok = true := by
  cases ok <;> simp [require]

theorem check_eq_ok {ok : Bool} {code : Code} {u : Unit} : check ok code = .ok u ↔ ok = true := by
  cases ok <;> simp [check]

/-! ## Values -/

/-- An instant, in microseconds. -/
abbrev Instant : Type := Int

/-- `timedelta(days=30)`. -/
def thirtyDays : Int := 30 * 86400 * 1000000

/-- A window of a generation: its profile key, the receipt it comes from, and the rest. -/
structure Window where
  key : String
  sourceReceiptId : String
  body : String
  deriving DecidableEq, Repr

/-- `SourceReceipt`, as far as it is read. -/
structure SourceReceipt where
  sourceReceiptId : String
  sourceJobId : String
  rootIdentity : String
  sourceBindingSha256 : String
  featureObservationSha256 : String
  actualSensorId : String
  eventStart : Instant
  eventEnd : Instant
  origin : String
  approvedBy : String
  approvedAt : Instant
  qualityReview : String
  deriving DecidableEq, Repr

/-- `GenerationDocument`. -/
structure GenerationDocument where
  generationId : String
  scopeId : String
  scopeConfigSha256 : String
  publicationRevision : Int
  publishedAt : Instant
  publishedBy : String
  sources : List SourceReceipt
  windows : List Window
  deriving DecidableEq, Repr

/-- `GenerationView`. -/
structure GenerationView where
  generationId : String
  contentSha256 : String
  publishedAt : Instant
  publishedBy : String
  sourceWindowCount : Nat
  profileCount : Nat
  oldestEventStart : Instant
  newestEventEnd : Instant
  byteSize : Nat
  deriving DecidableEq, Repr

/-- `ScopeConfig`: its identity and the rest. -/
structure ScopeConfig where
  scopeId : String
  body : String
  deriving DecidableEq, Repr

/-- `ScopeView.state`. -/
inductive State where
  | empty
  | hasReference
  | revoked
  | retired
  deriving DecidableEq, Repr

/-- `ScopeView`. -/
structure ScopeView where
  config : ScopeConfig
  configSha256 : String
  controlRevision : Int
  frozen : Bool
  state : State
  acceptedEventEnd : Option Instant
  active : Option GenerationView
  previous : Option GenerationView
  createdBy : String
  createdAt : Instant
  deriving DecidableEq, Repr

/-- The generations that a scope points to. -/
def ScopeView.pointers (v : ScopeView) : List String :=
  v.active.toList.map GenerationView.generationId ++
    v.previous.toList.map GenerationView.generationId

/-- The largest control revision. -/
def maxRevision : Int := 2 ^ 63 - 1

/-- `ControlAction`. -/
inductive ControlAction where
  | freeze
  | unfreeze
  | rollback
  | revoke
  | retire
  deriving DecidableEq, Repr

/-- `ApprovalRequest`. -/
structure ApprovalRequest where
  expectedRevision : Int
  idempotencyKey : String
  sourceJobId : String
  sourceBindingSha256 : String
  qualityReview : String
  reason : String
  deriving DecidableEq, Repr

/-- `ControlRequest`; a rollback, and nothing else, names a generation. -/
structure ControlRequest where
  expectedRevision : Int
  idempotencyKey : String
  action : ControlAction
  reason : String
  generationId : Option String
  target : action = .rollback ↔ generationId.isSome = true
  deriving DecidableEq, Repr

/-- `ApprovalReceipt` and `ControlReceipt`. -/
inductive Receipt where
  | approval (operationId : String) (revision : Int) (actor : String) (occurredAt : Instant)
      (generationId sourceJobId sourceBindingSha256 : String)
  | control (operationId : String) (action : ControlAction) (revision : Int) (actor : String)
      (occurredAt : Instant) (generationId : Option String)
  deriving DecidableEq, Repr

namespace Receipt

def operationId : Receipt → String
  | approval id .. => id
  | control id .. => id

def revision : Receipt → Int
  | approval _ revision .. => revision
  | control _ _ revision .. => revision

end Receipt

/-- A row of `baseline_operations`. -/
structure OperationRow where
  scopeId : String
  revision : Int
  key : String
  digest : String
  operationId : String
  receipt : Receipt
  deriving DecidableEq, Repr

/-- What `_approval_binding` returns: the projection of a stored job. -/
structure Binding where
  originalId : String
  body : String
  deriving DecidableEq, Repr

/-- `SourceProjection`, as far as it is read. -/
structure Source where
  originalId : String
  completed : Bool
  rootIdentity : String
  featureObservationSha256 : String
  actualSensorId : String
  origin : String
  eventStart : Instant
  eventEnd : Instant
  knownPartial : Bool
  clockUncertain : Bool
  body : String
  deriving DecidableEq, Repr

/-- What the builder returns: the number of eligible profiles, and their windows. -/
structure Built where
  eligibleProfileCount : Nat
  windows : List Window
  deriving Repr

/-- What is sent: an approval or a control operation, with the scope and the actor. -/
inductive Submission where
  | approval (scopeId actor : String) (request : ApprovalRequest)
  | control (scopeId actor : String) (request : ControlRequest)
  deriving DecidableEq

/-- The functions of other files. -/
structure Env where
  /-- the digest of `approval_arguments` and `control_arguments` -/
  digest : Submission → String
  /-- SHA-256 of different texts differs -/
  digest_injective : Function.Injective digest
  scopeConfigSha256 : ScopeConfig → String
  sourceBindingSha256 : Binding → String
  sourceFromBinding : Binding → ScopeConfig → String → Except Failure Source
  /-- `source_binding_sha256(source.source_binding())` -/
  bindingOf : Source → String
  /-- `source_build_input` -/
  buildInput : Source → ScopeConfig → String → String → Except Failure String
  /-- `build_behavior_windows_with_retained_keys` -/
  build : String → List String → Except Failure Built
  windowOrder : Window → String
  /-- the checks of a receipt that are not about its times -/
  receiptLinks : SourceReceipt → Except Failure Unit
  /-- the checks of a document that are not about its sources -/
  windowLinks : GenerationDocument → Except Failure Unit
  /-- `validate_sensor_assertion`, of a sensor, a review and an origin -/
  sensorAssertion : ScopeConfig → String → String → String → Except Failure Unit
  /-- the checks of `_reference` on a window with respect to the scope -/
  scopedWindow : ScopeConfig → Window → Except Failure Unit
  /-- `source_build_input` asks for the sensor assertion. -/
  buildInput_asserts : ∀ {source config review id input},
    buildInput source config review id = .ok input →
      sensorAssertion config source.actualSensorId review source.origin = .ok ()
  /-- The builder makes windows of the scope of its input. -/
  build_scoped : ∀ {source config review id input keys built},
    buildInput source config review id = .ok input → build input keys = .ok built →
      ∀ w ∈ built.windows, scopedWindow config w = .ok ()
  contentSha256 : GenerationDocument → String
  byteSize : GenerationDocument → Nat
  /-- the bytes of the canonical text of a receipt -/
  receiptBytes : Receipt → Nat

/-! ## Validators -/

/-- Whether each source starts after the one before has ended. -/
def ordered : List SourceReceipt → Bool
  | [] => true
  | [_] => true
  | s :: t :: rest => s.eventEnd < t.eventStart && ordered (t :: rest)

/-- The order of the sources of a document. -/
def sourceLe (s t : SourceReceipt) : Prop :=
  s.eventEnd < t.eventEnd ∨ s.eventEnd = t.eventEnd ∧ s.sourceReceiptId ≤ t.sourceReceiptId

instance : DecidableRel sourceLe := fun _ _ => inferInstanceAs (Decidable (_ ∨ _))

/-- The checks of `GenerationDocument` about its sources. -/
def GenerationDocument.sourceLinks (d : GenerationDocument) : Bool :=
  match d.sources.getLast? with
  | none => false
  | some newest =>
    d.sources.length ≤ 16 ∧ 1 ≤ d.publicationRevision ∧ d.publicationRevision ≤ maxRevision ∧
      (d.sources.map SourceReceipt.sourceReceiptId).Nodup ∧
      (d.sources.map SourceReceipt.rootIdentity).Nodup ∧
      (d.sources.map SourceReceipt.featureObservationSha256).Nodup ∧
      d.sources.insertionSort sourceLe = d.sources ∧
      (d.sources.length : Int) ≤ d.publicationRevision ∧
      newest.approvedAt = d.publishedAt ∧ newest.approvedBy = d.publishedBy ∧
      (∀ s ∈ d.sources, newest.eventEnd - s.eventEnd ≤ thirtyDays) ∧ ordered d.sources

/-- `scope_links`. -/
def ScopeView.links (env : Env) (v : ScopeView) : Bool :=
  v.configSha256 = env.scopeConfigSha256 v.config ∧
    (v.state = .hasReference ↔ v.active.isSome = true) ∧
    (v.active.isSome = true ∨ v.previous.isNone = true) ∧
    (v.state = .empty → v.acceptedEventEnd = none) ∧
    (∀ a ∈ v.active, ∀ p ∈ v.previous, a.generationId ≠ p.generationId) ∧
    (∀ g ∈ v.active.toList ++ v.previous.toList,
      ∃ t ∈ v.acceptedEventEnd, g.newestEventEnd ≤ t)

section Values

variable (env : Env)

section

variable (d : GenerationDocument)

/-- `generation_view`. -/
def generationView : GenerationView where
  generationId := d.generationId
  contentSha256 := env.contentSha256 d
  publishedAt := d.publishedAt
  publishedBy := d.publishedBy
  sourceWindowCount := d.sources.length
  profileCount := (d.windows.map Window.key).eraseDups.length
  oldestEventStart := (d.sources.map SourceReceipt.eventStart).min?.getD 0
  newestEventEnd := (d.sources.map SourceReceipt.eventEnd).max?.getD 0
  byteSize := env.byteSize d

/-- The constructor of a document. -/
def checkedDocument : Except Failure GenerationDocument := do
  check d.sourceLinks
  env.windowLinks d
  return d

/-- `generation_reference`, as a check. -/
def Env.reference (config : ScopeConfig) : Except Failure Unit := do
  let _ ← checkedDocument env d
  check (d.scopeId = config.scopeId && d.scopeConfigSha256 = env.scopeConfigSha256 config)
  d.sources.forM fun s => env.sensorAssertion config s.actualSensorId s.qualityReview s.origin
  d.windows.forM fun w => env.scopedWindow config w

end

/-- The constructor of a view. -/
def checkedView (v : ScopeView) : Except Failure ScopeView := do
  check (v.links env)
  return v

/-- The constructor of a receipt. -/
def checkedReceipt (s : SourceReceipt) : Except Failure SourceReceipt := do
  check (s.eventStart < s.eventEnd)
  env.receiptLinks s
  return s

/-! ## Staging -/

/-- The sources of the current generation that a new one retains. -/
def retainedSources (current : Option GenerationDocument) (eventEnd : Instant) :
    List SourceReceipt :=
  let kept := (current.elim [] GenerationDocument.sources).filter fun s =>
    eventEnd - s.eventEnd ≤ thirtyDays
  kept.drop (kept.length - 15)

section

variable (scope : ScopeView) (current : Option GenerationDocument)

/-- The checks of `produce_generation` on the current generation. -/
def checkCurrent :
    Except Failure Unit := do
  check (scope.active.isNone = current.isNone)
  match current with
  | none => return ()
  | some d =>
    env.reference d scope.config
    check (some (generationView env d) = scope.active)
    check (d.publicationRevision ≤ scope.controlRevision)

/-- The checks of `produce_generation` on the new source. -/
def checkSource (source : Source) (operationId generationId : String) : Except Failure Unit := do
  check (!source.knownPartial && !source.clockUncertain) .sourceQuality
  check (¬(current.elim [] GenerationDocument.sources).any fun s =>
    s.rootIdentity = source.rootIdentity ||
      s.featureObservationSha256 = source.featureObservationSha256 ||
      s.sourceReceiptId = operationId) .sourceDuplicate
  check (scope.acceptedEventEnd.all fun t => t < source.eventStart) .eventOrder
  check (generationId ∉ scope.pointers)

end

/-- The receipt of a new source. -/
def newReceipt (source : Source) (binding review operationId actor : String) (now : Instant) :
    SourceReceipt where
  sourceReceiptId := operationId
  sourceJobId := source.originalId
  rootIdentity := source.rootIdentity
  sourceBindingSha256 := binding
  featureObservationSha256 := source.featureObservationSha256
  actualSensorId := source.actualSensorId
  eventStart := source.eventStart
  eventEnd := source.eventEnd
  origin := source.origin
  approvedBy := actor
  approvedAt := now
  qualityReview := review

/-- The windows of the current generation that belong to retained sources. -/
def retainedWindows (current : Option GenerationDocument) (retained : List SourceReceipt) :
    List Window :=
  (current.elim [] GenerationDocument.windows).filter fun w =>
    w.sourceReceiptId ∈ retained.map SourceReceipt.sourceReceiptId

/-- The document of a new generation. -/
def newDocument (scope : ScopeView) (sources : List SourceReceipt) (windows : List Window)
    (generationId actor : String) (now : Instant) : GenerationDocument where
  generationId := generationId
  scopeId := scope.config.scopeId
  scopeConfigSha256 := scope.configSha256
  publicationRevision := scope.controlRevision + 1
  publishedAt := now
  publishedBy := actor
  sources := sources.insertionSort sourceLe
  windows := windows.insertionSort fun w v => env.windowOrder w ≤ env.windowOrder v

/-- `produce_generation`; the watermark that is passed is that of the scope. -/
def produceGeneration (scope : ScopeView) (current : Option GenerationDocument) (source : Source)
    (binding : String) (request : ApprovalRequest) (operationId generationId actor : String)
    (now : Instant) : Except Failure GenerationDocument := do
  check source.completed .sourceState
  check (request.expectedRevision = scope.controlRevision) .revisionConflict
  checkCurrent env scope current
  check (!scope.frozen) .frozen
  check (request.sourceJobId = source.originalId && env.bindingOf source = binding &&
    env.bindingOf source = request.sourceBindingSha256) .sourceChanged
  let input ← env.buildInput source scope.config request.qualityReview operationId
  checkSource scope current source operationId generationId
  let retained := retainedSources current source.eventEnd
  let windows := retainedWindows current retained
  let built ← env.build input (windows.map Window.key).eraseDups
  check (built.eligibleProfileCount ≠ 0) .sourceQuality
  let receipt ← checkedReceipt env
    (newReceipt source binding request.qualityReview operationId actor now)
  checkedDocument env
    (newDocument env scope (retained ++ [receipt]) (windows ++ built.windows) generationId actor now)

/-- `approval_receipt`. -/
def approvalReceipt (d : GenerationDocument) (operationId : String) : Except Failure Receipt :=
  match d.sources.getLast? with
  | none => .error ⟨.value, .generationMismatch⟩
  | some source => do
    check (source.sourceReceiptId = operationId)
    return .approval operationId d.publicationRevision d.publishedBy d.publishedAt d.generationId
      source.sourceJobId source.sourceBindingSha256

/-- `_operation_row`. -/
def operationRow (scopeId key digest : String) (receipt : Receipt) : Except Failure OperationRow := do
  require (env.receiptBytes receipt ≤ 4096) .controlLimit
  return ⟨scopeId, receipt.revision, key, digest, receipt.operationId, receipt⟩

/-- What an operation leaves: the view of the scope, the document of a new generation, and the row
of the operation. -/
structure Staged where
  scope : ScopeView
  document : Option GenerationDocument
  row : OperationRow

/-- What an approval brings with it: who approves, when, and the identities that are drawn. -/
structure Draw where
  actor : String
  now : Instant
  operationId : String
  generationId : String

/-- `_stage_publication`. -/
def stagePublication (view : ScopeView) (current : Option GenerationDocument) (binding : Binding)
    (request : ApprovalRequest) (draw : Draw) (digest : String) : Except Failure Staged := do
  require (view.controlRevision = request.expectedRevision) .revisionConflict
  require (!view.frozen) .frozen
  require (view.controlRevision < maxRevision) .controlLimit
  let hash := env.sourceBindingSha256 binding
  require (request.sourceBindingSha256 = hash && request.sourceJobId = binding.originalId)
    .sourceChanged
  let source ← env.sourceFromBinding binding view.config request.qualityReview
  let document ← produceGeneration env view current source hash request draw.operationId
    draw.generationId draw.actor draw.now
  let newest := document.sources.getLast?.elim "" SourceReceipt.sourceReceiptId
  let receipt ← approvalReceipt document newest
  let scope ← checkedView env
    { view with
      controlRevision := view.controlRevision + 1
      frozen := false
      state := .hasReference
      acceptedEventEnd := some source.eventEnd
      active := some (generationView env document)
      previous := view.active }
  let row ← operationRow env view.config.scopeId request.idempotencyKey digest receipt
  return ⟨scope, some document, row⟩

/-- The pointers and the state after a control operation. -/
def applyAction (view : ScopeView) (request : ControlRequest) :
    Except Failure (Option GenerationView × Option GenerationView × State) :=
  match request.action with
  | .rollback =>
    match view.previous with
    | none => .error ⟨.storage, .rollbackUnavailable⟩
    | some previous => do
      require (some previous.generationId = request.generationId) .generationMismatch
      return (some previous, none, view.state)
  | .revoke => return (none, none, .revoked)
  | .retire => return (none, none, .retired)
  | .freeze | .unfreeze => return (view.active, view.previous, view.state)

/-- `_stage_control`. -/
def stageControl (view : ScopeView) (request : ControlRequest) (draw : Draw) (digest : String) :
    Except Failure Staged := do
  require (view.controlRevision = request.expectedRevision) .revisionConflict
  require (view.controlRevision < maxRevision) .controlLimit
  let (active, previous, state) ← applyAction view request
  let scope ← checkedView env
    { view with
      controlRevision := view.controlRevision + 1
      frozen := request.action ≠ .unfreeze
      state := state
      active := active
      previous := previous }
  let receipt := Receipt.control draw.operationId request.action scope.controlRevision draw.actor
    draw.now request.generationId
  let row ← operationRow env view.config.scopeId request.idempotencyKey digest receipt
  return ⟨scope, none, row⟩

end Values

end C2Hunter.Baseline
