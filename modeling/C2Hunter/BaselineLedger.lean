import C2Hunter.BaselineMemory
import C2Hunter.InvertedIndex

/-!
# What baseline operations do

The ledger of a scope: a call whose key is retained is a replay, and changes nothing; any other call
is refused, or it is staged from the view of the scope and committed with its row. Both
implementations come to this, `memoryPublish` and `memoryControl` in this file.

* `Approved`, `Controlled` — what a staged operation did.
* `Call`, `Store.serve` — the ledger.
* `Store.Inv` — what holds of the stores that calls leave.
-/

namespace C2Hunter.Baseline

open Except Dict

open List

/-! ## Staged operations -/

variable {d : GenerationDocument} {view : ScopeView} {digest : String}
    {request : ApprovalRequest} {staged : Staged}

section Staged

variable (env : Env) {current : Option GenerationDocument}

/-- What a staged approval did: it accepted the source of `r`, in the document `d`. -/
structure Approved (view : ScopeView) (current : Option GenerationDocument) (request : ApprovalRequest)
    (draw : Draw) (digest : String) (r : SourceReceipt) (d : GenerationDocument) (staged : Staged) :
    Prop where
  expected : request.expectedRevision = view.controlRevision
  thawed : view.frozen = false
  room : view.controlRevision < maxRevision
  after : ∀ t ∈ view.acceptedEventEnd, t < r.eventStart
  starts : r.eventStart < r.eventEnd
  job : r.sourceJobId = request.sourceJobId
  binding : r.sourceBindingSha256 = request.sourceBindingSha256
  fresh : draw.generationId ∉ view.pointers
  generation : d.generationId = draw.generationId
  scopeId : d.scopeId = view.config.scopeId
  revision : d.publicationRevision = view.controlRevision + 1
  publishedBy : d.publishedBy = draw.actor
  sources : d.sources = (retainedSources current r.eventEnd ++ [r]).insertionSort sourceLe
  links : d.sourceLinks = true
  document : staged.document = some d
  scope : staged.scope =
    { view with
      controlRevision := view.controlRevision + 1
      frozen := false
      state := .hasReference
      acceptedEventEnd := some r.eventEnd
      active := some (generationView env d)
      previous := view.active }
  scopeLinks : staged.scope.links env = true
  row : ∃ newest ∈ d.sources.getLast?, staged.row =
    ⟨view.config.scopeId, d.publicationRevision, request.idempotencyKey, digest,
      newest.sourceReceiptId, .approval newest.sourceReceiptId d.publicationRevision d.publishedBy
        d.publishedAt d.generationId newest.sourceJobId newest.sourceBindingSha256⟩

variable {scope : ScopeView} {operationId generationId : String}

theorem checkSource_ok {source : Source} {u : Unit}
    (h : checkSource scope current source operationId generationId = .ok u) :
    (∀ t ∈ scope.acceptedEventEnd, t < source.eventStart) ∧ generationId ∉ scope.pointers := by
  simp only [checkSource, bind_eq_ok, check_eq_ok, exists_const] at h
  obtain ⟨-, -, hafter, hfresh⟩ := h
  refine ⟨fun t ht => ?_, of_decide_eq_true hfresh⟩
  rw [Option.mem_def] at ht
  rw [ht] at hafter
  simpa using hafter

/-- The document that `produceGeneration` returns. -/
theorem produceGeneration_ok {source : Source} {binding : String} {actor : String} {now : Instant}
    (h : produceGeneration env scope current source binding request operationId generationId actor now = .ok d) :
    (∀ t ∈ scope.acceptedEventEnd, t < source.eventStart) ∧ source.eventStart < source.eventEnd ∧
      request.sourceJobId = source.originalId ∧ generationId ∉ scope.pointers ∧
      d.sourceLinks = true ∧
      ∃ windows, d = newDocument env scope (retainedSources current source.eventEnd ++
        [newReceipt source binding request.qualityReview operationId actor now]) windows generationId actor now := by
  simp only [produceGeneration, bind_eq_ok, check_eq_ok, exists_const] at h
  obtain ⟨-, -, -, -, -, hbinding, input, -, u, hsource, built, -, -, receipt, hreceipt, hd⟩ := h
  obtain ⟨hafter, hfresh⟩ := checkSource_ok hsource
  simp only [checkedReceipt, bind_eq_ok, check_eq_ok, exists_const] at hreceipt
  obtain ⟨hstarts, -, -, hreceipt⟩ := hreceipt
  cases hreceipt
  simp only [checkedDocument, bind_eq_ok, check_eq_ok, exists_const] at hd
  obtain ⟨hlinks, -, -, hd⟩ := hd
  cases hd
  simp only [Bool.and_eq_true, decide_eq_true_eq] at hbinding
  exact ⟨hafter, of_decide_eq_true hstarts, hbinding.1.1, hfresh, hlinks, _, rfl⟩

variable {env} {draw : Draw}

/-- What `stagePublication` did. -/
theorem stagePublication_ok {binding : Binding}
    (h : stagePublication env view current binding request draw digest = .ok staged) :
    ∃ r d, Approved env view current request draw digest r d staged := by
  simp only [stagePublication, checkedView, operationRow, bind_eq_ok, require_eq_ok,
    check_eq_ok, pure_eq_ok, Except.ok.injEq, exists_const] at h
  obtain ⟨hexpected, hthawed, hroom, hbinding, source, -, d, hd, receipt, hreceipt, scope,
    ⟨hlinks, rfl⟩, row, ⟨-, rfl⟩, rfl⟩ := h
  simp only [Bool.and_eq_true, decide_eq_true_eq, Bool.not_eq_true'] at hexpected hthawed hroom hbinding
  obtain ⟨hafter, hstarts, hsame, hfresh, hsourceLinks, windows, hnew⟩ := produceGeneration_ok env hd
  refine ⟨newReceipt source (env.sourceBindingSha256 binding) request.qualityReview draw.operationId
      draw.actor draw.now, d,
    { expected := hexpected.symm
      thawed := hthawed
      room := hroom
      after := hafter
      starts := hstarts
      job := hsame.symm
      binding := hbinding.1.symm
      fresh := hfresh
      generation := congrArg GenerationDocument.generationId hnew
      scopeId := congrArg GenerationDocument.scopeId hnew
      revision := congrArg GenerationDocument.publicationRevision hnew
      publishedBy := congrArg GenerationDocument.publishedBy hnew
      sources := congrArg GenerationDocument.sources hnew
      links := hsourceLinks
      document := rfl
      scope := rfl
      scopeLinks := hlinks
      row := ?_ }⟩
  cases hlast : d.sources.getLast? with
  | none =>
    rw [approvalReceipt, hlast] at hreceipt
    cases hreceipt
  | some newest =>
    simp only [approvalReceipt, hlast, bind_eq_ok, check_eq_ok, pure_eq_ok,
      Except.ok.injEq, exists_const, Option.elim_some] at hreceipt
    obtain ⟨-, rfl⟩ := hreceipt
    exact ⟨newest, rfl, rfl⟩

/-- What a staged control operation did. -/
structure Controlled (env : Env) (view : ScopeView) (request : ControlRequest) (draw : Draw)
    (digest : String) (staged : Staged) : Prop where
  expected : request.expectedRevision = view.controlRevision
  room : view.controlRevision < maxRevision
  document : staged.document = none
  scope : ∃ active previous state, applyAction view request = .ok (active, previous, state) ∧
    staged.scope =
      { view with
        controlRevision := view.controlRevision + 1
        frozen := request.action ≠ .unfreeze
        state := state
        active := active
        previous := previous }
  scopeLinks : staged.scope.links env = true
  row : staged.row =
    ⟨view.config.scopeId, view.controlRevision + 1, request.idempotencyKey, digest, draw.operationId,
      .control draw.operationId request.action (view.controlRevision + 1) draw.actor draw.now
        request.generationId⟩

theorem stageControl_ok {request : ControlRequest} (h : stageControl env view request draw digest = .ok staged) :
    Controlled env view request draw digest staged := by
  simp only [stageControl, checkedView, operationRow, bind_eq_ok, require_eq_ok,
    check_eq_ok, pure_eq_ok, Except.ok.injEq, exists_const] at h
  obtain ⟨hexpected, hroom, ⟨active, previous, state⟩, haction, scope, ⟨hlinks, rfl⟩, row, ⟨-, rfl⟩, rfl⟩ := h
  simp only [decide_eq_true_eq] at hexpected hroom
  exact ⟨hexpected.symm, hroom, rfl, ⟨active, previous, state, haction, rfl⟩, hlinks, rfl⟩

/-- A control operation keeps the pointers, goes back to the previous generation, or drops both. -/
theorem applyAction_ok {request : ControlRequest}
    {active previous : Option GenerationView} {state : State}
    (h : applyAction view request = .ok (active, previous, state)) :
    active = view.active ∧ previous = view.previous ∨
      active = view.previous ∧ previous = none ∨ active = none ∧ previous = none := by
  rw [applyAction] at h
  cases haction : request.action with
  | rollback =>
    rw [haction] at h
    cases hprevious : view.previous with
    | none =>
      rw [hprevious] at h
      cases h
    | some g =>
      simp only [hprevious, bind_eq_ok, require_eq_ok, pure_eq_ok, Except.ok.injEq,
        Prod.mk.injEq, exists_const] at h
      exact .inr (.inl ⟨h.2.1.symm, h.2.2.1.symm⟩)
  | revoke | retire =>
    rw [haction] at h
    simp only [pure_eq_ok, Except.ok.injEq, Prod.mk.injEq] at h
    exact .inr (.inr ⟨h.1.symm, h.2.1.symm⟩)
  | freeze | unfreeze =>
    rw [haction] at h
    simp only [pure_eq_ok, Except.ok.injEq, Prod.mk.injEq] at h
    exact .inl ⟨h.1.symm, h.2.1.symm⟩

end Staged

/-! ## Calls -/

/-- The receipt says what was submitted. -/
def Receipt.Answers : Receipt → Submission → Prop
  | .approval _ revision actor _ _ job binding, .approval _ actor' request =>
    actor = actor' ∧ job = request.sourceJobId ∧ binding = request.sourceBindingSha256 ∧
      revision = request.expectedRevision + 1
  | .control _ action revision actor _ generation, .control _ actor' request =>
    action = request.action ∧ actor = actor' ∧ revision = request.expectedRevision + 1 ∧
      generation = request.generationId
  | _, _ => False

namespace Submission

def scopeId : Submission → String
  | approval id .. => id
  | control id .. => id

def key : Submission → String
  | approval _ _ request => request.idempotencyKey
  | control _ _ request => request.idempotencyKey

def expectedRevision : Submission → Int
  | approval _ _ request => request.expectedRevision
  | control _ _ request => request.expectedRevision

end Submission

/-- A call: what is submitted, and how it is staged. -/
structure Call where
  submission : Submission
  /-- what a retained row makes of the call -/
  receiptOf : OperationRow → Except Failure Receipt
  stage : ScopeView → Option GenerationDocument → Except Failure Staged

/-- The dicts after an operation. -/
def Store.commit (s : Store) (id : String) (view : ScopeView) (staged : Staged) : Store where
  scopes := s.scopes.put (id, staged.scope)
  generations :=
    let kept := (view.pointers.filter fun g => g ∉ staged.scope.pointers).foldl
      (fun d g => Table.erase d (id, g)) s.generations
    staged.document.elim kept fun d => Table.put kept ((id, d.generationId), d)
  operations := retain s.operations id staged.row

/-- The document of the active generation. -/
def Store.current (s : Store) (id : String) (view : ScopeView) : Option GenerationDocument :=
  view.active.bind fun g => s.generations.find? (id, g.generationId)

/-- What a call comes to. -/
def Store.serve (s : Store) (call : Call) : Except Failure (Answer × Store) := do
  let id := call.submission.scopeId
  match s.operations.find? (id, call.submission.key) with
  | some row =>
    let receipt ← call.receiptOf row
    let view ← viewOr .storageUnavailable (s.scopes.find? id)
    return (⟨view, receipt, false⟩, s)
  | none =>
    let view ← viewOr .scopeNotFound (s.scopes.find? id)
    let staged ← call.stage view (s.current id view)
    require (s.operations.rows.all fun row => row.2.operationId ≠ staged.row.operationId)
    return (⟨staged.scope, staged.row.receipt, true⟩, s.commit id view staged)

variable {id : String}

section Calls

variable (env : Env)

/-- The call of an approval. -/
def approvalCall (id : String) (request : ApprovalRequest) (draw : Draw) (admitted : Bool)
    (binding : Except Failure Binding) : Call where
  submission := .approval id draw.actor request
  receiptOf row :=
    matchApproval row id request draw.actor (env.digest (.approval id draw.actor request))
  stage view current := do
    require admitted .busy
    let binding ← binding
    stagePublication env view current binding request draw
      (env.digest (.approval id draw.actor request))

/-- The call of a control operation. -/
def controlCall (id : String) (request : ControlRequest) (draw : Draw) : Call where
  submission := .control id draw.actor request
  receiptOf row :=
    matchControl row id request draw.actor (env.digest (.control id draw.actor request))
  stage view _ :=
    stageControl env view request draw (env.digest (.control id draw.actor request))

/-- Where the pointers go. -/
inductive Moves (view : ScopeView) (staged : Staged) : Prop where
  | published (d : GenerationDocument) (hdocument : staged.document = some d)
      (hactive : staged.scope.active = some (generationView env d))
      (hprevious : staged.scope.previous = view.active) (hfresh : d.generationId ∉ view.pointers)
      (hrevision : d.publicationRevision = view.controlRevision + 1)
  | controlled (hdocument : staged.document = none)
      (h : staged.scope.active = view.active ∧ staged.scope.previous = view.previous ∨
        staged.scope.active = view.previous ∧ staged.scope.previous = none ∨
        staged.scope.active = none ∧ staged.scope.previous = none)

/-- What every staged operation does. -/
structure Steps (submission : Submission) (view : ScopeView) (staged : Staged) : Prop where
  expected : submission.expectedRevision = view.controlRevision
  room : view.controlRevision < maxRevision
  config : staged.scope.config = view.config
  revision : staged.scope.controlRevision = view.controlRevision + 1
  links : staged.scope.links env = true
  moves : Moves env view staged
  scopeId : staged.row.scopeId = view.config.scopeId
  key : staged.row.key = submission.key
  digest : staged.row.digest = env.digest submission
  rowRevision : staged.row.revision = view.controlRevision + 1
  receiptRevision : staged.row.receipt.revision = staged.row.revision
  receiptId : staged.row.receipt.operationId = staged.row.operationId
  answers : staged.row.receipt.Answers submission

variable {env} {current : Option GenerationDocument} {draw : Draw} {r : SourceReceipt}

theorem Controlled.steps {request : ControlRequest}
    (h : Controlled env view request draw (env.digest (.control id draw.actor request)) staged) :
    Steps env (.control id draw.actor request) view staged := by
  obtain ⟨active, previous, state, haction, hscope⟩ := h.scope
  have hpointers := applyAction_ok haction
  exact
    { expected := h.expected
      room := h.room
      config := by rw [hscope]
      revision := by rw [hscope]
      links := h.scopeLinks
      moves := .controlled h.document (by rw [hscope]; exact hpointers)
      scopeId := by rw [h.row]
      key := by rw [h.row]; rfl
      digest := by rw [h.row]
      rowRevision := by rw [h.row]
      receiptRevision := by rw [h.row]; rfl
      receiptId := by rw [h.row]; rfl
      answers := by rw [h.row]; exact ⟨rfl, rfl, by rw [h.expected], rfl⟩ }

instance : IsTrans SourceReceipt sourceLe where
  trans s t u hst htu := by
    simp only [sourceLe] at hst htu ⊢
    obtain hst | ⟨hst, hst'⟩ := hst
    · exact .inl (htu.elim hst.trans fun h => hst.trans_eq h.1)
    · obtain htu | ⟨htu, htu'⟩ := htu
      · exact .inl (hst.trans_lt htu)
      · exact .inr ⟨hst.trans htu, hst'.trans htu'⟩

instance : Std.Total sourceLe where
  total s t := by
    simp only [sourceLe]
    obtain hlt | heq | hgt := lt_trichotomy s.eventEnd t.eventEnd
    · exact .inl (.inl hlt)
    · exact (le_total s.sourceReceiptId t.sourceReceiptId).imp (fun h => .inr ⟨heq, h⟩)
        fun h => .inr ⟨heq.symm, h⟩
    · exact .inr (.inl hgt)

/-- The newest of the sources is the last one. -/
theorem getLast?_insertionSort {retained : List SourceReceipt} (h : ∀ s ∈ retained, s.eventEnd < r.eventEnd) :
    ((retained ++ [r]).insertionSort sourceLe).getLast? = some r := by
  have hperm := perm_insertionSort sourceLe (retained ++ [r])
  have hsorted := pairwise_insertionSort sourceLe (retained ++ [r])
  have hmem : r ∈ (retained ++ [r]).insertionSort sourceLe := hperm.mem_iff.mpr (by simp)
  generalize (retained ++ [r]).insertionSort sourceLe = sorted at hperm hsorted hmem
  obtain ⟨front, last, rfl⟩ := (eq_nil_or_concat sorted).resolve_left (ne_nil_of_mem hmem)
  rw [concat_eq_append] at hperm hsorted hmem ⊢
  rw [getLast?_append, getLast?_singleton, Option.some_or, Option.some.injEq]
  have hlast : last ∈ retained ++ [r] := hperm.mem_iff.mp (by simp)
  obtain hlast | hlast := mem_append.mp hlast
  · -- a retained source ends before the new one, so it does not come last
    have hbefore := h last hlast
    obtain hmem | hmem := mem_append.mp hmem
    · have hle := (pairwise_append.mp hsorted).2.2 r hmem last (by simp)
      exact absurd hbefore (not_lt_of_ge (hle.elim le_of_lt fun h => h.1.le))
    · exact (mem_singleton.mp hmem).symm
  · exact mem_singleton.mp hlast

theorem mem_retainedSources {eventEnd : Instant}
    {s : SourceReceipt} (h : s ∈ retainedSources current eventEnd) :
    ∃ d ∈ current, s ∈ d.sources := by
  have hkept := mem_of_mem_filter (mem_of_mem_drop h)
  cases current with
  | none => cases hkept
  | some d => exact ⟨d, rfl, hkept⟩

/-- The sources of the current generation end at the watermark or before. -/
def Watermarked (view : ScopeView) (current : Option GenerationDocument) : Prop :=
  ∀ d ∈ current, ∀ s ∈ d.sources, ∃ t ∈ view.acceptedEventEnd, s.eventEnd ≤ t

/-- The new source is the newest one. -/
theorem Approved.newest (h : Approved env view current request draw digest r d staged)
    (hcurrent : Watermarked view current) : d.sources.getLast? = some r := by
  rw [h.sources]
  refine getLast?_insertionSort fun s hs => ?_
  obtain ⟨d', hd', hmem⟩ := mem_retainedSources hs
  obtain ⟨t, ht, hle⟩ := hcurrent d' hd' s hmem
  exact (hle.trans_lt (h.after t ht)).trans h.starts

theorem Approved.steps
    (h : Approved env view current request draw (env.digest (.approval id draw.actor request)) r d
      staged) (hcurrent : Watermarked view current) :
    Steps env (.approval id draw.actor request) view staged := by
  obtain ⟨newest, hnewest, hrow⟩ := h.row
  obtain rfl : newest = r := Option.some.inj (hnewest.symm.trans (h.newest hcurrent))
  exact
    { expected := h.expected
      room := h.room
      config := by rw [h.scope]
      revision := by rw [h.scope]
      links := h.scopeLinks
      moves := .published d h.document (by rw [h.scope]) (by rw [h.scope])
        (by rw [h.generation]; exact h.fresh) h.revision
      scopeId := by rw [hrow]
      key := by rw [hrow]; rfl
      digest := by rw [hrow]
      rowRevision := by rw [hrow]; exact h.revision
      receiptRevision := by rw [hrow]; rfl
      receiptId := by rw [hrow]; rfl
      answers := by
        rw [hrow]
        exact ⟨h.publishedBy, h.job, h.binding, by rw [h.revision, h.expected]⟩ }

end Calls

/-! ## Stores -/

/-- What is stored of a generation that a scope points to. -/
structure Points (env : Env) (s : Store) (id : String) (view : ScopeView) (g : GenerationView)
    (d : GenerationDocument) : Prop where
  stored : s.generations.find? (id, g.generationId) = some d
  shown : generationView env d = g
  generation : d.generationId = g.generationId
  reference : env.reference d view.config = .ok ()
  positive : 1 ≤ d.publicationRevision
  revision : d.publicationRevision ≤ view.controlRevision

/-- What is stored of a scope. -/
structure ScopeInv (env : Env) (s : Store) (id : String) (view : ScopeView) : Prop where
  config : view.config.scopeId = id
  links : view.links env = true
  nonneg : 0 ≤ view.controlRevision
  le_max : view.controlRevision ≤ maxRevision
  active : ∀ g ∈ view.active, ∃ d, Points env s id view g d
  previous : ∀ g ∈ view.previous, ∃ d, Points env s id view g d
  order : ∀ g ∈ view.active, ∀ g' ∈ view.previous, ∀ d d',
    s.generations.find? (id, g.generationId) = some d →
    s.generations.find? (id, g'.generationId) = some d' →
    d'.publicationRevision < d.publicationRevision

/-- What is stored of an operation. -/
structure RowInv (env : Env) (s : Store) (k : String × String) (row : OperationRow) : Prop where
  scopeId : row.scopeId = k.1
  key : row.key = k.2
  positive : 1 ≤ row.revision
  le_max : row.revision ≤ maxRevision
  receiptRevision : row.receipt.revision = row.revision
  receiptId : row.receipt.operationId = row.operationId
  scope : ∃ view, s.scopes.find? k.1 = some view ∧ row.revision ≤ view.controlRevision
  submitted : ∃ submission : Submission, submission.scopeId = k.1 ∧ submission.key = k.2 ∧
    row.digest = env.digest submission ∧ row.receipt.Answers submission

/-- What holds of the dicts after any calls. -/
structure Store.Inv (env : Env) (s : Store) : Prop where
  few : s.scopes.rows.length ≤ 16
  scope : ∀ id view, s.scopes.find? id = some view → ScopeInv env s id view
  generation : ∀ key d, s.generations.find? key = some d →
    ∃ view, s.scopes.find? key.1 = some view ∧ key.2 ∈ view.pointers
  operation : ∀ key row, s.operations.find? key = some row → RowInv env s key row
  distinct : ∀ id, ((operationsOf s.operations id).map OperationRow.revision).Nodup
  retained : ∀ id, (operationsOf s.operations id).length ≤ 64

theorem Store.Inv.empty (env : Env) : ({} : Store).Inv env where
  few := Nat.zero_le _
  scope _ _ h := by cases h
  generation _ _ h := by cases h
  operation _ _ h := by cases h
  distinct _ := nodup_nil
  retained _ := Nat.zero_le _

section Inv

variable {env : Env} {s : Store}

/-- If the rows of a list are split by keys, each part being small, the list is small. -/
theorem length_le_mul {α κ : Type} [DecidableEq κ] (f : α → κ) (ks : List κ) (n : Nat) (l : List α)
    (hkeys : ∀ x ∈ l, f x ∈ ks) (hparts : ∀ k, (l.filter fun x => f x = k).length ≤ n) :
    l.length ≤ n * ks.length := by
  have hsum := InvertedIndex.sum_filter_key ks.nodup_dedup f (fun _ => 1) fun x hx =>
    mem_dedup.mpr (hkeys x hx)
  simp only [map_const', sum_replicate, smul_eq_mul, mul_one] at hsum
  rw [← hsum]
  refine (sum_le_card_nsmul _ n ?_).trans ?_
  · simp [hparts]
  · rw [length_map, smul_eq_mul, Nat.mul_comm]
    exact Nat.mul_le_mul_left n ks.dedup_sublist.length_le

theorem Store.Inv.operations_le (h : s.Inv env) : s.operations.rows.length ≤ 1024 := by
  have hle := length_le_mul (fun row : (String × String) × OperationRow => row.1.1) s.scopes.keys 64
    s.operations.rows (fun row hrow => ?_) fun id => ?_
  · have hfew := h.few
    rw [Dict.keys, length_map] at hle
    omega
  · obtain ⟨view, hview, -⟩ := (h.operation row.1 row.2 (find?_eq_some.mpr hrow)).scope
    exact mem_map.mpr ⟨(row.1.1, view), find?_eq_some.mp hview, rfl⟩
  · have hretained := h.retained id
    rwa [operationsOf, length_map] at hretained

variable {g : String}

section

theorem mem_generationsOf {generations : Dict (String × String) GenerationDocument} :
    (g, d) ∈ generationsOf generations id ↔ generations.find? (id, g) = some d := by
  rw [generationsOf, mem_map, find?_eq_some]
  constructor
  · rintro ⟨row, hrow, heq⟩
    obtain ⟨hmem, hid⟩ := mem_filter.mp hrow
    obtain ⟨rfl, rfl⟩ := Prod.mk.inj heq
    obtain rfl := of_decide_eq_true hid
    exact hmem
  · intro hmem
    exact ⟨((id, g), d), mem_filter.mpr ⟨hmem, by simp⟩, rfl⟩

/-- The keys of one scope. -/
theorem nodup_filter_scope {α : Type} (d : Dict (String × String) α) (id : String) :
    ((d.rows.filter fun row : (String × String) × α => row.1.1 = id).map fun row => row.1.2).Nodup := by
  have hkeys : ((d.rows.filter fun row : (String × String) × α => row.1.1 = id).map Prod.fst).Nodup :=
    d.nodup.sublist (filter_sublist.map _)
  rw [nodup_iff_pairwise_ne, pairwise_map] at hkeys ⊢
  refine hkeys.imp_of_mem fun {x y} hx hy hne heq => hne ?_
  have hxid := of_decide_eq_true (mem_filter.mp hx).2
  have hyid := of_decide_eq_true (mem_filter.mp hy).2
  exact Prod.ext (hxid.trans hyid.symm) heq

theorem generationsOf_nodup (generations : Dict (String × String) GenerationDocument) (id : String) :
    ((generationsOf generations id).map Prod.fst).Nodup := by
  rw [generationsOf, map_map]
  exact nodup_filter_scope generations id

theorem length_pointers (view : ScopeView) : view.pointers.length ≤ 2 := by
  rw [ScopeView.pointers, length_append, length_map, length_map]
  cases view.active <;> cases view.previous <;> simp

/-- What a pointer of a scope points to. -/
theorem ScopeInv.points (h : ScopeInv env s id view) (hg : g ∈ view.pointers) :
    ∃ v d, v.generationId = g ∧ Points env s id view v d := by
  rw [ScopeView.pointers, ← map_append] at hg
  obtain ⟨v, hv, rfl⟩ := mem_map.mp hg
  obtain ⟨d, hd⟩ : ∃ d, Points env s id view v d := by
    obtain hv | hv := mem_append.mp hv
    · exact h.active v (Option.mem_toList.mp hv)
    · exact h.previous v (Option.mem_toList.mp hv)
  exact ⟨v, d, rfl, hd⟩

/-- The stored generations of a scope are those it points to. -/
theorem Store.Inv.ids (h : s.Inv env) (hview : s.scopes.find? id = some view) (g : String) :
    g ∈ (generationsOf s.generations id).map Prod.fst ↔ g ∈ view.pointers := by
  constructor
  · intro hg
    obtain ⟨row, hrow, rfl⟩ := mem_map.mp hg
    obtain ⟨view', hview', hmem⟩ := h.generation (id, row.1) row.2 (mem_generationsOf.mp hrow)
    cases hview.symm.trans hview'
    exact hmem
  · intro hg
    obtain ⟨v, d, rfl, hd⟩ := (h.scope id view hview).points hg
    exact mem_map.mpr ⟨(v.generationId, d), mem_generationsOf.mpr hd.stored, rfl⟩

theorem Store.Inv.generations_le (h : s.Inv env) : s.generations.rows.length ≤ 32 := by
  have hle := length_le_mul (fun row : (String × String) × GenerationDocument => row.1.1) s.scopes.keys
    2 s.generations.rows (fun row hrow => ?_) fun id => ?_
  · have hfew := h.few
    rw [Dict.keys, length_map] at hle
    omega
  · obtain ⟨view, hview, -⟩ := h.generation row.1 row.2 (find?_eq_some.mpr hrow)
    exact mem_map.mpr ⟨(row.1.1, view), find?_eq_some.mp hview, rfl⟩
  · have hlength : (s.generations.rows.filter fun row : (String × String) × GenerationDocument =>
        row.1.1 = id).length = ((generationsOf s.generations id).map Prod.fst).length := by
      rw [length_map, generationsOf, length_map]
    rw [hlength]
    cases hview : s.scopes.find? id with
    | none =>
      rw [length_map, length_eq_zero_iff.mpr]
      · exact Nat.zero_le _
      · refine eq_nil_iff_forall_not_mem.mpr fun row hrow => ?_
        obtain ⟨view, hview', -⟩ := h.generation (id, row.1) row.2 (mem_generationsOf.mp hrow)
        rw [hview] at hview'
        cases hview'
    | some view =>
      refine le_trans ?_ (length_pointers view)
      refine ((generationsOf_nodup _ _).subperm fun g hg => ?_).length_le
      exact (h.ids hview g).mp hg

theorem Points.documentView_eq {g : GenerationView} (h : Points env s id view g d) :
    documentView env view.config g.generationId d view.controlRevision = .ok g := by
  simp only [documentView, asStorage, h.reference, require, h.positive, h.revision, h.generation,
    and_self, decide_true, if_true, Except.mapError, ok_bind, h.shown]
  rfl

theorem checkPointer_eq (hconfig : view.config.scopeId = id) {pointer : Option GenerationView}
    (h : ∀ g ∈ pointer, ∃ d, Points env s id view g d) :
    checkPointer env s.generations view pointer = .ok () := by
  cases pointer with
  | none => rfl
  | some g =>
    obtain ⟨d, hd⟩ := h g rfl
    rw [checkPointer, hconfig]
    simp only [hd.stored, hd.documentView_eq, ok_bind]
    simp [require]

theorem ScopeInv.publishedInOrder_eq (h : ScopeInv env s id view) :
    publishedInOrder s.generations id (view.active.map GenerationView.generationId)
      (view.previous.map GenerationView.generationId) = true := by
  rw [publishedInOrder, publicationOf, publicationOf]
  cases hactive : view.active with
  | none => rfl
  | some g =>
    cases hprevious : view.previous with
    | none =>
      simp only [Option.map_none, Option.bind_none]
      split
      · rename_i hnone
        cases hnone
      · rfl
    | some g' =>
      obtain ⟨d, hd⟩ := h.active g hactive
      obtain ⟨d', hd'⟩ := h.previous g' hprevious
      simp only [Option.map_some, Option.bind_some, hd.stored, hd'.stored]
      exact decide_eq_true (h.order g hactive g' hprevious d d' hd.stored hd'.stored)

/-- A store that calls leave is read as it is. -/
theorem Store.Inv.memoryGet_eq (h : s.Inv env) (id : String) : memoryGet env s id = .ok (s.scopes.find? id) := by
  rw [memoryGet]
  simp only [require, h.few, decide_true, if_true, ok_bind]
  cases hview : s.scopes.find? id with
  | none => rfl
  | some view =>
    have hscope := h.scope id view hview
    have hids : ((generationsOf s.generations id).map Prod.fst).length ≤ 2 ∧
        (generationsOf s.generations id).map Prod.fst ⊆ view.pointers ∧
        view.pointers ⊆ (generationsOf s.generations id).map Prod.fst := by
      refine ⟨?_, fun g => (h.ids hview g).mp, fun g => (h.ids hview g).mpr⟩
      refine le_trans ?_ (length_pointers view)
      exact ((generationsOf_nodup _ _).subperm fun g => (h.ids hview g).mp).length_le
    simp only [hscope.links, hscope.config, h.generations_le, hids, hscope.publishedInOrder_eq,
      checkPointer_eq hscope.config hscope.active, checkPointer_eq hscope.config hscope.previous,
      decide_true, if_true, ok_bind, and_self]
    rfl

/-! ## Retention -/

/-- The operations that a new one pushes out. -/
def oldest (rows : List OperationRow) : List OperationRow :=
  (byRevision rows).take ((byRevision rows).length - 64)

theorem filter_notMem_take {α κ : Type} [DecidableEq κ] (f : α → κ) {l : List α}
    (hnodup : (l.map f).Nodup) (n : Nat) :
    (l.filter fun x => f x ∉ (l.take n).map f) = l.drop n := by
  have hsplit : l.filter (fun x => f x ∉ (l.take n).map f) = (l.take n).filter (fun x => f x ∉ (l.take n).map f) ++
        (l.drop n).filter fun x => f x ∉ (l.take n).map f := by
    rw [← filter_append, take_append_drop]
  have htake : (l.take n).filter (fun x => f x ∉ (l.take n).map f) = [] := by
    exact filter_eq_nil_iff.mpr fun x hx h => of_decide_eq_true h (mem_map_of_mem hx)
  have hdrop : (l.drop n).filter (fun x => f x ∉ (l.take n).map f) = l.drop n := by
    refine filter_eq_self.mpr fun x hx => decide_eq_true fun hmem => ?_
    rw [← take_append_drop n l, map_append, nodup_append] at hnodup
    exact hnodup.2.2 _ hmem _ (mem_map_of_mem hx) rfl
  rw [hsplit, htake, hdrop, nil_append]

theorem byRevision_perm (rows : List OperationRow) : (byRevision rows).Perm rows :=
  perm_insertionSort _ _

/-- At most 64 operations remain. -/
theorem length_filter_oldest {rows : List OperationRow} (hnodup : (rows.map OperationRow.key).Nodup) :
    (rows.filter fun row => row.key ∉ (oldest rows).map OperationRow.key).length ≤ 64 := by
  have hsorted : ((byRevision rows).map OperationRow.key).Nodup :=
    ((byRevision_perm rows).map _).nodup_iff.mpr hnodup
  have hdrop := filter_notMem_take OperationRow.key hsorted ((byRevision rows).length - 64)
  rw [← ((byRevision_perm rows).filter _).length_eq]
  rw [oldest, hdrop, length_drop]
  omega

end

variable {k : String × String} {operations : Dict (String × String) OperationRow} {row : OperationRow}

section Retain

section

variable (hnew : operations.find? (id, row.key) = none)

include hnew

theorem retain_rows : (retain operations id row).rows = (operations.rows ++ [((id, row.key), row)]).filter fun e =>
        e.1 ∉ (oldest (operationsOf operations id ++ [row])).map fun old => (id, old.key) := by
  have hget : Table.get? operations (id, row.key) = none := Option.map_eq_none_iff.mp hnew
  have hput : (Table.put operations ((id, row.key), row)).rows =
      operations.rows ++ [((id, row.key), row)] := Table.rows_put_of_get?_eq_none hget
  have hfold : retain operations id row =
      ((oldest (operationsOf operations id ++ [row])).map fun old => (id, old.key)).foldl Table.erase
        (Table.put operations ((id, row.key), row)) := by
    rw [retain, foldl_map]
    rfl
  rw [hfold, Table.rows_foldl_erase, hput]
  exact filter_congr fun e _ => decide_eq_decide.mpr Iff.rfl

/-- An operation that is retained was there, or is the new one. -/
theorem find?_retain {r : OperationRow} (h : (retain operations id row).find? k = some r) :
    operations.find? k = some r ∨ k = (id, row.key) ∧ r = row := by
  have hmem := find?_eq_some.mp h
  rw [retain_rows hnew] at hmem
  obtain hmem | hmem := mem_append.mp (mem_filter.mp hmem).1
  · exact .inl (find?_eq_some.mpr hmem)
  · exact .inr (Prod.mk.inj (mem_singleton.mp hmem))

theorem operationsOf_retain_of_ne {id' : String} (hne : id' ≠ id) :
    operationsOf (retain operations id row) id' = operationsOf operations id' := by
  rw [operationsOf, operationsOf, retain_rows hnew, filter_filter, filter_append]
  congr 1
  have hlast : ([((id, row.key), row)].filter fun e : (String × String) × OperationRow =>
      decide (e.1.1 = id') && decide (e.1 ∉ (oldest (operationsOf operations id ++ [row])).map
        fun old => (id, old.key))) = [] := by
    rw [filter_cons_of_neg (by simp [Ne.symm hne]), filter_nil]
  rw [hlast, append_nil]
  refine filter_congr fun e _ => ?_
  by_cases he : e.1.1 = id'
  · have hmem : e.1 ∉ (oldest (operationsOf operations id ++ [row])).map fun old => (id, old.key) := by
      intro hmem
      obtain ⟨old, -, heq⟩ := mem_map.mp hmem
      exact hne (he.symm.trans (congrArg Prod.fst heq).symm)
    simp only [he, hmem, not_false_eq_true, decide_true, Bool.and_true]
  · simp only [he, decide_false, Bool.false_and]

theorem operationsOf_retain (hkeys : ∀ e ∈ operations.rows, e.2.key = e.1.2) :
    operationsOf (retain operations id row) id = (operationsOf operations id ++ [row]).filter fun r =>
        r.key ∉ (oldest (operationsOf operations id ++ [row])).map OperationRow.key := by
  have hmap : operationsOf operations id ++ [row] =
      ((operations.rows ++ [((id, row.key), row)]).filter fun e : (String × String) × OperationRow =>
        e.1.1 = id).map Prod.snd := by
    rw [filter_append, map_append, filter_cons_of_pos (by simp), filter_nil]
    rfl
  generalize hold : oldest (operationsOf operations id ++ [row]) = old
  rw [operationsOf, retain_rows hnew, hold, hmap, filter_map, filter_filter, filter_filter]
  congr 1
  refine filter_congr fun e he => ?_
  have hkey : e.2.key = e.1.2 := by
    obtain he | he := mem_append.mp he
    · exact hkeys e he
    · rw [mem_singleton.mp he]
  by_cases hid : e.1.1 = id
  · have hmem : e.1 ∈ old.map (fun r => (id, r.key)) ↔ e.2.key ∈ old.map OperationRow.key := by
      rw [mem_map, mem_map, hkey]
      refine exists_congr fun r => and_congr_right fun _ => ?_
      rw [Prod.ext_iff]
      exact ⟨fun h => h.2, fun h => ⟨hid.symm, h⟩⟩
    simp only [hid, hmem, decide_true, Bool.true_and, Bool.and_true, Function.comp_apply]
  · simp only [hid, decide_false, Bool.false_and, Bool.and_false]

end

end Retain

/-! ## Commits -/

section Commit

variable {submission : Submission}

/-- The generations after an operation. -/
theorem find?_generations_commit (k : String × String) : (s.commit id view staged).generations.find? k =
      if ∃ d ∈ staged.document, k = (id, d.generationId) then staged.document
      else if k.1 = id ∧ k.2 ∈ view.pointers ∧ k.2 ∉ staged.scope.pointers then none
      else s.generations.find? k := by
  have hfold : (view.pointers.filter fun g => g ∉ staged.scope.pointers).foldl
      (fun d g => Table.erase d (id, g)) s.generations =
      ((view.pointers.filter fun g => g ∉ staged.scope.pointers).map fun g => (id, g)).foldl
        Table.erase s.generations := by
    rw [foldl_map]
  have hdropped : find? ((view.pointers.filter fun g => g ∉ staged.scope.pointers).foldl
      (fun d g => Table.erase d (id, g)) s.generations) k =
      if k.1 = id ∧ k.2 ∈ view.pointers ∧ k.2 ∉ staged.scope.pointers then none
      else s.generations.find? k := by
    have hiff : k ∈ (view.pointers.filter fun g => g ∉ staged.scope.pointers).map
        (fun g => (id, g)) ↔ k.1 = id ∧ k.2 ∈ view.pointers ∧ k.2 ∉ staged.scope.pointers := by
      simp only [mem_map, mem_filter, decide_eq_true_eq]
      constructor
      · rintro ⟨g, hg, rfl⟩
        exact ⟨rfl, hg⟩
      · rintro ⟨rfl, hg⟩
        exact ⟨k.2, hg, rfl⟩
    rw [hfold, find?_foldl_erase]
    simp only [hiff]
  rw [Store.commit]
  simp only
  cases hdocument : staged.document with
  | none =>
    simp only [Option.elim_none, hdropped, Option.not_mem_none, false_and, exists_false, if_false]
  | some d => simp only [Option.elim_some, find?_put, hdropped, Option.mem_some, exists_eq_left']

/-- Another scope's generations stay. -/
theorem find?_generations_commit_of_ne (hk : k.1 ≠ id) :
    (s.commit id view staged).generations.find? k = s.generations.find? k := by
  rw [find?_generations_commit, if_neg, if_neg fun h => hk h.1]
  rintro ⟨d, -, rfl⟩
  exact hk rfl

/-- A generation that is pointed to before and after stays. -/
theorem find?_generations_commit_of_mem
    (hnew : ∀ d ∈ staged.document, d.generationId ∉ view.pointers) (hg : g ∈ view.pointers)
    (hg' : g ∈ staged.scope.pointers) :
    (s.commit id view staged).generations.find? (id, g) = s.generations.find? (id, g) := by
  rw [find?_generations_commit, if_neg, if_neg fun h => h.2.2 hg']
  rintro ⟨d, hd, heq⟩
  exact hnew d hd ((Prod.mk.inj heq).2 ▸ hg)

variable {g : GenerationView}

theorem mem_pointers_active (h : g ∈ view.active) : g.generationId ∈ view.pointers :=
  mem_append_left _ (mem_map_of_mem (Option.mem_toList.mpr h))

theorem mem_pointers_previous (h : g ∈ view.previous) : g.generationId ∈ view.pointers :=
  mem_append_right _ (mem_map_of_mem (Option.mem_toList.mpr h))

theorem Points.commit (h : Points env s id view g d) (hsteps : Steps env submission view staged)
    (hstored : (s.commit id view staged).generations.find? (id, g.generationId) =
      s.generations.find? (id, g.generationId)) :
    Points env (s.commit id view staged) id staged.scope g d where
  stored := hstored.trans h.stored
  shown := h.shown
  generation := h.generation
  reference := by rw [hsteps.config]; exact h.reference
  positive := h.positive
  revision := by
    have := h.revision
    have := hsteps.revision
    omega

theorem Points.congr {s' : Store} {id' : String} {view' : ScopeView} (h : Points env s id' view' g d)
    (hstored : s'.generations.find? (id', g.generationId) = s.generations.find? (id', g.generationId)) :
    Points env s' id' view' g d :=
  { h with stored := hstored.trans h.stored }

/-- The scope of an operation. -/
theorem ScopeInv.commit (h : ScopeInv env s id view) (hsteps : Steps env submission view staged)
    (hreference : ∀ d ∈ staged.document, env.reference d view.config = .ok ()) :
    ScopeInv env (s.commit id view staged) id staged.scope := by
  have hnonneg := h.nonneg
  have hroom := hsteps.room
  have hrevision := hsteps.revision
  obtain ⟨d, hdocument, hactive, hprevious, hfresh, hpublication⟩ | ⟨hdocument, hpointers⟩ :=
    hsteps.moves
  · -- a publication: the active generation becomes the previous one
    have hgeneration : (generationView env d).generationId = d.generationId := rfl
    have hnew : (s.commit id view staged).generations.find? (id, d.generationId) = some d := by
      rw [find?_generations_commit, if_pos ⟨d, hdocument, rfl⟩, hdocument]
    have hold {g : GenerationView} (hg : g ∈ view.active) :
        (s.commit id view staged).generations.find? (id, g.generationId) =
          s.generations.find? (id, g.generationId) := by
      refine find?_generations_commit_of_mem (fun d' hd' => ?_) (mem_pointers_active hg)
        (mem_pointers_previous (hprevious ▸ hg))
      cases hdocument.symm.trans hd'
      exact hfresh
    refine ⟨by rw [hsteps.config]; exact h.config, hsteps.links, by omega, by omega, ?_, ?_, ?_⟩
    · intro g hg
      cases hactive.symm.trans hg
      refine ⟨d, hnew, rfl, rfl, ?_, by omega, by omega⟩
      rw [hsteps.config]
      exact hreference d hdocument
    · intro g hg
      rw [hprevious] at hg
      obtain ⟨d', hd'⟩ := h.active g hg
      exact ⟨d', hd'.commit hsteps (hold hg)⟩
    · intro g hg g' hg' x x' hx hx'
      cases hactive.symm.trans hg
      cases hnew.symm.trans hx
      rw [hprevious] at hg'
      obtain ⟨d', hd'⟩ := h.active g' hg'
      rw [hold hg', hd'.stored, Option.some.injEq] at hx'
      have hle := hd'.revision
      rw [← hx']
      omega
  · -- a control operation: what is pointed to after it was pointed to before
    have hkept {g : GenerationView} (hg : g.generationId ∈ view.pointers)
        (hg' : g.generationId ∈ staged.scope.pointers) :
        (s.commit id view staged).generations.find? (id, g.generationId) =
          s.generations.find? (id, g.generationId) := by
      refine find?_generations_commit_of_mem (fun d' hd' => ?_) hg hg'
      rw [hdocument] at hd'
      cases hd'
    have hback {g : GenerationView} (hg : g ∈ staged.scope.previous) :
        staged.scope.active = view.active ∧ g ∈ view.previous := by
      obtain ⟨hactive, hprevious⟩ | ⟨-, hprevious⟩ | ⟨-, hprevious⟩ := hpointers
      · exact ⟨hactive, hprevious ▸ hg⟩
      · rw [hprevious] at hg
        cases hg
      · rw [hprevious] at hg
        cases hg
    refine ⟨by rw [hsteps.config]; exact h.config, hsteps.links, by omega, by omega, ?_, ?_, ?_⟩
    · intro g hg
      have hg' := mem_pointers_active hg
      obtain ⟨hactive, -⟩ | ⟨hactive, -⟩ | ⟨hactive, -⟩ := hpointers
      · rw [hactive] at hg
        obtain ⟨d, hd⟩ := h.active g hg
        exact ⟨d, hd.commit hsteps (hkept (mem_pointers_active hg) hg')⟩
      · rw [hactive] at hg
        obtain ⟨d, hd⟩ := h.previous g hg
        exact ⟨d, hd.commit hsteps (hkept (mem_pointers_previous hg) hg')⟩
      · rw [hactive] at hg
        cases hg
    · intro g hg
      have hold := (hback hg).2
      obtain ⟨d, hd⟩ := h.previous g hold
      exact ⟨d, hd.commit hsteps (hkept (mem_pointers_previous hold) (mem_pointers_previous hg))⟩
    · intro g hg g' hg' x x' hx hx'
      obtain ⟨hactive, hold'⟩ := hback hg'
      have hold : g ∈ view.active := hactive ▸ hg
      rw [hkept (mem_pointers_active hold) (mem_pointers_active hg)] at hx
      rw [hkept (mem_pointers_previous hold') (mem_pointers_previous hg')] at hx'
      exact h.order g hold g' hold' x x' hx hx'

theorem mem_operationsOf : row ∈ operationsOf operations id ↔ ∃ key, operations.find? (id, key) = some row := by
  rw [operationsOf, mem_map]
  constructor
  · rintro ⟨e, he, rfl⟩
    obtain ⟨hmem, hid⟩ := mem_filter.mp he
    obtain rfl := of_decide_eq_true hid
    exact ⟨e.1.2, find?_eq_some.mpr hmem⟩
  · rintro ⟨key, hfind⟩
    exact ⟨((id, key), row), mem_filter.mpr ⟨find?_eq_some.mp hfind, by simp⟩, rfl⟩

/-- The row that an operation writes. -/
theorem Steps.rowInv (hsteps : Steps env submission view staged) (h : ScopeInv env s id view)
    (hid : submission.scopeId = id) :
    RowInv env (s.commit id view staged) (id, submission.key) staged.row := by
  have hnonneg := h.nonneg
  have hroom := hsteps.room
  have hrevision := hsteps.rowRevision
  refine ⟨hsteps.scopeId.trans h.config, hsteps.key, by omega, by omega, hsteps.receiptRevision,
    hsteps.receiptId, ⟨staged.scope, ?_, ?_⟩, ⟨submission, hid, rfl, hsteps.digest, hsteps.answers⟩⟩
  · rw [Store.commit, find?_put, if_pos rfl]
  · rw [hsteps.revision, hrevision]

/-- A row that was there before. -/
theorem RowInv.commit (h : RowInv env s k row)
    (hview : s.scopes.find? id = some view) (hsteps : Steps env submission view staged) :
    RowInv env (s.commit id view staged) k row := by
  obtain ⟨view', hview', hle⟩ := h.scope
  refine { h with scope := ?_ }
  rw [Store.commit, find?_put]
  by_cases hk : k.1 = id
  · rw [hk, hview, Option.some.injEq] at hview'
    subst hview'
    rw [if_pos hk]
    exact ⟨staged.scope, rfl, by rw [hsteps.revision]; omega⟩
  · rw [if_neg hk]
    exact ⟨view', hview', hle⟩

theorem Store.Inv.keys_eq (h : s.Inv env) (e : (String × String) × OperationRow)
    (he : e ∈ s.operations.rows) : e.2.key = e.1.2 :=
  (h.operation e.1 e.2 (find?_eq_some.mpr he)).key

theorem Store.Inv.keys_nodup (h : s.Inv env) (id : String) :
    ((operationsOf s.operations id).map OperationRow.key).Nodup := by
  have hnodup := nodup_filter_scope s.operations id
  rw [map_congr_left fun e he => (h.keys_eq e (mem_of_mem_filter he)).symm] at hnodup
  rw [operationsOf, map_map]
  exact hnodup

theorem Store.Inv.keys (h : s.Inv env) : ∀ e ∈ s.operations.rows, e.1 = (e.2.scopeId, e.2.key) := by
  intro e he
  have hinv := h.operation e.1 e.2 (find?_eq_some.mpr he)
  exact Prod.ext hinv.scopeId.symm hinv.key.symm

/-- The operations of a scope, by the keys of a dict that name their scope. -/
theorem filter_map_values {κ : Type} {rows : List ((String × κ) × OperationRow)} {key : OperationRow → κ}
    (h : ∀ e ∈ rows, e.1 = (e.2.scopeId, key e.2)) (id : String) :
    (rows.filter fun e => e.1.1 = id).map Prod.snd = (rows.map Prod.snd).filter fun row => row.scopeId = id := by
  rw [filter_map]
  congr 1
  refine filter_congr fun e he => ?_
  rw [h e he]
  rfl

theorem Store.Inv.mem_values (h : s.Inv env) (hrow : row ∈ operationsOf s.operations id) :
    row ∈ s.operations.rows.map Prod.snd ∧ row.scopeId = id := by
  rw [operationsOf, filter_map_values h.keys, mem_filter, decide_eq_true_eq] at hrow
  exact hrow

section New

variable (hsteps : Steps env submission view staged) (h : s.Inv env)
  (hview : s.scopes.find? id = some view) (hnew : s.operations.find? (id, submission.key) = none)

include hsteps h hview hnew

/-- A new operation differs from the retained ones of its scope. -/
theorem Steps.row_new (hrow : row ∈ s.operations.rows.map Prod.snd) (hid : row.scopeId = id) :
    row.revision < staged.row.revision ∧ row.key ≠ staged.row.key := by
  obtain ⟨e, he, rfl⟩ := mem_map.mp hrow
  have hfind := find?_eq_some.mpr he
  rw [h.keys e he, hid] at hfind
  refine ⟨?_, fun hkey => ?_⟩
  · obtain ⟨view', hview', hle⟩ := (h.operation _ _ hfind).scope
    cases hview.symm.trans hview'
    have hrevision := hsteps.rowRevision
    omega
  · rw [hkey, hsteps.key, hnew] at hfind
    cases hfind

theorem Steps.revisions_nodup :
    ((operationsOf s.operations id ++ [staged.row]).map OperationRow.revision).Nodup := by
  rw [map_append, nodup_append]
  refine ⟨h.distinct id, nodup_singleton _, ?_⟩
  rintro a ha b hb rfl
  obtain ⟨r, hr, rfl⟩ := mem_map.mp ha
  obtain ⟨hr, hscope⟩ := h.mem_values hr
  exact (hsteps.row_new h hview hnew hr hscope).1.ne (mem_singleton.mp hb)

end New

/-- An operation leaves a store of the same kind. -/
theorem Store.Inv.commit (h : s.Inv env) (hview : s.scopes.find? id = some view)
    (hid : submission.scopeId = id) (hsteps : Steps env submission view staged)
    (hreference : ∀ d ∈ staged.document, env.reference d view.config = .ok ())
    (hnew : s.operations.find? (id, submission.key) = none) :
    (s.commit id view staged).Inv env := by
  have hscope := h.scope id view hview
  have hscopes (id' : String) : (s.commit id view staged).scopes.find? id' =
      if id' = id then some staged.scope else s.scopes.find? id' := by
    rw [Store.commit, find?_put]
  have hnew' : s.operations.find? (id, staged.row.key) = none := by rw [hsteps.key]; exact hnew
  have hself : operationsOf (s.commit id view staged).operations id =
      (operationsOf s.operations id ++ [staged.row]).filter fun r =>
        r.key ∉ (oldest (operationsOf s.operations id ++ [staged.row])).map OperationRow.key :=
    operationsOf_retain hnew' h.keys_eq
  have hothers {id' : String} (hne : id' ≠ id) :
      operationsOf (s.commit id view staged).operations id' = operationsOf s.operations id' :=
    operationsOf_retain_of_ne hnew' hne
  refine ⟨?_, ?_, ?_, ?_, ?_, ?_⟩
  · have hlength := length_put s.scopes id staged.scope
    have hfew := h.few
    rw [hview] at hlength
    simp only [Store.commit] at hlength ⊢
    simp at hlength
    omega
  · intro id' view' hview'
    rw [hscopes] at hview'
    by_cases hne : id' = id
    · subst hne
      rw [if_pos rfl, Option.some.injEq] at hview'
      subst hview'
      exact hscope.commit hsteps hreference
    rw [if_neg hne] at hview'
    have hother := h.scope id' view' hview'
    have hfind (g : String) : (s.commit id view staged).generations.find? (id', g) =
        s.generations.find? (id', g) := find?_generations_commit_of_ne hne
    refine { hother with active := fun g hg => ?_, previous := fun g hg => ?_, order := ?_ }
    · obtain ⟨d, hd⟩ := hother.active g hg
      exact ⟨d, hd.congr (hfind _)⟩
    · obtain ⟨d, hd⟩ := hother.previous g hg
      exact ⟨d, hd.congr (hfind _)⟩
    · intro g hg g' hg' d d' hd hd'
      rw [hfind] at hd hd'
      exact hother.order g hg g' hg' d d' hd hd'
  · intro k d hd
    rw [find?_generations_commit] at hd
    rw [hscopes]
    split at hd
    · rename_i hdocument
      obtain ⟨d', hd', rfl⟩ := hdocument
      refine ⟨staged.scope, if_pos rfl, ?_⟩
      obtain ⟨x, hdocument, hactive, -⟩ | ⟨hdocument, -⟩ := hsteps.moves
      · cases hdocument.symm.trans hd'
        exact mem_pointers_active hactive
      · rw [hdocument] at hd'
        cases hd'
    split at hd
    · cases hd
    rename_i hkept
    obtain ⟨view', hview', hmem⟩ := h.generation k d hd
    by_cases hk : k.1 = id
    · rw [hk, hview, Option.some.injEq] at hview'
      subst hview'
      refine ⟨staged.scope, if_pos hk, ?_⟩
      by_contra hnot
      exact hkept ⟨hk, hmem, hnot⟩
    · exact ⟨view', by rw [if_neg hk]; exact hview', hmem⟩
  · intro k row hrow
    obtain hold | ⟨rfl, rfl⟩ := find?_retain hnew' hrow
    · exact (h.operation k row hold).commit hview hsteps
    · rw [hsteps.key]
      exact hsteps.rowInv hscope hid
  · intro id'
    by_cases hne : id' = id
    · subst hne
      rw [hself]
      exact (hsteps.revisions_nodup h hview hnew).sublist (filter_sublist.map _)
    · rw [hothers hne]
      exact h.distinct id'
  · intro id'
    by_cases hne : id' = id
    · subst hne
      rw [hself]
      refine length_filter_oldest ?_
      rw [map_append, nodup_append]
      refine ⟨h.keys_nodup id', nodup_singleton _, ?_⟩
      rintro a ha b hb rfl
      obtain ⟨r, hr, rfl⟩ := mem_map.mp ha
      obtain ⟨hr, hscope⟩ := h.mem_values hr
      exact (hsteps.row_new h hview hnew hr hscope).2 (mem_singleton.mp hb)
    · rw [hothers hne]
      exact h.retained id'

end Commit

end Inv

end C2Hunter.Baseline
