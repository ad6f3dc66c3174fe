import C2Hunter.BaselineLedger

/-!
# Baseline generations over the life of a scope

The calls of the memory repository come to `Store.serve` on the stores that calls leave, so that what
is proved of the ledger is proved of `memoryPublish` and `memoryControl`. Over a run of calls the
sources that were accepted for a scope are a history, which only grows.

* `Call.Lawful` — what a call has to be, and `approvalCall`, `controlCall` are.
* `memoryPublish_eq`, `memoryControl_eq` — the calls come to `Store.serve`.
* `Served` — the two ways in which a call succeeds.
* `Stepped` — what a request to the repository can do.
* `History` — what holds of a store and the sources that were accepted.
* `generation_lifecycle` — over any run of requests.
* `sample` — an environment, and a run in it.
-/

namespace C2Hunter.Baseline

open Option

open Except

open List

variable {env : Env}

/-! ## Lawful calls -/

/-- A call that is staged and answered as the ledger expects. -/
structure Call.Lawful (env : Env) (call : Call) : Prop where
  steps : ∀ {view current staged}, Watermarked view current →
    call.stage view current = .ok staged → Steps env call.submission view staged
  reference : ∀ {view current staged}, view.links env = true →
    call.stage view current = .ok staged →
    ∀ d ∈ staged.document, env.reference d view.config = .ok ()
  replay : ∀ {s row}, RowInv env s (call.submission.scopeId, call.submission.key) row →
    call.receiptOf row =
      if row.digest = env.digest call.submission then .ok row.receipt
      else .error ⟨.storage, .idempotencyConflict⟩

variable {d : GenerationDocument} {config : ScopeConfig}

theorem reference_eq_ok : env.reference d config = .ok () ↔ (∃ x, checkedDocument env d = .ok x) ∧
      (d.scopeId = config.scopeId ∧ d.scopeConfigSha256 = env.scopeConfigSha256 config) ∧
      (∀ s ∈ d.sources, env.sensorAssertion config s.actualSensorId s.qualityReview s.origin = .ok ()) ∧
      ∀ w ∈ d.windows, env.scopedWindow config w = .ok () := by
  simp only [Env.reference, bind_eq_ok, check_eq_ok, exists_const, Bool.and_eq_true, decide_eq_true_eq]
  constructor
  · rintro ⟨x, hx, hsame, u, hsources, hwindows⟩
    exact ⟨⟨x, hx⟩, hsame, List.forM_eq_ok.mp hsources, List.forM_eq_ok.mp hwindows⟩
  · rintro ⟨⟨x, hx⟩, hsame, hsources, hwindows⟩
    exact ⟨x, hx, hsame, (), List.forM_eq_ok.mpr hsources, List.forM_eq_ok.mpr hwindows⟩

theorem checkCurrent_ok {scope : ScopeView} {current : Option GenerationDocument} {u : Unit}
    (h : checkCurrent env scope current = .ok u) :
    ∀ d ∈ current, env.reference d scope.config = .ok () := by
  rintro d hd
  obtain rfl := mem_def.mp hd
  simp only [checkCurrent, bind_eq_ok, check_eq_ok, exists_const] at h
  obtain ⟨-, u, hreference, -⟩ := h
  exact hreference

variable {request : ApprovalRequest} {actor id digest : String} {view : ScopeView} {draw : Draw}
    {staged : Staged} {s : Store} {row : OperationRow} {now : Instant}

section

/-- A new generation passes the checks of a stored one. -/
theorem produceGeneration_reference {scope : ScopeView} {current : Option GenerationDocument}
    {source : Source} {binding : String} {operationId generationId : String} (hlinks : scope.links env = true)
    (h : produceGeneration env scope current source binding request operationId generationId actor
      now = .ok d) : env.reference d scope.config = .ok () := by
  simp only [produceGeneration, bind_eq_ok, check_eq_ok, exists_const] at h
  obtain ⟨-, -, u, hcurrent, -, -, input, hinput, -, -, built, hbuilt, -, receipt, hreceipt, hd⟩ := h
  have hold := checkCurrent_ok hcurrent
  have hchecked := hd
  simp only [checkedReceipt, bind_eq_ok, check_eq_ok, exists_const] at hreceipt
  obtain ⟨-, -, -, hreceipt⟩ := hreceipt
  cases hreceipt
  simp only [checkedDocument, bind_eq_ok, check_eq_ok, exists_const] at hd
  obtain ⟨-, -, -, hd⟩ := hd
  cases hd
  have hhash : scope.configSha256 = env.scopeConfigSha256 scope.config := by
    simp only [ScopeView.links, decide_eq_true_eq] at hlinks
    exact hlinks.1
  refine reference_eq_ok.mpr ⟨⟨_, hchecked⟩, ⟨rfl, hhash⟩, fun s hs => ?_, fun w hw => ?_⟩
  · obtain hs | hs := mem_append.mp ((mem_insertionSort _).mp hs)
    · obtain ⟨d, hd, hmem⟩ := mem_retainedSources hs
      exact (reference_eq_ok.mp (hold d hd)).2.2.1 s hmem
    · obtain rfl := mem_singleton.mp hs
      exact env.buildInput_asserts hinput
  · obtain hw | hw := mem_append.mp ((mem_insertionSort _).mp hw)
    · have hmem := (mem_filter.mp hw).1
      cases current with
      | none => cases hmem
      | some d => exact (reference_eq_ok.mp (hold d rfl)).2.2.2 w hmem
    · exact env.build_scoped hinput hbuilt w hw

theorem stagePublication_reference {current : Option GenerationDocument} {binding : Binding} (hlinks : view.links env = true)
    (h : stagePublication env view current binding request draw digest = .ok staged) :
    ∀ d ∈ staged.document, env.reference d view.config = .ok () := by
  simp only [stagePublication, bind_eq_ok, require_eq_ok, pure_eq_ok, Except.ok.injEq, exists_const] at h
  obtain ⟨-, -, -, -, source, -, d, hd, receipt, -, scope, -, row, -, rfl⟩ := h
  rintro d' hd'
  cases hd'
  exact produceGeneration_reference hlinks hd

theorem RowInv.rowLinks {k : String × String} (h : RowInv env s k row) : rowLinks row k.1 = true :=
  decide_eq_true ⟨h.scopeId, h.positive, h.le_max, h.receiptRevision, h.receiptId⟩

/-- A retained row passes the checks of what wrote it, and the digest tells it from all others. -/
theorem RowInv.checked_eq (submission : Submission)
    (h : RowInv env s (submission.scopeId, submission.key) row) {answer : Except Failure Receipt}
    (hanswer : row.receipt.Answers submission → answer = .ok row.receipt) :
    (do
      require (Baseline.rowLinks row submission.scopeId)
      require (row.key = submission.key)
      require (row.digest = env.digest submission) .idempotencyConflict
      answer) =
      if row.digest = env.digest submission then .ok row.receipt
      else .error ⟨.storage, .idempotencyConflict⟩ := by
  simp only [require, h.rowLinks, h.key, decide_true, if_true, ok_bind]
  by_cases hdigest : row.digest = env.digest submission
  · obtain ⟨submission', -, -, hsame, hanswers⟩ := h.submitted
    cases env.digest_injective (hsame.symm.trans hdigest)
    simp only [hdigest, decide_true, if_true, ok_bind, hanswer hanswers]
  · simp only [hdigest, decide_false, if_false, Bool.false_eq_true]
    rfl

/-- A retained row answers the approval that wrote it, and no other. -/
theorem RowInv.matchApproval_eq (h : RowInv env s (id, request.idempotencyKey) row) :
    matchApproval row id request actor (env.digest (.approval id actor request)) =
      if row.digest = env.digest (.approval id actor request) then .ok row.receipt
      else .error ⟨.storage, .idempotencyConflict⟩ := by
  refine RowInv.checked_eq (.approval id actor request) h fun hanswers => ?_
  cases hreceipt : row.receipt with
  | approval =>
    obtain ⟨hactor, hjob, hbinding, hrevision⟩ := hreceipt ▸ hanswers
    simp only [hactor, hjob, hbinding, hrevision, decide_true, Bool.and_true]
    rfl
  | control => exact (hreceipt ▸ hanswers).elim

/-- A retained row answers the control operation that wrote it, and no other. -/
theorem RowInv.matchControl_eq {request : ControlRequest} (h : RowInv env s (id, request.idempotencyKey) row) :
    matchControl row id request actor (env.digest (.control id actor request)) =
      if row.digest = env.digest (.control id actor request) then .ok row.receipt
      else .error ⟨.storage, .idempotencyConflict⟩ := by
  refine RowInv.checked_eq (.control id actor request) h fun hanswers => ?_
  cases hreceipt : row.receipt with
  | approval => exact (hreceipt ▸ hanswers).elim
  | control =>
    obtain ⟨haction, hactor, hrevision, hgeneration⟩ := hreceipt ▸ hanswers
    simp only [haction, hactor, hrevision, hgeneration, decide_true, Bool.and_true]
    rfl

/-- What an approval stages. -/
theorem approvalCall_stage {admitted : Bool} {binding : Except Failure Binding}
    {current : Option GenerationDocument}
    (h : (approvalCall env id request draw admitted binding).stage view current = .ok staged) :
    ∃ b, stagePublication env view current b request draw
      (env.digest (.approval id draw.actor request)) = .ok staged := by
  simp only [approvalCall, bind_eq_ok, require_eq_ok, exists_const] at h
  obtain ⟨-, b, -, hstage⟩ := h
  exact ⟨b, hstage⟩

theorem approvalCall_lawful (id : String) (request : ApprovalRequest) (draw : Draw)
    (admitted : Bool) (binding : Except Failure Binding) :
    (approvalCall env id request draw admitted binding).Lawful env where
  steps hcurrent h := by
    obtain ⟨b, hstage⟩ := approvalCall_stage h
    obtain ⟨r, d, happroved⟩ := stagePublication_ok hstage
    exact happroved.steps hcurrent
  reference hlinks h := by
    obtain ⟨b, hstage⟩ := approvalCall_stage h
    exact stagePublication_reference hlinks hstage
  replay h := h.matchApproval_eq

theorem Controlled.reference {request : ControlRequest} (h : Controlled env view request draw digest staged) :
    ∀ d ∈ staged.document, env.reference d view.config = .ok () := by
  intro d hd
  rw [h.document] at hd
  cases hd

theorem controlCall_lawful (id : String) (request : ControlRequest) (draw : Draw) :
    (controlCall env id request draw).Lawful env where
  steps _ h := (stageControl_ok h).steps
  reference _ h := (stageControl_ok h).reference
  replay h := h.matchControl_eq

/-! ## The memory repository -/

end

variable {r : SourceReceipt}

section Memory

theorem eventEnd_le_newest (hr : r ∈ d.sources) : r.eventEnd ≤ (generationView env d).newestEventEnd := by
  have hmem : r.eventEnd ∈ d.sources.map SourceReceipt.eventEnd := mem_map_of_mem hr
  rw [generationView]
  cases hmax : (d.sources.map SourceReceipt.eventEnd).max? with
  | none =>
    rw [max?_eq_none_iff.mp hmax] at hmem
    cases hmem
  | some => exact (max?_eq_some_iff.mp hmax).2 _ hmem

theorem ScopeInv.watermarked (h : ScopeInv env s id view) : Watermarked view (s.current id view) := by
  intro d hd r hr
  obtain ⟨g, hg, hstored⟩ := bind_eq_some_iff.mp hd
  obtain ⟨d', hd'⟩ := h.active g hg
  cases hstored.symm.trans hd'.stored
  have hlinks := h.links
  simp only [ScopeView.links, decide_eq_true_eq] at hlinks
  obtain ⟨t, ht, hle⟩ := hlinks.2.2.2.2.2 g (mem_append_left _ (mem_toList.mpr hg))
  refine ⟨t, ht, le_trans ?_ hle⟩
  rw [← hd'.shown]
  exact eventEnd_le_newest hr

theorem ScopeInv.currentDocument_eq (h : ScopeInv env s id view) :
    currentDocument env s.generations id view = .ok (s.current id view) := by
  rw [currentDocument, Store.current]
  cases hactive : view.active with
  | none => rfl
  | some g =>
    obtain ⟨d, hd⟩ := h.active g hactive
    simp only [bind_some, hd.stored, storedDocument, hd.documentView_eq, ok_bind]
    rfl

/-- The generations that a publication drops. -/
theorem filter_pointers_published (hlinks : view.links env = true)
    (hactive : staged.scope.active = some (generationView env d))
    (hprevious : staged.scope.previous = view.active) (hfresh : d.generationId ∉ view.pointers) :
    (view.pointers.filter fun g => g ∉ staged.scope.pointers) =
      view.previous.toList.map GenerationView.generationId := by
  simp only [ScopeView.links, decide_eq_true_eq] at hlinks
  have hpointers : staged.scope.pointers =
      d.generationId :: view.active.toList.map GenerationView.generationId := by
    rw [ScopeView.pointers, hactive, hprevious]
    rfl
  rw [hpointers]
  simp only [ScopeView.pointers] at hfresh ⊢
  rw [filter_append]
  have hkept : (view.active.toList.map GenerationView.generationId).filter (fun g =>
      g ∉ d.generationId :: view.active.toList.map GenerationView.generationId) = [] :=
    filter_eq_nil_iff.mpr fun g hg h => of_decide_eq_true h (mem_cons_of_mem _ hg)
  rw [hkept, nil_append]
  refine filter_eq_self.mpr fun g hg => decide_eq_true fun hmem => ?_
  obtain rfl | hmem := mem_cons.mp hmem
  · exact hfresh (mem_append_right _ hg)
  · obtain ⟨p, hp, rfl⟩ := mem_map.mp hg
    obtain ⟨a, ha, heq⟩ := mem_map.mp hmem
    exact hlinks.2.2.2.2.1 a (mem_toList.mp ha) p (mem_toList.mp hp) heq

theorem published_eq_commit (hlinks : view.links env = true) (hdocument : staged.document = some d)
    (hactive : staged.scope.active = some (generationView env d))
    (hprevious : staged.scope.previous = view.active) (hfresh : d.generationId ∉ view.pointers) :
    s.published id view staged d = s.commit id view staged := by
  rw [Store.published, Store.commit, filter_pointers_published hlinks hactive hprevious hfresh]
  simp only [hdocument, elim_some]
  cases view.previous with
  | none | some => rfl

theorem controlled_eq_commit (hdocument : staged.document = none) :
    s.controlled id view staged = s.commit id view staged := by
  rw [Store.controlled, Store.commit]
  simp only [hdocument, elim_none]

theorem Store.Inv.checkOperations_eq (h : s.Inv env) (id : String) : checkOperations s.operations id = .ok () := by
  have hrows : (s.operations.rows.all fun row => row.2.scopeId = row.1.1 ∧ row.2.key = row.1.2 ∧
      1 ≤ row.2.revision ∧ row.2.revision ≤ maxRevision) = true := by
    refine all_eq_true.mpr fun row hrow => decide_eq_true ?_
    have hinv := h.operation row.1 row.2 (Dict.find?_eq_some.mpr hrow)
    exact ⟨hinv.scopeId, hinv.key, hinv.positive, hinv.le_max⟩
  rw [checkOperations]
  simp only [require, h.operations_le, h.retained id, hrows, decide_true, if_true, ok_bind]

theorem Store.Inv.checkStored_eq (h : s.Inv env) {receipt : Except Failure Receipt}
    (hview : s.scopes.find? id = some staged.scope) (hreceipt : receipt = .ok staged.row.receipt) :
    checkStored env s id staged receipt = .ok () := by
  rw [checkStored, h.memoryGet_eq, hview, hreceipt]
  simp only [ok_bind, require, decide_true, if_true]

theorem Call.Lawful.receiptOf_ok {call : Call} (h : call.Lawful env)
    (hrow : RowInv env s (call.submission.scopeId, call.submission.key) row) {receipt : Receipt}
    (hreceipt : call.receiptOf row = .ok receipt) :
    row.digest = env.digest call.submission ∧ receipt = row.receipt := by
  rw [h.replay hrow] at hreceipt
  split at hreceipt
  · rename_i hdigest
    exact ⟨hdigest, (Except.ok.inj hreceipt).symm⟩
  · cases hreceipt

/-- The answer to a call whose key is retained. -/
theorem Store.Inv.replay_eq (h : s.Inv env) {call : Call} (hcall : call.Lawful env)
    (hrow : s.operations.find? (call.submission.scopeId, call.submission.key) = some row) :
    (do
      let receipt ← call.receiptOf row
      let view ← viewOr .storageUnavailable (s.scopes.find? call.submission.scopeId)
      require (receipt.revision ≤ view.controlRevision)
      return ((⟨view, receipt, false⟩ : Answer), s)) = (do
      let receipt ← call.receiptOf row
      let view ← viewOr .storageUnavailable (s.scopes.find? call.submission.scopeId)
      return (⟨view, receipt, false⟩, s)) := by
  have hinv := h.operation _ row hrow
  obtain ⟨view, hview, hle⟩ := hinv.scope
  cases hof : call.receiptOf row with
  | error => rfl
  | ok receipt =>
    obtain rfl := (hcall.receiptOf_ok hinv hof).2
    have hrevision : row.receipt.revision ≤ view.controlRevision := by
      rw [hinv.receiptRevision]
      exact hle
    simp only [hview, viewOr, ok_bind, require, hrevision, decide_true, if_true]

theorem find?_scopes_commit : (s.commit id view staged).scopes.find? id = some staged.scope := by
  rw [Store.commit, Dict.find?_put, if_pos rfl]

/-- What holds of a new call that is staged. -/
theorem Store.Inv.apply (h : s.Inv env) {call : Call} (hcall : call.Lawful env)
    (hview : s.scopes.find? call.submission.scopeId = some view)
    (hnew : s.operations.find? (call.submission.scopeId, call.submission.key) = none)
    (hstage : call.stage view (s.current call.submission.scopeId view) = .ok staged) :
    Steps env call.submission view staged ∧ (s.commit call.submission.scopeId view staged).Inv env ∧
      checkStored env (s.commit call.submission.scopeId view staged) call.submission.scopeId staged
        (call.receiptOf staged.row) = .ok () := by
  have hscope := h.scope _ _ hview
  have hsteps := hcall.steps hscope.watermarked hstage
  have hinv := h.commit hview rfl hsteps (hcall.reference hscope.links hstage) hnew
  refine ⟨hsteps, hinv, hinv.checkStored_eq ?_ ?_⟩
  · exact find?_scopes_commit
  · rw [hcall.replay (hsteps.rowInv hscope rfl), if_pos hsteps.digest]

/-- An approval in memory is a call of the ledger. -/
theorem memoryPublish_eq (h : s.Inv env) (id : String) (request : ApprovalRequest) (draw : Draw)
    (admitted : Bool) (binding : Except Failure Binding) :
    memoryPublish env s id request draw admitted binding =
      s.serve (approvalCall env id request draw admitted binding) := by
  have hlawful : (approvalCall env id request draw admitted binding).Lawful env :=
    approvalCall_lawful ..
  rw [memoryPublish, Store.serve]
  simp only [h.checkOperations_eq id, ok_bind, h.memoryGet_eq, approvalCall, Submission.scopeId, Submission.key]
  cases hrow : s.operations.find? (id, request.idempotencyKey) with
  | some row => exact h.replay_eq hlawful hrow
  | none =>
    cases hview : s.scopes.find? id with
    | none => rfl
    | some view =>
      have hscope := h.scope id view hview
      simp only [viewOr, isSome_some, require, if_true, ok_bind, hscope.currentDocument_eq, bind_assoc]
      cases admitted with
      | false => rfl
      | true =>
        cases binding with
        | error failure => rfl
        | ok b =>
          simp only [if_true, ok_bind]
          cases hstage : stagePublication env view (s.current id view) b request draw
              (env.digest (.approval id draw.actor request)) with
          | error failure => rfl
          | ok staged =>
            obtain ⟨r, d, happroved⟩ := stagePublication_ok hstage
            obtain ⟨-, -, hchecked⟩ := h.apply hlawful hview hrow hstage
            simp only [approvalCall, Submission.scopeId] at hchecked
            have hcommit : s.published id view staged d = s.commit id view staged :=
              published_eq_commit hscope.links happroved.document (by rw [happroved.scope])
                (by rw [happroved.scope]) (by rw [happroved.generation]; exact happroved.fresh)
            simp only [happroved.document, hcommit, hchecked, ok_bind]

/-- A control operation in memory is a call of the ledger. -/
theorem memoryControl_eq (h : s.Inv env) (id : String) (request : ControlRequest) (draw : Draw) :
    memoryControl env s id request draw = s.serve (controlCall env id request draw) := by
  have hlawful : (controlCall env id request draw).Lawful env := controlCall_lawful ..
  rw [memoryControl, Store.serve]
  simp only [h.checkOperations_eq id, ok_bind, h.memoryGet_eq, require, h.distinct id,
    decide_true, if_true, controlCall, Submission.scopeId, Submission.key]
  cases hrow : s.operations.find? (id, request.idempotencyKey) with
  | some row => exact h.replay_eq hlawful hrow
  | none =>
    cases hview : s.scopes.find? id with
    | none => rfl
    | some view =>
      have hscope := h.scope id view hview
      simp only [viewOr, ok_bind]
      cases hstage : stageControl env view request draw (env.digest (.control id draw.actor request)) with
      | error failure => rfl
      | ok staged =>
        obtain ⟨-, -, hchecked⟩ := h.apply hlawful hview hrow hstage
        simp only [controlCall, Submission.scopeId] at hchecked
        simp only [controlled_eq_commit (stageControl_ok hstage).document, hchecked, ok_bind]

end Memory

/-! ## Success -/

/-- The two ways in which a call succeeds. -/
inductive Served (env : Env) (s : Store) (call : Call) : Answer → Store → Prop where
  | replayed {row : OperationRow} {view : ScopeView}
      (hrow : s.operations.find? (call.submission.scopeId, call.submission.key) = some row)
      (hdigest : row.digest = env.digest call.submission)
      (hview : s.scopes.find? call.submission.scopeId = some view) :
      Served env s call ⟨view, row.receipt, false⟩ s
  | applied {view : ScopeView} {staged : Staged}
      (hnew : s.operations.find? (call.submission.scopeId, call.submission.key) = none)
      (hview : s.scopes.find? call.submission.scopeId = some view)
      (hstage : call.stage view (s.current call.submission.scopeId view) = .ok staged) :
      Served env s call ⟨staged.scope, staged.row.receipt, true⟩
        (s.commit call.submission.scopeId view staged)

variable {s' : Store}

section Serve

variable {call : Call} {answer : Answer}

theorem viewOr_eq_ok {code : Code} {found : Option ScopeView} :
    viewOr code found = .ok view ↔ found = some view := by
  cases found with
  | none | some => simp [viewOr]

theorem Store.Inv.serve_ok (h : s.Inv env) (hcall : call.Lawful env)
    (hserve : s.serve call = .ok (answer, s')) : Served env s call answer s' := by
  rw [Store.serve] at hserve
  cases hrow : s.operations.find? (call.submission.scopeId, call.submission.key) with
  | some row =>
    simp only [hrow, bind_eq_ok, viewOr_eq_ok, pure_eq_ok, Except.ok.injEq, Prod.mk.injEq] at hserve
    obtain ⟨receipt, hreceipt, view, hview, rfl, rfl⟩ := hserve
    obtain ⟨hdigest, rfl⟩ := hcall.receiptOf_ok (h.operation _ row hrow) hreceipt
    exact .replayed hrow hdigest hview
  | none =>
    simp only [hrow, bind_eq_ok, viewOr_eq_ok, require_eq_ok, pure_eq_ok,
      Except.ok.injEq, Prod.mk.injEq, exists_const] at hserve
    obtain ⟨view, hview, staged, hstage, -, rfl, rfl⟩ := hserve
    exact .applied hrow hview hstage

/-- A call that succeeds leaves a store of the same kind. -/
theorem Served.inv (h : s.Inv env) (hcall : call.Lawful env)
    (hserved : Served env s call answer s') : s'.Inv env := by
  cases hserved with
  | replayed => exact h
  | applied hnew hview hstage => exact (h.apply hcall hview hnew hstage).2.1

end Serve

/-! ## Scopes -/

theorem newScope_links (config : ScopeConfig) (actor : String) (now : Instant) :
    (newScope env config actor now).links env = true := by
  simp [ScopeView.links, newScope]

/-- What `memoryCreate` leaves. -/
theorem Store.Inv.memoryCreate_ok (h : s.Inv env) {created : ScopeView × Bool}
    (hcreate : memoryCreate env s config actor now = .ok (created, s')) :
    created.2 = false ∧ s' = s ∨ s.scopes.find? config.scopeId = none ∧ s.scopes.rows.length < 16 ∧
        created = (newScope env config actor now, true) ∧
        s' = { s with scopes := s.scopes.put (config.scopeId, newScope env config actor now) } := by
  rw [memoryCreate, h.memoryGet_eq] at hcreate
  simp only [ok_bind] at hcreate
  cases hview : s.scopes.find? config.scopeId with
  | some =>
    simp only [hview, bind_eq_ok, require_eq_ok, pure_eq_ok, Except.ok.injEq,
      Prod.mk.injEq, exists_const] at hcreate
    exact .inl ⟨by rw [← hcreate.2.1], hcreate.2.2.symm⟩
  | none =>
    simp only [hview, bind_eq_ok, require_eq_ok, pure_eq_ok, Except.ok.injEq,
      Prod.mk.injEq, exists_const, decide_eq_true_eq] at hcreate
    exact .inr ⟨rfl, hcreate.1, hcreate.2.1.symm, hcreate.2.2.symm⟩

/-- A new scope leaves a store of the same kind. -/
theorem Store.Inv.create (h : s.Inv env)
    (hnew : s.scopes.find? config.scopeId = none) (hfew : s.scopes.rows.length < 16)
    (actor : String) (now : Instant) :
    ({ s with scopes := s.scopes.put (config.scopeId, newScope env config actor now) } : Store).Inv
      env := by
  have hold {id : String} {view : ScopeView} (hview : s.scopes.find? id = some view) :
      Dict.find? (s.scopes.put (config.scopeId, newScope env config actor now)) id = some view := by
    rw [Dict.find?_put, if_neg]
    · exact hview
    · rintro rfl
      rw [hnew] at hview
      cases hview
  refine ⟨?_, ?_, ?_, ?_, h.distinct, h.retained⟩
  · have hlength := Dict.length_put s.scopes config.scopeId (newScope env config actor now)
    rw [hnew, elim_none] at hlength
    simp only
    omega
  · intro id view hview
    simp only at hview
    rw [Dict.find?_put] at hview
    split at hview
    · rename_i hid
      cases hview
      refine ⟨hid.symm, newScope_links config actor now, le_refl _, by simp [newScope, maxRevision], ?_, ?_, ?_⟩
      · intro g hg
        cases hg
      · intro g hg
        cases hg
      · intro g hg
        cases hg
    · have hscope := h.scope id view hview
      refine { hscope with active := fun g hg => ?_, previous := fun g hg => ?_ }
      · obtain ⟨d, hd⟩ := hscope.active g hg
        exact ⟨d, hd.congr rfl⟩
      · obtain ⟨d, hd⟩ := hscope.previous g hg
        exact ⟨d, hd.congr rfl⟩
  · intro k d hd
    obtain ⟨view, hview, hmem⟩ := h.generation k d hd
    exact ⟨view, hold hview, hmem⟩
  · intro k row hrow
    have hinv := h.operation k row hrow
    obtain ⟨view, hview, hle⟩ := hinv.scope
    exact { hinv with scope := ⟨view, hold hview, hle⟩ }

/-! ## Runs -/

/-- A request to the repository, with what it draws and what the stored jobs make of it. -/
inductive Operation where
  | create (config : ScopeConfig) (actor : String) (now : Instant)
  | publish (id : String) (request : ApprovalRequest) (draw : Draw) (admitted : Bool)
      (binding : Except Failure Binding)
  | control (id : String) (request : ControlRequest) (draw : Draw)

/-- What a request returns: the scope, the receipt of an operation, and whether it was applied. -/
structure Reply where
  scope : ScopeView
  receipt : Option Receipt
  created : Bool
  deriving DecidableEq

def Answer.reply (a : Answer) : Reply := ⟨a.scope, some a.receipt, a.created⟩

/-- The end of a call: one that raises changes nothing. -/
def settled (s : Store) : Except Failure (Answer × Store) → Except Failure Reply × Store
  | .error failure => (.error failure, s)
  | .ok (answer, s') => (.ok answer.reply, s')

/-- A request to `MemoryRepository`. -/
def memoryStep (env : Env) (s : Store) : Operation → Except Failure Reply × Store
  | .create config actor now =>
    match memoryCreate env s config actor now with
    | .error failure => (.error failure, s)
    | .ok ((view, created), s') => (.ok ⟨view, none, created⟩, s')
  | .publish id request draw admitted binding =>
    settled s (memoryPublish env s id request draw admitted binding)
  | .control id request draw => settled s (memoryControl env s id request draw)

/-- The call of the ledger that a request is. -/
def Operation.call (env : Env) : Operation → Option Call
  | .create .. => none
  | .publish id request draw admitted binding =>
    some (approvalCall env id request draw admitted binding)
  | .control id request draw => some (controlCall env id request draw)

variable {op : Operation}

theorem Operation.lawful {call : Call} (h : op.call env = some call) : call.Lawful env := by
  cases op with
  | create => cases h
  | publish =>
    cases h
    exact approvalCall_lawful ..
  | control =>
    cases h
    exact controlCall_lawful ..

/-- What a request can do. -/
inductive Stepped (env : Env) (s : Store) (op : Operation) : Except Failure Reply → Store → Prop where
  | refused (failure : Failure) : Stepped env s op (.error failure) s
  | found (view : ScopeView) (hop : op.call env = none) : Stepped env s op (.ok ⟨view, none, false⟩) s
  | created (config : ScopeConfig) (actor : String) (now : Instant)
      (hop : op = .create config actor now) (hnew : s.scopes.find? config.scopeId = none)
      (hfew : s.scopes.rows.length < 16) :
      Stepped env s op (.ok ⟨newScope env config actor now, none, true⟩)
        { s with scopes := s.scopes.put (config.scopeId, newScope env config actor now) }
  | served (call : Call) (answer : Answer) (s' : Store) (hop : op.call env = some call)
      (hserved : Served env s call answer s') : Stepped env s op (.ok answer.reply) s'

section

theorem Store.Inv.stepped (h : s.Inv env) (op : Operation) :
    Stepped env s op (memoryStep env s op).1 (memoryStep env s op).2 := by
  cases op with
  | create config actor now =>
    rw [memoryStep]
    cases hcreate : memoryCreate env s config actor now with
    | error failure => exact .refused failure
    | ok result =>
      obtain ⟨⟨view, created⟩, s'⟩ := result
      obtain ⟨rfl, rfl⟩ | ⟨hnew, hfew, hview, rfl⟩ := h.memoryCreate_ok hcreate
      · exact .found view rfl
      · obtain ⟨rfl, rfl⟩ := Prod.mk.inj hview
        exact .created config actor now rfl hnew hfew
  | publish id request draw admitted binding =>
    rw [memoryStep]
    cases hpublish : memoryPublish env s id request draw admitted binding with
    | error failure => exact .refused failure
    | ok result =>
      rw [memoryPublish_eq h] at hpublish
      exact .served _ _ _ rfl (h.serve_ok (approvalCall_lawful ..) hpublish)
  | control id request draw =>
    rw [memoryStep]
    cases hcontrol : memoryControl env s id request draw with
    | error failure => exact .refused failure
    | ok result =>
      rw [memoryControl_eq h] at hcontrol
      exact .served _ _ _ rfl (h.serve_ok (controlCall_lawful ..) hcontrol)

variable {outcome : Except Failure Reply}

theorem Stepped.inv (hstepped : Stepped env s op outcome s') (h : s.Inv env) : s'.Inv env := by
  cases hstepped with
  | refused | found => exact h
  | created config actor now _ hnew hfew => exact h.create hnew hfew actor now
  | served call answer _ hop hserved => exact hserved.inv h (Operation.lawful hop)

/-- A scope stays. -/
theorem Stepped.scope (hstepped : Stepped env s op outcome s') (hid : (s.scopes.find? id).isSome = true) :
    (s'.scopes.find? id).isSome = true := by
  cases hstepped with
  | refused | found => exact hid
  | created =>
    simp only
    rw [Dict.find?_put]
    split
    · rfl
    · exact hid
  | served call answer _ hop hserved =>
    cases hserved with
    | replayed => exact hid
    | applied =>
      simp only [Store.commit]
      rw [Dict.find?_put]
      split
      · rfl
      · exact hid

/-- Whether a request is an approval for a scope. -/
def Operation.approves (id : String) : Operation → Bool
  | .publish id' .. => id' = id
  | .create .. => false
  | .control .. => false

/-- The source that a request makes a scope accept. -/
def acceptedBy (env : Env) (id : String) (s : Store) (op : Operation) : Option SourceReceipt :=
  match memoryStep env s op with
  | (.error _, _) => none
  | (.ok reply, s') =>
    if op.approves id = true ∧ reply.created = true then
      (s'.current id reply.scope).bind fun d => d.sources.getLast?
    else none

end

/-- A repository, and the sources that one of its scopes has accepted. -/
structure Life where
  store : Store := {}
  accepted : List SourceReceipt := []

/-- A request. -/
def Life.step (env : Env) (id : String) (life : Life) (op : Operation) : Life where
  store := (memoryStep env life.store op).2
  accepted := life.accepted ++ (acceptedBy env id life.store op).toList

/-- What holds of a scope over its life. -/
structure History (env : Env) (id : String) (life : Life) : Prop where
  inv : life.store.Inv env
  increasing : life.accepted.Pairwise fun r r' => r.eventEnd < r'.eventStart
  windows : ∀ r ∈ life.accepted, r.eventStart < r.eventEnd
  watermark : ∀ view, life.store.scopes.find? id = some view →
    view.acceptedEventEnd = life.accepted.getLast?.map SourceReceipt.eventEnd
  unborn : life.store.scopes.find? id = none → life.accepted = []
  documents : ∀ g d, life.store.generations.find? (id, g) = some d →
    d.sourceLinks = true ∧ ∀ r ∈ d.sources, r ∈ life.accepted

theorem History.empty (env : Env) (id : String) : History env id {} where
  inv := .empty env
  increasing := .nil
  windows _ h := by cases h
  watermark _ h := by cases h
  unborn _ := rfl
  documents _ _ h := by cases h

section Steps

variable {life : Life}

section

variable (h : History env id life) (hview : life.store.scopes.find? id = some view)

include h hview

/-- The sources end at the watermark or before. -/
theorem History.le_watermark (hr : r ∈ life.accepted) : ∃ t ∈ view.acceptedEventEnd, r.eventEnd ≤ t := by
  obtain ⟨front, last, hlast⟩ :=
    (eq_nil_or_concat life.accepted).resolve_left (ne_nil_of_mem hr)
  rw [concat_eq_append] at hlast
  refine ⟨last.eventEnd, ?_, ?_⟩
  · rw [h.watermark view hview, hlast, getLast?_append]
    rfl
  · have hincreasing := h.increasing
    have hstarts := h.windows last (by rw [hlast]; simp)
    rw [hlast] at hr hincreasing
    obtain hr | hr := mem_append.mp hr
    · have hbefore := (pairwise_append.mp hincreasing).2.2 r hr last (by simp)
      exact (hbefore.trans hstarts).le
    · rw [mem_singleton.mp hr]

/-- A scope that accepts a source. -/
theorem History.approve (happroved : Approved env view (life.store.current id view) request draw digest r d staged)
    (hinv : (life.store.commit id view staged).Inv env) :
    History env id ⟨life.store.commit id view staged, life.accepted ++ [r]⟩ where
  inv := hinv
  increasing := by
    refine pairwise_append.mpr ⟨h.increasing, pairwise_singleton _ _, fun a ha b hb => ?_⟩
    obtain rfl := mem_singleton.mp hb
    obtain ⟨t, ht, hle⟩ := h.le_watermark hview ha
    exact hle.trans_lt (happroved.after t ht)
  windows a ha := by
    obtain ha | ha := mem_append.mp ha
    · exact h.windows a ha
    · rw [mem_singleton.mp ha]
      exact happroved.starts
  watermark view' hview' := by
    cases find?_scopes_commit.symm.trans hview'
    rw [happroved.scope, getLast?_append]
    rfl
  unborn hnone := by cases find?_scopes_commit.symm.trans hnone
  documents g x hx := by
    rw [find?_generations_commit] at hx
    split at hx
    · -- the new generation: its other sources come from the active one
      cases happroved.document.symm.trans hx
      refine ⟨happroved.links, fun a ha => ?_⟩
      rw [happroved.sources, mem_insertionSort] at ha
      obtain ha | ha := mem_append.mp ha
      · obtain ⟨x, hcurrent, hmem⟩ := mem_retainedSources ha
        obtain ⟨g, -, hstored⟩ := bind_eq_some_iff.mp hcurrent
        exact mem_append_left _ ((h.documents _ x hstored).2 a hmem)
      · exact mem_append_right _ ha
    split at hx
    · cases hx
    · obtain ⟨hlinks, hsources⟩ := h.documents g x hx
      exact ⟨hlinks, fun a ha => mem_append_left _ (hsources a ha)⟩

end

/-- The document of an approval becomes the current one. -/
theorem Approved.current {current : Option GenerationDocument}
    (h : Approved env view current request draw digest r d staged) (s : Store) (id : String) :
    (s.commit id view staged).current id staged.scope = some d := by
  have hactive : staged.scope.active = some (generationView env d) := by rw [h.scope]
  rw [Store.current, hactive, bind_some, find?_generations_commit, if_pos ⟨d, h.document, rfl⟩, h.document]

section

variable (h : History env id life)

include h

/-- A scope that is controlled keeps its watermark. -/
theorem History.controlled (hview : life.store.scopes.find? id = some view) (hdocument : staged.document = none)
    (hwatermark : staged.scope.acceptedEventEnd = view.acceptedEventEnd)
    (hinv : (life.store.commit id view staged).Inv env) :
    History env id ⟨life.store.commit id view staged, life.accepted⟩ where
  inv := hinv
  increasing := h.increasing
  windows := h.windows
  watermark view' hview' := by
    cases find?_scopes_commit.symm.trans hview'
    rw [hwatermark]
    exact h.watermark view hview
  unborn hnone := by cases find?_scopes_commit.symm.trans hnone
  documents g x hx := by
    rw [find?_generations_commit] at hx
    split at hx
    · rw [hdocument] at hx
      cases hx
    split at hx
    · cases hx
    · exact h.documents g x hx

/-- An operation on another scope. -/
theorem History.elsewhere {id' : String} (hne : id' ≠ id) (hinv : (life.store.commit id' view staged).Inv env) :
    History env id ⟨life.store.commit id' view staged, life.accepted⟩ := by
  have hscope : (life.store.commit id' view staged).scopes.find? id = life.store.scopes.find? id := by
    simp only [Store.commit]
    rw [Dict.find?_put, if_neg hne.symm]
  refine ⟨hinv, h.increasing, h.windows, fun view' hview' => ?_, fun hnone => ?_, fun g d hd => ?_⟩
  · rw [hscope] at hview'
    exact h.watermark view' hview'
  · rw [hscope] at hnone
    exact h.unborn hnone
  · rw [find?_generations_commit_of_ne hne.symm] at hd
    exact h.documents g d hd

/-- A new scope has accepted nothing. -/
theorem History.create
    (hnew : life.store.scopes.find? config.scopeId = none) (hfew : life.store.scopes.rows.length < 16) :
    History env id ⟨{ life.store with
      scopes := life.store.scopes.put (config.scopeId, newScope env config actor now) },
      life.accepted⟩ where
  inv := h.inv.create hnew hfew actor now
  increasing := h.increasing
  windows := h.windows
  watermark view hview := by
    simp only at hview
    rw [Dict.find?_put] at hview
    split at hview
    · rename_i hid
      cases hview
      rw [h.unborn (hid ▸ hnew)]
      rfl
    · exact h.watermark view hview
  unborn hnone := by
    simp only at hnone
    rw [Dict.find?_put] at hnone
    split at hnone
    · cases hnone
    · exact h.unborn hnone
  documents := h.documents

/-- A request keeps what holds of a life. -/
theorem History.step (op : Operation) : History env id (life.step env id op) := by
  have hstepped := h.inv.stepped op
  rw [Life.step, acceptedBy]
  generalize memoryStep env life.store op = result at hstepped
  obtain ⟨outcome, s'⟩ := result
  have hinv := hstepped.inv h.inv
  simp only at hstepped hinv ⊢
  cases hstepped with
  | refused =>
    simp only [toList_none, append_nil]
    exact h
  | found =>
    simp only [Bool.false_eq_true, and_false, if_false, toList_none, append_nil]
    exact h
  | created config actor now hop hnew hfew =>
    subst hop
    simp only [Operation.approves, Bool.false_eq_true, false_and, if_false, toList_none, append_nil]
    exact h.create hnew hfew
  | served call answer _ hop hserved =>
    cases hserved with
    | replayed =>
      simp only [Answer.reply, Bool.false_eq_true, and_false, if_false, toList_none, append_nil]
      exact h
    | applied hnew hview hstage =>
      rename_i view staged
      cases op with
      | create => cases hop
      | publish id' request draw admitted binding =>
        cases hop
        change life.store.scopes.find? id' = some view at hview
        simp only [Operation.approves, Answer.reply, approvalCall, Submission.scopeId, and_true, decide_eq_true_eq]
        by_cases hid : id' = id
        · subst hid
          obtain ⟨b, hstage⟩ := approvalCall_stage hstage
          obtain ⟨r, d, happroved⟩ := stagePublication_ok hstage
          have haccepted : ((life.store.commit id' view staged).current id' staged.scope).bind
              (fun d => d.sources.getLast?) = some r := by
            rw [happroved.current, bind_some]
            exact happroved.newest (h.inv.scope _ _ hview).watermarked
          rw [if_pos rfl, haccepted]
          exact h.approve hview happroved hinv
        · rw [if_neg hid, toList_none, append_nil]
          exact h.elsewhere hid hinv
      | control id' request draw =>
        cases hop
        change life.store.scopes.find? id' = some view at hview
        simp only [Operation.approves, Bool.false_eq_true, false_and, if_false, toList_none, append_nil]
        have hcontrolled := stageControl_ok hstage
        by_cases hid : id' = id
        · subst hid
          refine h.controlled hview hcontrolled.document ?_ hinv
          obtain ⟨active, previous, state, -, hscope⟩ := hcontrolled.scope
          rw [hscope]
        · exact h.elsewhere hid hinv

end

end Steps

/-- A life is a history. -/
theorem History.run (env : Env) (id : String) (ops : List Operation) :
    History env id (ops.foldl (Life.step env id) {}) := by
  refine List.foldlRecOn ops (Life.step env id) (.empty env id) fun life h op _ => ?_
  exact h.step op

/-- The sources of a document, in the terms of its validator. -/
theorem sourceLinks_spec (h : d.sourceLinks = true) :
    d.sources.length ≤ 16 ∧ ∃ newest, d.sources.getLast? = some newest ∧
      ∀ r ∈ d.sources, r.eventEnd ≤ newest.eventEnd ∧ newest.eventEnd - r.eventEnd ≤ thirtyDays := by
  rw [GenerationDocument.sourceLinks] at h
  cases hlast : d.sources.getLast? with
  | none =>
    rw [hlast] at h
    cases h
  | some newest =>
    simp only [hlast, decide_eq_true_eq] at h
    obtain ⟨hlength, -, -, -, -, -, hsorted, -, -, -, hdays, -⟩ := h
    refine ⟨hlength, newest, rfl, fun r hr => ⟨?_, hdays r hr⟩⟩
    have hpairwise := pairwise_insertionSort sourceLe d.sources
    rw [hsorted] at hpairwise
    obtain ⟨front, hfront⟩ := getLast?_eq_some_iff.mp hlast
    rw [hfront] at hr hpairwise
    obtain hr | hr := mem_append.mp hr
    · have hle := (pairwise_append.mp hpairwise).2.2 r hr newest (by simp)
      exact hle.elim le_of_lt fun h => h.1.le
    · rw [mem_singleton.mp hr]

/-- The lifecycle of the generations of a scope: after any requests the windows that the scope
accepted are increasing in time, its stored generations are those it points to, in the order of their
publication, and each has at most 16 sources, all accepted, of the 30 days before its newest one; and
a further request neither lowers nor resets the watermark, nor does a frozen scope accept. -/
theorem generation_lifecycle (env : Env) (id : String) (ops : List Operation) :
    let life := ops.foldl (Life.step env id) {}
    (life.accepted.Pairwise fun r r' => r.eventEnd < r'.eventStart) ∧
    (∀ r ∈ life.accepted, r.eventStart < r.eventEnd) ∧
    (∀ g, (life.store.generations.find? (id, g)).isSome = true ↔
      ∃ view, life.store.scopes.find? id = some view ∧ g ∈ view.pointers) ∧
    (∀ g d, life.store.generations.find? (id, g) = some d → d.sources.length ≤ 16 ∧
      ∃ newest, d.sources.getLast? = some newest ∧ ∀ r ∈ d.sources, r ∈ life.accepted ∧
        r.eventEnd ≤ newest.eventEnd ∧ newest.eventEnd - r.eventEnd ≤ thirtyDays) ∧
    ∀ view, life.store.scopes.find? id = some view →
      view.acceptedEventEnd = life.accepted.getLast?.map SourceReceipt.eventEnd ∧
      (∀ a ∈ view.active, ∀ p ∈ view.previous, ∃ d d', life.store.generations.find? (id, a.generationId) = some d ∧
        life.store.generations.find? (id, p.generationId) = some d' ∧
        d'.publicationRevision < d.publicationRevision) ∧
      (∀ op, ∃ view', (life.step env id op).store.scopes.find? id = some view' ∧
        ∀ t ∈ view.acceptedEventEnd, ∃ t' ∈ view'.acceptedEventEnd, t ≤ t') ∧
      (view.frozen = true → ∀ request draw admitted binding answer s',
        memoryPublish env life.store id request draw admitted binding = .ok (answer, s') →
        answer.created = false ∧ s' = life.store) := by
  intro life
  have h : History env id life := History.run env id ops
  refine ⟨h.increasing, h.windows, fun g => ?_, fun g d hd => ?_, fun view hview => ?_⟩
  · constructor
    · intro hsome
      obtain ⟨d, hd⟩ := isSome_iff_exists.mp hsome
      exact h.inv.generation (id, g) d hd
    · rintro ⟨view, hview, hg⟩
      obtain ⟨row, hrow, rfl⟩ := mem_map.mp ((h.inv.ids hview g).mpr hg)
      rw [mem_generationsOf.mp hrow]
      rfl
  · obtain ⟨hlinks, hsources⟩ := h.documents g d hd
    obtain ⟨hlength, newest, hnewest, hdays⟩ := sourceLinks_spec hlinks
    exact ⟨hlength, newest, hnewest, fun r hr => ⟨hsources r hr, hdays r hr⟩⟩
  · have hscope := h.inv.scope id view hview
    refine ⟨h.watermark view hview, fun a ha p hp => ?_, fun op => ?_, fun hfrozen => ?_⟩
    · obtain ⟨d, hd⟩ := hscope.active a ha
      obtain ⟨d', hd'⟩ := hscope.previous p hp
      exact ⟨d, d', hd.stored, hd'.stored, hscope.order a ha p hp d d' hd.stored hd'.stored⟩
    · have hstays : ((life.step env id op).store.scopes.find? id).isSome = true :=
        (h.inv.stepped op).scope (by rw [hview]; rfl)
      obtain ⟨view', hview'⟩ := isSome_iff_exists.mp hstays
      refine ⟨view', hview', fun t ht => ?_⟩
      rw [h.watermark view hview, mem_def, map_eq_some_iff] at ht
      obtain ⟨r, hr, rfl⟩ := ht
      exact (h.step op).le_watermark hview' (mem_append_left _ (mem_of_getLast? hr))
    · intro request draw admitted binding answer s' hpublish
      rw [memoryPublish_eq h.inv] at hpublish
      cases h.inv.serve_ok (approvalCall_lawful ..) hpublish with
      | replayed => exact ⟨rfl, rfl⟩
      | applied hnew hview' hstage =>
        -- an approval that is applied found the scope thawed
        cases hview.symm.trans hview'
        obtain ⟨b, hstage⟩ := approvalCall_stage hstage
        obtain ⟨r, d, happroved⟩ := stagePublication_ok hstage
        rw [happroved.thawed] at hfrozen
        cases hfrozen

/-! ## An environment

The assumptions of `Env` hold of one that accepts every source and digests a submission to the text of
its fields. -/

section Sample

/-- A text with its end marked. -/
def ended (text : List Char) : List Char := text.flatMap (fun c => ['.', c]) ++ ['|']

theorem ended_append_inj {text text' rest rest' : List Char}
    (h : ended text ++ rest = ended text' ++ rest') : text = text' ∧ rest = rest' := by
  induction text generalizing text' with
  | nil =>
    cases text' with
    | nil => exact ⟨rfl, (List.cons.inj h).2⟩
    | cons c text' => exact absurd (List.cons.inj h).1 (by decide)
  | cons c text ih =>
    cases text' with
    | nil => exact absurd (List.cons.inj h).1 (by decide)
    | cons c' text' =>
      obtain ⟨hc, h⟩ := List.cons.inj (List.cons.inj h).2
      obtain ⟨htext, hrest⟩ := ih h
      exact ⟨by rw [hc, htext], hrest⟩

/-- The texts of several fields. -/
def joined (fields : List String) : List Char := fields.flatMap fun f => ended f.toList

theorem joined_injective : Function.Injective joined := by
  intro fields
  induction fields with
  | nil =>
    intro fields' h
    cases fields' with
    | nil => rfl
    | cons f fields' => cases hf : f.toList <;> simp [joined, ended, hf] at h
  | cons f fields ih =>
    intro fields' h
    cases fields' with
    | nil => cases hf : f.toList <;> simp [joined, ended, hf] at h
    | cons f' fields' =>
      simp only [joined, flatMap_cons] at h
      obtain ⟨hf, hfields⟩ := ended_append_inj h
      rw [String.toList_inj.mp hf, ih hfields]

/-- A number in strokes. -/
def strokes (n : Int) : String :=
  String.ofList ((if n < 0 then '-' else '+') :: List.replicate n.natAbs '1')

theorem strokes_injective : Function.Injective strokes := by
  intro n n' h
  have h := String.ofList_inj.mp h
  have hlength := congrArg List.length (List.cons.inj h).2
  have hsign := (List.cons.inj h).1
  rw [length_replicate, length_replicate] at hlength
  split at hsign <;> split at hsign
  · omega
  · exact absurd hsign (by decide)
  · exact absurd hsign (by decide)
  · omega

def ControlAction.text : ControlAction → String
  | freeze => "FREEZE"
  | unfreeze => "UNFREEZE"
  | rollback => "ROLLBACK"
  | revoke => "REVOKE"
  | retire => "RETIRE"

theorem ControlAction.text_injective : Function.Injective ControlAction.text := by
  intro a b
  cases a <;> cases b <;> simp [ControlAction.text]

/-- The fields of a submission. -/
def Submission.fields : Submission → List String
  | approval id actor r =>
    ["APPROVE", id, actor, strokes r.expectedRevision, r.idempotencyKey, r.sourceJobId,
      r.sourceBindingSha256, r.qualityReview, r.reason]
  | control id actor r =>
    [r.action.text, id, actor, strokes r.expectedRevision, r.idempotencyKey, r.reason] ++
      r.generationId.toList

theorem Submission.fields_injective : Function.Injective Submission.fields := by
  intro x y h
  cases x with
  | approval id actor r =>
    cases y with
    | approval id' actor' r' =>
      simp only [fields, List.cons.injEq, and_true, true_and] at h
      obtain ⟨rfl, rfl, hrevision, hkey, hjob, hbinding, hreview, hreason⟩ := h
      have hrevision := strokes_injective hrevision
      cases r
      cases r'
      simp_all
    | control id' actor' r' =>
      simp only [fields, cons_append, List.cons.injEq] at h
      cases haction : r'.action <;> simp [haction, ControlAction.text] at h
  | control id actor r =>
    cases y with
    | approval id' actor' r' =>
      simp only [fields, cons_append, List.cons.injEq] at h
      cases haction : r.action <;> simp [haction, ControlAction.text] at h
    | control id' actor' r' =>
      simp only [fields, cons_append, List.cons.injEq, nil_append] at h
      obtain ⟨haction, rfl, rfl, hrevision, hkey, hreason, hgeneration⟩ := h
      have haction := ControlAction.text_injective haction
      have hrevision := strokes_injective hrevision
      have hgeneration : r.generationId = r'.generationId := by
        cases hg : r.generationId <;> cases hg' : r'.generationId <;> simp_all
      cases r
      cases r'
      simp_all

/-- An environment that accepts every source. -/
def sample : Env where
  digest x := String.ofList (joined x.fields)
  digest_injective _ _ h :=
    Submission.fields_injective (joined_injective (String.ofList_inj.mp h))
  scopeConfigSha256 config := config.body
  sourceBindingSha256 b := b.body
  sourceFromBinding b _ _ := .ok
    { originalId := b.originalId
      completed := true
      rootIdentity := b.originalId
      featureObservationSha256 := b.originalId
      actualSensorId := ""
      origin := ""
      eventStart := 10 * b.originalId.length
      eventEnd := 10 * b.originalId.length + 5
      knownPartial := false
      clockUncertain := false
      body := b.body }
  bindingOf s := s.body
  buildInput s _ _ _ := .ok s.body
  build input _ := .ok ⟨1, [⟨"key", input, ""⟩]⟩
  windowOrder w := w.sourceReceiptId
  receiptLinks _ := .ok ()
  windowLinks _ := .ok ()
  sensorAssertion _ _ _ _ := .ok ()
  scopedWindow _ _ := .ok ()
  buildInput_asserts _ := rfl
  build_scoped _ _ _ _ := rfl
  contentSha256 d := d.generationId
  byteSize _ := 1
  receiptBytes _ := 1

/-- An approval of a job, with the revision that its author has seen. -/
def sampleApproval (job : String) (revision : Int) : Operation :=
  .publish "s" ⟨revision, job, job, "b", "", ""⟩ ⟨"actor", 0, job, job⟩ true (.ok ⟨job, "b"⟩)

def sampleControl (action : ControlAction) (h : action ≠ .rollback) (revision : Int) : Operation :=
  .control "s" ⟨revision, action.text, action, "", none, by simp [h]⟩ ⟨"actor", 0, action.text, ""⟩

/-- Two sources are accepted, and none while the scope is frozen or out of order. -/
example :
    let ops := [.create ⟨"s", ""⟩ "actor" 0, sampleApproval "j" 0, sampleApproval "jj" 1,
      sampleControl .freeze (by decide) 2, sampleApproval "jjj" 3,
      sampleControl .unfreeze (by decide) 3, sampleApproval "i" 4, sampleControl .retire (by decide) 4]
    let life := ops.foldl (Life.step sample "s") {}
    life.accepted.map SourceReceipt.sourceJobId = ["j", "jj"] ∧
      (life.store.scopes.find? "s").map ScopeView.acceptedEventEnd = some (some 25) ∧
      life.store.generations.rows = [] := by
  decide +kernel

end Sample

end C2Hunter.Baseline
