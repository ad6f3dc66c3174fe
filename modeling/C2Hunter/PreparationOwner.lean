import C2Hunter.PreparationRun

/-!
# Who ends a prepared job

A message of a worker carries the identifier of its job and nothing that says whether its execution
owned the analysis. What the programs make sure of is `only_claimed_results_end`: if `claim_analysis`
does not raise and finds no analysis whose lease has expired, a job ends by the result of an
execution that was answered `CLAIMED`, or by a preparer.

A claim that raises is reported as an error of the analysis, and the controller ends the job with
it, whoever is at work. A claim that finds an expired lease ends the job itself. Both are in
`second_delivery_ends_job`.
-/

namespace C2Hunter.Preparation

variable {config : Config} {s : Store}

/-! ## Statuses -/

/-- No row changes its status. -/
def StatusKept (s s' : Store) : Prop :=
  ∀ id before after, s.jobs.get? id = some before → s'.jobs.get? id = some after →
    after.status = before.status

theorem StatusKept.refl (s : Store) : StatusKept s s := by
  intro id before after hbefore hafter
  rw [Option.some.inj (hbefore.symm.trans hafter)]

variable {claimToken : Token} {d : Delivery} {c : Call}

section

variable {id : String} {now : Nat} {κ κ' : Knowledge} {result : Result}

theorem statusKept_putJob {old job : Job} {s' : Store} (hget : s.jobs.get? id = some old)
    (hjobs : s'.jobs = s.jobs.put job) (hid : job.id = old.id) (hstatus : job.status = old.status) :
    StatusKept s s' := by
  intro id' before after hbefore hafter
  rw [hjobs, Table.get?_put] at hafter
  split at hafter
  · next heq =>
    cases hafter
    rw [heq, hid, Table.get?_key hget] at hbefore
    rw [hstatus, Option.some.inj hbefore]
  · rw [Option.some.inj (hbefore.symm.trans hafter)]

theorem statusKept_upload {module : String} : StatusKept s (s.upload id module now) := by
  rw [Store.upload]
  split
  · exact .refl s
  next hnew =>
  intro id' before after hbefore hafter
  rw [Store.putJob, Table.get?_put] at hafter
  split at hafter
  · next heq =>
    subst heq
    simp [hbefore] at hnew
  · rw [Option.some.inj (hbefore.symm.trans hafter)]

theorem statusKept_renew {attempt : Nat} {token : Token} :
    StatusKept s (s.renewPcapPreparation config now id attempt token).2 := by
  rw [Store.renewPcapPreparation, Store.ifOwned]
  split
  · exact .refl s
  · next current hget =>
    split
    · exact statusKept_putJob hget rfl rfl rfl
    · exact .refl s

theorem statusKept_renewAnalysis : StatusKept s (s.renewAnalysis config now id claimToken).2 := by
  rw [Store.renewAnalysis]
  split
  · exact .refl s
  next job hget =>
  split
  · exact .refl s
  split
  · exact statusKept_putJob hget rfl rfl rfl
  · exact .refl s

theorem statusKept_markStarted {occurredAt attempt : Nat} {token : Token} :
    StatusKept s (s.markAnalysisStarted id occurredAt attempt token).2 := by
  rw [Store.markAnalysisStarted]
  split
  · exact .refl s
  next job hget =>
  split
  · exact .refl s
  split
  · exact .refl s
  split
  · exact .refl s
  split
  · exact .refl s
  · exact statusKept_putJob hget rfl rfl rfl

/-- The lease of an analysis that is under way has not expired. -/
def alive (s : Store) (id : String) (now : Nat) : Bool :=
  (s.jobs.get? id).all fun job => job.processing.all fun p =>
    p.phase ∉ [.analysisClaimed, .analysisRunning] || p.analysisLeaseExpiresAt.any (now < ·)

theorem statusKept_claimAnalysis (halive : alive s d.jobId now = true) :
    StatusKept s (s.claimAnalysis config now d claimToken).2 := by
  rw [Store.claimAnalysis]
  split
  · exact .refl s
  next job hget =>
  split
  · exact .refl s
  next p hp =>
  split
  · exact .refl s
  split
  · next hphases =>
    split
    · exact .refl s
    · next hexpired =>
      rw [alive, hget, Option.all_some, hp, Option.all_some] at halive
      simp [hphases, hexpired] at halive
  split
  · exact .refl s
  split
  · exact .refl s
  split
  · exact .refl s
  · exact statusKept_putJob hget rfl rfl rfl

/-! ## What programs know about claims -/

/-- A message about the outcome of an analysis comes from an execution that was answered
`CLAIMED`. -/
def Honest (κ : Knowledge) (result : Result) : Prop :=
  result.report = .superseded ∨ (∃ t a k, result.report = .started t a k) ∨
    result.claimed = true ∧ ∃ attempt token, .claimed result.jobId attempt token ∈ κ

theorem Honest.mono (hκ : κ ⊆ κ') (h : Honest κ result) : Honest κ' result := by
  rcases h with h | h | ⟨hclaimed, attempt, token, h⟩
  · exact .inl h
  · exact .inr (.inl h)
  · exact .inr (.inr ⟨hclaimed, attempt, token, hκ h⟩)

/-- The result of an owner, about this job. -/
def Owner (κ : Knowledge) (id : String) (result : Result) : Prop :=
  result.jobId = id ∧ result.claimed = true ∧ ∃ attempt token, .claimed id attempt token ∈ κ

theorem Owner.mono (hκ : κ ⊆ κ') (h : Owner κ id result) : Owner κ' id result := by
  obtain ⟨hid, hclaimed, attempt, token, h⟩ := h
  exact ⟨hid, hclaimed, attempt, token, hκ h⟩

theorem Owner.of_eq {id' : String} (h : Owner κ id result) (hid : id' = id) : Owner κ id' result :=
  hid ▸ h

/-- The calls that keep to owners. -/
def OwnerOk (κ : Knowledge) : Call → Prop
  | .send result => Honest κ result
  | .transitionJobTerminal job result => Owner κ job.id result
  | .completeJobWithCandidates job _ result => Owner κ job.id result
  | _ => True

/-- What answers tell about owners, if claims do not raise. -/
def OwnerTells (κ : Knowledge) : (c : Call) → Answer c → Prop
  | .claimAnalysis d, (claim : Store.Claim) => claim ≠ .raised ∧
    ∀ token, claim = .claimed token → .claimed d.jobId d.attempt d.leaseToken ∈ κ
  | .claimResult, (result : Option Result) => ∀ r ∈ result, Honest κ r
  | .getJobSummary id, (summary : Option Job) => ∀ job ∈ summary, job.id = id
  | _, _ => True

theorem OwnerOk.mono (hκ : κ ⊆ κ') (h : OwnerOk κ c) : OwnerOk κ' c := by
  cases c with
  | send => exact Honest.mono hκ h
  | transitionJobTerminal | completeJobWithCandidates => exact Owner.mono hκ h
  | _ => trivial

/-- The program keeps to owners. -/
abbrev Keeps (p : Program) (κ : Knowledge) : Prop := p.Knows OwnerOk OwnerTells κ

end

variable {identifier : String → String}

section Programs

variable {κ : Knowledge}

section

section

variable (h : .claimed d.jobId d.attempt d.leaseToken ∈ κ)

include h

/-- The messages of an execution that was answered `CLAIMED`. -/
theorem keeps_finish (report : Report) : Keeps (finish d report true) κ :=
  knows_last (.inr (.inr ⟨rfl, d.attempt, d.leaseToken, h⟩))

theorem keeps_analyzePayload : Keeps (analyzePayload d) κ := by
  refine knows_ask trivial fun choice κ' hκ => ?_
  split
  · exact keeps_finish (hκ h) _
  · exact keeps_finish (hκ h) _

theorem keeps_startAnalysis : Keeps (startAnalysis d) κ := by
  refine knows_ask trivial fun choice κ' hκ => ?_
  split
  · exact keeps_analyzePayload (hκ h)
  · refine ⟨.inr (.inl ⟨_, _, _, rfl⟩), fun κ'' _ hκ' _ => ?_⟩
    exact keeps_analyzePayload (hκ' (hκ h))

end

theorem keeps_executeJob (κ : Knowledge) (d : Delivery) : Keeps (executeJob d) κ := by
  refine ⟨trivial, fun κ' (claim : Store.Claim) _ htells => ?_⟩
  obtain ⟨hraised, hclaimed⟩ := htells
  cases claim with
  | raised => exact absurd rfl hraised
  | active => trivial
  | superseded => exact knows_last (.inl rfl)
  | claimed token =>
    have hclaimed := hclaimed token rfl
    refine ⟨trivial, fun κ'' (payload : Option Job) hκ' _ => ?_⟩
    cases payload with
    | none => exact keeps_finish (hκ' hclaimed) _
    | some payload =>
      dsimp only
      split
      · exact keeps_finish (hκ' hclaimed) _
      · exact keeps_startAnalysis (hκ' hclaimed)

theorem keeps_analyze (κ : Knowledge) : Keeps analyze κ := by
  refine ⟨trivial, fun κ' (delivery : Option Delivery) _ _ => ?_⟩
  cases delivery with
  | none => trivial
  | some d => exact keeps_executeJob κ' d

end

theorem keeps_persist (κ : Knowledge) : Keeps (persist identifier) κ := by
  refine ⟨trivial, fun κ₁ (result : Option Result) _ hresult => ?_⟩
  cases result with
  | none => trivial
  | some result =>
    have hhonest : Honest κ₁ result := hresult result rfl
    refine ⟨trivial, fun κ₂ (summary : Option Job) hκ₂ hsummary => ?_⟩
    cases summary with
    | none => trivial
    | some job =>
      have hid : job.id = result.jobId := hsummary job rfl
      simp only [persistResult]
      split
      · trivial
      obtain hreport | ⟨t, a, k, hreport⟩ | ⟨hclaimed, attempt, token, hmem⟩ := hhonest.mono hκ₂
      · rw [hreport]
        trivial
      · rw [hreport]
        exact knows_last trivial
      · have howner : Owner κ₂ job.id result := ⟨hid.symm, hclaimed, attempt, token, hid ▸ hmem⟩
        have hends : EndsOk OwnerOk κ₂ job result := fun κ' hκ job' hid' _ _ =>
          have hown := (howner.mono hκ).of_eq hid'
          ⟨hown, fun _ => hown⟩
        split
        · exact knows_last trivial
        · trivial
        · exact knows_persistCompleted (fun _ => trivial) hends _
        · exact knows_persistError (fun _ => trivial) hends _

theorem keeps_program (identifier : String → String) (request : Request) (κ : Knowledge) :
    (program identifier request).Knows (fun κ c => Ok κ c ∧ OwnerOk κ c)
      (fun κ c a => Tells κ c a ∧ OwnerTells κ c a) κ := by
  cases request with
  | upload | renewPcapPreparation | renewAnalysis => exact knows_last ⟨trivial, trivial⟩
  | prepare =>
    -- The calls of a preparer are about no result.
    refine (knows_prepare (fun κ c hprepares hok => ⟨hok, ?_⟩) κ).tell fun _ _ _ h => h.1
    cases c <;> trivial
  | analyze => exact (inOrder_analyze κ).and (keeps_analyze κ)
  | persist => exact (inOrder_persist κ).and (keeps_persist κ)

end Programs

/-! ## All interleavings -/

/-- Claims of an analysis do not raise, and find no analysis whose lease has expired. -/
def undisturbed : Call → Store → Choice → Bool
  | .claimAnalysis d, s, choice => !choice.raised && alive s d.jobId choice.now
  | _, _, _ => true

/-- The messages in the queue come from owners, if they are about the outcome. -/
def AllHonest (s : Store) : Prop := ∀ r ∈ s.results, Honest (know s) r

theorem claimAnalysis_tells {now : Nat} : (s.claimAnalysis config now d claimToken).1 ≠ .raised ∧
      ∀ token, (s.claimAnalysis config now d claimToken).1 = .claimed token →
        .claimed d.jobId d.attempt d.leaseToken ∈ know (s.claimAnalysis config now d claimToken).2 := by
  rw [Store.claimAnalysis]
  split
  · simp
  split
  · simp
  split
  · simp
  split
  · split <;> simp
  split
  · simp
  split
  · simp
  split
  · simp
  · simp [know, Store.note]

variable {choice : Choice}

theorem ownerTells_answer (hs : AllHonest s) (hallowed : undisturbed c s choice = true) :
    OwnerTells (know (answer config c s choice).2) c (answer config c s choice).1 := by
  cases c with
  | claimAnalysis d =>
    rw [undisturbed, Bool.and_eq_true, Bool.not_eq_true'] at hallowed
    have heq : answer config (.claimAnalysis d) s choice = s.claimAnalysis config choice.now d choice.token := by
      rw [answer, tryClaimAnalysis, hallowed.1]
      rfl
    rw [heq]
    exact claimAnalysis_tells
  | claimResult => exact fun r hr => hs r (List.mem_of_getElem? hr)
  | getJobSummary => exact fun job hjob => Table.key_of_get? hjob
  | _ => trivial

theorem allHonest_answer (hs : AllHonest s) (hok : OwnerOk (know s) c)
    (hknow : know s ⊆ know (answer config c s choice).2) : AllHonest (answer config c s choice).2 := by
  intro r hr
  cases hsilent : c.silent with
  | true =>
    rw [(answer_messages hsilent choice).2] at hr
    exact (hs r hr).mono hknow
  | false =>
    cases c with
    | enqueue d => exact hs r hr
    | send result =>
      rcases List.mem_append.mp hr with hr | hr
      · exact hs r hr
      · exact List.mem_singleton.mp hr ▸ hok
    | _ => simp [Call.silent] at hsilent

/-- The invariant of the store when claims are undisturbed. -/
structure Kept (config : Config) (s : Store) : Prop where
  sound : Sound config s
  honest : AllHonest s

/-- A schedule whose claims are undisturbed. -/
abbrev Calm (config : Config) (identifier : String → String) (events : Schedule) : Prop :=
  Machine.Allows (program identifier) (answer config) () (fun c s choice => undisturbed c s choice = true)
    ⟨Store.empty, []⟩ events

theorem kept_serve {events : Schedule} (hcalm : Calm config identifier events) :
    Kept config (serve config identifier events).shared ∧ ∀ p ∈ (serve config identifier events).procs,
        p.Knows (fun κ c => Ok κ c ∧ OwnerOk κ c) (fun κ c a => Tells κ c a ∧ OwnerTells κ c a)
          (know (serve config identifier events).shared) := by
  have hempty : Kept config Store.empty := ⟨.empty, by simp [AllHonest, Store.empty]⟩
  refine Machine.run_knows (fun κ κ' c hκ h => ⟨Ok.mono hκ h.1, OwnerOk.mono hκ h.2⟩) hempty (by simp)
    (keeps_program identifier)
    (fun c s choice hs hok hallowed => ?_) hcalm
  have hknow := (moves_answer hs.sound hok.1 choice).know_le
  exact ⟨⟨sound_answer hs.sound hok.1 choice, allHonest_answer hs.honest hok.2 hknow⟩, hknow,
    tells_answer hs.sound c choice, ownerTells_answer hs.honest hallowed⟩

/-! ## Changes of a status -/

/-- The calls that a preparer makes about its own lease. -/
def Call.preparer : Call → Bool
  | .claimPcapPreparation | .publishPcapPreparation .. | .completePcapPreparation ..
  | .failPcapPreparation .. => true
  | _ => false

/-- The end of a job changes its own row, and is noted. -/
theorem statusKept_endJob {job : Job} {result : Result} {write : Job → Store} {id : String}
    {before after : Job} (hbefore : s.jobs.get? id = some before)
    (hafter : (s.endJob job result write).2.jobs.get? id = some after)
    (hjobs : ∀ stored, (write stored).jobs = s.jobs.put stored)
    (hlog : ∀ stored, (write stored).log = s.log) :
    after.status = before.status ∨ id = job.id ∧ (s.endJob job result write).2.log = s.log ++ [.ended result] := by
  rw [Store.endJob] at hafter ⊢
  split at hafter
  · exact .inl (StatusKept.refl s id before after hbefore hafter)
  next current hget =>
  split at hafter
  · exact .inl (StatusKept.refl s id before after hbefore hafter)
  next hopen =>
  simp only [hopen, Store.note, hlog, hjobs, Bool.false_eq_true, if_false] at hafter ⊢
  rw [Table.get?_put] at hafter
  split at hafter
  · next heq => exact .inr ⟨heq, trivial⟩
  · exact .inl (StatusKept.refl s id before after hbefore hafter)

/-- A call that changes a status is a preparer's, or ends the job by the result of an owner. -/
theorem status_answer (hok : OwnerOk (know s) c)
    (hallowed : undisturbed c s choice = true) {id : String} {before after : Job}
    (hbefore : s.jobs.get? id = some before)
    (hafter : (answer config c s choice).2.jobs.get? id = some after) :
    after.status = before.status ∨ c.preparer = true ∨
      ∃ result, (answer config c s choice).2.log = s.log ++ [.ended result] ∧ Owner (know s) id result := by
  cases c with
  | claimPcapPreparation | publishPcapPreparation | completePcapPreparation
  | failPcapPreparation => exact .inr (.inl rfl)
  | upload => exact .inl (statusKept_upload id before after hbefore hafter)
  | renewPcapPreparation => exact .inl (statusKept_renew id before after hbefore hafter)
  | renewAnalysis => exact .inl (statusKept_renewAnalysis id before after hbefore hafter)
  | markAnalysisStarted => exact .inl (statusKept_markStarted id before after hbefore hafter)
  | enqueue | receive | load | send | claimResult | getJobSummary | ask =>
    exact .inl (StatusKept.refl s id before after hbefore hafter)
  | claimAnalysis =>
    rw [undisturbed, Bool.and_eq_true, Bool.not_eq_true'] at hallowed
    rw [answer, tryClaimAnalysis, hallowed.1] at hafter
    exact .inl (statusKept_claimAnalysis hallowed.2 id before after hbefore hafter)
  | transitionJobTerminal job result =>
    rcases statusKept_endJob hbefore hafter (fun _ => rfl) (fun _ => rfl) with h | ⟨hid, hlog⟩
    · exact .inl h
    · exact .inr (.inr ⟨result, hlog, Owner.of_eq hok hid⟩)
  | completeJobWithCandidates job candidates result =>
    rcases statusKept_endJob hbefore hafter (fun _ => rfl) (fun _ => rfl) with h | ⟨hid, hlog⟩
    · exact .inl h
    · exact .inr (.inr ⟨result, hlog, Owner.of_eq hok hid⟩)

/-- If claims do not raise and find no lease that has expired, the status of a job changes by its
preparer, or by the result of an execution that was answered `CLAIMED` for this job. -/
theorem only_claimed_results_end (config : Config) (identifier : String → String)
    (events : Schedule) (hcalm : Calm config identifier events) :
    ∀ pre i choice c k, pre ++ [.advance i choice] <+: events →
      (serve config identifier pre).procs[i]? = some (.call c k) →
      ∀ id before after, (serve config identifier pre).shared.jobs.get? id = some before →
        (serve config identifier (pre ++ [.advance i choice])).shared.jobs.get? id = some after →
        after.status = before.status ∨ c.preparer = true ∨
          ∃ result, (serve config identifier (pre ++ [.advance i choice])).shared.log =
              (serve config identifier pre).shared.log ++ [.ended result] ∧
            result.jobId = id ∧ result.claimed = true ∧
            ∃ attempt token, .claimed id attempt token ∈ (serve config identifier pre).shared.log := by
  intro pre i choice c k hpre hk id before after hbefore hafter
  have hpre' : Calm config identifier pre := fun pre' i' choice' c' k' hpre' =>
    hcalm pre' i' choice' c' k' (hpre'.trans ((List.prefix_append _ _).trans hpre))
  have hknows := (kept_serve hpre').2 _ (List.mem_of_getElem? hk)
  have hstep : (serve config identifier (pre ++ [.advance i choice])).shared =
      (answer config c (serve config identifier pre).shared choice).2 := by
    rw [serve_concat, Machine.step, hk]
  rw [hstep] at hafter ⊢
  exact status_answer hknows.1.2 (hcalm pre i choice c k hpre hk) hbefore hafter

/-- A preparer publishes and sends its message, and a worker claims the analysis. -/
def analysisClaimed : Schedule :=
  claimedUpload ++ turns 1 (List.replicate 11 {}) ++ .start .analyze :: turns 2 [{}, { token := 2 }]

/-- The worker returns its result, and the controller is about to store it. -/
def analysisReturned : Schedule :=
  analysisClaimed ++ turns 2 [{}, { raised := true }, {}, {}] ++ .start .persist :: turns 3 [{}, {}, {}, {}]

/-- The job is completed by the worker that claimed it. -/
theorem claimed_result_ends :
    let before := (serve {} id analysisReturned).shared
    let after := (serve {} id (analysisReturned ++ [.advance 3 {}])).shared
    (after.jobs.get? "job").map Job.status = some .completed ∧
      ∃ result, after.log = before.log ++ [.ended result] ∧ result.claimed = true := by
  have hcalm : Calm {} id (analysisReturned ++ [.advance 3 {}]) :=
    Machine.allows_of_eq_true (by decide +kernel)
  refine ⟨by decide +kernel, ?_⟩
  obtain ⟨before, hbefore⟩ : ∃ before, (serve {} id analysisReturned).shared.jobs.get? "job" = some before :=
    Option.isSome_iff_exists.mp (by decide +kernel)
  obtain ⟨after, hafter⟩ : ∃ after,
      (serve {} id (analysisReturned ++ [.advance 3 {}])).shared.jobs.get? "job" = some after :=
    Option.isSome_iff_exists.mp (by decide +kernel)
  have hbefore' : before.status = .analyzing := Option.some.inj
    ((congrArg (Option.map Job.status) hbefore).symm.trans (by decide +kernel))
  have hafter' : after.status = .completed := Option.some.inj
    ((congrArg (Option.map Job.status) hafter).symm.trans (by decide +kernel))
  rcases only_claimed_results_end {} id _ hcalm analysisReturned 3 {} _ _ List.prefix_rfl rfl "job"
    before after hbefore hafter with h | h | ⟨result, hlog, -, hclaimed, -⟩
  · simp [hbefore', hafter'] at h
  · cases h
  · exact ⟨result, hlog, hclaimed⟩

/-- The message is delivered again while the worker is at work. If the second claim raises, its report
ends the job; if it comes when the lease has expired, it is superseded and ends the job itself. -/
theorem second_delivery_ends_job :
    let again := analysisClaimed ++ [.start .analyze, .advance 3 {}]
    let before := (serve {} id again).shared
    let raised := (serve {} id (again ++ turns 3 [{ raised := true }, {}] ++
      .start .persist :: turns 4 [{}, {}, {}, {}, {}])).shared
    let late := (serve {} id (again ++ [.advance 3 { now := 300 }])).shared
    (before.jobs.get? "job").map Job.status = some .analyzing ∧
      (before.jobs.get? "job").map Job.phase? = some (some .analysisClaimed) ∧
      (raised.jobs.get? "job").map Job.status = some .failed ∧
      raised.log.getLast? = some (.ended ⟨"job", .error "PAYLOAD_LOAD_FAILED", false⟩) ∧
      (late.jobs.get? "job").map Job.status = some .failed := by
  decide +kernel

end C2Hunter.Preparation
