import C2Hunter.PreparationMoves

/-!
# Preparation hands a job over once

The operations of the store as moves of rows, and the programs by what they know: a preparer sends a
message for a publication that is in the log, and whatever a worker or the controller does later
goes back to that message.

* `moves_answer` — every call is a sequence of moves, given what its program knows.
* `preparation_hands_over_once`, `messages_agree` — what follows for all interleavings.

`failed_preparation_forgets_attempt` is the one way in which an attempt gets lost.
-/

namespace C2Hunter.Preparation

open List Table Option

variable {config : Config} {now : Nat} {s : Store}

/-! ## Operations -/

/-- The row of an owner. -/
structure Owned (now : Nat) (attempt : Nat) (token : Token) (phases : List Phase) (job : Job) :
    Prop where
  isOpen : job.status.terminal = false
  phase? : ∃ phase ∈ phases, job.phase? = some phase
  attempt? : job.attempt? = some attempt
  token? : job.token? = some token
  lease : job.processing.any fun p => p.leaseExpiresAt.any (now < ·)

variable {phases : List Phase} {write : Job → Store} {claimToken : Token} {result : Result}
    {ok : Knowledge → Call → Prop} {tells : Knowledge → (c : Call) → Answer c → Prop}

section

variable {token : Token} {job : Job} {κ : Knowledge} {attempt : Nat} {d : Delivery} {id : String}
    {claimed : Job} {log : List Fact} {κ' : Knowledge} {c : Call} {target : JobState} {reason : String}

theorem owned_of_owns (h : owns now attempt token phases job = true) : Owned now attempt token phases job := by
  rw [owns] at h
  split at h
  · cases h
  next p hp =>
  simp only [Bool.and_eq_true, decide_eq_true_eq, Bool.not_eq_true'] at h
  obtain ⟨⟨⟨⟨⟨-, hopen⟩, hphase⟩, hattempt⟩, htoken⟩, hlease⟩ := h
  exact ⟨hopen, ⟨p.phase, hphase, by rw [Job.phase?, hp]; rfl⟩, by rw [Job.attempt?, hp]; exact hattempt,
    by rw [Job.token?, hp]; exact htoken, by rw [hp]; exact hlease⟩

/-- A write of an owner is a move of the row. -/
theorem moves_ifOwned (h : ∀ current, s.jobs.get? id = some current → Owned now attempt token phases current →
      Move config s (write current)) :
    Moves config s (s.ifOwned now id attempt token phases write).2 := by
  rw [Store.ifOwned]
  split
  · exact .refl
  · next current hget =>
    split
    · next howns => exact .single (h current hget (owned_of_owns howns))
    · exact .refl

/-- A move of a row that only `putJob` makes. -/
theorem move_putJob {before : Job} (after : Job) (hget : s.jobs.get? before.id = some before)
    (hid : after.id = before.id) (hopen : before.status.terminal = false)
    (hmoved : Moved config before after none) : Move config s (s.putJob after) :=
  .row before after none hget hid hopen hmoved rfl (fun _ _ => rfl) (by simp [Store.putJob])

theorem move_renew : Moves config s (s.renewPcapPreparation config now id attempt token).2 := by
  refine moves_ifOwned fun current hget howned => ?_
  refine move_putJob _ (get?_key hget) rfl howned.isOpen (.kept rfl ?_ ?_ ?_)
  · rw [Job.phase?, Option.map_map]
    rfl
  · rw [Job.attempt?, Option.bind_map]
    rfl
  · rw [Job.token?, Option.bind_map]
    rfl

theorem move_publish (hstatus : job.status = .analyzing)
    (hphase : job.phase? = some .analysisEnqueuePending) (hattempt : job.attempt? = some attempt) :
    Moves config s (s.publishPcapPreparation now job attempt token).2 := by
  refine moves_ifOwned fun current hget howned => ?_
  have hid : current.id = job.id := key_of_get? hget
  obtain ⟨phase, hmem, hparsing⟩ := howned.phase?
  obtain rfl := mem_singleton.mp hmem
  obtain ⟨p, hp, hp'⟩ := map_eq_some_iff.mp hphase
  refine .row current _ (some (.published current.id attempt token)) (get?_key hget) ?_
    howned.isOpen (.published attempt token hparsing howned.attempt? ?_ ?_ ?_ ?_) rfl
    (fun _ _ => rfl) ?_
  · exact hid.symm
  · exact hstatus
  · simp [Job.phase?, hp, hp']
  · simpa [Job.attempt?, hp] using hattempt
  · simpa [Job.token?, hp] using howned.token?
  · rw [hid]
    rfl

/-- What a preparer writes when it is done: the message is sent, or it gives up. -/
def Settles (job : Job) (attempt : Nat) (token : Token) : Prop :=
  (job.status = .analyzing ∧ job.phase? = some .analysisQueued ∧ job.attempt? = some attempt ∧
    job.token? = some token) ∨ (job.status = .failed ∧ job.attempt? = none)

theorem move_complete (hsettles : Settles job attempt token) :
    Moves config s (s.completePcapPreparation now job attempt token).2 := by
  refine moves_ifOwned fun current hget howned => ?_
  have hid : current.id = job.id := key_of_get? hget
  obtain ⟨phase, hmem, hpending⟩ := howned.phase?
  obtain rfl := mem_singleton.mp hmem
  refine move_putJob _ (get?_key hget) hid.symm howned.isOpen ?_
  rcases hsettles with ⟨hstatus, hphase, hattempt, htoken⟩ | ⟨hstatus, hattempt⟩
  · exact .queued hpending hstatus hphase (hattempt.trans howned.attempt?.symm) (htoken.trans howned.token?.symm)
  · exact .dropped hstatus hattempt

theorem move_fail (hstatus : job.status = .failed) (hattempt : job.attempt? = none) :
    Moves config s (s.failPcapPreparation now job attempt token).2 := by
  refine moves_ifOwned fun current hget howned => ?_
  have hid : current.id = job.id := key_of_get? hget
  exact move_putJob _ (get?_key hget) hid.symm howned.isOpen (.dropped hstatus hattempt)

/-! ### Claims of a preparer -/

theorem exhausted_moved {exhausted : Job} (h : exhaustMetadata config now job = some exhausted) :
    exhausted.id = job.id ∧ job.status.terminal = false ∧ Moved config job exhausted none := by
  rw [exhaustMetadata] at h
  split at h
  · cases h
  next p hp =>
  split at h
  · cases h
  next hguard =>
  push Not at hguard
  split at h
  · cases h
  split at h
  · cases h
  · cases h
    refine ⟨rfl, by simpa using hguard.2.1, .ended none (by simp) rfl ?_⟩
    simp [Job.attempt, hp]

/-- The claim of a row. -/
theorem claimed_moved (h : claimMetadata config now token job = some claimed) :
    claimed.id = job.id ∧ job.status.terminal = false ∧
      (claimed.phase? = some .parsing ∧ Moved config job claimed none ∨
        job.phase? = some .analysisEnqueuePending ∧ claimed.phase? = job.phase? ∧
          claimed.status = job.status ∧ claimed.attempt? = some job.attempt ∧
          claimed.token? = some (job.token?.getD token)) := by
  rw [claimMetadata] at h
  split at h
  · cases h
  next p hp =>
  split at h
  · cases h
  next hguard =>
  push Not at hguard
  split at h
  · cases h
  next hphases =>
  split at h
  · cases h
  next hbound =>
  split at h
  · cases h
  cases h
  refine ⟨rfl, by simpa using hguard.2, ?_⟩
  by_cases hpending : p.phase = .analysisEnqueuePending
  · right
    simp [Job.phase?, Job.attempt?, Job.token?, Job.attempt, hp, claimProcessing, hpending, Processing.enter]
  left
  have hphase : p.phase = .uploadStored ∨ p.phase = .parsing := by
    simpa [hpending] using not_not.mp hphases
  have hlt : p.attempt.getD 0 < config.maxAttempts := by
    by_contra hle
    exact hbound ⟨hpending, Nat.le_of_not_lt hle⟩
  refine ⟨by simp [Job.phase?, claimProcessing, hpending, Processing.enter], .parsing ?_ ?_ rfl ?_ ?_⟩
  · simpa [Job.phase?, hp] using hphase
  · simpa [Job.attempt, hp] using hlt
  · simp [Job.phase?, claimProcessing, hpending, Processing.enter]
  · simp [Job.attempt?, Job.attempt, hp, claimProcessing, hpending]

/-- A publication that waits for its message keeps its attempt and its token. -/
theorem RowOk.pending (h : RowOk config log job) (hopen : job.status.terminal = false)
    (hphase : job.phase? = some .analysisEnqueuePending) :
    ∃ attempt token, .published job.id attempt token ∈ log ∧ job.status = .analyzing ∧
      job.attempt? = some attempt ∧ job.token? = some token := by
  obtain hterminal | ⟨attempt, token, hpublished⟩ := h.committed _ hphase (.inl rfl)
  · simp [hopen] at hterminal
  obtain hterminal | hcommitted := h.published attempt token hpublished
  · simp [hopen] at hterminal
  exact ⟨attempt, token, hpublished, hcommitted.status, hcommitted.attempt?, hcommitted.token hphase (by simp)⟩

/-- What a claim answers: a row to parse, or a publication to send. -/
def Claims (log : List Fact) (job : Job) : Prop :=
  job.phase? = some .parsing ∨
    ∃ attempt token, .published job.id attempt token ∈ log ∧ job.status = .analyzing ∧
      job.phase? = some .analysisEnqueuePending ∧ job.attempt? = some attempt ∧
      job.token? = some token

theorem claimed_row (hok : RowOk config log job) (h : claimMetadata config now token job = some claimed) :
    claimed.id = job.id ∧ job.status.terminal = false ∧ Moved config job claimed none ∧ Claims log claimed := by
  obtain ⟨hid, hopen, ⟨hphase, hmoved⟩ | ⟨hpending, hphase, hstatus, hattempt, htoken⟩⟩ :=
    claimed_moved h
  · exact ⟨hid, hopen, hmoved, .inl hphase⟩
  · obtain ⟨attempt, token', hpublished, hanalyzing, hattempt', htoken'⟩ := hok.pending hopen hpending
    have hattempt₁ : claimed.attempt? = job.attempt? := by
      rw [hattempt, Job.attempt_eq, hattempt', getD_some]
    have htoken₁ : claimed.token? = job.token? := by rw [htoken, htoken', getD_some]
    refine ⟨hid, hopen, .kept hstatus hphase hattempt₁ htoken₁, .inr ⟨attempt, token', ?_⟩⟩
    exact ⟨hid ▸ hpublished, hstatus.trans hanalyzing, hphase.trans hpending,
      hattempt₁.trans hattempt', htoken₁.trans htoken'⟩

/-- The loop over rows, each of which is still there when its turn comes. -/
theorem claimLoop_moves {rows : List Job} (hnodup : (rows.map Job.id).Nodup) (hs : Consistent config s)
    (hrows : ∀ job ∈ rows, s.jobs.get? job.id = some job) :
    Moves config s (Store.claimLoop config now token rows s).2 ∧
      ∀ job, (Store.claimLoop config now token rows s).1 = some job →
        Claims (Store.claimLoop config now token rows s).2.log job := by
  induction rows generalizing s with
  | nil => exact ⟨.refl, by simp [Store.claimLoop]⟩
  | cons job rows ih =>
    rw [map_cons, nodup_cons] at hnodup
    have hget := hrows job mem_cons_self
    rw [Store.claimLoop]
    split
    · next exhausted hexhausted =>
      obtain ⟨hid, hopen, hmoved⟩ := exhausted_moved hexhausted
      have hmove : Move config s (s.putJob exhausted) := move_putJob _ hget hid hopen hmoved
      obtain ⟨hmoves, hclaims⟩ := ih hnodup.2 (hs.move hmove) fun other hother => by
        have hne : other.id ≠ exhausted.id := by
          rw [hid]
          exact fun h => hnodup.1 (h ▸ mem_map_of_mem hother)
        rw [Store.putJob, get?_put_ne _ hne]
        exact hrows other (mem_cons_of_mem _ hother)
      exact ⟨hmoves.head hmove, hclaims⟩
    · split
      · exact ih hnodup.2 hs fun other hother => hrows other (mem_cons_of_mem _ hother)
      · next claimed hclaimed =>
        obtain ⟨hid, hopen, hmoved, hclaims⟩ := claimed_row (hs.row _ _ hget) hclaimed
        refine ⟨.single (move_putJob _ hget hid hopen hmoved), ?_⟩
        rintro _ ⟨⟩
        exact hclaims

theorem move_claimPreparation (hs : Consistent config s) :
    Moves config s (s.claimPcapPreparation config now token).2 ∧
      ∀ job, (s.claimPcapPreparation config now token).1 = some job →
        Claims (s.claimPcapPreparation config now token).2.log job := by
  have hperm := perm_insertionSort (fun a b : Job => a.createdAt ≤ b.createdAt) s.jobs.rows
  refine claimLoop_moves ((hperm.map Job.id).nodup_iff.mpr s.jobs.nodup) hs fun job hjob => ?_
  exact get?_of_mem (hperm.mem_iff.mp hjob)

/-! ### Workers and the controller -/

theorem move_claimAnalysis (noted : Bool) : Moves config s { (s.claimAnalysis config now d claimToken).2 with
      log := if noted then (s.claimAnalysis config now d claimToken).2.log else s.log } := by
  have hsame : Moves config s { s with log := if noted then s.log else s.log } :=
    .single (.same rfl rfl (by simp))
  rw [Store.claimAnalysis]
  split
  · exact hsame
  next job hget =>
  have hid : job.id = d.jobId := key_of_get? hget
  split
  · exact hsame
  next p hp =>
  split
  · exact hsame
  next hstatus =>
  have hanalyzing : job.status = .analyzing := not_not.mp hstatus
  have hopen : job.status.terminal = false := by
    rw [hanalyzing]
    rfl
  have hphase : job.phase? = some p.phase := by
    rw [Job.phase?, hp]
    rfl
  split
  · split
    · exact hsame
    · refine .single (.row job (Store.workerLost now job p) none (get?_key hget) rfl hopen
        (.ended none (by simp) rfl ?_) rfl (fun _ _ => rfl) (by simp [Store.putJob]))
      simp [Store.workerLost, Job.attempt, hp, Processing.enter]
  split
  · exact hsame
  next hattempt =>
  split
  · exact hsame
  next hphases =>
  split
  · exact hsame
  next htoken =>
  have hwaiting : p.phase.waiting = true := by
    have hphases' : p.phase = .analysisEnqueuePending ∨ p.phase = .analysisQueued := by
      simpa using not_not.mp hphases
    rcases hphases' with h | h <;> rw [h] <;> rfl
  refine .single (.row job (Store.claimedBy config now claimToken job p)
    (if noted then some (.claimed job.id d.attempt d.leaseToken) else none) (get?_key hget) rfl hopen
    (.claimed d.attempt d.leaseToken noted p.phase hphase hwaiting ?_ ?_ rfl ?_ ?_ ?_) rfl
    (fun _ _ => rfl) ?_)
  · simpa [Job.attempt?, hp] using hattempt
  · simpa [Job.token?, hp] using htoken
  · rfl
  · simp [Job.attempt?, hp, Store.claimedBy, Processing.enter]
  · simp [Job.token?, hp, Store.claimedBy, Processing.enter]
  · cases noted <;> simp [Store.note, Store.putJob, hid]

theorem move_tryClaimAnalysis {x : Choice} : Moves config s (tryClaimAnalysis config s d x).2 := by
  rw [tryClaimAnalysis]
  split
  · dsimp only
    split
    · exact move_claimAnalysis false
    · exact .refl
  · exact move_claimAnalysis true

theorem move_renewAnalysis : Moves config s (s.renewAnalysis config now id claimToken).2 := by
  rw [Store.renewAnalysis]
  split
  · exact .refl
  next job hget =>
  split
  · exact .refl
  next p hp =>
  split
  · next hguard =>
    refine .single (move_putJob _ (get?_key hget) rfl (by rw [hguard.1]; rfl) (.kept rfl ?_ ?_ ?_))
    · simp [Job.phase?, hp]
    · simp [Job.attempt?, hp]
    · simp [Job.token?, hp]
  · exact .refl

theorem move_markStarted {occurredAt : Nat} :
    Moves config s (s.markAnalysisStarted id occurredAt attempt token).2 := by
  rw [Store.markAnalysisStarted]
  split
  · exact .refl
  next job hget =>
  split
  · exact .refl
  next p hp =>
  split
  · exact .refl
  next hstatus =>
  split
  · exact .refl
  split
  · exact .refl
  next hphases =>
  refine .single (move_putJob _ (get?_key hget) rfl (by rw [not_not.mp hstatus]; rfl)
    (.started p.phase ?_ (by simpa using not_not.mp hphases) rfl ?_ ?_))
  · simp [Job.phase?, hp]
  · simp [Job.phase?, Processing.enter]
  · simp [Job.attempt?, hp, Processing.enter]

/-- The end of a job by a result, from a copy whose attempt is that of the publication. -/
theorem move_endJob (hs : Consistent config s) (hstatus : job.status.terminal = true)
    (hpublished : .published job.id attempt token ∈ s.log) (hattempt : job.attempt? = some attempt)
    (hjobs : ∀ stored, (write stored).jobs = s.jobs.put stored)
    (hcandidates : ∀ stored, ∀ id ≠ job.id, (write stored).candidates.find? id = s.candidates.find? id)
    (hlog : ∀ stored, (write stored).log = s.log) : Moves config s (s.endJob job result write).2 := by
  rw [Store.endJob]
  split
  · exact .refl
  next current hget =>
  have hid : current.id = job.id := key_of_get? hget
  split
  · exact .refl
  next hopen =>
  obtain hterminal | hcommitted := (hs.row _ _ hget).published attempt token (hid ▸ hpublished)
  · exact absurd hterminal hopen
  refine .single (.row current { job with flowRecords := current.flowRecords } (some (.ended result))
    (get?_key hget) hid.symm (by simpa using hopen) (.ended _ (by simp) hstatus ?_) (hjobs _)
    (hid ▸ hcandidates _) ?_)
  · have hattempt' : Job.attempt? { job with flowRecords := current.flowRecords } = some attempt :=
      hattempt
    rw [Job.attempt_eq, Job.attempt_eq, hattempt', hcommitted.attempt?]
  · simp [Store.note, hlog]

/-! ## What programs know -/

/-- What is known: some facts of the log. -/
abbrev Knowledge : Type := Set Fact

/-- The job has a publication. -/
def Published (κ : Knowledge) (id : String) : Prop := ∃ attempt token, .published id attempt token ∈ κ

theorem Published.mono (hκ : κ ⊆ κ') (h : Published κ id) : Published κ' id := by
  obtain ⟨attempt, token, h⟩ := h
  exact ⟨attempt, token, hκ h⟩

/-- A copy of a job that a result ends, with the attempt of its publication. -/
def Ends (κ : Knowledge) (job : Job) : Prop :=
  job.status.terminal = true ∧
    ∃ attempt token, .published job.id attempt token ∈ κ ∧ job.attempt? = some attempt

/-- The calls that are in order by what is known. -/
def Ok (κ : Knowledge) : Call → Prop
  | .publishPcapPreparation job attempt _ =>
    job.status = .analyzing ∧ job.phase? = some .analysisEnqueuePending ∧
      job.attempt? = some attempt
  | .completePcapPreparation job attempt token => Settles job attempt token
  | .failPcapPreparation job _ _ => job.status = .failed ∧ job.attempt? = none
  | .enqueue d => .published d.jobId d.attempt d.leaseToken ∈ κ
  | .send result => Published κ result.jobId
  | .transitionJobTerminal job _ => Ends κ job
  | .completeJobWithCandidates job _ _ => Ends κ job
  | _ => True

/-- What answers tell. -/
def Tells (κ : Knowledge) : (c : Call) → Answer c → Prop
  | .claimPcapPreparation, (claimed : Option Job) => ∀ job ∈ claimed,
    job.phase? = some .parsing ∨
      ∃ attempt token, .published job.id attempt token ∈ κ ∧ job.status = .analyzing ∧
        job.phase? = some .analysisEnqueuePending ∧ job.attempt? = some attempt ∧
        job.token? = some token
  | .publishPcapPreparation job attempt token, (staged : Bool) =>
    staged = true → .published job.id attempt token ∈ κ
  | .receive, (delivery : Option Delivery) =>
    ∀ d ∈ delivery, .published d.jobId d.attempt d.leaseToken ∈ κ
  | .claimResult, (result : Option Result) => ∀ r ∈ result, Published κ r.jobId
  | .getJobSummary id, (summary : Option Job) => ∀ job ∈ summary, job.id = id ∧
    ∀ attempt token, .published id attempt token ∈ κ →
      job.status.terminal = true ∨ job.attempt? = some attempt
  | _, _ => True

theorem Ok.mono (hκ : κ ⊆ κ') (h : Ok κ c) : Ok κ' c := by
  cases c with
  | enqueue => exact hκ h
  | send => exact Published.mono hκ h
  | transitionJobTerminal | completeJobWithCandidates =>
    obtain ⟨hterminal, attempt, token, hpublished, hattempt⟩ := h
    exact ⟨hterminal, attempt, token, hκ hpublished, hattempt⟩
  | _ => exact h

/-- The program is in order. -/
abbrev InOrder (p : Program) (κ : Knowledge) : Prop := p.Knows Ok Tells κ

/-- The calls of a preparer. -/
def Call.prepares : Call → Bool
  | .claimPcapPreparation | .publishPcapPreparation .. | .completePcapPreparation ..
  | .failPcapPreparation .. | .enqueue _ | .ask => true
  | _ => false

theorem transition_eq_some {job' : Job} (h : job.transition target reason now = some job') :
    job'.id = job.id ∧ job'.status = target ∧ job'.processing = job.processing := by
  rw [Job.transition] at h
  split at h
  · cases h
    exact ⟨rfl, rfl, rfl⟩
  · cases h

section Rules

/-- Code outside of the repository tells nothing. -/
theorem knows_ask {next : Choice → Program} (hask : ok κ .ask)
    (h : ∀ choice κ', κ ⊆ κ' → (next choice).Knows ok tells κ') :
    (Prog.call .ask next).Knows ok tells κ :=
  ⟨hask, fun κ' choice hκ _ => h choice κ' hκ⟩

/-- A last call. -/
theorem knows_last (h : ok κ c) : (Prog.call c fun _ => stop).Knows ok tells κ :=
  ⟨h, fun _ _ _ _ => trivial⟩

theorem knows_transitioned {next : Job → Program} (hask : ok κ .ask)
    (h : ∀ job' κ', κ ⊆ κ' → job'.id = job.id → job'.status = target →
      job'.processing = job.processing → (next job').Knows ok tells κ') :
    (transitioned job target reason next).Knows ok tells κ := by
  refine knows_ask hask fun choice κ' hκ => ?_
  split
  · trivial
  · next job' hjob' =>
    obtain ⟨hid, hstatus, hprocessing⟩ := transition_eq_some hjob'
    exact h job' κ' hκ hid hstatus hprocessing

-- A preparer may be held to more than that its calls are in order.
variable (hok : ∀ κ c, c.prepares = true → Ok κ c → ok κ c)

include hok

theorem knows_fail (κ : Knowledge) (job : Job) (code message : String) (attempt : Nat)
    (token : Token) : (fail job code message attempt token).Knows ok Tells κ := by
  refine knows_transitioned (hok _ _ rfl trivial) fun job' κ' _ _ hstatus _ => ?_
  refine knows_ask (hok _ _ rfl trivial) fun choice κ'' _ => ?_
  split
  · exact knows_last (hok _ _ rfl (.inr ⟨hstatus, rfl⟩))
  · exact knows_last (hok _ _ rfl ⟨hstatus, rfl⟩)

theorem knows_validReference {next : Program} (h : ∀ κ', κ ⊆ κ' → next.Knows ok Tells κ') :
    (validReference job attempt token next).Knows ok Tells κ := by
  refine knows_ask (hok _ _ rfl trivial) fun choice κ' hκ => ?_
  split
  · exact h κ' hκ
  · exact knows_fail hok κ' job _ _ attempt token

theorem knows_enqueuePrepared (hpublished : .published job.id attempt token ∈ κ)
    (hstatus : job.status = .analyzing) (hphase : job.phase?.isSome = true)
    (hattempt : job.attempt? = some attempt) (htoken : job.token? = some token) :
    (enqueuePrepared job attempt token).Knows ok Tells κ := by
  have hask : ∀ κ, ok κ .ask := fun κ => hok κ _ rfl trivial
  refine knows_ask (hask _) fun choice κ₁ hκ₁ => ?_
  split
  · trivial
  refine knows_validReference hok fun κ₂ hκ₂ => knows_ask (hask _) fun choice κ₃ hκ₃ => ?_
  refine ⟨hok _ _ rfl (hκ₃ (hκ₂ (hκ₁ hpublished))), fun κ₄ _ _ _ => knows_ask (hask _) fun choice κ₅ _ => ?_⟩
  split
  · trivial
  refine knows_last (hok _ _ rfl (.inl ⟨hstatus, ?_, ?_, ?_⟩))
  · obtain ⟨p, hp⟩ := isSome_iff_exists.mp (by simpa [Job.phase?] using hphase)
    simp [Job.phase?, hp, Processing.enter]
  · rw [← hattempt, Job.attempt?, Job.attempt?, Option.bind_map]
    rfl
  · rw [← htoken, Job.token?, Job.token?, Option.bind_map]
    rfl

theorem knows_parse {claimed : Processing} (hattempt : claimed.attempt = some attempt)
    (htoken : claimed.leaseToken = some token) :
    (parse job claimed attempt token).Knows ok Tells κ := by
  have hask : ∀ κ, ok κ .ask := fun κ => hok κ _ rfl trivial
  refine knows_ask (hask _) fun choice κ₁ _ => ?_
  split
  · exact knows_fail hok κ₁ job _ _ attempt token
  split
  · trivial
  refine knows_validReference hok fun κ₂ _ => knows_transitioned (hask _) fun job' κ₃ _ _ hstatus _ => ?_
  refine knows_ask (hask _) fun choice κ₄ _ => ⟨hok _ _ rfl ⟨hstatus, rfl, hattempt⟩, ?_⟩
  intro κ₅ (staged : Bool) _ htells
  refine knows_ask (hask _) fun choice κ₆ hκ₆ => ?_
  cases staged with
  | false => trivial
  | true =>
    split
    · trivial
    · exact knows_enqueuePrepared hok (hκ₆ (htells rfl)) hstatus rfl hattempt htoken

theorem knows_prepare (κ : Knowledge) : prepare.Knows ok Tells κ := by
  refine ⟨hok _ _ rfl trivial, fun κ' (claimed : Option Job) _ htells => ?_⟩
  cases claimed with
  | none => trivial
  | some job =>
    have htells := htells job rfl
    simp only [prepareClaimed]
    split
    · trivial
    next p hp =>
    split
    next attempt token hattempt htoken =>
      split
      next hpending =>
        have hphase : job.phase? = some .analysisEnqueuePending := by
          rw [Job.phase?, hp, ← hpending]
          rfl
        have hattempt' : job.attempt? = some attempt := by
          rw [Job.attempt?, hp]
          exact hattempt
        have htoken' : job.token? = some token := by
          rw [Job.token?, hp]
          exact htoken
        obtain hparsing | ⟨attempt₁, token₁, hpublished, hstatus, -, hattempt₁, htoken₁⟩ := htells
        · simp [hphase] at hparsing
        cases hattempt'.symm.trans hattempt₁
        cases htoken'.symm.trans htoken₁
        exact knows_enqueuePrepared hok hpublished hstatus (by rw [hphase]; rfl) hattempt' htoken'
      next => exact knows_parse hok hattempt htoken
    · trivial

end Rules

section

variable (h : .published d.jobId d.attempt d.leaseToken ∈ κ)

include h

/-- A message about a job that has a publication. -/
theorem inOrder_finish (report : Report) (claimed : Bool) : InOrder (finish d report claimed) κ :=
  knows_last ⟨d.attempt, d.leaseToken, h⟩

theorem inOrder_analyzePayload : InOrder (analyzePayload d) κ := by
  refine knows_ask trivial fun choice κ' hκ => ?_
  split
  · exact inOrder_finish (hκ h) _ _
  · exact inOrder_finish (hκ h) _ _

theorem inOrder_startAnalysis : InOrder (startAnalysis d) κ := by
  refine knows_ask trivial fun choice κ' hκ => ?_
  split
  · exact inOrder_analyzePayload (hκ h)
  · refine ⟨⟨d.attempt, d.leaseToken, hκ h⟩, fun κ'' _ hκ' _ => ?_⟩
    exact inOrder_analyzePayload (hκ' (hκ h))

theorem inOrder_executeJob : InOrder (executeJob d) κ := by
  refine ⟨trivial, fun κ' (claim : Store.Claim) hκ _ => ?_⟩
  cases claim with
  | raised | superseded => exact inOrder_finish (hκ h) _ _
  | active => trivial
  | claimed =>
    refine ⟨trivial, fun κ'' (payload : Option Job) hκ' _ => ?_⟩
    cases payload with
    | none => exact inOrder_finish (hκ' (hκ h)) _ _
    | some payload =>
      dsimp only
      split
      · exact inOrder_finish (hκ' (hκ h)) _ _
      · exact inOrder_startAnalysis (hκ' (hκ h))

end

theorem inOrder_analyze (κ : Knowledge) : InOrder analyze κ := by
  refine ⟨trivial, fun κ' (delivery : Option Delivery) _ htells => ?_⟩
  cases delivery with
  | none => trivial
  | some d => exact inOrder_executeJob (htells d rfl)

end

section Persist

variable {κ : Knowledge} {job : Job} {identifier : String → String}

theorem attempt?_endProcessing (job : Job) (now : Nat) : (endProcessing job now).attempt? = job.attempt? := by
  rw [Job.attempt?, endProcessing, Option.bind_map]
  rfl

section

/-- The calls that end the job by this result are allowed, whatever else is known. -/
def EndsOk (ok : Knowledge → Call → Prop) (κ : Knowledge) (job : Job) (result : Result) : Prop :=
  ∀ κ', κ ⊆ κ' → ∀ job', job'.id = job.id → job'.status.terminal = true →
    job'.attempt? = job.attempt? →
    ok κ' (.transitionJobTerminal job' result) ∧
      ∀ candidates, ok κ' (.completeJobWithCandidates job' candidates result)

theorem EndsOk.mono {κ' : Knowledge} (hκ : κ ⊆ κ') (h : EndsOk ok κ job result) : EndsOk ok κ' job result :=
  fun κ'' hκ' => h κ'' (hκ.trans hκ')

variable (hask : ∀ κ, ok κ .ask) (h : EndsOk ok κ job result)

include hask h

theorem knows_reject (code message reason : String) : (reject job result code message reason).Knows ok tells κ := by
  refine knows_transitioned (hask _) fun job' κ' hκ hid hstatus hprocessing => knows_last ?_
  refine (h κ' hκ job' hid (by rw [hstatus]; rfl) ?_).1
  rw [Job.attempt?, hprocessing, Job.attempt?]

theorem knows_accept (candidates : List Candidate) : (accept job result candidates).Knows ok tells κ := by
  refine knows_transitioned (hask _) fun job' κ₁ hκ₁ hid hstatus hprocessing => ?_
  refine knows_ask (hask _) fun choice κ₂ hκ₂ => knows_last ?_
  refine (h κ₂ (hκ₁.trans hκ₂) (endProcessing job' _) hid (by rw [endProcessing, hstatus]; rfl) ?_).2 _
  rw [attempt?_endProcessing, Job.attempt?, hprocessing, Job.attempt?]

theorem knows_persistError (code : String) : (persistError job result code).Knows ok tells κ := by
  refine knows_transitioned (hask _) fun job' κ₁ hκ₁ hid hstatus hprocessing => ?_
  refine knows_ask (hask _) fun choice κ₂ hκ₂ => knows_last ?_
  refine (h κ₂ (hκ₁.trans hκ₂) (endProcessing job' _) hid (by rw [endProcessing, hstatus]; rfl) ?_).1
  rw [attempt?_endProcessing, Job.attempt?, hprocessing, Job.attempt?]

theorem knows_persistCompleted (output : Output) :
    (persistCompleted identifier job result output).Knows ok tells κ := by
  rw [persistCompleted]
  split
  · exact knows_reject hask h _ _ _
  split
  · exact knows_accept hask h _
  split
  · refine knows_ask (hask _) fun choice κ' hκ => ?_
    split
    · exact knows_accept hask (h.mono hκ) _
    · exact knows_reject hask (h.mono hκ) _ _ _
  split
  · exact knows_accept hask h _
  · exact knows_reject hask h _ _ _

end

theorem inOrder_persist (κ : Knowledge) : InOrder (persist identifier) κ := by
  refine ⟨trivial, fun κ₁ (result : Option Result) _ hresult => ?_⟩
  cases result with
  | none => trivial
  | some result =>
    obtain ⟨attempt, token, hpublished⟩ := hresult result rfl
    refine ⟨trivial, fun κ₂ (summary : Option Job) hκ₂ hsummary => ?_⟩
    cases summary with
    | none => trivial
    | some job =>
      obtain ⟨hid, htells⟩ := hsummary job rfl
      simp only [persistResult]
      split
      · trivial
      next hopen =>
      have hattempt := (htells attempt token (hκ₂ hpublished)).resolve_left hopen
      have hends : EndsOk Ok κ₂ job result := fun κ' hκ job' hid' hterminal hattempt' =>
        have hended : Ends κ' job' := ⟨hterminal, attempt, token,
          (hid'.trans hid) ▸ hκ (hκ₂ hpublished), hattempt'.trans hattempt⟩
        ⟨hended, fun _ => hended⟩
      split
      · exact knows_last trivial
      · trivial
      · exact knows_persistCompleted (fun _ => trivial) hends _
      · exact knows_persistError (fun _ => trivial) hends _

end Persist

theorem inOrder_program (identifier : String → String) (request : Request) (κ : Knowledge) :
    InOrder (program identifier request) κ := by
  cases request with
  | upload | renewPcapPreparation | renewAnalysis => exact knows_last trivial
  | prepare => exact knows_prepare (fun _ _ _ h => h) κ
  | analyze => exact inOrder_analyze κ
  | persist => exact inOrder_persist κ

/-! ## All interleavings -/

/-- What is known of a store. -/
def know (s : Store) : Knowledge := {fact | fact ∈ s.log}

/-- The invariant of the store: its rows, and its messages. -/
structure Sound (config : Config) (s : Store) : Prop where
  consistent : Consistent config s
  deliveries : ∀ d ∈ s.deliveries, .published d.jobId d.attempt d.leaseToken ∈ s.log
  results : ∀ r ∈ s.results, Published (know s) r.jobId

theorem Sound.empty : Sound config Store.empty where
  consistent := .empty
  deliveries d h := by simp [Store.empty] at h
  results r h := by simp [Store.empty] at h

section

variable {s' : Store} {token : Token} {d : Delivery}

theorem Moves.know_le (h : Moves config s s') : know s ⊆ know s' :=
  fun _ hf => h.log_le.subset hf

/-- Moves that send no messages. -/
theorem Sound.moves (h : Sound config s) (hmoves : Moves config s s')
    (hdeliveries : s'.deliveries = s.deliveries) (hresults : s'.results = s.results) :
    Sound config s' where
  consistent := h.consistent.moves hmoves
  deliveries d hd := hmoves.know_le (h.deliveries d (hdeliveries ▸ hd))
  results r hr := (h.results r (hresults ▸ hr)).mono hmoves.know_le

/-- Calls that send no messages. -/
def Call.silent : Call → Bool
  | .enqueue _ | .send _ => false
  | _ => true

theorem ifOwned_messages {id : String} {attempt : Nat}
    (h : ∀ job, (write job).deliveries = s.deliveries ∧ (write job).results = s.results) :
    (s.ifOwned now id attempt token phases write).2.deliveries = s.deliveries ∧
      (s.ifOwned now id attempt token phases write).2.results = s.results := by
  rw [Store.ifOwned]
  split
  · exact ⟨rfl, rfl⟩
  · split
    · exact h _
    · exact ⟨rfl, rfl⟩

theorem claimLoop_messages (rows : List Job) (s : Store) :
    (Store.claimLoop config now token rows s).2.deliveries = s.deliveries ∧
      (Store.claimLoop config now token rows s).2.results = s.results ∧
      (Store.claimLoop config now token rows s).2.log = s.log := by
  induction rows generalizing s with
  | nil => exact ⟨rfl, rfl, rfl⟩
  | cons job rows ih =>
    rw [Store.claimLoop]
    split
    · exact ih (s.putJob _)
    · split
      · exact ih s
      · exact ⟨rfl, rfl, rfl⟩

theorem claimAnalysis_messages : (s.claimAnalysis config now d claimToken).2.deliveries = s.deliveries ∧
      (s.claimAnalysis config now d claimToken).2.results = s.results := by
  rw [Store.claimAnalysis]
  repeat' split
  all_goals exact ⟨rfl, rfl⟩

theorem tryClaimAnalysis_messages {x : Choice} : (tryClaimAnalysis config s d x).2.deliveries = s.deliveries ∧
      (tryClaimAnalysis config s d x).2.results = s.results := by
  rw [tryClaimAnalysis]
  split
  · dsimp only
    split
    · exact claimAnalysis_messages
    · exact ⟨rfl, rfl⟩
  · exact claimAnalysis_messages

theorem endJob_messages {job : Job}
    (h : ∀ job, (write job).deliveries = s.deliveries ∧ (write job).results = s.results) :
    (s.endJob job result write).2.deliveries = s.deliveries ∧
      (s.endJob job result write).2.results = s.results := by
  rw [Store.endJob]
  split
  · exact ⟨rfl, rfl⟩
  · split
    · exact ⟨rfl, rfl⟩
    · exact h _

end

section

variable {c : Call}

theorem answer_messages (hc : c.silent = true) (choice : Choice) :
    (answer config c s choice).2.deliveries = s.deliveries ∧ (answer config c s choice).2.results = s.results := by
  cases c with
  | enqueue | send => cases hc
  | upload =>
    rw [answer, Store.upload]
    split <;> exact ⟨rfl, rfl⟩
  | claimPcapPreparation => exact (claimLoop_messages _ s).imp_right And.left
  | renewPcapPreparation | publishPcapPreparation | completePcapPreparation
  | failPcapPreparation => exact ifOwned_messages fun _ => ⟨rfl, rfl⟩
  | receive | load | claimResult | getJobSummary | ask => exact ⟨rfl, rfl⟩
  | claimAnalysis => exact tryClaimAnalysis_messages
  | renewAnalysis =>
    rw [answer, Store.renewAnalysis]
    repeat' split
    all_goals exact ⟨rfl, rfl⟩
  | markAnalysisStarted =>
    rw [answer, Store.markAnalysisStarted]
    repeat' split
    all_goals exact ⟨rfl, rfl⟩
  | transitionJobTerminal | completeJobWithCandidates => exact endJob_messages fun _ => ⟨rfl, rfl⟩

/-- Every call is a sequence of moves, given what its program knows. -/
theorem moves_answer (hs : Sound config s) (hok : Ok (know s) c) (choice : Choice) :
    Moves config s (answer config c s choice).2 := by
  cases c with
  | upload =>
    rw [answer, Store.upload]
    split
    · exact .refl
    · next hnew => exact .single (.upload _ (by simpa using hnew) rfl rfl rfl rfl rfl)
  | claimPcapPreparation => exact (move_claimPreparation hs.consistent).1
  | renewPcapPreparation => exact move_renew
  | publishPcapPreparation => exact move_publish hok.1 hok.2.1 hok.2.2
  | completePcapPreparation => exact move_complete hok
  | failPcapPreparation => exact move_fail hok.1 hok.2
  | enqueue | send | receive | load | claimResult | getJobSummary | ask =>
    exact .single (.same rfl rfl rfl)
  | claimAnalysis => exact move_tryClaimAnalysis
  | renewAnalysis => exact move_renewAnalysis
  | markAnalysisStarted => exact move_markStarted
  | transitionJobTerminal =>
    obtain ⟨hstatus, attempt, token, hpublished, hattempt⟩ := hok
    exact move_endJob hs.consistent hstatus hpublished hattempt (fun _ => rfl) (fun _ _ _ => rfl) fun _ => rfl
  | completeJobWithCandidates =>
    obtain ⟨hstatus, attempt, token, hpublished, hattempt⟩ := hok
    refine move_endJob hs.consistent hstatus hpublished hattempt (fun _ => rfl)
      (fun stored id hne => ?_) fun _ => rfl
    exact (Dict.find?_put _ _ _ _).trans (if_neg hne)

theorem sound_answer (hs : Sound config s) (hok : Ok (know s) c) (choice : Choice) :
    Sound config (answer config c s choice).2 := by
  have hmoves := moves_answer hs hok choice
  cases hsilent : c.silent with
  | true =>
    obtain ⟨hdeliveries, hresults⟩ := answer_messages hsilent choice
    exact hs.moves hmoves hdeliveries hresults
  | false =>
    cases c with
    | enqueue d =>
      refine ⟨hs.consistent.moves hmoves, fun d' hd' => ?_, hs.results⟩
      rcases mem_append.mp hd' with hd' | hd'
      · exact hs.deliveries d' hd'
      · exact mem_singleton.mp hd' ▸ hok
    | send result =>
      refine ⟨hs.consistent.moves hmoves, hs.deliveries, fun r hr => ?_⟩
      rcases mem_append.mp hr with hr | hr
      · exact hs.results r hr
      · exact mem_singleton.mp hr ▸ hok
    | _ => simp [Call.silent] at hsilent

theorem tells_answer (hs : Sound config s) (c : Call) (choice : Choice) :
    Tells (know (answer config c s choice).2) c (answer config c s choice).1 := by
  cases c with
  | claimPcapPreparation => exact (move_claimPreparation hs.consistent).2
  | publishPcapPreparation =>
    intro hstaged
    simp only [answer, Store.publishPcapPreparation, Store.ifOwned] at hstaged ⊢
    split
    · next hnone => simp [hnone] at hstaged
    · next current hget =>
      split
      · simp [know, Store.note]
      · next hnot => simp [hget, hnot] at hstaged
  | receive => exact fun d hd => hs.deliveries d (mem_of_getElem? hd)
  | claimResult => exact fun r hr => hs.results r (mem_of_getElem? hr)
  | getJobSummary id =>
    intro job hget
    have hid : job.id = id := key_of_get? hget
    refine ⟨hid, fun attempt token hpublished => ?_⟩
    exact ((hs.consistent.row id job hget).published attempt token (hid ▸ hpublished)).imp_right Committed.attempt?
  | _ => trivial

end

section Serve

variable (config : Config) (identifier : String → String)

theorem inOrder_serve (events : Schedule) : Sound config (serve config identifier events).shared ∧
      ∀ p ∈ (serve config identifier events).procs, InOrder p (know (serve config identifier events).shared) := by
  have hallows : Machine.Allows (program identifier) (answer config) () (fun _ _ _ => True)
      ⟨Store.empty, []⟩ events := fun _ _ _ _ _ _ _ => trivial
  refine Machine.run_knows (fun _ _ _ => Ok.mono) Sound.empty (by simp) (inOrder_program identifier)
    (fun c s choice hs hok _ => ?_) hallows
  have hmoves := moves_answer hs hok choice
  exact ⟨sound_answer hs hok choice, hmoves.know_le, tells_answer hs c choice⟩

section

variable (events : Schedule) (event : Event Request Choice)

theorem serve_concat : serve config identifier (events ++ [event]) =
      (serve config identifier events).step (program identifier) (answer config) () event :=
  Machine.run_concat _ events event

theorem moves_step : Moves config (serve config identifier events).shared
      (serve config identifier (events ++ [event])).shared := by
  obtain ⟨hs, hprocs⟩ := inOrder_serve config identifier events
  have hcases := Machine.step_cases (program identifier) (answer config) () (serve config identifier events) event
  rw [serve_concat]
  generalize serve config identifier events = w at hs hprocs hcases ⊢
  generalize w.step (program identifier) (answer config) () event = w' at hcases ⊢
  cases hcases with
  | start | idle | crash => exact .refl
  | call i choice c k hk => exact moves_answer hs (hprocs _ (mem_of_getElem? hk)).1 choice

end

/-- Whatever happens is a sequence of moves. -/
theorem moves_serve (events more : Schedule) : Moves config (serve config identifier events).shared
      (serve config identifier (events ++ more)).shared := by
  induction more using List.reverseRecOn with
  | nil => simpa using .refl
  | append_singleton more event ih =>
    rw [← append_assoc]
    exact ih.trans (moves_step config identifier (events ++ more) event)

end Serve

/-- What a call of a preparer needs: a lease in a phase. -/
structure Lease where
  jobId : String
  attempt : Nat
  token : Token
  phases : List Phase

/-- The lease that a call of a preparer is made for. -/
def Call.lease? : Call → Option Lease
  | .renewPcapPreparation id attempt token =>
    some ⟨id, attempt, token, [.parsing, .analysisEnqueuePending]⟩
  | .publishPcapPreparation job attempt token => some ⟨job.id, attempt, token, [.parsing]⟩
  | .completePcapPreparation job attempt token =>
    some ⟨job.id, attempt, token, [.analysisEnqueuePending]⟩
  | .failPcapPreparation job attempt token => some ⟨job.id, attempt, token, [.parsing]⟩
  | _ => none

/-- Nobody but the owner of the lease changes anything. -/
theorem answer_of_not_owned {c : Call} {lease : Lease} (hlease : c.lease? = some lease)
    {choice : Choice}
    (hnot : ∀ job, s.jobs.get? lease.jobId = some job →
      owns choice.now lease.attempt lease.token lease.phases job = false) :
    (answer config c s choice).2 = s := by
  have hsame : ∀ write, (s.ifOwned choice.now lease.jobId lease.attempt lease.token lease.phases write).2 = s := by
    intro write
    rw [Store.ifOwned]
    split
    · rfl
    · next current hget => rw [hnot current hget, if_neg (by simp)]
  cases c with
  | renewPcapPreparation | publishPcapPreparation | completePcapPreparation
  | failPcapPreparation =>
    cases hlease
    exact hsame _
  | _ => cases hlease

/-- Some calls of a program. -/
def turns (i : Nat) (choices : List Choice) : Schedule := choices.map (.advance i)

/-- A capture is stored, and a preparer claims it. -/
def claimedUpload : Schedule :=
  [.start (.upload "job" "c2"), .advance 0 {}, .start .prepare, .advance 1 { token := 1 }]

end C2Hunter.Preparation
