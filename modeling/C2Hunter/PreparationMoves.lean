import C2Hunter.PcapPreparation
import Mathlib.Logic.Relation

/-!
# What can happen to a job row

Every operation on the store is a sequence of moves of single rows, and a row has few moves:
`Moved` lists them by the status, the phase, the attempt and the token before and after. What holds
over whole runs is then a matter of the moves: the invariant `Consistent`, by `Consistent.move`.

* `Moved`, `Move` — the moves of a row and of the store.
* `Consistent` — a job has at most one publication, whose attempt and token it keeps until it ends;
  it is claimed at most once.
* `Moves.attempt_le`, `Moves.terminal` — what a sequence of moves cannot do.
-/

namespace C2Hunter.Preparation

open List

namespace Job

variable (job : Job)

/-- The phase, if there is one. -/
def phase? : Option Phase := job.processing.map Processing.phase

/-- The attempt, if there is one. -/
def attempt? : Option Nat := job.processing.bind Processing.attempt

/-- The token of the preparation lease, if there is one. -/
def token? : Option Token := job.processing.bind Processing.leaseToken

theorem attempt_eq : job.attempt = job.attempt?.getD 0 := rfl

end Job

/-- The phases in which a publication is committed and waits. -/
def Phase.waiting : Phase → Bool
  | .analysisEnqueuePending | .analysisQueued => true
  | _ => false

/-- The phases of a job that was taken over. -/
def Phase.taken : Phase → Bool
  | .analysisClaimed | .analysisRunning => true
  | _ => false

/-- A move of a row that has not ended, and what is noted. -/
inductive Moved (config : Config) (before after : Job) : Option Fact → Prop where
  /-- a preparer begins -/
  | parsing (hphase : before.phase? = some .uploadStored ∨ before.phase? = some .parsing)
      (hattempt : before.attempt < config.maxAttempts) (hstatus : after.status = before.status)
      (hphase' : after.phase? = some .parsing)
      (hattempt' : after.attempt? = some (before.attempt + 1)) : Moved config before after none
  /-- a lease is renewed or taken over -/
  | kept (hstatus : after.status = before.status) (hphase : after.phase? = before.phase?)
      (hattempt : after.attempt? = before.attempt?) (htoken : after.token? = before.token?) :
      Moved config before after none
  | published (attempt : Nat) (token : Token) (hphase : before.phase? = some .parsing)
      (hattempt : before.attempt? = some attempt) (hstatus : after.status = .analyzing)
      (hphase' : after.phase? = some .analysisEnqueuePending)
      (hattempt' : after.attempt? = some attempt) (htoken : after.token? = some token) :
      Moved config before after (some (.published before.id attempt token))
  /-- the message is sent -/
  | queued (hphase : before.phase? = some .analysisEnqueuePending)
      (hstatus : after.status = .analyzing) (hphase' : after.phase? = some .analysisQueued)
      (hattempt : after.attempt? = before.attempt?) (htoken : after.token? = before.token?) :
      Moved config before after none
  /-- the analysis is claimed; the answer may get lost -/
  | claimed (attempt : Nat) (token : Token) (noted : Bool) (phase : Phase)
      (hphase : before.phase? = some phase) (hwaiting : phase.waiting = true)
      (hattempt : before.attempt? = some attempt) (htoken : before.token? = some token)
      (hstatus : after.status = before.status) (hphase' : after.phase? = some .analysisClaimed)
      (hattempt' : after.attempt? = before.attempt?) (htoken' : after.token? = before.token?) :
      Moved config before after
        (if noted then some (.claimed before.id attempt token) else none)
  /-- the start of the analysis arrives -/
  | started (phase : Phase) (hphase : before.phase? = some phase)
      (hphases : phase = .analysisQueued ∨ phase = .analysisClaimed)
      (hstatus : after.status = before.status) (hphase' : after.phase? = some .analysisRunning)
      (hattempt : after.attempt? = before.attempt?) : Moved config before after none
  /-- a preparer gives up -/
  | dropped (hstatus : after.status = .failed) (hattempt : after.attempt? = none) :
      Moved config before after none
  | ended (fact : Option Fact) (hfact : ∀ f ∈ fact, ∃ result, f = .ended result)
      (hstatus : after.status.terminal = true) (hattempt : after.attempt = before.attempt) :
      Moved config before after fact

/-- A move of the store. -/
inductive Move (config : Config) (s s' : Store) : Prop where
  /-- messages, at most -/
  | same (hjobs : s'.jobs = s.jobs) (hcandidates : s'.candidates = s.candidates)
      (hlog : s'.log = s.log)
  /-- a new job -/
  | upload (job : Job) (hnew : s.jobs.get? job.id = none) (hphase : job.phase? = some .uploadStored)
      (hattempt : job.attempt? = none) (hjobs : s'.jobs = s.jobs.put job)
      (hcandidates : s'.candidates = s.candidates) (hlog : s'.log = s.log)
  /-- a move of a row -/
  | row (before after : Job) (fact : Option Fact) (hget : s.jobs.get? before.id = some before)
      (hid : after.id = before.id) (hopen : before.status.terminal = false)
      (hmoved : Moved config before after fact) (hjobs : s'.jobs = s.jobs.put after)
      (hcandidates : ∀ id ≠ before.id, s'.candidates.find? id = s.candidates.find? id)
      (hlog : s'.log = s.log ++ fact.toList)

/-- Some moves of the store. -/
abbrev Moves (config : Config) : Store → Store → Prop := Relation.ReflTransGen (Move config)

/-! ## What moves cannot do -/

variable {config : Config} {before after job : Job} {fact : Option Fact}

section Order

variable {s s' : Store} {id : String}

theorem Moved.attempt_le (h : Moved config before after fact) :
    before.attempt ≤ after.attempt ∨ after.status = .failed ∧ after.attempt? = none := by
  simp only [Job.attempt_eq]
  cases h with
  | parsing _ _ _ _ h =>
    rw [h, Job.attempt_eq]
    exact .inl (Nat.le_succ _)
  | kept _ _ h | queued _ _ _ h | claimed _ _ _ _ _ _ _ _ _ _ h | started _ _ _ _ _ h =>
    exact .inl (by rw [h])
  | published _ _ _ h _ _ h' => exact .inl (by rw [h, h'])
  | dropped hstatus hattempt => exact .inr ⟨hstatus, hattempt⟩
  | ended _ _ _ h => exact .inl (Nat.le_of_eq h.symm)

/-- A row stays, and a row that has ended stays as it is. -/
theorem Move.row_of_terminal (h : Move config s s') (hjob : s.jobs.get? id = some job)
    (hterminal : job.status.terminal = true) :
    s'.jobs.get? id = some job ∧ s'.candidates.find? id = s.candidates.find? id := by
  cases h with
  | same hjobs hcandidates => exact ⟨hjobs ▸ hjob, by rw [hcandidates]⟩
  | upload new hnew _ _ hjobs hcandidates =>
    have hne : id ≠ new.id := by
      rintro rfl
      simp [hnew] at hjob
    rw [hjobs, Table.get?_put_ne _ hne, hcandidates]
    exact ⟨hjob, rfl⟩
  | row before after fact hget hid hopen hmoved hjobs hcandidates =>
    have hne : id ≠ before.id := by
      rintro rfl
      cases hget.symm.trans hjob
      simp [hterminal] at hopen
    rw [hjobs, Table.get?_put_ne _ (hid ▸ hne), hcandidates id hne]
    exact ⟨hjob, rfl⟩

theorem Moves.row_of_terminal (h : Moves config s s') (hjob : s.jobs.get? id = some job)
    (hterminal : job.status.terminal = true) :
    s'.jobs.get? id = some job ∧ s'.candidates.find? id = s.candidates.find? id := by
  induction h with
  | refl => exact ⟨hjob, rfl⟩
  | tail _ hmove ih =>
    obtain ⟨hjob', hcandidates⟩ := hmove.row_of_terminal ih.1 hterminal
    exact ⟨hjob', hcandidates.trans ih.2⟩

/-- Attempts only grow, until a preparer gives up. -/
theorem Move.attempt_le (h : Move config s s') (hbefore : s.jobs.get? id = some before) :
    ∃ after, s'.jobs.get? id = some after ∧
      (before.attempt ≤ after.attempt ∨ after.status = .failed ∧ after.attempt? = none) := by
  cases h with
  | same hjobs => exact ⟨before, hjobs ▸ hbefore, .inl le_rfl⟩
  | upload new hnew _ _ hjobs =>
    have hne : id ≠ new.id := by
      rintro rfl
      simp [hnew] at hbefore
    exact ⟨before, by rw [hjobs, Table.get?_put_ne _ hne, hbefore], .inl le_rfl⟩
  | row row after fact hget hid hopen hmoved hjobs =>
    by_cases hne : id = row.id
    · subst hne
      cases hget.symm.trans hbefore
      exact ⟨after, by rw [hjobs, ← hid, Table.get?_put_self], hmoved.attempt_le⟩
    · exact ⟨before, by rw [hjobs, Table.get?_put_ne _ (hid ▸ hne), hbefore], .inl le_rfl⟩

theorem Moves.attempt_le (h : Moves config s s') (hbefore : s.jobs.get? id = some before) :
    ∃ after, s'.jobs.get? id = some after ∧
      (before.attempt ≤ after.attempt ∨ after.status = .failed ∧ after.attempt? = none) := by
  induction h with
  | refl => exact ⟨before, hbefore, .inl le_rfl⟩
  | @tail s₁ s₂ _ hmove ih =>
    obtain ⟨middle, hmiddle, hle⟩ := ih
    rcases hle with hle | ⟨hfailed, hnone⟩
    · obtain ⟨after, hafter, h⟩ := hmove.attempt_le hmiddle
      exact ⟨after, hafter, h.imp_left hle.trans⟩
    · have hterminal : middle.status.terminal = true := by
        rw [hfailed]
        rfl
      exact ⟨middle, (hmove.row_of_terminal hmiddle hterminal).1, .inr ⟨hfailed, hnone⟩⟩

theorem Move.log_le (h : Move config s s') : s.log <+: s'.log := by
  cases h with
  | same _ _ hlog | upload _ _ _ _ _ _ hlog => exact hlog ▸ prefix_rfl
  | row _ _ _ _ _ _ _ _ _ hlog => exact hlog ▸ prefix_append _ _

theorem Moves.log_le (h : Moves config s s') : s.log <+: s'.log := by
  induction h with
  | refl => exact prefix_rfl
  | tail _ hmove ih => exact ih.trans hmove.log_le

end Order

/-! ## The invariant of rows -/

/-- The row of a publication that has not ended. -/
structure Committed (job : Job) (attempt : Nat) (token : Token) : Prop where
  status : job.status = .analyzing
  attempt? : job.attempt? = some attempt
  /-- `mark_analysis_started` takes the token out -/
  phase? : ∃ phase, job.phase? = some phase ∧ (phase.waiting = true ∨ phase.taken = true) ∧
    (phase ≠ .analysisRunning → job.token? = some token)

/-- What is true of every row. -/
structure RowOk (config : Config) (log : List Fact) (job : Job) : Prop where
  attempt_le : job.attempt ≤ config.maxAttempts
  /-- a publication stays until the job ends -/
  published : ∀ attempt token, .published job.id attempt token ∈ log →
    job.status.terminal = true ∨ Committed job attempt token
  /-- a row past parsing has a publication -/
  committed : ∀ phase, job.phase? = some phase → phase.waiting = true ∨ phase.taken = true →
    job.status.terminal = true ∨ ∃ attempt token, .published job.id attempt token ∈ log
  /-- claims were made for the publication -/
  claimed : ∀ attempt token, .claimed job.id attempt token ∈ log →
    .published job.id attempt token ∈ log ∧
      (job.status.terminal = true ∨ ∃ phase, job.phase? = some phase ∧ phase.taken = true)

/-- Claims of a job. -/
def Fact.isClaim (id : String) : Fact → Bool
  | .claimed jobId _ _ => jobId = id
  | _ => false

/-- The job of a publication or a claim. -/
def Fact.jobId? : Fact → Option String
  | .published jobId _ _ | .claimed jobId _ _ => some jobId
  | .ended _ => none

/-- What is true of all rows and of the log. -/
structure Consistent (config : Config) (s : Store) : Prop where
  row : ∀ id job, s.jobs.get? id = some job → RowOk config s.log job
  known : ∀ fact ∈ s.log, ∀ id ∈ fact.jobId?, (s.jobs.get? id).isSome = true
  once : ∀ id, (s.log.filter (Fact.isClaim id)).length ≤ 1

section Moved

variable {log : List Fact} {attempt : Nat} {phase : Phase}

/-- A publication that has not ended is past parsing. -/
theorem Committed.phase_ne {token : Token} (h : Committed before attempt token)
    (hphase : before.phase? = some phase) : phase.waiting = true ∨ phase.taken = true := by
  obtain ⟨phase', hphase', hpast, -⟩ := h.phase?
  cases hphase'.symm.trans hphase
  exact hpast

theorem Committed.token {token : Token} (h : Committed before attempt token)
    (hphase : before.phase? = some phase) (hne : phase ≠ .analysisRunning) :
    before.token? = some token := by
  obtain ⟨phase', hphase', -, htoken⟩ := h.phase?
  cases hphase'.symm.trans hphase
  exact htoken hne

section

variable (h : Moved config before after fact)

include h

/-- A move keeps a publication, or ends the job. -/
theorem Moved.committed {token : Token} (hcommitted : Committed before attempt token) :
    after.status.terminal = true ∨ Committed after attempt token := by
  cases h with
  | parsing hphase =>
    rcases hphase with hphase | hphase <;>
      simpa [Phase.waiting, Phase.taken] using hcommitted.phase_ne hphase
  | kept hstatus hphase hattempt htoken =>
    refine .inr ⟨hstatus.trans hcommitted.status, hattempt.trans hcommitted.attempt?, ?_⟩
    rw [hphase, htoken]
    exact hcommitted.phase?
  | published _ _ hphase => simpa [Phase.waiting, Phase.taken] using hcommitted.phase_ne hphase
  | queued hphase hstatus hphase' hattempt htoken =>
    refine .inr ⟨hstatus, hattempt.trans hcommitted.attempt?, _, hphase', .inl rfl, fun _ => ?_⟩
    exact htoken.trans (hcommitted.token hphase (by simp))
  | claimed _ _ _ phase hphase hwaiting _ _ hstatus hphase' hattempt htoken =>
    refine .inr ⟨hstatus.trans hcommitted.status, hattempt.trans hcommitted.attempt?, _, hphase',
      .inr rfl, fun _ => htoken.trans (hcommitted.token hphase ?_)⟩
    rintro rfl
    simp [Phase.waiting] at hwaiting
  | started _ _ _ hstatus hphase' hattempt =>
    exact .inr ⟨hstatus.trans hcommitted.status, hattempt.trans hcommitted.attempt?, _, hphase',
      .inr rfl, fun h => absurd rfl h⟩
  | dropped hstatus => exact .inl (by rw [hstatus]; rfl)
  | ended _ _ hstatus => exact .inl hstatus

/-- A move into a phase past parsing is a publication, or comes from one. -/
theorem Moved.past (hphase : after.phase? = some phase) (hpast : phase.waiting = true ∨ phase.taken = true) :
    after.status.terminal = true ∨ (∃ attempt token, fact = some (.published before.id attempt token)) ∨
      ∃ phase', before.phase? = some phase' ∧ (phase'.waiting = true ∨ phase'.taken = true) := by
  cases h with
  | parsing _ _ _ hphase' =>
    cases hphase'.symm.trans hphase
    simp [Phase.waiting, Phase.taken] at hpast
  | kept _ hphase' => exact .inr (.inr ⟨phase, hphase'.symm.trans hphase, hpast⟩)
  | published attempt token => exact .inr (.inl ⟨attempt, token, rfl⟩)
  | queued hphase' => exact .inr (.inr ⟨_, hphase', .inl rfl⟩)
  | claimed _ _ _ phase' hphase' hwaiting => exact .inr (.inr ⟨phase', hphase', .inl hwaiting⟩)
  | started phase' hphase' hphases =>
    refine .inr (.inr ⟨phase', hphase', ?_⟩)
    rcases hphases with rfl | rfl
    · exact .inl rfl
    · exact .inr rfl
  | dropped hstatus => exact .inl (by rw [hstatus]; rfl)
  | ended _ _ hstatus => exact .inl hstatus

/-- A move keeps a job that was taken over, or ends it. -/
theorem Moved.taken (hphase : before.phase? = some phase) (htaken : phase.taken = true) :
    after.status.terminal = true ∨ ∃ phase', after.phase? = some phase' ∧ phase'.taken = true := by
  cases h with
  | parsing hphase' =>
    rcases hphase' with h | h <;>
      · cases h.symm.trans hphase
        simp [Phase.taken] at htaken
  | kept _ hphase' => exact .inr ⟨phase, hphase'.trans hphase, htaken⟩
  | published _ _ hphase' | queued hphase' =>
    cases hphase'.symm.trans hphase
    simp [Phase.taken] at htaken
  | claimed _ _ _ _ _ _ _ _ _ hphase' | started _ _ _ _ hphase' => exact .inr ⟨_, hphase', rfl⟩
  | dropped hstatus => exact .inl (by rw [hstatus]; rfl)
  | ended _ _ hstatus => exact .inl hstatus

theorem Moved.attempt_bound (hle : before.attempt ≤ config.maxAttempts) : after.attempt ≤ config.maxAttempts := by
  simp only [Job.attempt_eq] at hle ⊢
  cases h with
  | parsing _ hlt _ _ h =>
    rw [h]
    exact hlt
  | kept _ _ h | queued _ _ _ h | claimed _ _ _ _ _ _ _ _ _ _ h | started _ _ _ _ _ h =>
    exact h ▸ hle
  | published _ _ _ h _ _ h' =>
    rw [h] at hle
    rw [h']
    exact hle
  | dropped _ h => simp [h]
  | ended _ _ _ h => exact (Nat.le_of_eq h).trans hle

end

/-- What a move notes about a publication or a claim. -/
theorem Moved.noted (h : Moved config before after fact) {f : Fact} (hf : f ∈ fact) :
    (∃ attempt token, f = .published before.id attempt token ∧ Committed after attempt token ∧
      before.phase? = some .parsing) ∨
    (∃ attempt token phase, f = .claimed before.id attempt token ∧ before.phase? = some phase ∧
      phase.waiting = true ∧ before.attempt? = some attempt ∧ before.token? = some token ∧
      after.phase? = some .analysisClaimed) ∨
    ∃ result, f = .ended result := by
  cases h with
  | parsing | kept | queued | started | dropped => simp at hf
  | published attempt token hphase _ hstatus hphase' hattempt htoken =>
    cases hf
    exact .inl ⟨attempt, token, rfl, ⟨hstatus, hattempt, _, hphase', .inl rfl, fun _ => htoken⟩, hphase⟩
  | claimed attempt token noted phase hphase hwaiting hattempt htoken _ hphase' =>
    split at hf
    · cases hf
      exact .inr (.inl ⟨attempt, token, phase, rfl, hphase, hwaiting, hattempt, htoken, hphase'⟩)
    · simp at hf
  | ended _ hfact => exact .inr (.inr (hfact f hf))

section

variable (h : RowOk config log before) (hopen : before.status.terminal = false)
  (hmoved : Moved config before after fact)

include h hopen hmoved

/-- A publication that is in the log after a move. -/
theorem RowOk.published_moved {token : Token} (hmem : .published before.id attempt token ∈ log ++ fact.toList) :
    after.status.terminal = true ∨ Committed after attempt token := by
  rcases mem_append.mp hmem with hmem | hmem
  · rcases h.published attempt token hmem with hterminal | hcommitted
    · simp [hopen] at hterminal
    · exact hmoved.committed hcommitted
  rcases hmoved.noted (Option.mem_toList.mp hmem) with
    ⟨_, _, heq, hcommitted, -⟩ | ⟨_, _, _, heq, -⟩ | ⟨_, heq⟩
  · cases heq
    exact .inr hcommitted
  · cases heq
  · cases heq

/-- A claim that is in the log after a move. -/
theorem RowOk.claimed_moved {token : Token} (hmem : .claimed before.id attempt token ∈ log ++ fact.toList) :
    .published before.id attempt token ∈ log ∧
      (after.status.terminal = true ∨ ∃ phase, after.phase? = some phase ∧ phase.taken = true) := by
  rcases mem_append.mp hmem with hmem | hmem
  · obtain ⟨hpublished, hterminal | ⟨phase, hphase, htaken⟩⟩ := h.claimed attempt token hmem
    · simp [hopen] at hterminal
    · exact ⟨hpublished, hmoved.taken hphase htaken⟩
  rcases hmoved.noted (Option.mem_toList.mp hmem) with
    ⟨_, _, heq, -⟩ | ⟨_, _, phase, heq, hphase, hwaiting, hattempt, htoken, hphase'⟩ | ⟨_, heq⟩
  · cases heq
  · cases heq
    -- the row waits, so it has a publication, which is the one that is claimed
    obtain hterminal | ⟨attempt', token', hpublished⟩ :=
      h.committed phase hphase (.inl hwaiting)
    · simp [hopen] at hterminal
    obtain hterminal | hcommitted := h.published attempt' token' hpublished
    · simp [hopen] at hterminal
    have hne : phase ≠ .analysisRunning := by
      rintro rfl
      simp [Phase.waiting] at hwaiting
    cases hattempt.symm.trans hcommitted.attempt?
    cases htoken.symm.trans (hcommitted.token hphase hne)
    exact ⟨hpublished, .inr ⟨_, hphase', rfl⟩⟩
  · cases heq

end

theorem RowOk.moved (h : RowOk config log before) (hid : after.id = before.id)
    (hopen : before.status.terminal = false) (hmoved : Moved config before after fact) :
    RowOk config (log ++ fact.toList) after where
  attempt_le := hmoved.attempt_bound h.attempt_le
  published attempt token hmem := h.published_moved hopen hmoved (hid ▸ hmem)
  committed phase hphase hpast := by
    rw [hid]
    rcases hmoved.past hphase hpast with hterminal | ⟨attempt, token, rfl⟩ | ⟨phase', hphase', hpast'⟩
    · exact .inl hterminal
    · exact .inr ⟨attempt, token, by simp⟩
    · obtain hterminal | ⟨attempt, token, hmem⟩ := h.committed phase' hphase' hpast'
      · simp [hopen] at hterminal
      · exact .inr ⟨attempt, token, mem_append_left _ hmem⟩
  claimed attempt token hmem := by
    rw [hid] at hmem ⊢
    obtain ⟨hpublished, htaken⟩ := h.claimed_moved hopen hmoved hmem
    exact ⟨mem_append_left _ hpublished, htaken⟩

/-- The row of another job. -/
theorem RowOk.append (h : RowOk config log job) {more : List Fact}
    (hmore : ∀ f ∈ more, f.jobId? ≠ some job.id) : RowOk config (log ++ more) job where
  attempt_le := h.attempt_le
  published attempt token hmem := by
    rcases mem_append.mp hmem with hmem | hmem
    · exact h.published attempt token hmem
    · exact absurd rfl (hmore _ hmem)
  committed phase hphase hpast :=
    (h.committed phase hphase hpast).imp_right fun ⟨attempt, token, hmem⟩ =>
      ⟨attempt, token, mem_append_left _ hmem⟩
  claimed attempt token hmem := by
    rcases mem_append.mp hmem with hmem | hmem
    · obtain ⟨hpublished, htaken⟩ := h.claimed attempt token hmem
      exact ⟨mem_append_left _ hpublished, htaken⟩
    · exact absurd rfl (hmore _ hmem)

/-- What a move notes is about its row. -/
theorem Moved.jobId? (h : Moved config before after fact) {f : Fact} (hf : f ∈ fact) {id : String}
    (hid : f.jobId? = some id) : id = before.id := by
  rcases h.noted hf with ⟨_, _, rfl, -⟩ | ⟨_, _, _, rfl, -⟩ | ⟨_, rfl⟩
  · exact (Option.some.inj hid).symm
  · exact (Option.some.inj hid).symm
  · cases hid

end Moved

section Consistent

variable {s s' : Store}

theorem Consistent.empty : Consistent config Store.empty where
  row id job h := by simp [Store.empty] at h
  known fact h := by simp [Store.empty] at h
  once id := by simp [Store.empty]

section

variable (h : Consistent config s)

include h

theorem Consistent.upload (hnew : s.jobs.get? job.id = none)
    (hphase : job.phase? = some .uploadStored) (hattempt : job.attempt? = none)
    (hjobs : s'.jobs = s.jobs.put job) (hlog : s'.log = s.log) : Consistent config s' where
  row id job' hget := by
    rw [hlog]
    rw [hjobs, Table.get?_put] at hget
    split at hget
    · -- nothing is in the log about a job that was not there
      cases hget
      have hnone : ∀ f ∈ s.log, f.jobId? ≠ some job.id := fun f hf hid => by
        simpa [hnew] using h.known f hf _ hid
      refine ⟨by simp [Job.attempt_eq, hattempt], fun _ _ hmem => absurd rfl (hnone _ hmem), ?_,
        fun _ _ hmem => absurd rfl (hnone _ hmem)⟩
      intro phase hphase' hpast
      cases hphase.symm.trans hphase'
      simp [Phase.waiting, Phase.taken] at hpast
    · exact h.row id job' hget
  known f hf id hid := by
    rw [hjobs, Table.get?_put]
    split
    · rfl
    · exact h.known f (hlog ▸ hf) id hid
  once id := hlog ▸ h.once id

/-- A claim that is noted is the first of its job. -/
theorem Consistent.once_moved (hget : s.jobs.get? before.id = some before) (hopen : before.status.terminal = false)
    (hmoved : Moved config before after fact) (id : String) :
    ((s.log ++ fact.toList).filter (Fact.isClaim id)).length ≤ 1 := by
  rw [filter_append, length_append]
  by_cases hclaim : ∃ f ∈ fact, f.isClaim id = true
  · obtain ⟨f, hf, hid⟩ := hclaim
    rcases hmoved.noted hf with
      ⟨_, _, rfl, -⟩ | ⟨_, _, phase, rfl, hphase, hwaiting, -⟩ | ⟨_, rfl⟩
    · simp [Fact.isClaim] at hid
    · obtain rfl : before.id = id := by simpa [Fact.isClaim] using hid
      have hold : s.log.filter (Fact.isClaim before.id) = [] := by
        refine filter_eq_nil_iff.mpr fun g hg hgclaim => ?_
        cases g with
        | published | ended => simp [Fact.isClaim] at hgclaim
        | claimed jobId attempt token =>
          obtain rfl : jobId = before.id := by simpa [Fact.isClaim] using hgclaim
          obtain ⟨-, hterminal | ⟨phase', hphase', htaken⟩⟩ :=
            (h.row _ _ hget).claimed attempt token hg
          · simp [hopen] at hterminal
          · cases hphase.symm.trans hphase'
            cases phase <;> simp [Phase.waiting, Phase.taken] at hwaiting htaken
      rw [hold, length_nil, Nat.zero_add]
      exact (List.length_filter_le _ _).trans (by cases fact <;> simp)
    · simp [Fact.isClaim] at hid
  · have hnone : fact.toList.filter (Fact.isClaim id) = [] :=
      filter_eq_nil_iff.mpr fun f hf hid => hclaim ⟨f, Option.mem_toList.mp hf, hid⟩
    rw [hnone]
    exact h.once id

theorem Consistent.move (hmove : Move config s s') : Consistent config s' := by
  cases hmove with
  | same hjobs _ hlog =>
    exact ⟨hjobs ▸ hlog ▸ h.row, hjobs ▸ hlog ▸ h.known, hlog ▸ h.once⟩
  | upload job hnew hphase hattempt hjobs _ hlog => exact h.upload hnew hphase hattempt hjobs hlog
  | row before after fact hget hid hopen hmoved hjobs _ hlog =>
    refine ⟨fun id job hjob => ?_, fun f hf id hfid => ?_, fun id => ?_⟩
    · rw [hlog]
      rw [hjobs, Table.get?_put] at hjob
      split at hjob
      · cases hjob
        exact (h.row _ _ hget).moved hid hopen hmoved
      · next hne =>
        refine (h.row id job hjob).append fun f hf hfid => ?_
        rw [Table.key_of_get? hjob] at hfid
        exact hne (hid ▸ (hmoved.jobId? (Option.mem_toList.mp hf) hfid))
    · rw [hjobs, Table.get?_put]
      split
      · rfl
      next hne =>
      rw [hlog] at hf
      rcases mem_append.mp hf with hf | hf
      · exact h.known f hf id hfid
      · exact absurd (hid ▸ hmoved.jobId? (Option.mem_toList.mp hf) hfid) hne
    · exact hlog ▸ h.once_moved hget hopen hmoved id

theorem Consistent.moves (hmoves : Moves config s s') : Consistent config s' := by
  induction hmoves with
  | refl => exact h
  | tail _ hmove ih => exact ih.move hmove

end

end Consistent

end C2Hunter.Preparation
