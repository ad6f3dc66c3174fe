import C2Hunter.AiRun

/-!
# What can happen to an AI run

Programs that execute or cancel one run, interleaved at single repository calls.

* A run that has ended keeps its record: `Store.saveAiRun` refuses.
* After a run is cancelled or has failed, nothing is stored below it, if the end comes while no other
  program is between the return of its model and its last artifact: `ended_gains_nothing`. There
  it is too late, `cancelled_run_is_assessed`: nobody looks at the run again.
* The stored statuses follow `AIAnalysisState.allowed`, if programs save copies that are current:
  `history_follows_allowed`. A second program may save an old copy, `second_execute_goes_back`.

Both conditions are about the schedule. What programs do by themselves is `Calm` and `Orderly`.
-/

namespace C2Hunter.AiRuns

open List

/-! ## What programs do by themselves -/

namespace AIAnalysisState

/-- The states of a run that has ended without a result. -/
def aborted : AIAnalysisState → Bool
  | failed | cancelled => true
  | _ => false

theorem terminal_of_aborted {s : AIAnalysisState} (h : s.aborted = true) : s.terminal = true := by
  cases s <;> simp_all [aborted, terminal]

end AIAnalysisState

namespace Call

/-- Calls that store something below the run. -/
def storesBelow : Call → Bool
  | saveAiAssessment _ | saveAiArtifact _ => true
  | _ => false

/-- The call of a model does not return. -/
def ModelRaises : (c : Call) → Answer c → Prop
  | ask .model, choice => Choice.fault choice ≠ none
  | _, _ => True

/-- A save writes a copy of the run that was moved along `ALLOWED_TRANSITIONS`. -/
def Legal : Call → Prop
  | saveAiRun source updated =>
    updated.status ∈ source.status.allowed ∧
      ∃ entry, entry.toStatus = updated.status ∧ updated.transitions = source.transitions ++ [entry]
  | _ => True

/-- A save that ends the run without a result. -/
def aborts : Call → Bool
  | saveAiRun _ updated => updated.status.aborted
  | _ => false

end Call

/-- The program stores nothing below the run, as long as models do not return. -/
def Calm (p : Program) : Prop :=
  p.CallsWhile (fun c => c.storesBelow = false) Call.ModelRaises

/-- Saves are legal, and nothing is stored below the run after a save that aborts it. -/
def Orderly : Program → Prop
  | .ret _ => True
  | .call c k => c.Legal ∧ (c.aborts = true → ∀ a, Calm (k a)) ∧ ∀ a, Orderly (k a)

/-- The program is orderly, and calm until a model returns. -/
def Tidy (p : Program) : Prop := Calm p ∧ Orderly p

theorem tidy_ret (r : Option AIRun) : Tidy (.ret r) := ⟨trivial, trivial⟩

section

variable {c : Call} {k : Answer c → Program}

theorem Calm.next (h : Calm (.call c k)) {a : Answer c} (ha : c.ModelRaises a) : Calm (k a) :=
  h.2 a ha

theorem Calm.storesBelow (h : Calm (.call c k)) : c.storesBelow = false :=
  h.1

theorem orderly_call (hl : c.Legal) (ha : c.aborts = false) (hk : ∀ a, Orderly (k a)) : Orderly (.call c k) :=
  ⟨hl, fun h => absurd h (by simp [ha]), hk⟩

theorem tidy_call (hl : c.Legal) (ha : c.aborts = false) (hc : c.storesBelow = false)
    (hk : ∀ a, Tidy (k a)) : Tidy (.call c k) :=
  ⟨⟨hc, fun a _ => (hk a).1⟩, orderly_call hl ha fun a => (hk a).2⟩

end

variable {run : AIRun}

section Transition

variable {target : AIAnalysisState} {reason : String} {invalid : Program}
  {next : AIRun → Program}

theorem orderly_transition (hinvalid : Orderly invalid) (hnext : ∀ r, Orderly (next r))
    (hend : target.aborted = true → ∀ r, Calm (next r)) :
    Orderly (transition run target reason invalid next) := by
  rw [transition]
  split
  · exact hnext run
  split
  · exact hinvalid
  · next hallowed =>
    refine orderly_call trivial rfl fun choice => ⟨⟨not_not.mp hallowed, ?_⟩, hend, hnext⟩
    exact ⟨⟨target, choice.now, reason⟩, rfl, rfl⟩

/-- A transition to a state that does not abort the run. -/
theorem orderly_transition' (htarget : target.aborted = false) (hinvalid : Orderly invalid)
    (hnext : ∀ r, Orderly (next r)) : Orderly (transition run target reason invalid next) :=
  orderly_transition hinvalid hnext fun h => absurd h (by simp [htarget])

theorem tidy_transition (hinvalid : Tidy invalid) (hnext : ∀ r, Tidy (next r)) :
    Tidy (transition run target reason invalid next) := by
  refine ⟨?_, orderly_transition hinvalid.2 (fun r => (hnext r).2) fun _ r => (hnext r).1⟩
  rw [transition]
  split
  · exact (hnext run).1
  · split
    · exact hinvalid.1
    · exact ⟨rfl, fun choice _ => ⟨rfl, fun r _ => (hnext r).1⟩⟩

/-- The last transition of a program. -/
theorem tidy_return (hinvalid : Tidy invalid) : Tidy (transition run target reason invalid return_) :=
  tidy_transition hinvalid fun _ => tidy_ret _

end Transition

theorem tidy_failed (run : AIRun) (fault : Fault) : Tidy (failed run fault) := by
  cases fault with
  | cancelled =>
    refine tidy_call trivial rfl rfl fun latest => ?_
    cases latest with
    | none => exact tidy_return (tidy_ret _)
    | some latest =>
      dsimp only
      split
      · exact tidy_ret _
      · exact tidy_return (tidy_ret _)
  | timeout | invalid | other => exact tidy_return (tidy_ret _)

section Attempt

variable {site : Site} {next : Choice → Program}

theorem tidy_attempt (hnext : ∀ choice, Tidy (next choice)) : Tidy (attempt site run next) := by
  refine tidy_call trivial rfl rfl fun choice => ?_
  split
  · exact tidy_failed run _
  · exact hnext choice

theorem orderly_attempt (hnext : ∀ choice, Orderly (next choice)) : Orderly (attempt site run next) := by
  refine orderly_call trivial rfl fun choice => ?_
  split
  · exact (tidy_failed run _).2
  · exact hnext choice

theorem tidy_polls {p : Program} (hp : Tidy p) (n : Nat) : Tidy (polls n p) := by
  induction n with
  | zero => exact hp
  | succ n ih => exact tidy_call trivial rfl rfl fun _ => ih

/-- What follows the model does not matter while it does not return. -/
theorem calm_attempt_model (run : AIRun) (next : Choice → Program) : Calm (attempt .model run next) := by
  refine ⟨rfl, fun (answer : Choice) (hraises : answer.fault ≠ none) => ?_⟩
  obtain ⟨now, present, fault, polls, text, rows⟩ := answer
  cases fault with
  | none => exact absurd rfl hraises
  | some fault => exact (tidy_failed run fault).1

theorem tidy_model (hnext : ∀ choice, Orderly (next choice)) : Tidy (model run next) :=
  tidy_call trivial rfl rfl fun _ =>
    tidy_polls ⟨calm_attempt_model run next, orderly_attempt hnext⟩ _

end Attempt

theorem orderly_saveArtifacts {p : Program} (hp : Orderly p) (id : String) (ids : List String) :
    Orderly (saveArtifacts id ids p) := by
  induction ids with
  | nil => exact hp
  | cons _ _ ih => exact orderly_call trivial rfl fun _ => ih

theorem tidy_assessAll (run : AIRun) (candidates : List String) : Tidy (assessAll run candidates) := by
  induction candidates generalizing run with
  | nil => exact tidy_return (tidy_failed run _)
  | cons candidate rest ih =>
    refine tidy_model fun _ => orderly_transition' rfl (tidy_failed _ _).2 fun run => ?_
    refine orderly_attempt fun _ => orderly_call trivial rfl fun _ => ?_
    refine orderly_call trivial rfl fun stored => orderly_attempt fun choice => ?_
    refine orderly_saveArtifacts ?_ _ _
    split
    · exact (ih run).2
    · exact orderly_transition' rfl (tidy_failed _ _).2 fun run => (ih run).2

theorem tidy_candidateSource {next : List String → Program}
    (hnext : ∀ source, Tidy (next source)) : Tidy (candidateSource run next) := by
  rw [candidateSource]
  split
  · exact hnext _
  · exact tidy_call trivial rfl rfl hnext

theorem tidy_executeCandidates (run : AIRun) : Tidy (executeCandidates run) := by
  refine tidy_transition (tidy_failed _ _) fun run => tidy_candidateSource fun source => ?_
  dsimp only
  split
  · exact tidy_failed _ _
  refine tidy_call trivial rfl rfl fun present => ?_
  split
  · exact tidy_failed _ _
  · refine tidy_attempt fun _ => tidy_transition (tidy_failed _ _) fun run => ?_
    exact tidy_assessAll run _

theorem tidy_interpret (run : AIRun) (preparing analyzing validating completed : String) :
    Tidy (interpret run preparing analyzing validating completed) := by
  refine tidy_transition (tidy_failed _ _) fun run => tidy_call trivial rfl rfl fun choice => ?_
  split
  · exact tidy_failed _ _
  · refine tidy_transition (tidy_failed _ _) fun run => tidy_model fun _ => ?_
    refine orderly_transition' rfl (tidy_failed _ _).2 fun run => orderly_attempt fun choice => ?_
    exact (tidy_return (tidy_failed _ _)).2

theorem tidy_executeNetwork (run : AIRun) : Tidy (executeNetwork run) := by
  refine tidy_call trivial rfl rfl fun choice => ?_
  split
  · exact tidy_return (tidy_failed _ _)
  · exact tidy_interpret run _ _ _ _

/-- A program stores nothing below the run before its first model returns. -/
theorem tidy_program (request : Request) : Tidy (program request) := by
  cases request with
  | execute =>
    refine tidy_call trivial rfl rfl fun stored => ?_
    cases stored with
    | none => exact tidy_ret _
    | some run =>
      dsimp only
      split
      · exact tidy_ret _
      · cases run.analysisKind with
        | networkAnomaly => exact tidy_executeNetwork run
        | ddosAttack => exact tidy_interpret run _ _ _ _
        | c2 => exact tidy_executeCandidates run
  | cancel =>
    refine tidy_call trivial rfl rfl fun stored => ?_
    cases stored with
    | none => exact tidy_ret _
    | some run =>
      dsimp only
      split
      · exact tidy_ret _
      · exact tidy_return (tidy_ret _)

theorem orderly_serve (run : AIRun) (events : Schedule) : ∀ p ∈ (serve (start run) events).procs, Orderly p :=
  Machine.run_procs (by simp [start]) (fun r => (tidy_program r).2) trivial (fun _ _ h => h.2.2) events

/-! ## What calls do -/

/-- A call leaves the run alone, or saves a run over one that has not ended. -/
theorem run_answer (c : Call) (s : Store) (choice : Choice) : (answer c s choice).2.run = s.run ∨
      ∃ source updated, c = .saveAiRun source updated ∧ (answer c s choice).2.run = some updated ∧
        ∀ existing, s.run = some existing → existing.status.terminal = false := by
  cases c with
  | saveAiRun source updated =>
    rw [answer, Store.saveAiRun]
    cases hrun : s.run with
    | none => exact .inr ⟨source, updated, rfl, rfl, by simp⟩
    | some existing =>
      by_cases hterminal : existing.status.terminal
      · exact .inl (by simp [hterminal, hrun])
      · refine .inr ⟨source, updated, rfl, by simp [hterminal], ?_⟩
        rintro _ ⟨⟩
        simpa using hterminal
  | saveAiAssessment =>
    refine .inl ?_
    rw [answer, Store.saveAiAssessment]
    split <;> rfl
  | getAiRun | getCandidates | getJob | saveAiArtifact | ask => exact .inl rfl

variable {w : Service}

section

variable {c : Call}

/-- A run that has ended stays as it is. -/
theorem run_answer_of_terminal {s : Store} {choice : Choice} (hrun : s.run = some run)
    (hterminal : run.status.terminal = true) : (answer c s choice).2.run = some run := by
  rcases run_answer c s choice with h | ⟨_, _, -, -, h⟩
  · rw [h, hrun]
  · exact absurd hterminal (by simp [h run hrun])

/-- A call that stores nothing below the run. -/
theorem answer_of_storesBelow (hc : c.storesBelow = false) (s : Store) (choice : Choice) :
    (answer c s choice).2.assessments = s.assessments ∧ (answer c s choice).2.artifacts = s.artifacts := by
  cases c with
  | saveAiAssessment | saveAiArtifact => simp [Call.storesBelow] at hc
  | saveAiRun =>
    rw [answer, Store.saveAiRun]
    split
    · split <;> exact ⟨rfl, rfl⟩
    · exact ⟨rfl, rfl⟩
  | getAiRun | getCandidates | getJob | ask => exact ⟨rfl, rfl⟩

/-! ## A run that has ended -/

/-- The stored run. -/
def Stored (w : Service) (run : AIRun) : Prop := w.shared.run = some run

/-- The stored run has failed or is cancelled. -/
def Aborted (w : Service) : Prop := ∃ run, Stored w run ∧ run.status.aborted = true

theorem stored_step (h : Stored w run) (hterminal : run.status.terminal = true)
    (event : Event Request Choice) : Stored (w.step program answer none event) run := by
  have hcases := Machine.step_cases program answer none w event
  generalize w.step program answer none event = w' at hcases ⊢
  cases hcases with
  | start | idle | crash => exact h
  | call => exact run_answer_of_terminal h hterminal

/-- A run that has ended is never changed. -/
theorem stored_serve (h : Stored w run) (hterminal : run.status.terminal = true) (events : Schedule) :
    Stored (serve w events) run :=
  Machine.run_induction (fun _ w' => Stored w' run) events h fun _ event _ ih =>
    stored_step ih hterminal event

theorem Aborted.step (h : Aborted w) (event : Event Request Choice) :
    Aborted (w.step program answer none event) := by
  obtain ⟨run, hrun, haborted⟩ := h
  exact ⟨run, stored_step hrun (AIAnalysisState.terminal_of_aborted haborted) event, haborted⟩

theorem Aborted.serve (h : Aborted w) (events : Schedule) : Aborted (serve w events) := by
  obtain ⟨run, hrun, haborted⟩ := h
  exact ⟨run, stored_serve hrun (AIAnalysisState.terminal_of_aborted haborted) events, haborted⟩

/-- A program waits for its model. -/
def atModel (w : Service) (i : Nat) : Bool :=
  match w.procs[i]? with
  | some (.call (.ask .model) _) => true
  | _ => false

end

/-- The run is aborted only while no other program is between the return of its model and its last
artifact, and models that are asked about an aborted run do not return. -/
structure Timely (w : Service) (events : Schedule) : Prop where
  apart : ∀ pre i choice, pre ++ [.advance i choice] <+: events → ¬ Aborted (serve w pre) →
    Aborted (serve w (pre ++ [.advance i choice])) →
    ∀ j p, j ≠ i → (serve w pre).procs[j]? = some p → Calm p
  raises : ∀ pre i choice, pre ++ [.advance i choice] <+: events → Aborted (serve w pre) →
    atModel (serve w pre) i = true → choice.fault ≠ none

variable {events : Schedule} {event : Event Request Choice}

section

variable {c : Call} {s : Store} {choice : Choice}

theorem Timely.left {more : Schedule} (h : Timely w (events ++ more)) : Timely w events where
  apart pre i choice hpre := h.apart pre i choice (hpre.trans (prefix_append _ _))
  raises pre i choice hpre := h.raises pre i choice (hpre.trans (prefix_append _ _))

/-- The answer to a call of an aborted run is that of a model that does not return, if it is the
answer of a model. -/
theorem modelRaises_answer (h : c = .ask .model → choice.fault ≠ none) : c.ModelRaises (answer c s choice).1 := by
  cases c with
  | ask site =>
    cases site with
    | model => exact h rfl
    | clock | networkInput | provider | bundles | polling | output | uuid | drafts => trivial
  | getAiRun | saveAiRun | getCandidates | getJob | saveAiAssessment | saveAiArtifact =>
    trivial

/-- A call after which the run is aborted, and before which it was not, is a save that aborts. -/
theorem aborts_of_aborted {procs procs' : List Program} (hbefore : ¬ Aborted ⟨s, procs⟩)
    (hafter : Aborted ⟨(answer c s choice).2, procs'⟩) : c.aborts = true := by
  obtain ⟨run, hrun, haborted⟩ := hafter
  rcases run_answer c s choice with h | ⟨source, updated, rfl, h, -⟩
  · exact absurd ⟨run, h.symm.trans hrun, haborted⟩ hbefore
  · obtain rfl : updated = run := Option.some.inj (h.symm.trans hrun)
    exact haborted

theorem calm_step (horderly : ∀ p ∈ w.procs, Orderly p) (hcalm : Aborted w → ∀ p ∈ w.procs, Calm p)
    (hapart : ∀ i choice, event = .advance i choice → ¬ Aborted w → Aborted (w.step program answer none event) →
      ∀ j p, j ≠ i → w.procs[j]? = some p → Calm p)
    (hraises : ∀ i choice, event = .advance i choice → Aborted w → atModel w i = true →
      choice.fault ≠ none) (haborted : Aborted (w.step program answer none event)) :
    ∀ p ∈ (w.step program answer none event).procs, Calm p := by
  have hcases := Machine.step_cases program answer none w event
  generalize w.step program answer none event = w' at hapart haborted hcases ⊢
  cases hcases with
  | start request =>
    intro p hp
    rcases mem_append.mp hp with hp | hp
    · exact hcalm haborted p hp
    · rw [mem_singleton.mp hp]
      exact (tidy_program request).1
  | idle => exact hcalm haborted
  | crash =>
    intro p hp
    rcases mem_or_eq_of_mem_set hp with hp | rfl
    · exact hcalm haborted p hp
    · trivial
  | call i choice c k hk =>
    by_cases hbefore : Aborted w
    · have hcall := hcalm hbefore _ (mem_of_getElem? hk)
      intro p hp
      rcases mem_or_eq_of_mem_set hp with hp | rfl
      · exact hcalm hbefore p hp
      · refine hcall.next (modelRaises_answer ?_)
        rintro rfl
        exact hraises i choice rfl hbefore (by rw [atModel, hk])
    · -- the call saved the run as aborted: its program is done, the others are apart
      have haborts : c.aborts = true := aborts_of_aborted hbefore haborted
      intro p hp
      obtain ⟨j, hj⟩ := mem_iff_getElem?.mp hp
      rw [getElem?_set] at hj
      split at hj
      · split at hj
        · cases hj
          exact (horderly _ (mem_of_getElem? hk)).2.1 haborts _
        · cases hj
      · next hij => exact hapart i choice rfl hbefore haborted j p (Ne.symm hij) hj

/-- While the run is aborted, all programs are calm. -/
theorem calm_of_aborted (htimely : Timely (start run) events) :
    Aborted (serve (start run) events) → ∀ p ∈ (serve (start run) events).procs, Calm p := by
  refine Machine.run_induction (fun _ w => Aborted w → ∀ p ∈ w.procs, Calm p) events
    (by simp [start]) fun pre event hpre ih => ?_
  refine calm_step (orderly_serve run pre) ih ?_ ?_
  · rintro i choice rfl hbefore hafter
    refine htimely.apart pre i choice hpre hbefore ?_
    rw [serve, Machine.run_concat]
    exact hafter
  · rintro i choice rfl hbefore hmodel
    exact htimely.raises pre i choice hpre hbefore hmodel

/-- An event changes nothing below a run, if the programs are calm. -/
theorem below_step (hcalm : ∀ p ∈ w.procs, Calm p) (event : Event Request Choice) :
    (w.step program answer none event).shared.assessments = w.shared.assessments ∧
      (w.step program answer none event).shared.artifacts = w.shared.artifacts := by
  have hcases := Machine.step_cases program answer none w event
  generalize w.step program answer none event = w' at hcases ⊢
  cases hcases with
  | start | idle | crash => exact ⟨rfl, rfl⟩
  | call i choice c k hk =>
    exact answer_of_storesBelow (hcalm _ (mem_of_getElem? hk)).storesBelow _ _

/-- Once a run has ended its record stays as it is; once it is cancelled or has failed, in time,
nothing is stored below it. -/
theorem ended_gains_nothing (run : AIRun) (events more : Schedule) :
    (∀ ended, (serve (start run) events).shared.run = some ended → ended.status.terminal = true →
      (serve (start run) (events ++ more)).shared.run = some ended) ∧
    (Timely (start run) (events ++ more) → Aborted (serve (start run) events) →
      (serve (start run) (events ++ more)).shared.assessments = (serve (start run) events).shared.assessments ∧
        (serve (start run) (events ++ more)).shared.artifacts = (serve (start run) events).shared.artifacts) := by
  constructor
  · intro ended hended hterminal
    rw [serve, Machine.run_append]
    exact stored_serve hended hterminal more
  · intro htimely haborted
    -- along the rest of the schedule the run stays aborted, so that all programs stay calm
    suffices h : Aborted (serve (start run) (events ++ more)) ∧ _ from h.2
    induction more using List.reverseRecOn with
    | nil => simpa using haborted
    | append_singleton more event ih =>
      rw [← append_assoc] at htimely ⊢
      obtain ⟨hstill, hbelow⟩ := ih htimely.left
      have hcalm := calm_of_aborted htimely.left hstill
      have hstep := below_step hcalm event
      rw [serve, Machine.run_concat]
      exact ⟨hstill.step event, hstep.1.trans hbelow.1, hstep.2.trans hbelow.2⟩

/-- A run of one candidate. -/
def queuedRun : AIRun where
  analysisKind := .c2
  status := .queued
  progressPercent := 0
  updatedAt := 0
  completedAt := none
  transitions := [⟨.queued, 0, "queued"⟩]
  errorCode := none
  errorMessage := none
  candidateIds := ["candidate"]
  candidateSnapshots := some ["candidate"]
  interpretation := none

/-- The first calls of a program. -/
def turns (i : Nat) (choices : List Choice) : Schedule := choices.map (.advance i)

/-- `execute` up to its model. -/
def modelCalled : Schedule := .start .execute :: turns 0 (List.replicate 8 {})

/-- `cancel` from its start to its end. -/
def cancelledBy (i : Nat) : Schedule := .start (.cancel "operator") :: turns i (List.replicate 3 {})

instance (w : Service) : Decidable (Aborted w) :=
  decidable_of_iff (∃ run ∈ w.shared.run, run.status.aborted = true) Iff.rfl

end

section Timely

theorem timely_nil : Timely w [] where
  apart pre i choice hpre := by simp at hpre
  raises pre i choice hpre := by simp at hpre

theorem Timely.cons (hapart : ∀ i choice, event = .advance i choice → ¬ Aborted w →
      Aborted (w.step program answer none event) → ∀ j p, j ≠ i → w.procs[j]? = some p → Calm p)
    (hraises : ∀ i choice, event = .advance i choice → Aborted w → atModel w i = true →
      choice.fault ≠ none) (h : Timely (w.step program answer none event) events) :
    Timely w (event :: events) where
  apart pre i choice hpre hbefore hafter := by
    cases pre with
    | nil =>
      obtain rfl := (cons_prefix_cons.mp hpre).1
      exact hapart i choice rfl hbefore hafter
    | cons e pre =>
      obtain ⟨rfl, hrest⟩ := cons_prefix_cons.mp hpre
      exact h.apart pre i choice hrest hbefore hafter
  raises pre i choice hpre hbefore := by
    cases pre with
    | nil => exact hraises i choice (cons_prefix_cons.mp hpre).1.symm hbefore
    | cons e pre =>
      obtain ⟨rfl, hrest⟩ := cons_prefix_cons.mp hpre
      exact h.raises pre i choice hrest hbefore

/-- Before the run is aborted every schedule is timely. -/
theorem Timely.append {more : Schedule} (hbefore : ¬ Aborted (serve w events))
    (h : Timely (serve w events) more) : Timely w (events ++ more) := by
  induction events generalizing w with
  | nil => exact h
  | cons event events ih =>
    have hnext : ¬ Aborted (w.step program answer none event) := fun h => hbefore (h.serve events)
    refine Timely.cons (fun _ _ _ _ h => absurd h hnext) (fun _ _ _ h => ?_) (ih hbefore h)
    exact absurd (h.step event) hnext

end Timely

/-- The run is cancelled when the model has returned; its assessment and an artifact are stored
all the same. -/
theorem cancelled_run_is_assessed :
    let events := modelCalled ++ turns 0 [{}] ++ cancelledBy 1
    let more := turns 0 [{}, {}, {}, { text := "assessment" }, {}, { rows := ["artifact"] }, {}]
    let before := (serve (start queuedRun) events).shared
    let after := (serve (start queuedRun) (events ++ more)).shared
    before.run.map AIRun.status = some .cancelled ∧ before.assessments.rows = [] ∧ before.artifacts.rows = [] ∧
      after.assessments.rows = [⟨"assessment", "candidate"⟩] ∧
      after.artifacts.rows = [⟨"artifact", "assessment"⟩] := by
  decide +kernel

/-- The run is cancelled while the model is at work, and the model gives up. -/
theorem cancelled_while_modelling :
    let events := modelCalled ++ cancelledBy 1
    let more := turns 0 [{ fault := some .cancelled }, {}]
    (serve (start queuedRun) events).shared.run.map AIRun.status = some .cancelled ∧
      (serve (start queuedRun) (events ++ more)).shared.assessments =
        (serve (start queuedRun) events).shared.assessments := by
  refine ⟨by decide +kernel, ?_⟩
  refine ((ended_gains_nothing queuedRun (modelCalled ++ cancelledBy 1) _).2 ?_ (by decide +kernel)).1
  -- the last call of `cancel` is the one that counts
  rw [show modelCalled ++ cancelledBy 1 =
    (modelCalled ++ .start (.cancel "operator") :: turns 1 [{}, {}]) ++ [.advance 1 {}] from rfl,
    append_assoc]
  refine Timely.append (by decide +kernel) (Timely.cons ?_ ?_ ?_)
  · rintro _ _ ⟨⟩ - - j p hj hp
    rcases j with _ | _ | j
    · cases hp
      exact calm_attempt_model _ _
    · exact absurd rfl hj
    · cases hp
  · rintro _ _ ⟨⟩ h
    exact absurd h (by decide +kernel)
  · refine Timely.cons (fun _ _ _ h => absurd (by decide +kernel) h) ?_ ?_
    · rintro _ _ ⟨⟩ - -
      simp
    · refine Timely.cons (fun _ _ _ h => absurd (by decide +kernel) h) ?_ timely_nil
      rintro _ _ ⟨⟩ - h
      exact absurd h (by decide +kernel)

/-! ## The statuses of a run -/

/-- The second run is the first one, moved along `ALLOWED_TRANSITIONS`, with one more entry. -/
def Follows (before after : AIRun) : Prop :=
  after.status ∈ before.status.allowed ∧
    ∃ entry, entry.toStatus = after.status ∧ after.transitions = before.transitions ++ [entry]

/-- The copy that a program is about to save a successor of. -/
def sourceOf (w : Service) (i : Nat) : Option AIRun :=
  match w.procs[i]? with
  | some (.call (.saveAiRun source _) _) => some source
  | _ => none

/-- A program that is about to save a run made it from a copy with the status and the transitions of
the stored run. (A save over a run that has ended is refused.) -/
def CurrentAt (w : Service) (i : Nat) : Prop :=
  ∀ source ∈ sourceOf w i, ∀ run ∈ w.shared.run,
    run.status.terminal = true ∨ source.status = run.status ∧ source.transitions = run.transitions

instance (w : Service) (i : Nat) : Decidable (CurrentAt w i) := by
  unfold CurrentAt
  infer_instance

/-- Programs save successors of copies that are current. -/
def Current (w : Service) (events : Schedule) : Prop :=
  ∀ pre i choice, pre ++ [.advance i choice] <+: events → CurrentAt (serve w pre) i

theorem current_nil : Current w [] := fun pre i choice hpre => by simp at hpre

theorem Current.cons (hat : ∀ i choice, event = .advance i choice → CurrentAt w i)
    (h : Current (w.step program answer none event) events) : Current w (event :: events) := by
  intro pre i choice hpre
  cases pre with
  | nil =>
    obtain rfl := (cons_prefix_cons.mp hpre).1
    exact hat i choice rfl
  | cons e pre =>
    obtain ⟨rfl, hrest⟩ := cons_prefix_cons.mp hpre
    exact h pre i choice hrest

/-- The statuses that are stored, one for each step of the run. -/
def statuses (w : Service) (events : Schedule) : List AIAnalysisState :=
  (w.trace program answer none events).filterMap fun w => w.shared.run.map AIRun.status

/-- An event leaves the stored run, or moves it. -/
theorem follows_step (horderly : ∀ p ∈ w.procs, Orderly p) (hrun : Stored w run)
    (hcurrent : ∀ i choice, event = .advance i choice → CurrentAt w i) :
    ∃ after, Stored (w.step program answer none event) after ∧ (after = run ∨ Follows run after) := by
  have hcases := Machine.step_cases program answer none w event
  generalize w.step program answer none event = w' at hcases ⊢
  cases hcases with
  | start | idle | crash => exact ⟨run, hrun, .inl rfl⟩
  | call i choice c k hk =>
    rcases run_answer c w.shared choice with h | ⟨source, updated, rfl, h, hopen⟩
    · exact ⟨run, h.trans hrun, .inl rfl⟩
    refine ⟨updated, h, .inr ?_⟩
    obtain ⟨hallowed, entry, hentry, htransitions⟩ := (horderly _ (mem_of_getElem? hk)).1
    have hsourceOf : sourceOf w i = some source := by rw [sourceOf, hk]
    obtain ⟨hstatus, hsource⟩ :=
      (hcurrent i choice rfl source hsourceOf run hrun).resolve_left (by simp [hopen run hrun])
    exact ⟨hstatus ▸ hallowed, entry, hentry, hsource ▸ htransitions⟩

theorem follows_serve (hcurrent : Current (start run) events) : ∀ pre event, pre ++ [event] <+: events →
      ∃ before after, Stored (serve (start run) pre) before ∧
        Stored (serve (start run) (pre ++ [event])) after ∧ (after = before ∨ Follows before after) := by
  intro pre event
  induction pre using List.reverseRecOn generalizing event with
  | nil =>
    intro hpre
    obtain ⟨after, hafter, h⟩ := follows_step (orderly_serve run []) rfl fun i choice heq =>
      hcurrent [] i choice (heq ▸ hpre)
    exact ⟨run, after, rfl, hafter, h⟩
  | append_singleton pre last ih =>
    intro hpre
    obtain ⟨_, before, -, hbefore, -⟩ := ih last ((prefix_append _ _).trans hpre)
    obtain ⟨after, hafter, h⟩ := follows_step (orderly_serve run (pre ++ [last])) hbefore
      fun i choice heq => hcurrent _ i choice (heq ▸ hpre)
    refine ⟨before, after, hbefore, ?_, h⟩
    rw [serve, Machine.run_concat]
    exact hafter

/-- The statuses that follow each other in the store are a path of `ALLOWED_TRANSITIONS` from
`QUEUED`, and the stored transitions get one entry with each of its steps, if copies are current. -/
theorem history_follows_allowed (run : AIRun) (hqueued : run.status = .queued) (events : Schedule)
    (hcurrent : Current (start run) events) :
    (((statuses (start run) events).destutter (· ≠ ·)).head? = some .queued ∧
      ((statuses (start run) events).destutter (· ≠ ·)).IsChain fun a b => b ∈ a.allowed) ∧
    ∀ pre event, pre ++ [event] <+: events → ∃ before after, (serve (start run) pre).shared.run = some before ∧
        (serve (start run) (pre ++ [event])).shared.run = some after ∧
        (after = before ∨ Follows before after) := by
  have hfollows := follows_serve hcurrent
  refine ⟨?_, hfollows⟩
  have hchain : (statuses (start run) events).IsChain fun a b => a = b ∨ b ∈ a.allowed := by
    refine List.IsChain.filterMap_of_some (Machine.isChain_trace fun pre event hpre => ?_)
    obtain ⟨before, after, hbefore, hafter, h⟩ := hfollows pre event hpre
    refine ⟨before.status, after.status, congrArg (Option.map AIRun.status) hbefore,
      congrArg (Option.map AIRun.status) hafter, ?_⟩
    rcases h with rfl | h
    · exact .inl rfl
    · exact .inr h.1
  obtain ⟨rest, hrest⟩ : ∃ rest, statuses (start run) events = .queued :: rest := by
    obtain ⟨ws, hws⟩ := head?_eq_some_iff.mp (Machine.head?_trace (start run) events)
    rw [statuses, hws]
    exact ⟨_, filterMap_cons_some (by simp [start, hqueued])⟩
  rw [hrest] at hchain ⊢
  exact hchain.destutter_ne.symm

/-- A program reads the run and saves it as `PREPARING`. -/
theorem prepared_from_queue : ((statuses (start queuedRun) (.start .execute :: turns 0 [{}, {}, {}])).destutter
      (· ≠ ·)).IsChain fun a b => b ∈ a.allowed := by
  refine (history_follows_allowed queuedRun rfl _ ?_).1.2
  refine Current.cons (by simp) (Current.cons ?_ (Current.cons ?_ (Current.cons ?_ current_nil)))
  · rintro _ _ ⟨⟩
    decide +kernel
  · rintro _ _ ⟨⟩
    decide +kernel
  · rintro _ _ ⟨⟩
    decide +kernel

/-- Two programs execute the run and both have read it as queued: the second takes it back from
`ANALYZING` to `PREPARING`. -/
theorem second_execute_goes_back :
    let before := serve (start queuedRun) ([.start .execute, .start .execute] ++ turns 1 [{}, {}] ++
      turns 0 (List.replicate 7 {}))
    let after := before.step program answer none (.advance 1 {})
    before.shared.run.map AIRun.status = some .analyzing ∧ after.shared.run.map AIRun.status = some .preparing ∧
      .preparing ∉ AIAnalysisState.allowed .analyzing ∧
      before.shared.run.map (·.transitions.length) = some 3 ∧
      after.shared.run.map (·.transitions.length) = some 2 := by
  decide +kernel

end C2Hunter.AiRuns
