import C2Hunter.Interleave
import C2Hunter.Table

/-!
# AI runs

`AIAnalysisService.execute` and `cancel` of `ai_analysis.py` as programs over single repository calls.
The run is one stored record that every caller reads, changes in a copy of its own and writes back;
`save_ai_run` refuses to write over a run that has ended. Assessments and artifacts of a run that is
not historical are stored without a look at the run.

* `AIAnalysisState`, `AIRun`, `transitioned` — the record and one transition of it.
* `Call`, `answer`, `Store` — the repository, and what the environment decides: the clock, the model,
  the validation of its output, identifiers, other tables.
* `transition`, `failed`, `execute`, `cancel` — the programs.
* `start`, `serve` — a stored run before any program, and the interleavings of programs from there.
-/

namespace C2Hunter.AiRuns

/-- `AIAnalysisState`. -/
inductive AIAnalysisState where
  | queued
  | preparing
  | analyzing
  | validating
  | completed
  | failed
  | cancelled
  deriving DecidableEq, Repr

namespace AIAnalysisState

/-- `TERMINAL_STATES`. -/
def terminal : AIAnalysisState → Bool
  | completed | failed | cancelled => true
  | _ => false

/-- `ALLOWED_TRANSITIONS`; terminal states have none. -/
def allowed : AIAnalysisState → List AIAnalysisState
  | queued => [preparing, failed, cancelled]
  | preparing => [analyzing, failed, cancelled]
  | analyzing => [validating, failed, cancelled]
  | validating => [analyzing, completed, failed, cancelled]
  | completed | failed | cancelled => []

/-- `STATE_PROGRESS`. -/
def progress : AIAnalysisState → Option Nat
  | queued => some 0
  | preparing => some 10
  | analyzing => some 40
  | validating => some 80
  | completed => some 100
  | failed | cancelled => none

end AIAnalysisState

/-- An entry of the history that a run carries. -/
structure Transition where
  toStatus : AIAnalysisState
  occurredAt : Nat
  reason : String
  deriving DecidableEq, Repr

/-- `analysis_kind`. -/
inductive AnalysisKind where
  | c2
  | networkAnomaly
  | ddosAttack
  deriving DecidableEq, Repr

/-- A run that is not historical. -/
structure AIRun where
  analysisKind : AnalysisKind
  status : AIAnalysisState
  progressPercent : Nat
  updatedAt : Nat
  completedAt : Option Nat
  transitions : List Transition
  errorCode : Option String
  errorMessage : Option String
  candidateIds : List String
  /-- the candidates that were stored with the run, if they were -/
  candidateSnapshots : Option (List String)
  interpretation : Option String
  deriving DecidableEq, Repr

/-- The record that `_transition` writes. -/
def AIRun.transitioned (run : AIRun) (target : AIAnalysisState) (reason : String) (now : Nat) :
    AIRun :=
  { run with
    status := target
    progressPercent := target.progress.getD run.progressPercent
    updatedAt := now
    transitions := run.transitions ++ [⟨target, now, reason⟩]
    completedAt := if target.terminal then some now else run.completedAt }

/-- The assessment of a candidate. -/
structure Assessment where
  id : String
  candidateId : String
  deriving DecidableEq, Repr

/-- A draft that is made from an assessment. -/
structure Artifact where
  id : String
  assessmentId : String
  deriving DecidableEq, Repr

/-! ## The repository -/

/-- What a call of other code raises, as far as `execute` tells it apart. -/
inductive Fault where
  /-- `AIAnalysisCancelled` -/
  | cancelled
  /-- `TimeoutError` -/
  | timeout
  /-- `AIAnalysisError`, `ValidationError`, `TypeError` and `ValueError` -/
  | invalid
  | other
  deriving DecidableEq, Repr

/-- Where a program asks the environment. -/
inductive Site where
  | clock
  /-- `validate_binding(run)` -/
  | networkInput
  /-- whether the gateway has the method for this kind of run -/
  | provider
  /-- `build_evidence_bundle(item, job=job)` for all candidates -/
  | bundles
  /-- how often the gateway asks whether the run is cancelled -/
  | polling
  /-- how the call of the model ends -/
  | model
  /-- the validation of what the model returned -/
  | output
  | uuid
  /-- `build_ai_artifacts` -/
  | drafts
  deriving DecidableEq, Repr

/-- What the environment decides at a call. -/
structure Choice where
  /-- the clock -/
  now : Nat := 0
  /-- a check succeeds, a row exists -/
  present : Bool := true
  /-- an exception of other code -/
  fault : Option Fault := none
  /-- how often the gateway asks whether the run is cancelled -/
  polls : Nat := 0
  /-- an identifier, or an interpretation -/
  text : String := ""
  /-- the rows of another table, or the artifacts of an assessment -/
  rows : List String := []

/-- The calls of a program. -/
inductive Call where
  | getAiRun
  /-- `save_ai_run(updated)`; `source` is the copy that `updated` was made from -/
  | saveAiRun (source updated : AIRun)
  | getCandidates
  | getJob
  | saveAiAssessment (assessment : Assessment)
  | saveAiArtifact (artifact : Artifact)
  /-- code outside of the repository -/
  | ask (site : Site)

/-- The answers to calls. -/
def Answer : Call → Type
  | .getAiRun => Option AIRun
  | .saveAiRun _ _ => AIRun
  | .getCandidates => List String
  | .getJob => Bool
  | .saveAiAssessment _ => Assessment
  | .saveAiArtifact _ => Artifact
  | .ask _ => Choice

/-- The part of the repository that belongs to the run. -/
structure Store where
  run : Option AIRun
  assessments : Table Assessment.id
  artifacts : Table Artifact.id

/-- `save_ai_run(updated)`. -/
def Store.saveAiRun (s : Store) (updated : AIRun) : AIRun × Store :=
  match s.run with
  | some existing =>
    if existing.status.terminal then (existing, s) else (updated, { s with run := some updated })
  | none => (updated, { s with run := some updated })

/-- `MemoryAccess.save("A", assessment)` for a run that is not historical. -/
def Store.saveAiAssessment (s : Store) (assessment : Assessment) : Assessment × Store :=
  match s.assessments.get? assessment.id with
  | some existing => (existing, s)
  | none => (assessment, { s with assessments := s.assessments.put assessment })

/-- `MemoryAccess.save("T", artifact)` for a run that is not historical. -/
def Store.saveAiArtifact (s : Store) (artifact : Artifact) : Artifact × Store :=
  (artifact, { s with artifacts := s.artifacts.put artifact })

/-- What a call does. -/
def answer : (c : Call) → Store → Choice → Answer c × Store
  | .getAiRun, s, _ => (s.run, s)
  | .saveAiRun _ updated, s, _ => s.saveAiRun updated
  | .getCandidates, s, choice => (choice.rows, s)
  | .getJob, s, choice => (choice.present, s)
  | .saveAiAssessment assessment, s, _ => s.saveAiAssessment assessment
  | .saveAiArtifact artifact, s, _ => s.saveAiArtifact artifact
  | .ask _, s, choice => (choice, s)

/-! ## The programs -/

/-- A program; it returns the run, or raises. -/
abbrev Program : Type := Prog Call Answer (Option AIRun)

/-- `return run`. -/
def return_ (run : AIRun) : Program := .ret (some run)

/-- An exception that leaves the program. -/
def raise_ : Program := .ret none

/-- `_transition(run, target, reason)`, and what follows; `invalid` follows the exception for a
transition that is not allowed. -/
def transition (run : AIRun) (target : AIAnalysisState) (reason : String) (invalid : Program)
    (next : AIRun → Program) : Program :=
  if run.status.terminal then next run
  else if target ∉ run.status.allowed then invalid
  else .call (.ask .clock) fun choice =>
    .call (.saveAiRun run (run.transitioned target reason choice.now)) next

/-- The error fields that are set before a run fails. -/
def AIRun.withError (run : AIRun) (code message : String) : AIRun :=
  { run with errorCode := some code, errorMessage := some message }

/-- The `except` clauses of `execute`. -/
def failed (run : AIRun) : Fault → Program
  | .cancelled =>
    .call .getAiRun fun latest =>
      match latest with
      | some latest =>
        if latest.status = .cancelled then return_ latest
        else transition run .cancelled "model request cancelled" raise_ return_
      | none => transition run .cancelled "model request cancelled" raise_ return_
  | .timeout =>
    transition (run.withError "MODEL_TIMEOUT" "Model request timed out.") .failed "model timeout"
      raise_ return_
  | .invalid =>
    transition (run.withError "MODEL_OUTPUT_INVALID" "Model output failed validation.") .failed
      "model output rejected" raise_ return_
  | .other =>
    transition (run.withError "AI_ANALYSIS_FAILED" "AI analysis failed.") .failed
      "AI analysis failed" raise_ return_

/-- Code outside of the repository that may raise. -/
def attempt (site : Site) (run : AIRun) (next : Choice → Program) : Program :=
  .call (.ask site) fun choice =>
    match choice.fault with
    | some fault => failed run fault
    | none => next choice

/-- `should_cancel()`, some times. -/
def polls : Nat → Program → Program
  | 0, next => next
  | n + 1, next => .call .getAiRun fun _ => polls n next

/-- A call of the model, which asks now and then whether the run is cancelled. -/
def model (run : AIRun) (next : Choice → Program) : Program :=
  .call (.ask .polling) fun choice => polls choice.polls (attempt .model run next)

/-- `save_ai_artifact(artifact)` for each artifact. -/
def saveArtifacts (assessmentId : String) : List String → Program → Program
  | [], next => next
  | id :: ids, next =>
    .call (.saveAiArtifact ⟨id, assessmentId⟩) fun _ => saveArtifacts assessmentId ids next

/-- The loop over the bundles, and the end of the run. -/
def assessAll (run : AIRun) : List String → Program
  | [] =>
    transition run .completed "all assessments validated" (failed run .invalid) return_
  | candidate :: rest =>
    model run fun _ =>
    transition run .validating "validating model output" (failed run .invalid) fun run =>
    attempt .output run fun _ =>
    .call (.ask .uuid) fun choice =>
    .call (.saveAiAssessment ⟨choice.text, candidate⟩) fun stored : Assessment =>
    attempt .drafts run fun choice =>
    saveArtifacts stored.id choice.rows <|
    if rest = [] then assessAll run rest
    else
      transition run .analyzing "analyzing next candidate" (failed run .invalid) fun run =>
      assessAll run rest

section

variable (run : AIRun)

/-- The candidates of a run, from the run or from their table. -/
def candidateSource (next : List String → Program) : Program :=
  match run.candidateSnapshots with
  | some snapshots => next snapshots
  | none => .call .getCandidates next

/-- The part of `execute` for candidates. -/
def executeCandidates : Program :=
  transition run .preparing "building evidence bundles" (failed run .invalid) fun run =>
  candidateSource run fun source =>
  let selected := run.candidateIds.filter (· ∈ source)
  if selected.length ≠ run.candidateIds.length then failed run .invalid
  else .call .getJob fun present : Bool =>
  if !present then failed run .invalid
  else attempt .bundles run fun _ =>
  transition run .analyzing "calling model gateway" (failed run .invalid) fun run =>
  assessAll run selected

/-- The part of `execute` that the other two kinds share. -/
def interpret (preparing analyzing validating completed : String) : Program :=
  transition run .preparing preparing (failed run .invalid) fun run =>
  .call (.ask .provider) fun choice =>
  if !choice.present then failed run .invalid
  else transition run .analyzing analyzing (failed run .invalid) fun run =>
  model run fun _ =>
  transition run .validating validating (failed run .invalid) fun run =>
  attempt .output run fun choice =>
  let run := { run with interpretation := some choice.text }
  transition run .completed completed (failed run .invalid) return_

/-- The part of `execute` for network anomalies, whose stored input is checked first. -/
def executeNetwork : Program :=
  .call (.ask .networkInput) fun choice =>
  if !choice.present then
    transition (run.withError "NETWORK_INPUT_CONTRACT_UNSUPPORTED"
      "Saved network input is unsupported. Start a new manual run.") .failed
      "unsupported network input" (failed run .invalid) return_
  else interpret run "loading network snapshot" "calling network model" "validating network output"
    "network interpretation validated"

/-- The part of `execute` for DDoS attacks. -/
def executeDdos : Program :=
  interpret run "loading DDoS snapshot" "calling DDoS model" "validating DDoS output"
    "DDoS interpretation validated"

end

/-- `execute(run_id)`. -/
def execute : Program :=
  .call .getAiRun fun stored =>
    match stored with
    | none => raise_
    | some run =>
      if run.status.terminal then return_ run
      else
        match run.analysisKind with
        | .networkAnomaly => executeNetwork run
        | .ddosAttack => executeDdos run
        | .c2 => executeCandidates run

/-- `reason[:500] or "cancelled"`. -/
def cancelReason (reason : String) : String :=
  if reason = "" then "cancelled" else String.ofList (reason.toList.take 500)

/-- `cancel(run_id, reason)`. -/
def cancel (reason : String) : Program :=
  .call .getAiRun fun stored =>
    match stored with
    | none => raise_
    | some run =>
      if run.status.terminal then return_ run
      else transition run .cancelled (cancelReason reason) raise_ return_

/-- What a client or the queue starts. -/
inductive Request where
  | execute
  | cancel (reason : String)

/-- The program of a request. -/
def program : Request → Program
  | .execute => execute
  | .cancel reason => cancel reason

/-! ## Interleavings -/

/-- The repository and the programs that use it. -/
abbrev Service : Type := Machine Store Call Answer (Option AIRun)

/-- A stored run before any program. -/
def start (run : AIRun) : Service := ⟨⟨some run, .empty, .empty⟩, []⟩

/-- What a scheduler decides. -/
abbrev Schedule : Type := List (Event Request Choice)

/-- The service after a schedule. -/
def serve (w : Service) (events : Schedule) : Service := w.run program answer none events

end C2Hunter.AiRuns
