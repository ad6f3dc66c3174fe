import C2Hunter.Interleave
import C2Hunter.Table
import Mathlib.Data.List.Sort

/-!
# From a stored upload to an analysis result

An uploaded capture is prepared by one of several preparers (`pcap_preparation_worker.py`), which
commits the parsed records under a lease and sends a message; a worker (`runtime.py`) claims the
analysis and sends a result; the controller (`app.py`) persists it. The job row of
`repositories.py` and `storage.py` is what they share.

* `Job`, `Processing` — the row, with the fields that these operations read.
* `claimMetadata`, `exhaustMetadata`, `owns` — the helpers of the preparation lease.
* `Store` and its operations — one atomic row update each.
* `prepare`, `analyze`, `persist` and the heartbeats — the programs, over single calls.

The queue may deliver whatever was sent, in any order and any number of times. (The key that keeps a
second message of a job out of the queue only takes deliveries away.) A program may stop anywhere,
which is also what an exception does to a preparer or to the controller; where the worker handles
an exception the call has an answer for it. The store keeps a `log` that no operation reads.
-/

namespace C2Hunter.Preparation

/-! ## Rows -/

/-- `JobState`. -/
inductive JobState where
  | created
  | waitingForSensor
  | capturing
  | uploading
  | ingesting
  | analyzing
  | completed
  | partiallyCompleted
  | failed
  | cancelled
  deriving DecidableEq, Repr

namespace JobState

/-- `_JOB_TERMINAL_STATUSES`. -/
def terminal : JobState → Bool
  | completed | partiallyCompleted | failed | cancelled => true
  | _ => false

/-- `StateMachine.transitions`. -/
def transitions : JobState → List JobState
  | created => [waitingForSensor, failed, cancelled]
  | waitingForSensor => [capturing, failed, cancelled]
  | capturing => [uploading, failed, cancelled]
  | uploading => [ingesting, failed, cancelled]
  | ingesting => [analyzing, failed, cancelled]
  | analyzing => [completed, partiallyCompleted, failed, cancelled]
  | completed | partiallyCompleted | failed | cancelled => []

end JobState

/-- `processing["phase"]`. -/
inductive Phase where
  | uploadStored
  | parsing
  | analysisEnqueuePending
  | analysisQueued
  | analysisClaimed
  | analysisRunning
  | completed
  | failed
  deriving DecidableEq, Repr

/-- What `uuid4` returns; no identifier is empty. -/
abbrev Token : Type := Nat

/-- `job["processing"]`. -/
structure Processing where
  phase : Phase
  phaseStartedAt : Nat
  updatedAt : Nat
  attempt : Option Nat := none
  leaseToken : Option Token := none
  leaseExpiresAt : Option Nat := none
  analysisClaimToken : Option Token := none
  analysisLeaseExpiresAt : Option Nat := none
  deriving DecidableEq, Repr

/-- The same record in another phase. -/
def Processing.enter (p : Processing) (phase : Phase) (now : Nat) : Processing :=
  { p with phase, phaseStartedAt := now, updatedAt := now }

/-- An entry of `job["transitions"]`. -/
structure Transition where
  fromStatus : JobState
  toStatus : JobState
  occurredAt : Nat
  reason : String
  deriving DecidableEq, Repr

/-- `job["mode"]`. -/
inductive Mode where
  | pcapUpload
  | live
  deriving DecidableEq, Repr

/-- A job. -/
structure Job where
  id : String
  createdAt : Nat
  mode : Mode
  /-- `analysis.module` -/
  module : String
  status : JobState
  processing : Option Processing
  transitions : List Transition
  updatedAt : Nat
  completedAt : Option Nat
  errorCode : Option String
  error : Option String
  flowRecords : List String
  analysisClaimedAt : Option Nat
  analysisStartedAt : Option Nat
  candidateCount : Option Nat
  deriving DecidableEq, Repr

namespace Job

/-- `int(processing.get("attempt", 0))`, also where there is no processing. -/
def attempt (job : Job) : Nat := (job.processing.bind Processing.attempt).getD 0

/-- `machine.transition(job, target, reason)`; it raises where the transition is not allowed. -/
def transition (job : Job) (target : JobState) (reason : String) (now : Nat) : Option Job :=
  if target ∈ job.status.transitions then
    some { job with
      status := target
      transitions := job.transitions ++ [⟨job.status, target, now, reason⟩]
      updatedAt := now
      completedAt := if target.terminal then some now else job.completedAt }
  else none

end Job

/-- A candidate; the analysis may leave the identifier out. -/
structure Candidate where
  id : Option String
  body : String
  deriving DecidableEq, Repr

/-! ## The preparation lease -/

/-- The settings of preparers and workers. -/
structure Config where
  maxAttempts : Nat := 3
  leaseSeconds : Nat := 60
  analysisLeaseSeconds : Nat := 300

section Lease

variable (config : Config) (now : Nat)

/-- The record of a claim: a committed publication keeps its attempt and its token. -/
def claimProcessing (token : Token) (p : Processing) : Processing :=
  if p.phase = .analysisEnqueuePending then
    { p.enter .analysisEnqueuePending now with
      attempt := some (p.attempt.getD 0)
      leaseToken := some (p.leaseToken.getD token)
      leaseExpiresAt := some (now + config.leaseSeconds) }
  else
    { p.enter .parsing now with
      attempt := some (p.attempt.getD 0 + 1)
      leaseToken := some token
      leaseExpiresAt := some (now + config.leaseSeconds) }

/-- `_claim_pcap_preparation_metadata`; `token` is the identifier that `uuid4` returns. -/
def claimMetadata (token : Token) (job : Job) : Option Job :=
  match job.processing with
  | none => none
  | some p =>
    if job.mode ≠ .pcapUpload ∨ job.status.terminal then none
    else if p.phase ∉ [.uploadStored, .parsing, .analysisEnqueuePending] then none
    else if p.phase ≠ .analysisEnqueuePending ∧ config.maxAttempts ≤ p.attempt.getD 0 then none
    else if p.leaseExpiresAt.any (now < ·) then none
    else some { job with processing := some (claimProcessing config now token p), updatedAt := now }

/-- `_exhaust_pcap_preparation_metadata`. -/
def exhaustMetadata (job : Job) : Option Job :=
  match job.processing with
  | none => none
  | some p =>
    if job.mode ≠ .pcapUpload ∨ job.status.terminal ∨ p.phase ≠ .parsing ∨
        p.attempt.getD 0 < config.maxAttempts then none
    else
      match p.leaseExpiresAt with
      | none => none
      | some expiry =>
        if now < expiry then none
        else some { job with
          status := .failed
          errorCode := some "PCAP_PREPARATION_ATTEMPTS_EXHAUSTED"
          error := some "PCAP preparation retry limit exhausted"
          processing := some
            { phase := .failed, phaseStartedAt := now, updatedAt := now
              attempt := some (p.attempt.getD 0) }
          transitions := job.transitions ++
            [⟨job.status, .failed, now, "PCAP preparation retry limit exhausted"⟩]
          updatedAt := now
          completedAt := some now }

/-- `_owns_pcap_preparation`. -/
def owns (attempt : Nat) (token : Token) (phases : List Phase) (job : Job) : Bool :=
  match job.processing with
  | none => false
  | some p =>
    job.mode = .pcapUpload && !job.status.terminal && p.phase ∈ phases &&
      p.attempt = some attempt && p.leaseToken = some token && p.leaseExpiresAt.any (now < ·)

end Lease

/-! ## Messages -/

/-- What a preparer sends to the workers. -/
structure Delivery where
  jobId : String
  attempt : Nat
  leaseToken : Token
  deriving DecidableEq, Repr

/-- What an analysis returns. -/
structure Output where
  /-- whether there is a `pcap_attack_guidance` -/
  guidance : Bool := false
  candidates : List Candidate := []
  deriving DecidableEq, Repr

/-- What a worker reports. -/
inductive Report where
  /-- the event `ANALYSIS_STARTED` -/
  | started (occurredAt : Nat) (attempt : Nat) (leaseToken : Token)
  /-- the event `ANALYSIS_DELIVERY_SUPERSEDED` -/
  | superseded
  | completed (output : Output)
  | error (code : String)
  deriving DecidableEq, Repr

/-- A message of a worker. Nobody reads whether its execution had been answered `CLAIMED`. -/
structure Result where
  jobId : String
  report : Report
  claimed : Bool
  deriving DecidableEq, Repr

/-- What happened. -/
inductive Fact where
  /-- parsed records were committed -/
  | published (jobId : String) (attempt : Nat) (leaseToken : Token)
  /-- `claim_analysis` answered `CLAIMED` -/
  | claimed (jobId : String) (attempt : Nat) (leaseToken : Token)
  /-- a result made the job terminal -/
  | ended (result : Result)
  deriving DecidableEq, Repr

/-! ## The repository -/

/-- The rows, the messages that were sent, and the log. -/
structure Store where
  jobs : Table Job.id
  candidates : Dict String (List Candidate)
  deliveries : List Delivery
  results : List Result
  log : List Fact

namespace Store

/-- Nothing has happened. -/
def empty : Store := ⟨.empty, .empty, [], [], []⟩

/-- `self.jobs[job["id"]] = job`. -/
def putJob (s : Store) (job : Job) : Store := { s with jobs := s.jobs.put job }

/-- An entry of the log. -/
def note (s : Store) (fact : Fact) : Store := { s with log := s.log ++ [fact] }

/-- A capture is stored for a job. -/
def upload (s : Store) (id : String) (module : String) (now : Nat) : Store :=
  if (s.jobs.get? id).isSome then s
  else s.putJob
    { id, createdAt := now, mode := .pcapUpload, module, status := .ingesting
      processing := some { phase := .uploadStored, phaseStartedAt := now, updatedAt := now }
      transitions := [], updatedAt := now, completedAt := none, errorCode := none, error := none
      flowRecords := [], analysisClaimedAt := none, analysisStartedAt := none
      candidateCount := none }

section Preparer

variable (config : Config) (now : Nat)

/-- The loop of `claim_pcap_preparation` over the jobs. -/
def claimLoop (token : Token) : List Job → Store → Option Job × Store
  | [], s => (none, s)
  | job :: rest, s =>
    match exhaustMetadata config now job with
    | some exhausted => claimLoop token rest (s.putJob exhausted)
    | none =>
      match claimMetadata config now token job with
      | none => claimLoop token rest s
      | some claimed => (some claimed, s.putJob claimed)

section

variable (s : Store)

/-- `claim_pcap_preparation`. -/
def claimPcapPreparation (token : Token) : Option Job × Store :=
  claimLoop config now token (s.jobs.rows.insertionSort fun a b => a.createdAt ≤ b.createdAt) s

/-- A write that only the owner of the preparation lease makes. -/
def ifOwned (id : String) (attempt : Nat) (token : Token) (phases : List Phase) (write : Job → Store) :
    Bool × Store :=
  match s.jobs.get? id with
  | none => (false, s)
  | some current =>
    if owns now attempt token phases current then (true, write current) else (false, s)

/-- `renew_pcap_preparation`. -/
def renewPcapPreparation (id : String) (attempt : Nat) (token : Token) : Bool × Store :=
  s.ifOwned now id attempt token [.parsing, .analysisEnqueuePending] fun current =>
    s.putJob { current with
      processing := current.processing.map fun p =>
        { p with leaseExpiresAt := some (now + config.leaseSeconds), updatedAt := now } }

/-- `publish_pcap_preparation`. -/
def publishPcapPreparation (job : Job) (attempt : Nat) (token : Token) : Bool × Store :=
  s.ifOwned now job.id attempt token [.parsing] fun current =>
    (s.putJob { job with
      processing := job.processing.map fun p =>
        { p with
          leaseExpiresAt := current.processing.bind Processing.leaseExpiresAt
          leaseToken := current.processing.bind Processing.leaseToken } }).note
      (.published job.id attempt token)

/-- `complete_pcap_preparation`. -/
def completePcapPreparation (job : Job) (attempt : Nat) (token : Token) : Bool × Store :=
  s.ifOwned now job.id attempt token [.analysisEnqueuePending] fun current =>
    s.putJob { job with flowRecords := current.flowRecords }

/-- `fail_pcap_preparation`. -/
def failPcapPreparation (job : Job) (attempt : Nat) (token : Token) : Bool × Store :=
  s.ifOwned now job.id attempt token [.parsing] fun current =>
    s.putJob { job with flowRecords := current.flowRecords }

end

end Preparer

section Worker

variable (config : Config) (now : Nat)

/-- The answer of `claim_analysis`. -/
inductive Claim where
  | claimed (token : Token)
  | active
  | superseded
  /-- the call raised -/
  | raised
  deriving DecidableEq, Repr

/-- The job of a worker whose lease has expired. -/
def workerLost (job : Job) (p : Processing) : Job :=
  { job with
    status := .failed
    errorCode := some "ANALYSIS_WORKER_LOST"
    error := some "analysis worker lease expired before a durable result"
    completedAt := some now
    updatedAt := now
    processing := some
      { p.enter .failed now with analysisClaimToken := none, analysisLeaseExpiresAt := none } }

/-- The job of a worker that has claimed it. -/
def claimedBy (claimToken : Token) (job : Job) (p : Processing) : Job :=
  { job with
    processing := some
      { p.enter .analysisClaimed now with
        analysisClaimToken := some claimToken
        analysisLeaseExpiresAt := some (now + config.analysisLeaseSeconds)
        leaseExpiresAt := none }
    analysisClaimedAt := some now
    updatedAt := now }

/-- `claim_analysis`. -/
def claimAnalysis (s : Store) (d : Delivery) (claimToken : Token) : Claim × Store :=
  match s.jobs.get? d.jobId with
  | none => (.superseded, s)
  | some job =>
    match job.processing with
    | none => (.superseded, s)
    | some p =>
      if job.status ≠ .analyzing then (.superseded, s)
      else if p.phase ∈ [.analysisClaimed, .analysisRunning] then
        if p.analysisLeaseExpiresAt.any (now < ·) then (.active, s)
        else (.superseded, s.putJob (workerLost now job p))
      else if p.attempt ≠ some d.attempt then (.superseded, s)
      else if p.phase ∉ [.analysisEnqueuePending, .analysisQueued] then (.superseded, s)
      else if p.leaseToken ≠ some d.leaseToken then (.superseded, s)
      else (.claimed claimToken, (s.putJob (claimedBy config now claimToken job p)).note
        (.claimed d.jobId d.attempt d.leaseToken))

/-- `renew_analysis`. -/
def renewAnalysis (s : Store) (id : String) (claimToken : Token) : Bool × Store :=
  match s.jobs.get? id with
  | none => (false, s)
  | some job =>
    match job.processing with
    | none => (false, s)
    | some p =>
      if job.status = .analyzing ∧ p.phase ∈ [.analysisClaimed, .analysisRunning] ∧
          p.analysisClaimToken = some claimToken ∧ p.analysisLeaseExpiresAt.any (now < ·) then
        (true, s.putJob { job with
          processing := some { p with
            analysisLeaseExpiresAt := some (now + config.analysisLeaseSeconds), updatedAt := now }
          updatedAt := now })
      else (false, s)

end Worker

section Controller

/-- `mark_analysis_started` with the attempt and the token of a prepared job. -/
def markAnalysisStarted (s : Store) (id : String) (occurredAt attempt : Nat) (token : Token) :
    Bool × Store :=
  match s.jobs.get? id with
  | none => (false, s)
  | some job =>
    match job.processing with
    | none => (false, s)
    | some p =>
      if job.status ≠ .analyzing then (false, s)
      else if p.phase = .analysisClaimed ∧
          (p.attempt ≠ some attempt ∨ p.leaseToken ≠ some token) then (false, s)
      else if p.phase ∉ [.analysisQueued, .analysisClaimed] then (false, s)
      else (true, s.putJob { job with
        processing := some
          { p.enter .analysisRunning occurredAt with leaseToken := none, leaseExpiresAt := none }
        analysisStartedAt := some occurredAt
        updatedAt := occurredAt })

/-- A write over a job that is not terminal; `result` is what it is made for. -/
def endJob (s : Store) (job : Job) (result : Result) (write : Job → Store) : Bool × Store :=
  match s.jobs.get? job.id with
  | none => (false, s)
  | some current =>
    if current.status.terminal then (false, s)
    else (true, (write { job with flowRecords := current.flowRecords }).note (.ended result))

/-- `transition_job_terminal`. -/
def transitionJobTerminal (s : Store) (job : Job) (result : Result) : Bool × Store :=
  s.endJob job result s.putJob

/-- `complete_job_with_candidates`. -/
def completeJobWithCandidates (s : Store) (job : Job) (candidates : List Candidate)
    (result : Result) : Bool × Store :=
  s.endJob job result fun stored =>
    { s.putJob stored with candidates := s.candidates.put (job.id, candidates) }

end Controller

end Store

/-! ## Calls -/

/-- What an analysis raises. -/
inductive AnalysisFault where
  /-- a `ValueError` for a module that the worker does not have -/
  | unsupportedModule
  | other
  deriving DecidableEq, Repr

/-- The code that the worker reports. -/
def AnalysisFault.code : AnalysisFault → String
  | unsupportedModule => "UNSUPPORTED_ANALYSIS_MODULE"
  | other => "ANALYSIS_EXECUTION_FAILED"

/-- What code outside of the repository decides. -/
structure Choice where
  /-- the clock -/
  now : Nat := 0
  /-- an identifier of `uuid4` -/
  token : Token := 0
  /-- `lease_lost.is_set()` -/
  leaseLost : Bool := false
  /-- a check succeeds: the reference of the job, the report of a result -/
  valid : Bool := true
  /-- the records of the capture, unless it cannot be parsed -/
  parsed : Option (List String) := some []
  /-- what the analysis returns or raises -/
  analysis : Except AnalysisFault Output := .ok {}
  /-- which of the messages arrives -/
  index : Nat := 0
  /-- the call raises -/
  raised : Bool := false
  /-- the call raises, but has been committed -/
  committed : Bool := false

/-- The calls of the programs. -/
inductive Call where
  | upload (id module : String)
  | claimPcapPreparation
  | renewPcapPreparation (id : String) (attempt : Nat) (token : Token)
  | publishPcapPreparation (job : Job) (attempt : Nat) (token : Token)
  | completePcapPreparation (job : Job) (attempt : Nat) (token : Token)
  | failPcapPreparation (job : Job) (attempt : Nat) (token : Token)
  /-- `self.enqueue(delivery)` -/
  | enqueue (delivery : Delivery)
  /-- `self.queue.receive()` -/
  | receive
  | claimAnalysis (delivery : Delivery)
  | renewAnalysis (id : String) (claimToken : Token)
  /-- `self.payload_loader.load(job_id)` -/
  | load (id : String)
  /-- `self.queue.publish_event` and `self.queue.complete` -/
  | send (result : Result)
  | claimResult
  | getJobSummary (id : String)
  | markAnalysisStarted (id : String) (occurredAt attempt : Nat) (token : Token)
  | transitionJobTerminal (job : Job) (result : Result)
  | completeJobWithCandidates (job : Job) (candidates : List Candidate) (result : Result)
  /-- code outside of the repository -/
  | ask

/-- The answers to calls. -/
def Answer : Call → Type
  | .upload _ _ => Unit
  | .claimPcapPreparation => Option Job
  | .renewPcapPreparation _ _ _ => Bool
  | .publishPcapPreparation _ _ _ => Bool
  | .completePcapPreparation _ _ _ => Bool
  | .failPcapPreparation _ _ _ => Bool
  | .enqueue _ => Unit
  | .receive => Option Delivery
  | .claimAnalysis _ => Store.Claim
  | .renewAnalysis _ _ => Bool
  | .load _ => Option Job
  | .send _ => Unit
  | .claimResult => Option Result
  | .getJobSummary _ => Option Job
  | .markAnalysisStarted _ _ _ _ => Bool
  | .transitionJobTerminal _ _ => Bool
  | .completeJobWithCandidates _ _ _ => Bool
  | .ask => Choice

/-- `claim_analysis` as a worker sees it: if the call raises, the claim may have been committed, but
no one has been answered `CLAIMED`. -/
def tryClaimAnalysis (config : Config) (s : Store) (d : Delivery) (x : Choice) :
    Store.Claim × Store :=
  if x.raised then
    (.raised, if x.committed then
      { (s.claimAnalysis config x.now d x.token).2 with log := s.log } else s)
  else s.claimAnalysis config x.now d x.token

/-- What a call does. -/
def answer (config : Config) : (c : Call) → Store → Choice → Answer c × Store
  | .upload id module, s, x => ((), s.upload id module x.now)
  | .claimPcapPreparation, s, x => s.claimPcapPreparation config x.now x.token
  | .renewPcapPreparation id attempt token, s, x =>
    s.renewPcapPreparation config x.now id attempt token
  | .publishPcapPreparation job attempt token, s, x =>
    s.publishPcapPreparation x.now job attempt token
  | .completePcapPreparation job attempt token, s, x =>
    s.completePcapPreparation x.now job attempt token
  | .failPcapPreparation job attempt token, s, x => s.failPcapPreparation x.now job attempt token
  | .enqueue delivery, s, _ => ((), { s with deliveries := s.deliveries ++ [delivery] })
  | .receive, s, x => (s.deliveries[x.index]?, s)
  | .claimAnalysis delivery, s, x =>
    tryClaimAnalysis config s delivery x
  | .renewAnalysis id claimToken, s, x => s.renewAnalysis config x.now id claimToken
  | .load id, s, x => (if x.raised then none else s.jobs.get? id, s)
  | .send result, s, _ => ((), { s with results := s.results ++ [result] })
  | .claimResult, s, x => (s.results[x.index]?, s)
  | .getJobSummary id, s, _ => (s.jobs.get? id, s)
  | .markAnalysisStarted id occurredAt attempt token, s, _ =>
    s.markAnalysisStarted id occurredAt attempt token
  | .transitionJobTerminal job result, s, _ => s.transitionJobTerminal job result
  | .completeJobWithCandidates job candidates result, s, _ =>
    s.completeJobWithCandidates job candidates result
  | .ask, s, x => (x, s)

/-! ## The programs -/

/-- A program. -/
abbrev Program : Type := Prog Call Answer Unit

/-- The program ends, or an exception leaves it. -/
def stop : Program := .ret ()

section

variable (job : Job)

/-- A transition of the copy that a program has, where it is allowed. -/
def transitioned (target : JobState) (reason : String) (next : Job → Program) : Program :=
  .call .ask fun choice =>
    match job.transition target reason choice.now with
    | none => stop
    | some job => next job

/-- `_fail`. -/
def fail (code message : String) (attempt : Nat) (token : Token) : Program :=
  let enqueued := job.processing.any fun p => p.phase = .analysisEnqueuePending
  transitioned { job with errorCode := some code, error := some message } .failed message fun job =>
  .call .ask fun choice =>
  let job := { job with
    processing := some { phase := .failed, phaseStartedAt := choice.now, updatedAt := choice.now } }
  if enqueued then .call (.completePcapPreparation job attempt token) fun _ => stop
  else .call (.failPcapPreparation job attempt token) fun _ => stop

/-- `_valid_reference`, and what follows. -/
def validReference (attempt : Nat) (token : Token) (next : Program) : Program :=
  .call .ask fun choice =>
    if choice.valid then next
    else fail job "DDOS_REFERENCE_INVALID" "normal reference binding is invalid" attempt token

/-- `_enqueue_prepared`. -/
def enqueuePrepared (attempt : Nat) (token : Token) : Program :=
  .call .ask fun choice =>
  if choice.leaseLost then stop
  else validReference job attempt token <|
  .call .ask fun choice =>
  let queued := { job with
    processing := job.processing.map fun p =>
      { p.enter .analysisQueued choice.now with leaseExpiresAt := none } }
  .call (.enqueue ⟨job.id, attempt, token⟩) fun _ =>
  .call .ask fun choice =>
  if choice.leaseLost then stop
  else .call (.completePcapPreparation queued attempt token) fun _ => stop

/-- The part of `run_once` for a capture that has not been parsed. -/
def parse (claimed : Processing) (attempt : Nat) (token : Token) : Program :=
  .call .ask fun choice =>
  match choice.parsed with
  | none =>
    fail job "PCAP_PARSE_FAILED" "uploaded capture could not be parsed" attempt token
  | some records =>
    if choice.leaseLost then stop
    else
      let job := { job with flowRecords := records }
      validReference job attempt token <|
      transitioned job .analyzing "prepared upload awaiting queue" fun job =>
      .call .ask fun choice =>
      let job := { job with processing := some (claimed.enter .analysisEnqueuePending choice.now) }
      .call (.publishPcapPreparation job attempt token) fun staged : Bool =>
      .call .ask fun choice =>
      if !staged || choice.leaseLost then stop else enqueuePrepared job attempt token

/-- What a preparer does with a claim. -/
def prepareClaimed : Program :=
  match job.processing with
  | none => stop
  | some claimed =>
    match claimed.attempt, claimed.leaseToken with
    | some attempt, some token =>
      if claimed.phase = .analysisEnqueuePending then enqueuePrepared job attempt token
      else parse job claimed attempt token
    | _, _ => stop

end

/-- `run_once`. -/
def prepare : Program :=
  .call .claimPcapPreparation fun claimed =>
    match claimed with
    | none => stop
    | some job => prepareClaimed job

section

variable (d : Delivery)

/-- `_delivery_is_superseded`. -/
def isSuperseded (payload : Job) : Bool :=
  payload.status.terminal ||
    match payload.processing with
    | none => true
    | some p =>
      if p.attempt ≠ some d.attempt then true
      else if p.phase = .analysisEnqueuePending ∨ p.phase = .analysisQueued then
        p.leaseToken ≠ some d.leaseToken
      else p.phase ≠ .analysisClaimed

/-- A result of `_execute_job`, which `run` sends. -/
def finish (report : Report) (claimed : Bool) : Program :=
  .call (.send ⟨d.jobId, report, claimed⟩) fun _ => stop

/-- The analysis of a payload, and its result. -/
def analyzePayload : Program :=
  .call .ask fun choice =>
    match choice.analysis with
    | .error fault => finish d (.error fault.code) true
    | .ok output => finish d (.completed output) true

/-- The event that the analysis has started, which may get lost, and the analysis. -/
def startAnalysis : Program :=
  .call .ask fun choice =>
  if choice.raised then analyzePayload d
  else .call (.send ⟨d.jobId, .started choice.now d.attempt d.leaseToken, true⟩) fun _ =>
    analyzePayload d

/-- `_execute_job` for a delivery with an attempt and a token, and what `run` does with its result. -/
def executeJob : Program :=
  .call (.claimAnalysis d) fun claim : Store.Claim =>
    match claim with
    | .raised => finish d (.error "PAYLOAD_LOAD_FAILED") false
    -- the status `RETRY`: nothing is sent
    | .active => stop
    | .superseded => finish d .superseded false
    | .claimed _ =>
      .call (.load d.jobId) fun payload =>
        match payload with
        | none => finish d (.error "PAYLOAD_LOAD_FAILED") true
        | some payload =>
          if isSuperseded d payload then finish d .superseded true else startAnalysis d

end

/-- A turn of the worker's loop. -/
def analyze : Program :=
  .call .receive fun delivery =>
    match delivery with
    | none => stop
    | some d => executeJob d

/-- `durable_c2_candidates`; `identifier` is the identifier that `uuid5` makes of a text. -/
def durableCandidates (identifier : String → String) (job : Job) (raw : List Candidate) :
    List Candidate :=
  raw.mapIdx fun index candidate =>
    { candidate with
      id := candidate.id <|> some (identifier s!"c2hunter:{job.id}:candidate:{index}") }

/-- `job["processing"]` of a job that has ended. -/
def endProcessing (job : Job) (now : Nat) : Job :=
  { job with
    processing := job.processing.map fun p =>
      p.enter (if job.status = .completed then .completed else .failed)
        (job.completedAt.getD now) }

/-- The early ends of `persist_claimed_result` for results that are not accepted. -/
def reject (job : Job) (result : Result) (code message reason : String) : Program :=
  transitioned { job with errorCode := some code, error := some message } .failed reason fun job =>
  .call (.transitionJobTerminal job result) fun _ => stop

/-- The end of `persist_claimed_result` for results that are accepted. -/
def accept (job : Job) (result : Result) (candidates : List Candidate) : Program :=
  transitioned { job with candidateCount := some candidates.length } .completed
    "worker result persisted" fun job =>
  .call .ask fun choice =>
  .call (.completeJobWithCandidates (endProcessing job choice.now) candidates result) fun _ => stop

/-- The part of `persist_claimed_result` for completed analyses. -/
def persistCompleted (identifier : String → String) (job : Job) (result : Result)
    (output : Output) : Program :=
  if job.module ≠ "ddos_attack" ∧ output.guidance then
    reject job result "INVALID_DDOS_RESULT"
      "worker returned PCAP guidance for an incompatible module" "invalid PCAP guidance owner"
  else if job.module = "network_anomaly" then accept job result []
  else if job.module = "ddos_attack" then
    .call .ask fun choice =>
      if choice.valid then accept job result []
      else reject job result "INVALID_DDOS_RESULT" "worker returned an invalid DDoS report"
        "invalid DDoS worker result"
  else if job.module = "c2" then
    accept job result (durableCandidates identifier job output.candidates)
  else reject job result "UNSUPPORTED_ANALYSIS_MODULE"
    "worker result references an unsupported analysis module" "unsupported analysis module result"

/-- `worker_errors`, and the code of all other errors. -/
def workerError : String → String × String
  | "PAYLOAD_LOAD_FAILED" => ("PAYLOAD_LOAD_FAILED", "worker could not load the analysis payload")
  | "ANALYSIS_EXECUTION_FAILED" => ("ANALYSIS_EXECUTION_FAILED", "worker analysis failed")
  | "UNSUPPORTED_ANALYSIS_MODULE" =>
    ("UNSUPPORTED_ANALYSIS_MODULE", "worker does not support the requested analysis module")
  | "INVALID_JOB_ENVELOPE" => ("INVALID_JOB_ENVELOPE", "worker job envelope is invalid")
  | "ANALYSIS_WORKER_LOST" =>
    ("ANALYSIS_WORKER_LOST", "analysis worker stopped before a durable result")
  | _ => ("WORKER_EXECUTION_FAILED", "worker execution failed")

/-- The part of `persist_claimed_result` for errors. -/
def persistError (job : Job) (result : Result) (code : String) : Program :=
  transitioned { job with
      errorCode := some (workerError code).1, error := some (workerError code).2 } .failed
    "worker returned an error" fun job =>
  .call .ask fun choice =>
  .call (.transitionJobTerminal (endProcessing job choice.now) result) fun _ => stop

/-- What `persist_claimed_result` does with the job of a result. -/
def persistResult (identifier : String → String) (result : Result) (job : Job) : Program :=
  if job.status.terminal then stop
  else
    match result.report with
    | .started occurredAt attempt token =>
      .call (.markAnalysisStarted job.id occurredAt attempt token) fun _ => stop
    | .superseded => stop
    | .completed output => persistCompleted identifier job result output
    | .error code => persistError job result code

/-- `persist_claimed_result` of the next result. -/
def persist (identifier : String → String) : Program :=
  .call .claimResult fun result =>
    match result with
    | none => stop
    | some result =>
      .call (.getJobSummary result.jobId) fun job =>
        match job with
        | none => stop
        | some job => persistResult identifier result job

/-- What can start at any time. -/
inductive Request where
  | upload (id module : String)
  | prepare
  /-- a turn of a preparer's heartbeat -/
  | renewPcapPreparation (id : String) (attempt : Nat) (token : Token)
  | analyze
  /-- a turn of a worker's heartbeat -/
  | renewAnalysis (id : String) (claimToken : Token)
  | persist

/-- The program of a request. -/
def program (identifier : String → String) : Request → Program
  | .upload id module => .call (.upload id module) fun _ => stop
  | .prepare => prepare
  | .renewPcapPreparation id attempt token =>
    .call (.renewPcapPreparation id attempt token) fun _ => stop
  | .analyze => analyze
  | .renewAnalysis id claimToken => .call (.renewAnalysis id claimToken) fun _ => stop
  | .persist => persist identifier

/-- The store and the programs that use it. -/
abbrev Service : Type := Machine Store Call Answer Unit

/-- What a scheduler decides. -/
abbrev Schedule : Type := List (Event Request Choice)

/-- The service after a schedule, from an empty store. -/
def serve (config : Config) (identifier : String → String) (events : Schedule) : Service :=
  Machine.run (program identifier) (answer config) () ⟨Store.empty, []⟩ events

end C2Hunter.Preparation
