import C2Hunter.FlowAccepted
import C2Hunter.FlowSessions

/-!
# The pipeline of a capture

`Pipeline.Run` of `pipeline.go` with the queue of `batch.go`: packets go through limits, filter and
budget into an aggregator, the records that this returns into a queue, and batches of the queue to the
`BatchManager`. What the loop of `Run` finds in its `select` is a `Turn`; a run is a list of them.

* `Queue`, `Outbox`, `addRecords`, `persist` — batches.
* `CaptureBudget`, `reserve` — the budget, which pipelines may share.
* `turn`, `run` — the loop, up to where `Run` returns.
* `Kept` — where the packets that passed are, after each turn.

How a batch is encoded is a parameter, and so is what `metadata.Parse` makes of a payload. Status and
readiness are left out.
-/

namespace C2Hunter.Pipeline

open List

open Aggregate

/-! ## Batches -/

/-- `Queue`. -/
structure Queue (α : Type) : Type where
  maxItems : Nat
  maxBytes : Int
  bytes : Int := 0
  items : List α := []

namespace Queue

variable {α : Type}

/-- `Queue.Flush`. -/
def flush (q : Queue α) : List α × Queue α := (q.items, { q with items := [], bytes := 0 })

/-- `Queue.Add`: the items that are due, if any. -/
def add (size : α → Int) (q : Queue α) (v : α) : Except String (List α × Queue α) :=
  let n := size v
  if n < 0 ∨ q.maxBytes < n then
    .error ("item size " ++ toString n ++ " exceeds batch limit " ++ toString q.maxBytes)
  else
    let q := { q with items := q.items ++ [v], bytes := q.bytes + n }
    if q.maxItems ≤ q.items.length ∨ q.maxBytes ≤ q.bytes then .ok q.flush else .ok ([], q)

end Queue

/-- `Limits`, of which a time that is not set is `zeroTime`. -/
structure Limits where
  startTime : Int := zeroTime
  endTime : Int := zeroTime
  duration : Int := 0
  maxPackets : Nat := 0
  maxBytes : Nat := 0
  startedAt : Int := zeroTime

/-- `PipelineConfig`, and what the pipeline calls. -/
structure Config where
  lib : Lib
  sensorId : String
  jobId : String
  idleTimeout : Int
  payloadPreviewBytes : Int
  batchMaxItems : Nat
  batchMaxBytes : Int
  filter : Option (Packet → Bool)
  limits : Limits
  /-- `metadata.Parse` -/
  parse : Packet → Metadata
  /-- `recordSize` -/
  recordSize : Record → Int
  /-- `flowbatch.New` and `encodeBatch`: the text of an error -/
  encodeError : List Record → Option String

/-- The queue, and the batches that were given to `BatchManager.Enqueue`. -/
structure Outbox where
  queue : Queue Record
  enqueued : List (List Record) := []

/-- `persist`. -/
def persist (cfg : Config) (enqueued : List (List Record)) (records : List Record) :
    Except String (List (List Record)) :=
  if records = [] then .ok enqueued
  else
    match cfg.encodeError records with
    | some message => .error message
    | none => .ok (enqueued ++ [records])

section

variable (cfg : Config) (o : Outbox)

/-- A turn of the loop of `addRecords`. -/
def addRecord (record : Record) : Except String Outbox := do
  let full ← o.queue.add cfg.recordSize record
  let enqueued ← persist cfg o.enqueued full.1
  return ⟨full.2, enqueued⟩

/-- `addRecords`. -/
def addRecords (records : List Record) : Except String Outbox :=
  records.foldlM (addRecord cfg) o

/-- `p.persist(queue.Flush())`. -/
def persistAll : Except String Outbox := do
  let enqueued ← persist cfg o.enqueued o.queue.flush.1
  return ⟨o.queue.flush.2, enqueued⟩

end

/-! ## The budget -/

/-- `StopReason`. -/
inductive StopReason where
  | endOfInput
  | endTime
  | duration
  | maxPackets
  | maxBytes
  | user
  | disk
  | timeout
  | context
  deriving DecidableEq, Repr

/-- `CaptureBudget`; `done` is closed once there is a reason. -/
structure CaptureBudget where
  maxPackets : Nat
  maxBytes : Nat
  packets : Nat := 0
  bytes : Nat := 0
  stopReason : Option StopReason := none

/-- `CaptureBudget.Reserve`: whether the packet is accepted, and whether to stop after it. -/
def CaptureBudget.reserve (b : CaptureBudget) (wireBytes : Nat) :
    Bool × Option StopReason × CaptureBudget :=
  if 0 < b.maxPackets ∧ b.maxPackets ≤ b.packets then
    (false, some .maxPackets, { b with stopReason := some .maxPackets })
  else if 0 < b.maxBytes ∧ b.maxBytes - b.bytes < wireBytes then
    (false, some .maxBytes, { b with stopReason := some .maxBytes })
  else
    let b := { b with packets := b.packets + 1, bytes := b.bytes + wireBytes }
    if 0 < b.maxPackets ∧ b.maxPackets ≤ b.packets then
      (true, some .maxPackets, { b with stopReason := some .maxPackets })
    else if 0 < b.maxBytes ∧ b.maxBytes ≤ b.bytes then
      (true, some .maxBytes, { b with stopReason := some .maxBytes })
    else (true, none, b)

/-- `Reserve`, of a budget that need not be there. -/
def reserve (budget : Option CaptureBudget) (wireBytes : Nat) :
    Bool × Option StopReason × Option CaptureBudget :=
  match budget with
  | none => (true, none, none)
  | some b => ((b.reserve wireBytes).1, (b.reserve wireBytes).2.1, some (b.reserve wireBytes).2.2)

/-! ## The loop -/

/-- The variables of `Run`, and the packets that went into the aggregator. -/
structure State where
  aggregator : Aggregator
  outbox : Outbox
  started : Int
  capturedPackets : Nat := 0
  capturedBytes : Nat := 0
  budget : Option CaptureBudget
  accepted : List Packet := []

/-- What a turn of the loop of `Run` finds. A flush and an expiry come with the order of the records. -/
inductive Turn where
  /-- `asynchronousStop` has a reason, or the context is done -/
  | stop (reason : StopReason) (sorting : Sorting)
  /-- the budget is done; not found before that -/
  | budgetDone (sorting : Sorting)
  | tick (now : Int) (sorting : Sorting)
  | endOfInput (sorting : Sorting)
  | readFailed (message : String)
  | packet (p : Packet) (sorting : Sorting)
  /-- another pipeline reserves from the budget -/
  | reserved (wireBytes : Nat)

/-- Where a run is. -/
inductive Progress where
  | running (s : State)
  /-- `Run` returned nil -/
  | returned (reason : StopReason) (s : State)
  /-- `Run` returned an error -/
  | failed (message : String)

/-- Go on, unless there is an error. -/
def Progress.ofExcept (result : Except String State) (next : State → Progress) : Progress :=
  match result with
  | .ok s => next s
  | .error message => .failed message

section

variable (cfg : Config) (s : State)

/-- Records that the aggregator returned go to the queue. -/
def State.collect (out : List Record × Aggregator) : Except String State := do
  let outbox ← addRecords cfg s.outbox out.1
  return { s with aggregator := out.2, outbox }

/-- What is in the queue goes out. -/
def State.send : Except String State := do
  let outbox ← persistAll cfg s.outbox
  return { s with outbox }

/-- `finish`. -/
def finish (reason : StopReason) (sorting : Sorting) : Progress :=
  .ofExcept (s.collect cfg (s.aggregator.flush sorting) >>= State.send cfg) (.returned reason)

/-- The end of a turn with a packet, where a limit may be reached. -/
def afterPacket (budgetStop : Option StopReason) (sorting : Sorting) : Progress :=
  match budgetStop with
  | some reason => finish cfg s reason sorting
  | none =>
    if 0 < cfg.limits.maxPackets ∧ cfg.limits.maxPackets ≤ s.capturedPackets then
      finish cfg s .maxPackets sorting
    else if 0 < cfg.limits.maxBytes ∧ cfg.limits.maxBytes ≤ s.capturedBytes then
      finish cfg s .maxBytes sorting
    else .running s

/-- A packet that passed the limits and the filter. -/
def accept (p : Packet) (sorting : Sorting) : Progress :=
  let wireBytes := p.wireLength.toNat
  match reserve s.budget wireBytes with
  | (false, reason, budget) => finish cfg { s with budget } (reason.getD .maxPackets) sorting
  | (true, budgetStop, budget) =>
    .ofExcept
      ({ s with budget, accepted := s.accepted ++ [p] }.collect cfg
        (s.aggregator.addWithMetadata cfg.lib p (cfg.parse p)))
      fun s => afterPacket cfg
        { s with
          capturedPackets := s.capturedPackets + 1
          capturedBytes := s.capturedBytes + wireBytes } budgetStop sorting

/-- A packet after the capture has started. -/
def startedTurn (p : Packet) (sorting : Sorting) : Progress :=
  if 0 < cfg.limits.duration ∧ ¬p.timestamp < s.started + cfg.limits.duration then
    finish cfg s .duration sorting
  else if cfg.filter.any fun accepts => !accepts p then .running s
  else if p.wireLength < 0 then .running s
  else accept cfg s p sorting

/-- A turn with a packet. -/
def packetTurn (p : Packet) (sorting : Sorting) : Progress :=
  if cfg.limits.startTime ≠ zeroTime ∧ p.timestamp < cfg.limits.startTime then .running s
  else if cfg.limits.endTime ≠ zeroTime ∧ ¬p.timestamp < cfg.limits.endTime then
    finish cfg s .endTime sorting
  else
    startedTurn cfg { s with started := if s.started = zeroTime then p.timestamp else s.started } p
      sorting

/-- A turn of the loop. -/
def turn : Turn → Progress
  | .stop reason sorting => finish cfg s reason sorting
  | .budgetDone sorting =>
    match s.budget.bind CaptureBudget.stopReason with
    | some reason => finish cfg s reason sorting
    | none => .running s
  | .tick now sorting =>
    .ofExcept (s.collect cfg (s.aggregator.expire sorting now) >>= State.send cfg) .running
  | .endOfInput sorting => finish cfg s .endOfInput sorting
  | .readFailed message => .failed message
  | .packet p sorting => packetTurn cfg s p sorting
  | .reserved wireBytes => .running { s with budget := (reserve s.budget wireBytes).2.2 }

end

/-- Turns in a row, up to where `Run` returns. -/
def runFrom (cfg : Config) : State → List Turn → Progress
  | s, [] => .running s
  | s, t :: turns =>
    match turn cfg s t with
    | .running s => runFrom cfg s turns
    | .returned reason s => .returned reason s
    | .failed message => .failed message

/-- The variables of `Run` before its loop. -/
def start (cfg : Config) (budget : Option CaptureBudget) : State where
  aggregator := newAggregator cfg.sensorId cfg.jobId cfg.idleTimeout cfg.payloadPreviewBytes
  outbox := { queue := { maxItems := cfg.batchMaxItems, maxBytes := cfg.batchMaxBytes } }
  started := cfg.limits.startedAt
  budget := budget

/-- `Pipeline.Run`. -/
def run (cfg : Config) (budget : Option CaptureBudget) (turns : List Turn) : Progress :=
  runFrom cfg (start cfg budget) turns

/-! ## What goes where -/

/-- The records that went to an outbox, in order. -/
def Outbox.records (o : Outbox) : List Record := o.enqueued.flatten ++ o.queue.items

theorem Queue.flatten_add {α : Type} {size : α → Int} {q q' : Queue α} {v : α} {full : List α}
    (h : q.add size v = .ok (full, q')) : full ++ q'.items = q.items ++ [v] := by
  rw [Queue.add] at h
  simp only at h
  split at h
  · cases h
  split at h
  · cases h
    exact append_nil _
  · cases h
    rfl

variable {cfg : Config} {s : State} {o o' : Outbox}

theorem flatten_persist {enqueued enqueued' : List (List Record)} {records : List Record}
    (h : persist cfg enqueued records = .ok enqueued') :
    enqueued'.flatten = enqueued.flatten ++ records := by
  rw [persist] at h
  split at h
  · next hnil =>
    cases h
    rw [hnil, append_nil]
  · split at h
    · cases h
    · cases h
      rw [flatten_append, flatten_singleton]

theorem records_addRecord {record : Record} (h : addRecord cfg o record = .ok o') :
    o'.records = o.records ++ [record] := by
  obtain ⟨⟨full, queue⟩, hadd, h⟩ := Except.bind_eq_ok.mp h
  obtain ⟨enqueued, hpersist, h⟩ := Except.bind_eq_ok.mp h
  cases h
  rw [Outbox.records, Outbox.records, flatten_persist hpersist, append_assoc, Queue.flatten_add hadd, append_assoc]

theorem records_addRecords {records : List Record} (h : addRecords cfg o records = .ok o') :
    o'.records = o.records ++ records := by
  induction records generalizing o with
  | nil =>
    cases h
    rw [append_nil]
  | cons record records ih =>
    rw [addRecords, foldlM_cons] at h
    obtain ⟨next, hrecord, h⟩ := Except.bind_eq_ok.mp h
    rw [ih h, records_addRecord hrecord, append_assoc, singleton_append]

theorem records_persistAll (h : persistAll cfg o = .ok o') :
    o'.enqueued.flatten = o.records ∧ o'.queue.items = [] := by
  obtain ⟨enqueued, hpersist, h⟩ := Except.bind_eq_ok.mp h
  cases h
  exact ⟨flatten_persist hpersist, rfl⟩

/-! ## The packets of a run -/

/-- The packets that went into the aggregator are in the records of the outbox, or in active ones. -/
def Kept (cfg : Config) (s : State) : Prop :=
  s.aggregator.sensorId = cfg.sensorId ∧
    ∃ parts now, Accounts cfg.lib s.aggregator s.outbox.records s.accepted parts now

/-- Where a run keeps the packets. When it has returned, all are in batches. -/
def Progress.Keeps (cfg : Config) : Progress → Prop
  | .running s => Kept cfg s
  | .returned _ s => Kept cfg s ∧ s.aggregator.active.rows = [] ∧ s.outbox.queue.items = []
  | .failed _ => True

theorem Progress.Keeps.ofExcept {result : Except String State} {next : State → Progress}
    (h : ∀ s, result = .ok s → (next s).Keeps cfg) : (Progress.ofExcept result next).Keeps cfg := by
  cases hresult : result with
  | error => trivial
  | ok s => exact h s hresult

theorem Kept.send {s' : State} (h : Kept cfg s) (hsend : s.send cfg = .ok s') :
    Kept cfg s' ∧ s'.aggregator = s.aggregator ∧ s'.outbox.queue.items = [] := by
  obtain ⟨outbox, hpersist, hsend⟩ := Except.bind_eq_ok.mp hsend
  cases hsend
  obtain ⟨hflatten, hitems⟩ := records_persistAll hpersist
  obtain ⟨hsensor, parts, now, haccounts⟩ := h
  refine ⟨⟨hsensor, parts, now, ?_⟩, rfl, hitems⟩
  rwa [Outbox.records, hflatten, hitems, append_nil]

/-- Records that a call returns go to the queue. -/
theorem Kept.collect {s' : State} {event : Event} (h : Kept cfg s)
    (hcollect : ({ s with accepted := s.accepted ++ addedBy event } : State).collect cfg
      (step cfg.lib s.aggregator event) = .ok s') :
    Kept cfg s' ∧ s'.aggregator = (step cfg.lib s.aggregator event).2 := by
  obtain ⟨outbox, hrecords, hcollect⟩ := Except.bind_eq_ok.mp hcollect
  cases hcollect
  obtain ⟨hsensor, parts, now, haccounts⟩ := h
  obtain ⟨parts', now', haccounts'⟩ := haccounts.step event
  refine ⟨⟨(step_config cfg.lib s.aggregator event).1.trans hsensor, parts', now', ?_⟩, rfl⟩
  rw [records_addRecords hrecords]
  exact haccounts'

theorem Kept.finish (h : Kept cfg s) (reason : StopReason) (sorting : Sorting) :
    (finish cfg s reason sorting).Keeps cfg := by
  refine .ofExcept fun s' hs' => ?_
  obtain ⟨flushed, hflushed, hsend⟩ := Except.bind_eq_ok.mp hs'
  have hcollect : ({ s with accepted := s.accepted ++ addedBy (.flush sorting) } : State).collect cfg
      (step cfg.lib s.aggregator (.flush sorting)) = .ok flushed := by
    rw [addedBy, append_nil]
    exact hflushed
  obtain ⟨hkept, haggregator⟩ := h.collect hcollect
  obtain ⟨hkept', haggregator', hitems⟩ := hkept.send hsend
  refine ⟨hkept', ?_, hitems⟩
  rw [haggregator', haggregator]
  exact rows_flush _ sorting

theorem Kept.afterPacket (h : Kept cfg s) (budgetStop : Option StopReason) (sorting : Sorting) :
    (afterPacket cfg s budgetStop sorting).Keeps cfg := by
  rw [Pipeline.afterPacket.eq_def]
  split
  · exact h.finish _ _
  split
  · exact h.finish _ _
  split
  · exact h.finish _ _
  · exact h

theorem Kept.accept (h : Kept cfg s) {p : Packet} (hwire : ¬p.wireLength < 0) (sorting : Sorting) :
    (accept cfg s p sorting).Keeps cfg := by
  rw [Pipeline.accept]
  split
  · next reason budget _ =>
    have hbudget : Kept cfg { s with budget } := h
    exact hbudget.finish _ _
  next budgetStop budget _ =>
  have hbudget : Kept cfg { s with budget } := h
  refine .ofExcept fun s' hs' => ?_
  have hcollect : ({ s with
      budget
      accepted := s.accepted ++ addedBy (.add p (cfg.parse p)) } : State).collect cfg
      (step cfg.lib s.aggregator (.add p (cfg.parse p))) = .ok s' := by
    rw [addedBy, if_neg hwire]
    exact hs'
  have hkept : Kept cfg { s' with
      capturedPackets := s'.capturedPackets + 1
      capturedBytes := s'.capturedBytes + p.wireLength.toNat } := (hbudget.collect hcollect).1
  exact hkept.afterPacket budgetStop sorting

theorem Kept.startedTurn (h : Kept cfg s) (p : Packet) (sorting : Sorting) :
    (startedTurn cfg s p sorting).Keeps cfg := by
  rw [Pipeline.startedTurn]
  split
  · exact h.finish _ _
  split
  · exact h
  split
  · exact h
  · next hwire => exact h.accept hwire sorting

theorem Kept.turn (h : Kept cfg s) (t : Turn) : (turn cfg s t).Keeps cfg := by
  cases t with
  | stop reason sorting => exact h.finish reason sorting
  | budgetDone =>
    rw [Pipeline.turn]
    split
    · exact h.finish _ _
    · exact h
  | tick now sorting =>
    refine .ofExcept fun s' hs' => ?_
    obtain ⟨expired, hexpired, hsend⟩ := Except.bind_eq_ok.mp hs'
    have hcollect : ({ s with accepted := s.accepted ++ addedBy (.expire sorting now) } : State).collect
        cfg (step cfg.lib s.aggregator (.expire sorting now)) = .ok expired := by
      rw [addedBy, append_nil]
      exact hexpired
    exact ((h.collect hcollect).1.send hsend).1
  | endOfInput => exact h.finish _ _
  | readFailed => trivial
  | packet p sorting =>
    rw [Pipeline.turn, packetTurn]
    split
    · exact h
    split
    · exact h.finish _ _
    · have hstarted : Kept cfg { s with
          started := if s.started = zeroTime then p.timestamp else s.started } := h
      exact hstarted.startedTurn p sorting
  | reserved => exact h

/-- A run keeps the packets that passed. -/
theorem Kept.runFrom (h : Kept cfg s) (turns : List Turn) : (runFrom cfg s turns).Keeps cfg := by
  induction turns generalizing s with
  | nil => exact h
  | cons t turns ih =>
    have hturn := h.turn t
    rw [Pipeline.runFrom]
    cases hprogress : Pipeline.turn cfg s t with
    | running s' =>
      rw [hprogress] at hturn
      exact ih hturn
    | returned reason s' =>
      rw [hprogress] at hturn
      exact hturn
    | failed message => trivial

theorem kept_start (cfg : Config) (budget : Option CaptureBudget) : Kept cfg (start cfg budget) :=
  ⟨rfl, Accounts.run cfg.lib (a := (start cfg budget).aggregator) rfl []⟩

/-- What is held by the items of several lists is held by the lists. -/
theorem forall₂_flatten {α β : Type} {R : α → β → Prop} {l : List (List α)} {ps : List β}
    (h : List.Forall₂ R l.flatten ps) :
    ∃ pss, List.Forall₂ (List.Forall₂ R) l pss ∧ pss.flatten = ps := by
  induction l generalizing ps with
  | nil =>
    cases h
    exact ⟨[], .nil, rfl⟩
  | cons x l ih =>
    rw [flatten_cons] at h
    obtain ⟨pss, hpss, hflatten⟩ := ih (forall₂_drop_append _ _ _ h.flip).flip
    refine ⟨ps.take x.length :: pss, .cons (forall₂_take_append _ _ _ h.flip).flip hpss, ?_⟩
    rw [flatten_cons, hflatten, take_append_drop]

/-- When `Run` returns nil, each packet that passed is in one record of one batch. -/
theorem run_batches {budget : Option CaptureBudget} {turns : List Turn} {reason : StopReason}
    (h : run cfg budget turns = .returned reason s) :
    ∃ parts, List.Forall₂ (Held cfg.sensorId) s.outbox.enqueued parts ∧ parts.flatten.flatten.Perm s.accepted := by
  have hkeeps := (kept_start cfg budget).runFrom turns
  rw [run] at h
  rw [h] at hkeeps
  obtain ⟨⟨hsensor, parts, now, haccounts⟩, hrows, hitems⟩ := hkeeps
  have hemitted := haccounts.emitted
  have hperm := haccounts.perm
  rw [Outbox.records, hitems, append_nil] at hemitted
  rw [hrows, map_nil, flatMap_nil, append_nil] at hperm
  obtain ⟨pss, hpss, rfl⟩ := forall₂_flatten (hemitted.imp fun _ _ hreturned => hreturned.tallies)
  rw [hsensor] at hpss
  exact ⟨pss, hpss, hperm⟩

/-- A pipeline without limits, for packets without metadata. -/
noncomputable def plainConfig : Config where
  lib := plainLib
  sensorId := "sensor"
  jobId := "job"
  idleTimeout := 0
  payloadPreviewBytes := 0
  batchMaxItems := 10
  batchMaxBytes := 1000
  filter := none
  limits := {}
  parse _ := {}
  recordSize _ := 100
  encodeError _ := none

end C2Hunter.Pipeline
