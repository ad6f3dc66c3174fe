import C2Hunter.NetworkIcmp
import C2Hunter.Outcome
import C2Hunter.Table

/-!
# Flows of the network report

The state that `network_report.py` keeps of one flow, and what one packet does to it. All flows
share a `Budget` object, so what a packet does to a flow is a function of a `Tracker`: the flow
together with the budget as it is then.

* `TCPDirection.acknowledge` — retire what an acknowledgment covers.
* `Tracker.clearTcp`, `Tracker.clearCorrelations`, `Tracker.reserve`, `Tracker.observe` — the
  methods of `Flow`.
* `Tracker.scanTcp` — `_scan_tcp`, in the order of its rules.
* `Tracker.scanUdp` — the branch of UDP.

Sets are lists without repetitions. The two heaps are lists in the order in which `heappop`
gives their entries.
-/

namespace C2Hunter.Network

/-! ## Observations -/

/-- `Observation`. -/
structure Observation where
  count : Nat
  first : Int
  last : Int
  facts : List (Option Int)
  icmpSamples : List Retained := []
  deriving DecidableEq

/-- `_FACT_FIELDS` with `_FACT_CEILINGS`. -/
def factFields : List (String × Int) :=
  [("tcp_sequence", 2 ^ 32), ("tcp_acknowledgment", 2 ^ 32), ("tcp_window", 65536),
    ("transport_payload_length", 65536), ("icmp_type", 256), ("icmp_code", 256)]

/-- The facts of the record that an observation starts with. -/
def readFacts (record : Record) : List (Option Int) :=
  factFields.map fun field => (record.get field.1).intIn 0 (field.2 - 1)

/-- An observation with one event more. -/
def Observation.again (o : Observation) (time : Int) : Observation :=
  { o with count := o.count + 1, first := min o.first time, last := max o.last time }

/-! ## One direction of TCP -/

/-- `DataKey`. -/
structure DataKey where
  seq : Int
  length : Int
  digest : String
  deriving DecidableEq

/-- An entry of a heap. -/
structure HeapEntry where
  rank : Int
  key : DataKey
  deriving DecidableEq

/-- The order of entries, as of tuples. -/
def HeapEntry.le (x y : HeapEntry) : Bool :=
  x.rank < y.rank ∨ x.rank = y.rank ∧
    (x.key.seq < y.key.seq ∨ x.key.seq = y.key.seq ∧
      (x.key.length < y.key.length ∨ x.key.length = y.key.length ∧ x.key.digest ≤ y.key.digest))

/-- `heappush`. -/
def heappush (heap : List HeapEntry) (entry : HeapEntry) : List HeapEntry :=
  heap.orderedInsert (fun x y => x.le y = true) entry

/-- `TCPDirection`. -/
structure TCPDirection where
  sequence : TCPSequenceSpace := {}
  seen : List DataKey := []
  outstanding : List DataKey := []
  /-- by descending start -/
  starts : List HeapEntry := []
  /-- by ascending end -/
  ends : List HeapEntry := []
  lastAck : Option (Int × Int × Int) := none
  sentTimes : Dict DataKey Int := .empty
  highestEnd : Int := 0
  rttAmbiguous : Bool := false

/-- The state of the loop that retires acknowledged data. -/
structure Retiring where
  ends : List HeapEntry
  sentTimes : Dict DataKey Int
  outstanding : List DataKey
  covered : Nat := 0
  start : Int := 0
  stop : Int := 0

/-- The loop over `ends`; a key without its time would raise. -/
def retire (ack : Int) : List HeapEntry → Retiring → Except ReportError Retiring
  | [], r => .ok { r with ends := [] }
  | entry :: ends, r =>
    if entry.rank ≤ ack then
      match r.sentTimes.find? entry.key with
      | none => .error .keyError
      | some start =>
        retire ack ends
          { r with
            sentTimes := r.sentTimes.erase entry.key
            outstanding := r.outstanding.erase entry.key
            covered := r.covered + 1
            start := start
            stop := entry.rank }
    else .ok { r with ends := entry :: ends }

/-- What an acknowledgment that covers data says about the round-trip time. -/
def roundTrip (m : SupportingMeasurements) (r : Retiring) (ack time : Int) (ambiguous : Bool) :
    SupportingMeasurements :=
  if ambiguous then
    { m with excluded := { m.excluded with ambiguous := m.excluded.ambiguous + 1 } }
  else if r.covered ≠ 1 ∨ r.stop ≠ ack then
    { m with excluded := { m.excluded with nonexactAck := m.excluded.nonexactAck + 1 } }
  else m.sample r.start time false false

/-- `acknowledge` of `TCPDirection`: whether data after the acknowledgment is outstanding, the
direction and the measurements afterwards. -/
def TCPDirection.acknowledge (d : TCPDirection) (ack time : Int) (m : SupportingMeasurements)
    (sample : Bool) : Except ReportError (Bool × TCPDirection × SupportingMeasurements) :=
  match d.sequence.acknowledge ack with
  | (none, _) => .ok (false, d, m)
  | (some ack, sequence) => do
    let r ← retire ack d.ends
      { ends := d.ends, sentTimes := d.sentTimes, outstanding := d.outstanding }
    let m := if r.covered ≠ 0 ∧ sample then roundTrip m r ack time d.rttAmbiguous else m
    let starts := d.starts.dropWhile fun entry => entry.key ∉ r.outstanding
    return (starts.head?.any fun entry => ack ≤ -entry.rank,
      { d with
        sequence := sequence
        outstanding := r.outstanding
        starts := starts
        ends := r.ends
        sentTimes := r.sentTimes },
      m)

/-- A piece of data is marked as seen. Sequence regression, overlap, reuse and wrap make the
round-trip times of the direction ambiguous. -/
def TCPDirection.mark (d : TCPDirection) (key : DataKey) (position : Option Int)
    (sequence : TCPSequenceSpace) : TCPDirection :=
  { d with
    sequence := sequence
    rttAmbiguous := d.rttAmbiguous || position.all (· < d.highestEnd) ||
      2 ^ 32 ≤ key.seq + key.length
    seen := d.seen.insert key }

/-- A piece of data waits for its acknowledgment. -/
def TCPDirection.enqueue (d : TCPDirection) (key : DataKey) (position time : Int) : TCPDirection :=
  { d with
    highestEnd := max d.highestEnd (position + key.length)
    sentTimes := d.sentTimes.put (key, time)
    outstanding := d.outstanding.insert key
    starts := heappush d.starts ⟨-position, key⟩
    ends := heappush d.ends ⟨position + key.length, key⟩ }

/-! ## Flows and the budget -/

/-- `MAX_TRACKED_FLOWS`. -/
def maxTrackedFlows : Nat := 8192

/-- `MAX_FLOW_CORRELATIONS`. -/
def maxFlowCorrelations : Nat := 4096

/-- `MAX_TOTAL_CORRELATIONS`. -/
def maxTotalCorrelations : Int := 131072

/-- `MAX_PENDING_QUOTES`. -/
def maxPendingQuotes : Nat := 8192

/-- `MAX_FLOW_OBSERVATIONS`. -/
def maxFlowObservations : Nat := 16

/-- `Budget`. -/
structure Budget where
  correlations : Int := 0
  icmp : DetailBudget := {}
  deriving DecidableEq

/-- `Flow`, without its reference to the budget. -/
structure Flow where
  limited : Bool := false
  directions : List Bool := []
  tcp : Pair TCPDirection := .both {}
  udp : List (Bool × Int × String) := []
  /-- the SYNs without a response: their time, and whether they were repeated -/
  syn : Dict (Bool × Int) (Int × Bool) := .empty
  epochSyn : Pair (Option Int) := .both none
  closure : TCPClosure := {}
  measurements : SupportingMeasurements := {}
  lastTime : Option Int := none
  clockInvalid : Bool := false
  observations : Dict (Pattern × Endpoint) Observation := .empty

/-- The correlations that a flow holds. -/
def Flow.size (f : Flow) : Nat := f.udp.length + f.tcp.zero.seen.length + f.tcp.one.seen.length

/-- A flow with the budget as it is while a packet is scanned. -/
structure Tracker where
  budget : Budget
  flow : Flow

namespace Tracker

section

variable (t : Tracker)

/-- `clear_tcp`. -/
def clearTcp : Tracker where
  budget :=
    { t.budget with
      correlations := t.budget.correlations -
        (t.flow.tcp.zero.seen.length + t.flow.tcp.one.seen.length) }
  flow := { t.flow with syn := .empty, tcp := .both {}, closure := {} }

/-- `clear_correlations`. -/
def clearCorrelations : Tracker :=
  let t := t.clearTcp
  { budget := { t.budget with correlations := t.budget.correlations - t.flow.udp.length }
    flow := { t.flow with udp := [] } }

/-- `reserve`; `none` where it raises `TrackingLimit`. -/
def reserve : Option Tracker :=
  if maxFlowCorrelations ≤ t.flow.size ∨ maxTotalCorrelations ≤ t.budget.correlations then none
  else some { t with budget := { t.budget with correlations := t.budget.correlations + 1 } }

/-- `epoch_syn = [None, None]`. -/
def forgetEpoch : Tracker :=
  { t with flow := { t.flow with epochSyn := .both none } }

/-- The measurements changed. -/
def measure (f : SupportingMeasurements → SupportingMeasurements) : Tracker :=
  { t with flow := { t.flow with measurements := f t.flow.measurements } }

/-- A direction changed. -/
def modifyTcp (direction : Bool) (f : TCPDirection → TCPDirection) : Tracker :=
  { t with flow := { t.flow with
      tcp := t.flow.tcp.set direction (f (t.flow.tcp.get direction)) } }

/-- The observation after an event, before its sample is taken. -/
def observed (pattern : Pattern) (peer : Endpoint) (time : Int) (record : Record) : Observation :=
  match t.flow.observations.find? (pattern, peer) with
  | none => ⟨1, time, time, readFacts record, []⟩
  | some previous => previous.again time

end

/-- `observe`. -/
def observe {py : Python} (text : ReportText py) (t : Tracker) (pattern : Pattern)
    (peer : Endpoint) (time : Int) (record : Record) : Tracker :=
  let o := t.observed pattern peer time record
  if pattern = .icmpErrors then
    let added := t.budget.icmp.add text o.icmpSamples record time
    { budget := { t.budget with icmp := added.2 }
      flow := { t.flow with
        observations := t.flow.observations.put ((pattern, peer), { o with icmpSamples := added.1 }) } }
  else { t with flow := { t.flow with observations := t.flow.observations.put ((pattern, peer), o) } }

end Tracker

/-! ## TCP -/

section ScanTcp

variable {py : Python} (text : ReportText py)

/-- A segment in its flow. -/
structure Arrival where
  key : FlowKey
  direction : Bool
  time : Int
  record : Record

/-- The endpoint that sent the record. -/
def Arrival.source (p : Arrival) : Endpoint := if p.direction then p.key.b else p.key.a

/-- The endpoint that the record was sent to. -/
def Arrival.dest (p : Arrival) : Endpoint := if p.direction then p.key.a else p.key.b

/-- How `_scan_tcp` goes on after its rules for data. -/
inductive DataOutcome where
  | next
  | returned
  | limit
  deriving DecidableEq, Repr

namespace Tracker

/-- The rule for a SYN without ACK and RST: a repeat, or the start of another epoch. -/
def scanSyn (t : Tracker) (p : Arrival) (seg : TcpSegment) : Tracker :=
  if seg.syn ∧ !seg.ack ∧ !seg.rst then
    let t :=
      match t.flow.syn.find? (p.direction, seg.seq) with
      | some (time, _) =>
        let t := t.observe text .synRetransmissions p.dest p.time p.record
        { t with flow := { t.flow with
            syn := t.flow.syn.put ((p.direction, seg.seq), (time, true)) } }
      | none =>
        let t := t.clearTcp.forgetEpoch
        { t with flow := { t.flow with
            syn := t.flow.syn.put ((p.direction, seg.seq), (p.time, false)) } }
    if synOnly p.record then
      { t with flow := { t.flow with epochSyn := t.flow.epochSyn.set p.direction (some seg.seq) } }
    else t
  else t

/-- The SYN that a segment answers, if there was one. -/
def answered (p : Arrival) (seg : TcpSegment) : Bool × Int :=
  (!p.direction, (seg.ackNumber - 1) % 2 ^ 32)

section

variable (t : Tracker) (p : Arrival)

/-- A response that matches a SYN. -/
def matchSyn (seg : TcpSegment) (row : Int × Bool) : Tracker :=
  let t : Tracker := { t with flow := { t.flow with syn := t.flow.syn.erase (answered p seg) } }
  if seg.rst then t.observe text .matchedResets p.source p.time p.record
  else t.measure (·.sample row.1 p.time true row.2)

/-- The rule for the response to a SYN. -/
def scanResponse (seg : TcpSegment) : Tracker :=
  if seg.ack ∧ (seg.syn ∨ seg.rst) then
    match t.flow.syn.find? (answered p seg) with
    | none => t
    | some row => t.matchSyn text p seg row
  else t

/-- The number that a SYN takes in the sequence space. -/
def placeSyn (seg : TcpSegment) (length : Int) : Tracker :=
  if seg.syn ∧ !seg.rst then
    t.modifyTcp p.direction fun own =>
      { own with sequence := (own.sequence.observe ((seg.seq + 1) % 2 ^ 32) length).2 }
  else t

/-- The number that a FIN takes in the sequence space. -/
def placeFin (seg : TcpSegment) (length : Int) : Tracker :=
  if seg.fin ∧ !seg.syn ∧ !seg.rst then
    t.modifyTcp p.direction fun own =>
      { own with sequence := (own.sequence.observe seg.seq (length + 1)).2 }
  else t

/-- The numbers that SYN and FIN take in the sequence space. -/
def scanControl (seg : TcpSegment) (length : Int) : Tracker :=
  (t.placeSyn p seg length).placeFin p seg length

/-- The rule for acknowledgments. -/
def scanAck (seg : TcpSegment) (length window : Int) : Except ReportError Tracker :=
  if seg.ack ∧ !(seg.rst ∨ seg.urg) then do
    let (outstanding, reverse, m) ← (t.flow.tcp.get !p.direction).acknowledge seg.ackNumber p.time
      t.flow.measurements !seg.control
    let t := (t.modifyTcp (!p.direction) fun _ => reverse).measure fun _ => m
    let signature := (seg.seq, seg.ackNumber, window)
    let t :=
      if !seg.control ∧ length = 0 ∧ 0 < window ∧ outstanding ∧
          (t.flow.tcp.get p.direction).lastAck = some signature then
        t.observe text .duplicateAcks p.source p.time p.record
      else t
    return t.modifyTcp p.direction fun own =>
      { own with lastAck := if length = 0 ∧ !seg.control then some signature else none }
  else
    return t.modifyTcp p.direction fun own => { own with lastAck := none }

/-- Data that is seen for the first time. -/
def sendData (key : DataKey) : Tracker × DataOutcome :=
  match (t.flow.tcp.get p.direction).sequence.observe key.seq key.length with
  | (none, sequence) => (t.modifyTcp p.direction (·.mark key none sequence), .returned)
  | (some position, sequence) =>
    (t.modifyTcp p.direction fun own =>
      (own.mark key (some position) sequence).enqueue key position p.time, .next)

/-- A repeat, or data that is seen for the first time. -/
def scanKey (key : DataKey) : Tracker × DataOutcome :=
  if key ∈ (t.flow.tcp.get p.direction).seen then
    ((t.modifyTcp p.direction fun own => { own with rttAmbiguous := true }).observe text
      .dataRetransmissions p.dest p.time p.record, .next)
  else
    match t.reserve with
    | none => (t, .limit)
    | some t => t.sendData p key

/-- The rule for data. -/
def scanData (seg : TcpSegment) (length : Int) : Tracker × DataOutcome :=
  match seg.digest with
  | none => (t, .next)
  | some digest =>
    if 0 < length ∧ !seg.control then t.scanKey text p ⟨seg.seq, length, digest⟩ else (t, .next)

/-- The rules that need the payload length and the window. -/
def scanPayload (seg : TcpSegment) : Except ReportError (Tracker × DataOutcome) :=
  match seg.length, seg.window with
  | some length, some window => do
    let t ← (t.scanControl p seg length).scanAck text p seg length window
    return t.scanData text p seg length
  | _, _ => return (t, .next)

/-- Whether the connection is closed on both sides, and the closure after the segment. -/
def closing (seg : TcpSegment) : Bool × TCPClosure :=
  match seg.length with
  | some length =>
    t.flow.closure.observe p.direction seg.seq seg.ackNumber length seg.fin seg.ack
  | none => (false, t.flow.closure)

/-- The rule for the end of a connection. -/
def scanClose (seg : TcpSegment) : Tracker :=
  let closed := (t.closing p seg).1
  let t := { t with flow := { t.flow with closure := (t.closing p seg).2 } }
  if seg.rst ∨ closed then t.clearTcp.forgetEpoch else t

/-- `_scan_tcp`, and whether it raised `TrackingLimit`. -/
def scanTcp : Except ReportError (Tracker × Bool) :=
  match readSegment p.record with
  | none => return (t, false)
  | some seg => do
    let (t, outcome) ← ((t.scanSyn text p seg).scanResponse text p seg).scanPayload text p seg
    match outcome with
    | .next => return (t.scanClose p seg, false)
    | .returned => return (t, false)
    | .limit => return (t, true)

end

end Tracker

end ScanTcp

/-! ## UDP -/

/-- The branch of UDP, and whether it was refused. -/
def Tracker.scanUdp {py : Python} (text : ReportText py) (t : Tracker) (p : Arrival) :
    Tracker × Bool :=
  match p.record.get "transport_payload_length", p.record.get "payload_hash" with
  | .int length, .str digest =>
    if digest = "" then (t, false)
    else if (p.direction, length, digest) ∈ t.flow.udp then
      (t.observe text .udpDuplicateCandidates p.dest p.time p.record, false)
    else
      match t.reserve with
      | none => (t, true)
      | some t =>
        ({ t with flow := { t.flow with udp := t.flow.udp.insert (p.direction, length, digest) } },
          false)
  | _, _ => (t, false)

end C2Hunter.Network
