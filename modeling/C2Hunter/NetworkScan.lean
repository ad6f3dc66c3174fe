import C2Hunter.NetworkFlow

/-!
# The scan of a capture

The loop of `analyze_network_report` over the records, and the resolution of quotes after it.

* `Scan` — the local variables of the function: flows, pending quotes, budget, counters and
  warnings.
* `Scan.step` — one turn of the loop. Counters go up early and are given back later, as in the
  source.
* `Scan.run` — the loop.
* `Scan.resolveQuotes` — every pending quote joins the flow it quotes, or the flow that
  reported it.
-/

namespace C2Hunter.Network

/-- The warnings of a report. -/
inductive Warning where
  | incompleteRecords
  | flowTrackingLimitReached
  | incompletePacketEvidence
  | nonMonotonicTimestamps
  | icmpQuoteLimitReached
  | incompleteIcmpQuote
  | correlationLimitReached
  | observationLimitReached
  | oneDirectionObserved
  deriving DecidableEq, Repr

/-- The text of a warning. -/
def Warning.text : Warning → String
  | incompleteRecords => "INCOMPLETE_RECORDS"
  | flowTrackingLimitReached => "FLOW_TRACKING_LIMIT_REACHED"
  | incompletePacketEvidence => "INCOMPLETE_PACKET_EVIDENCE"
  | nonMonotonicTimestamps => "NON_MONOTONIC_TIMESTAMPS"
  | icmpQuoteLimitReached => "ICMP_QUOTE_LIMIT_REACHED"
  | incompleteIcmpQuote => "INCOMPLETE_ICMP_QUOTE"
  | correlationLimitReached => "CORRELATION_LIMIT_REACHED"
  | observationLimitReached => "OBSERVATION_LIMIT_REACHED"
  | oneDirectionObserved => "ONE_DIRECTION_OBSERVED"

/-- The local variables of `analyze_network_report`. -/
structure Scan where
  flows : Dict FlowKey Flow := .empty
  /-- by the quoted key and the key of the flow that quotes it -/
  quoted : Dict (FlowKey × FlowKey) Flow := .empty
  budget : Budget := {}
  scanned : Int := 0
  skipped : Int := 0
  incomplete : Int := 0
  evaluated : Int := 0
  limited : Int := 0
  /-- a set, without repetitions -/
  warnings : List Warning := []

/-! ## Before a record is evaluated -/

/-- Whether a record comes after a pause of more than a minute. -/
def Flow.idle (f : Flow) (time : Int) : Bool := f.lastTime.any fun last => 60000000 < time - last

/-- The direction and the clock of a flow after a record. -/
def Flow.touch (f : Flow) (direction : Bool) (time : Int) : Flow :=
  let f := { f with directions := f.directions.insert direction }
  if f.lastTime.any (time < ·) then { f with clockInvalid := true }
  else { f with lastTime := some time }

/-- Whether a SYN starts another connection than the one of the epoch. -/
def Flow.changedSyn (f : Flow) (p : Arrival) : Bool :=
  p.key.protocol = "TCP" ∧ synOnly p.record ∧
    (f.epochSyn.get p.direction).any fun anchor =>
      (p.record.get "tcp_sequence").int? ≠ some anchor

/-- A limited flow starts again after a pause or with another SYN; `none` where the record is
dropped. -/
def Tracker.recover (t : Tracker) (p : Arrival) (idle : Bool) : Option Tracker :=
  if t.flow.limited then
    if idle ∨ t.flow.changedSyn p then
      let t := t.clearCorrelations.forgetEpoch
      some { t with flow := { t.flow with limited := false } }
    else none
  else some t

/-- What a pause does to a flow. -/
def Tracker.pause (t : Tracker) (idle : Bool) : Tracker :=
  if idle then t.clearCorrelations.forgetEpoch.measure (·.forget) else t

/-- `flow.limited = True`, if the flow was refused. -/
def Tracker.limit (t : Tracker) (refused : Bool) : Tracker :=
  if refused then { t with flow := { t.flow with limited := true } } else t

namespace Scan

section

variable (s : Scan)

/-- `warnings.add(w)`. -/
def warn (w : Warning) : Scan := { s with warnings := s.warnings.insert w }

/-- The flow of a key: the one that is tracked, another one, or none if there are too many. -/
def flowAt (key : FlowKey) : Option Flow :=
  match s.flows.find? key with
  | some flow => some flow
  | none => if maxTrackedFlows ≤ s.flows.rows.length then none else some {}

/-- The pending flow of a quote: the one that is there, another one, or none if there are too
many. -/
def pendingAt (key : FlowKey × FlowKey) : Option Flow :=
  match s.quoted.find? key with
  | some flow => some flow
  | none => if maxPendingQuotes ≤ s.quoted.rows.length then none else some {}

/-- A flow and the budget go back where they came from. -/
def store (key : FlowKey) (t : Tracker) : Scan :=
  { s with flows := s.flows.put (key, t.flow), budget := t.budget }

/-- A record that breaks what is known of its flow. -/
def gap (key : FlowKey) (t : Tracker) (reason : Reason) (w : Warning) : Scan :=
  let s :=
    { s with
      incomplete := s.incomplete + 1
      limited := s.limited + if t.flow.limited then 1 else 0 }
  (s.warn w).store key (t.measure (·.gap reason)).clearCorrelations

/-- A record that is scanned. -/
def tick : Scan := { s with scanned := s.scanned + 1 }

/-- A record without identity. -/
def skip : Scan := { s with skipped := s.skipped + 1 }.warn .incompleteRecords

/-- A record that is dropped because of a limit. -/
def drop : Scan := { s with incomplete := s.incomplete + 1, limited := s.limited + 1 }

/-- A record that is evaluated. -/
def begin : Scan := { s with evaluated := s.evaluated + 1 }

/-- A record that is given back as limited. -/
def giveBack (w : Warning) : Scan :=
  { s with evaluated := s.evaluated - 1 }.drop.warn w

/-- The end of the loop's body. -/
def finish (key : FlowKey) (t : Tracker) : Scan :=
  if t.flow.limited then
    (s.giveBack .correlationLimitReached).store key
      (t.measure (·.gap .correlationLimitReached)).clearCorrelations
  else s.store key t

end

end Scan

/-! ## Evaluation -/

/-- Two observations of the same kind, with the samples that are kept of both. -/
def Observation.join (previous o : Observation) (samples : List Retained) :
    Observation :=
  { previous with
    count := previous.count + o.count
    first := min previous.first o.first
    last := max previous.last o.last
    icmpSamples := samples }

/-- The flow that a quote names, and its destination; `none` where the quote is refused. -/
def readQuote (py : Python) (key : FlowKey) (quote : Record) : Option (FlowKey × Endpoint) := do
  let source ← endpoint py (quote.get "source_ip") (quote.get "source_port")
  let dest ← endpoint py (quote.get "destination_ip") (quote.get "destination_port")
  let (a, b) := sortEndpoints source dest
  let protocol ← quotedProtocol py (quote.get "protocol")
  return (⟨key.sensor, key.interface, protocol, a, b⟩, dest)

namespace Scan

variable {py : Python} (text : ReportText py)

section

variable (s : Scan) (t : Tracker) (p : Arrival)

/-- An ICMP error is observed by the flow that reports it. -/
def observeOwn : Scan :=
  s.finish p.key (t.observe text .icmpErrors p.source p.time p.record)

/-- An ICMP error with a quote waits under the two keys. -/
def observeQuoted (target : FlowKey) (peer : Endpoint) : Scan :=
  match s.pendingAt (target, p.key) with
  | none => (s.giveBack .icmpQuoteLimitReached).store p.key t
  | some pending =>
    let q := Tracker.observe text ⟨t.budget, pending⟩ .icmpErrors peer p.time p.record
    { s with quoted := s.quoted.put ((target, p.key), q.flow) }.finish p.key ⟨q.budget, t.flow⟩

/-- The branch of ICMP errors. -/
def scanIcmp : Scan :=
  match (p.record.get "icmp_quoted_flow").dict? with
  | none => s.observeOwn text t p
  | some quote =>
    match readQuote py p.key quote with
    | none => (s.warn .incompleteIcmpQuote).observeOwn text t p
    | some (target, peer) => s.observeQuoted text t p target peer

/-- The evaluation of a record. -/
def evaluate : Except ReportError Scan :=
  let s := s.begin
  let t := t.measure (·.addPacket p.direction p.time (p.record.get "ip_ttl"))
  if p.key.protocol = "TCP" then do
    let (t, refused) ← t.scanTcp text p
    return s.finish p.key (t.limit refused)
  else if p.key.protocol = "UDP" then
    let (t, refused) := t.scanUdp text p
    return s.finish p.key (t.limit refused)
  else if (p.key.protocol = "ICMP" ∨ p.key.protocol = "ICMPV6") ∧
      (p.record.get "icmp_error").truthy then
    return s.scanIcmp text t p
  else return s.finish p.key t

end

/-- A record of a flow that is tracked. -/
def scanFlow (s : Scan) (flow : Flow) (p : Arrival) : Except ReportError Scan :=
  let idle := flow.idle p.time
  let t : Tracker := ⟨s.budget, flow.touch p.direction p.time⟩
  if !complete p.record p.key.protocol then
    return s.gap p.key t .incompletePacketEvidence .incompletePacketEvidence
  else if t.flow.clockInvalid then
    return s.gap p.key t .nonMonotonicTimestamps .nonMonotonicTimestamps
  else
    match t.recover p idle with
    | none => return s.drop.store p.key t
    | some t => s.evaluate text (t.pause idle) p

/-- One turn of the loop. -/
def step (s : Scan) (record : Record) : Except ReportError Scan :=
  let s := s.tick
  match identity py record with
  | none => return s.skip
  | some id =>
    match s.flowAt id.key with
    | none => return s.drop.warn .flowTrackingLimitReached
    | some flow => s.scanFlow text flow ⟨id.key, id.direction, id.time, record⟩

/-- The loop over the records. -/
def run (records : List Record) (s : Scan) : Except ReportError Scan := records.foldlM (step text) s

/-! ## Quotes -/

section

variable (s : Scan) (key : FlowKey) (flow : Flow) (okey : Pattern × Endpoint)

/-- A pending observation joins a flow that has none of its kind. -/
def adopt (o : Observation) : Scan :=
  if maxFlowObservations ≤ flow.observations.rows.length then
    { s with
      evaluated := s.evaluated - o.count
      incomplete := s.incomplete + o.count
      limited := s.limited + o.count
      budget := { s.budget with icmp := s.budget.icmp.release o.icmpSamples } }.warn
        .observationLimitReached
  else
    s.store key ⟨s.budget, { flow with observations := flow.observations.put (okey, o) }⟩

/-- A pending observation joins the one that a flow has. -/
def join (previous o : Observation) : Scan :=
  let merged := s.budget.icmp.merge previous.icmpSamples o.icmpSamples
  s.store key ⟨{ s.budget with icmp := merged.2 },
    { flow with observations := flow.observations.put (okey, previous.join o merged.1) }⟩

end

/-- One turn of the loop over the observations of a pending flow. -/
def resolveObservation (key : FlowKey) (s : Scan)
    (row : (Pattern × Endpoint) × Observation) : Except ReportError Scan :=
  match s.flows.find? key with
  | none => .error .keyError
  | some flow =>
    match flow.observations.find? row.1 with
    | none => return s.adopt key flow row.1 row.2
    | some previous => return s.join key flow row.1 previous row.2

/-- The flow that a quote belongs to: the quoted one, if there is one. -/
def quoteTarget (s : Scan) (key : FlowKey × FlowKey) : FlowKey :=
  if (s.flows.find? key.1).isSome then key.1 else key.2

/-- One turn of the loop over the pending flows. -/
def resolveQuote (s : Scan) (row : (FlowKey × FlowKey) × Flow) : Except ReportError Scan :=
  if (s.flows.find? row.1.2).isNone then .error .keyError
  else row.2.observations.rows.foldlM (resolveObservation (s.quoteTarget row.1)) s

/-- The loop over the pending flows. -/
def resolveQuotes (s : Scan) : Except ReportError Scan := do
  let s ← s.quoted.rows.foldlM resolveQuote s
  return { s with quoted := .empty }

/-- Everything before the details: the scan, its quotes, and the last warning. -/
def collect (records : List Record) : Except ReportError Scan := do
  let s ← run text records {}
  let s ← s.resolveQuotes
  return if s.flows.rows.any fun row => row.2.directions.length < 2 then s.warn .oneDirectionObserved
    else s

end Scan

end C2Hunter.Network
