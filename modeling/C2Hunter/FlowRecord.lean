import C2Hunter.FlowAggregate

/-!
# Flow records on the wire

What `fromRecord` of `flowbatch.go` makes of a record, and the checks of the controller's model
`FlowRecord` in `schemas.py`. `FlowRecord` is the document between the two: a field that the sensor
leaves out when it is empty is `none`, and one whose default is the value left out is that value.

* `fromRecord` — the document of a record.
* `validate` — the controller: first each field, then the fields against each other.
-/

namespace C2Hunter.Aggregate

open Ddos (Sample Semantic Value)
open Ddos.Sensor (Protocol)

/-! ## Documents -/

/-- `FlowRecord`. Addresses are not printed, as no check reads them. -/
structure FlowRecord where
  ddosPacketEvidence : Value
  sensorId : String
  timestamp : Int
  sourceIp : IPAddress
  destinationIp : IPAddress
  sourcePort : Nat
  destinationPort : Nat
  protocol : String
  direction : String
  packetCount : Nat
  totalBytes : Nat
  durationSeconds : ℚ
  tcpFlags : List (String × ℚ)
  tcpFlagsObserved : Bool
  tcpSynCount : Nat
  tcpAckCount : Nat
  tcpRstCount : Nat
  tcpSynOnlyCount : Nat
  tcpSynAckCount : Nat
  tcpAckOnlyCount : Nat
  tcpSynOnlyObservations : Option (List SynOnly)
  tcpSynOnlyObservationsTruncated : Bool
  bidirectional : Bool
  payloadHash : Option String
  lastPayloadHash : Option String
  payloadPrefixHash : Option String
  payloadSampleHex : Option String
  payloadLength : Option Nat
  transportPayloadPacketCount : Option Nat
  payloadEntropy : Option ℚ
  payloadPrintableRatio : Option ℚ
  payloadSimhash : Option String
  payloadFeatureVersion : Option String
  tlsFingerprint : Option String
  certificateFingerprint : Option String
  domain : Option String
  packetSizes : List Nat
  averagePacketSize : Option ℚ
  hopLimitMin : Option Nat
  hopLimitMax : Option Nat
  hopLimitMode : Option Nat
  hopLimitDistinctCount : Nat
  ipIdObservedCount : Nat
  ipIdZeroCount : Nat
  ipIdDistinctCount : Nat
  ipIdValuesTruncated : Bool
  ipIdMonotonicTransitions : Nat
  ipIdTransitionCount : Nat

/-! ## The sensor -/

/-- A text that is left out when it is empty. -/
def omitEmpty (text : String) : Option String := if text = "" then none else some text

/-- `protocolName`. -/
def protocolName : Protocol → String
  | .tcp => "TCP"
  | .udp => "UDP"
  | .icmp => "ICMP"
  | .unknownProtocol => "UNKNOWN"

/-- The name of a semantics. -/
def semanticText : Semantic → String
  | .dnsRequest => "DNS_REQUEST"
  | .dnsResponse => "DNS_RESPONSE"
  | .ntpRequest => "NTP_REQUEST"
  | .ntpResponse => "NTP_RESPONSE"
  | .other => "OTHER"
  | .unknown => "UNKNOWN"

/-- A sample as a document. -/
def sampleValue (s : Sample) : Value :=
  .dict [("timestamp_us", .int s.timestampUs), ("profile", .str s.profile),
    ("semantic", .str (semanticText s.semantic)),
    ("transaction", match s.transaction with
      | none => .null
      | some token => .str token)]

/-- Evidence as a document. -/
def evidenceValue : Option Evidence → Value
  | none => .null
  | some e =>
    .dict [("version", .int e.version), ("samples", .list (e.samples.map sampleValue)),
      ("omitted_samples", .int e.omittedSamples)]

/-- The counts of flags as a document. -/
def flagCountsOf (c : FlagCounts) : List (String × ℚ) :=
  [("fin", c.fin), ("syn", c.syn), ("rst", c.rst), ("psh", c.psh), ("ack", c.ack), ("urg", c.urg),
    ("ece", c.ece), ("cwr", c.cwr)]

/-- `TcpFlags` as a document. -/
def tcpFlagsOf (t : Tcp) : List (String × ℚ) :=
  flagCountsOf t.tcpFlags ++
  (if 0 < t.tcpFlags.syn ∧ 0 < t.tcpFlags.ack then
    (t.synAckRatio.map fun ratio => ("syn_ack_ratio", ratio)).toList else []) ++
  (t.rstRatio.map fun ratio => ("rst_ratio", ratio)).toList ++
  (t.connectionCount.map fun count => ("connection_count", (count : ℚ))).toList

/-- `applyMetadata`: the domain. A later kind overwrites an earlier one. -/
def domainOf (m : Metadata) : String :=
  match m.tls, m.httpHost, m.dnsQueryName with
  | some tls, _, _ => tls.sni
  | none, some host, _ => host
  | none, none, some name => name
  | none, none, none => ""

/-- `applyMetadata`: the fingerprint of TLS. -/
def tlsFingerprintOf (m : Metadata) : String :=
  match m.tls with
  | some tls =>
    if tls.clientHelloFingerprint = "" then tls.serverHelloFingerprint else tls.clientHelloFingerprint
  | none => ""

/-- `applyMetadata`: the fingerprint of the certificate. -/
def certificateFingerprintOf (m : Metadata) : String :=
  match m.tls with
  | some tls => tls.certificateSha256
  | none => ""

/-- `durationSeconds`. -/
def durationOf (r : Record) : ℚ := max 0 (sub r.endTime r.startTime / 1000000000)

/-- `fromRecord`. -/
def fromRecord (r : Record) : FlowRecord where
  ddosPacketEvidence := evidenceValue r.ddosPacketEvidence
  sensorId := r.key.sensorId
  timestamp := r.startTime
  sourceIp := r.key.sourceIp
  destinationIp := r.key.destinationIp
  sourcePort := r.key.sourcePort.toNat
  destinationPort := r.key.destinationPort.toNat
  protocol := protocolName r.key.protocol
  direction := r.key.direction.text
  packetCount := r.packetCount
  totalBytes := r.sizes.totalBytes
  durationSeconds := durationOf r
  tcpFlags := tcpFlagsOf r.tcp
  tcpFlagsObserved := r.tcp.tcpFlagsObserved
  tcpSynCount := r.tcp.tcpFlags.syn
  tcpAckCount := r.tcp.tcpFlags.ack
  tcpRstCount := r.tcp.tcpFlags.rst
  tcpSynOnlyCount := r.tcp.tcpSynOnlyCount
  tcpSynAckCount := r.tcp.tcpSynAckCount
  tcpAckOnlyCount := r.tcp.tcpAckOnlyCount
  tcpSynOnlyObservations :=
    if r.key.protocol = .tcp then some r.tcp.tcpSynOnlyObservations else none
  tcpSynOnlyObservationsTruncated := r.tcp.tcpSynOnlyObservationsTruncated
  bidirectional := r.bidirectional
  payloadHash := omitEmpty r.payload.firstPayloadHash
  lastPayloadHash := omitEmpty r.payload.lastPayloadHash
  payloadPrefixHash := omitEmpty r.payload.payloadPrefixHash
  payloadSampleHex := omitEmpty r.payload.payloadSampleHex
  payloadLength :=
    if r.payload.firstPayloadHash ≠ "" then some r.payload.firstPayloadLength.toNat else none
  transportPayloadPacketCount :=
    if r.key.protocol = .tcp then some r.payload.payloadPacketCount else none
  payloadEntropy := if r.payload.firstPayloadHash ≠ "" then some r.payload.payloadEntropy else none
  payloadPrintableRatio :=
    if r.payload.firstPayloadHash ≠ "" then some r.payload.payloadPrintable else none
  payloadSimhash := omitEmpty r.payload.payloadSimHash
  payloadFeatureVersion := omitEmpty r.payload.payloadFeatureVersion
  tlsFingerprint := omitEmpty (tlsFingerprintOf r.protocolMetadata)
  certificateFingerprint := omitEmpty (certificateFingerprintOf r.protocolMetadata)
  domain := omitEmpty (domainOf r.protocolMetadata)
  packetSizes :=
    if r.sizes.minPacketSize = r.sizes.maxPacketSize then [r.sizes.minPacketSize.toNat]
    else [r.sizes.minPacketSize.toNat, r.sizes.maxPacketSize.toNat]
  averagePacketSize := if 0 < r.packetCount then some r.sizes.avgPacketSize else none
  hopLimitMin :=
    if r.identity.hops.hopLimitObserved then some r.identity.hops.hopLimitMin.toNat else none
  hopLimitMax :=
    if r.identity.hops.hopLimitObserved then some r.identity.hops.hopLimitMax.toNat else none
  hopLimitMode :=
    if r.identity.hops.hopLimitObserved then some r.identity.hops.hopLimitMode.toNat else none
  hopLimitDistinctCount := r.identity.hops.hopLimitDistinctCount.toNat
  ipIdObservedCount := r.identity.ids.ipIdObservedCount
  ipIdZeroCount := r.identity.ids.ipIdZeroCount
  ipIdDistinctCount := r.identity.ids.ipIdDistinctCount.toNat
  ipIdValuesTruncated := r.identity.ids.ipIdValuesTruncated
  ipIdMonotonicTransitions := r.identity.ids.ipIdMonotonicTransitions
  ipIdTransitionCount := r.identity.ids.ipIdTransitionCount

/-! ## The controller -/

/-- Why the controller refuses a record. -/
inductive Rejection where
  /-- fields, each with the kind of its error or the text of it -/
  | fields (errors : List (String × String))
  /-- a `ValueError` of `valid_tcp_flag_metadata` -/
  | value (message : String)
  deriving DecidableEq, Repr

/-- `name.strip().lower()`. -/
def flagName (key : String) : String :=
  String.ofList ((((key.toList.dropWhile Char.isWhitespace).reverse.dropWhile
    Char.isWhitespace).reverse).map Char.toLower)

/-- `validate_tcp_flags`: the error of a flag, if it has one. A number is a float unless it is
integral. -/
def flagError (seen : List String) (key : String) (val : ℚ) : Option String :=
  let name := flagName key
  if name = "" ∨ 64 < name.length then some "TCP flag name must contain 1 to 64 characters"
  else if name ∈ seen then some ("duplicate TCP flag: " ++ name)
  else if val < 0 then some ("tcp_flags[" ++ key ++ "] must be non-negative")
  else if 2 ^ 64 - 1 < val then some ("tcp_flags[" ++ key ++ "] exceeds uint64")
  else if name ∉ ["rst_ratio", "syn_ack_ratio"] ∧ val.den ≠ 1 then
    some ("tcp_flags[" ++ key ++ "] must be an integer count")
  else none

/-- `validate_tcp_flags`: the error of the first flag that has one. -/
def flagsError : List String → List (String × ℚ) → Option String
  | _, [] => none
  | seen, (key, val) :: rest =>
    match flagError seen key val with
    | some message => some message
    | none => flagsError (flagName key :: seen) rest

/-- The error of a field whose constraint does not hold. -/
def constraint (field kind : String) (holds : Bool) : List (String × String) :=
  if holds then [] else [(field, kind)]

/-- A constraint on a field that may be absent. -/
def optionally {α : Type} (value : Option α) (holds : α → Bool) : Bool := value.all holds

/-- Lowercase hexadecimal digits. -/
def isLowerHex (c : Char) : Bool := "0123456789abcdef".toList.contains c

/-- The pattern `^(?:[0-9a-fA-F]{2})+$`, with the braces of a count. -/
def isHexText (s : String) : Bool :=
  s ≠ "" && s.length % 2 = 0 && s.toList.all fun c => "0123456789abcdefABCDEF".toList.contains c

/-- The names of the controller's `Direction`. -/
def directionNames : List String := ["INBOUND", "OUTBOUND", "BIDIRECTIONAL", "UNKNOWN"]

/-- The errors of the fields. -/
def fieldErrors (r : FlowRecord) : List (String × String) :=
  List.flatten [
    constraint "timestamp" "datetime" (minMicros ≤ r.timestamp / 1000 ∧ r.timestamp / 1000 ≤ maxMicros),
    constraint "source_port" "less_than_equal" (r.sourcePort ≤ 65535),
    constraint "destination_port" "less_than_equal" (r.destinationPort ≤ 65535),
    constraint "direction" "enum" (r.direction ∈ directionNames),
    constraint "packet_count" "greater_than_equal" (1 ≤ r.packetCount),
    constraint "duration_seconds" "greater_than_equal" (0 ≤ r.durationSeconds),
    constraint "duration_seconds" "less_than_equal" (r.durationSeconds ≤ 31536000),
    ((flagsError [] r.tcpFlags).map fun message => ("tcp_flags", message)).toList,
    constraint "last_payload_hash" "string_pattern_mismatch" (optionally r.lastPayloadHash Ddos.isHash),
    constraint "payload_prefix_hash" "string_pattern_mismatch"
      (optionally r.payloadPrefixHash Ddos.isHash),
    constraint "payload_sample_hex" "string_too_long"
      (optionally r.payloadSampleHex fun s => s.length ≤ 512),
    constraint "payload_sample_hex" "string_pattern_mismatch" (optionally r.payloadSampleHex isHexText),
    constraint "payload_entropy" "greater_than_equal" (optionally r.payloadEntropy fun e => 0 ≤ e),
    constraint "payload_entropy" "less_than_equal" (optionally r.payloadEntropy fun e => e ≤ 8),
    constraint "payload_printable_ratio" "greater_than_equal"
      (optionally r.payloadPrintableRatio fun q => 0 ≤ q),
    constraint "payload_printable_ratio" "less_than_equal"
      (optionally r.payloadPrintableRatio fun q => q ≤ 1),
    constraint "payload_simhash" "string_pattern_mismatch"
      (optionally r.payloadSimhash fun s => s.length = 16 && s.toList.all isLowerHex),
    constraint "payload_feature_version" "string_pattern_mismatch"
      (optionally r.payloadFeatureVersion fun s =>
        1 ≤ s.length && s.length ≤ 8 && s.toList.all Char.isDigit),
    constraint "packet_sizes" "too_long" (r.packetSizes.length ≤ 32),
    constraint "average_packet_size" "greater_than_equal"
      (optionally r.averagePacketSize fun q => 0 ≤ q),
    constraint "average_packet_size" "less_than_equal"
      (optionally r.averagePacketSize fun q => q ≤ 65535),
    constraint "hop_limit_min" "less_than_equal" (optionally r.hopLimitMin fun n => n ≤ 255),
    constraint "hop_limit_max" "less_than_equal" (optionally r.hopLimitMax fun n => n ≤ 255),
    constraint "hop_limit_mode" "less_than_equal" (optionally r.hopLimitMode fun n => n ≤ 255),
    constraint "hop_limit_distinct_count" "less_than_equal" (r.hopLimitDistinctCount ≤ 256),
    constraint "ip_id_observed_count" "less_than_equal" (r.ipIdObservedCount ≤ 2 ^ 64 - 1),
    constraint "ip_id_zero_count" "less_than_equal" (r.ipIdZeroCount ≤ 2 ^ 64 - 1),
    constraint "ip_id_distinct_count" "less_than_equal" (r.ipIdDistinctCount ≤ 64),
    constraint "ip_id_monotonic_transitions" "less_than_equal"
      (r.ipIdMonotonicTransitions ≤ 2 ^ 64 - 1),
    constraint "ip_id_transition_count" "less_than_equal" (r.ipIdTransitionCount ≤ 2 ^ 64 - 1),
    constraint "tcp_syn_only_observations" "too_long"
      (optionally r.tcpSynOnlyObservations fun os => os.length ≤ 16),
    constraint "tcp_syn_only_observations" "less_than_equal"
      (optionally r.tcpSynOnlyObservations fun os => os.all fun o => o.offsetUs ≤ 31536000000000)]

/-- `raise ValueError(message)` where a condition holds. -/
def refuse (condition : Bool) (message : String) : Except Rejection Unit :=
  if condition then .error (.value message) else .ok ()

/-- The text of what `validate_packet_evidence` raises. -/
def failureText : Ddos.Failure → String
  | .invalidRecord message | .valueError message => message
  | .overflowError => ""

/-- The protocol, of which the check of evidence only asks whether it is UDP. -/
def evidenceProtocol (name : String) : Ddos.Protocol := if name = "UDP" then .udp else .tcp

/-- The check of the evidence. -/
def checkEvidence (r : FlowRecord) : Except Rejection Unit :=
  match Ddos.validatePacketEvidence r.ddosPacketEvidence r.packetCount
      (Ddos.packetIntervalUs (r.timestamp / 1000) r.durationSeconds)
      (evidenceProtocol r.protocol.toUpper) (some r.sourcePort) (some r.destinationPort) with
  | .error failure => .error (.value (failureText failure))
  | .ok _ => .ok ()

/-- The counters of TCP flags. -/
def FlowRecord.counters (r : FlowRecord) : List Nat :=
  [r.tcpSynCount, r.tcpAckCount, r.tcpRstCount, r.tcpSynOnlyCount, r.tcpSynAckCount, r.tcpAckOnlyCount]

section

variable (r : FlowRecord)

/-- The checks of the counters of TCP flags. -/
def checkCounters : Except Rejection Unit := do
  refuse (!r.tcpFlagsObserved && r.counters.any (· ≠ 0)) "TCP flag counters require tcp_flags_observed"
  refuse (r.tcpFlagsObserved && r.protocol.toUpper ≠ "TCP")
    "tcp_flags_observed is valid only for TCP records"
  refuse (r.counters.any (r.packetCount < ·)) "TCP flag counter exceeds packet_count"
  refuse (r.transportPayloadPacketCount.any (r.packetCount < ·))
    "transport payload packet count exceeds packet_count"
  refuse (r.tcpSynCount < r.tcpSynOnlyCount + r.tcpSynAckCount)
    "TCP SYN combination counters exceed tcp_syn_count"
  refuse (r.tcpAckCount < r.tcpSynAckCount + r.tcpAckOnlyCount)
    "TCP ACK combination counters exceed tcp_ack_count"
  refuse (r.packetCount < r.tcpSynOnlyCount + r.tcpSynAckCount + r.tcpAckOnlyCount + r.tcpRstCount)
    "mutually exclusive TCP shape counters exceed packet_count"

/-- The checks of the observations of SYN packets. -/
def checkObservations : Except Rejection Unit :=
  match r.tcpSynOnlyObservations with
  | some observations => do
    refuse (!r.tcpFlagsObserved || r.protocol.toUpper ≠ "TCP")
      "TCP SYN observations require observed TCP metadata"
    -- `offsets != sorted(set(offsets))`
    refuse (!decide ((observations.map SynOnly.offsetUs).Pairwise (· < ·)))
      "TCP SYN observation offsets must be unique and increasing"
    refuse ((observations.getLast?.map SynOnly.offsetUs).any fun last =>
        roundHalfEven (r.durationSeconds * 1000000) < last)
      "TCP SYN observation offset exceeds flow duration"
    refuse (!r.tcpSynOnlyObservationsTruncated && observations.length ≠ r.tcpSynOnlyCount)
      "complete TCP SYN observations must match SYN-only count"
  | none =>
    refuse r.tcpSynOnlyObservationsTruncated
      "truncated TCP SYN observations require an observation array"

/-- The check of the range of hop limits. -/
def checkHopRange : Except Rejection Unit :=
  match r.hopLimitMin, r.hopLimitMax, r.hopLimitMode with
  | none, none, none =>
    refuse (r.hopLimitDistinctCount ≠ 0) "hop limit distinct count requires observed statistics"
  | some minimum, some maximum, some mode => do
    refuse (r.hopLimitDistinctCount < 1) "hop limit statistics must be complete"
    refuse (!(minimum ≤ mode && mode ≤ maximum)) "hop limit mode must be within the observed range"
  | _, _, _ => .error (.value "hop limit statistics must be complete")

/-- The checks of the hop limits. -/
def checkHops : Except Rejection Unit := do
  checkHopRange r
  refuse (r.packetCount < r.hopLimitDistinctCount) "hop limit distinct count exceeds packet count"

/-- The checks of the IP identifiers. -/
def checkIds : Except Rejection Unit := do
  refuse (r.packetCount < r.ipIdObservedCount) "IP ID observed count exceeds packet count"
  refuse (r.ipIdObservedCount < r.ipIdZeroCount) "IP ID zero count exceeds observed count"
  refuse (r.ipIdObservedCount < r.ipIdDistinctCount) "IP ID distinct count exceeds observed count"
  refuse (r.ipIdTransitionCount < r.ipIdMonotonicTransitions)
    "IP ID monotonic transitions exceed transition count"
  refuse (max 0 (r.ipIdObservedCount - 1) < r.ipIdTransitionCount)
    "IP ID transitions exceed observed count"

/-- `valid_tcp_flag_metadata`. -/
def validTcpFlagMetadata : Except Rejection Unit := do
  checkEvidence r
  checkCounters r
  checkObservations r
  checkHops r
  checkIds r

/-- The validation of a `FlowRecord`. -/
def validate : Except Rejection Unit :=
  if fieldErrors r = [] then validTcpFlagMetadata r else .error (.fields (fieldErrors r))

end

end C2Hunter.Aggregate
