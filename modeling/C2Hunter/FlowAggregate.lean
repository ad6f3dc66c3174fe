import C2Hunter.DdosRecord
import C2Hunter.Shannon
import C2Hunter.Table
import Mathlib.Algebra.Order.Round

/-!
# Aggregation of packets into flow records

The aggregator of a sensor, `flow.go` and `ddos.go` of the package `flow`, with the packets that
`packetDecoder.Decode` hands to it. The fields of `Record` are grouped by the function that
maintains them.

* `Frame`, `decode` — a captured frame, by its layers, and the packet of it.
* `Lib` — hashes, and the entropy of a payload, which is exact until it is rounded.
* `Identity`, `Sizes`, `Payload`, `Tcp`, `Evidence` — the parts of a record, and how a packet
  changes each.
* `Record`, `accumulate`, `finalize` — one record.
* `Aggregator`, `addWithMetadata`, `expire`, `flush` — the records that are active. A map is ranged
  over in any order and the sort is not stable, so that a `Sorting` is chosen at each call.
* `Event`, `run` — calls in a row, and the records that they return.

Times are nanoseconds from the epoch. Counters of type `uint64` are natural numbers.
-/

namespace C2Hunter.Aggregate

open Ddos (Sample)
open Ddos.Sensor (Protocol TCPFlags ddosSample simHashText)

/-! ## Packets -/

/-- `Direction`. -/
inductive Direction where
  | unknown
  | inbound
  | outbound
  | bidirectional
  deriving DecidableEq, Repr

/-- `Direction.String`. -/
def Direction.text : Direction → String
  | unknown => "UNKNOWN"
  | inbound => "INBOUND"
  | outbound => "OUTBOUND"
  | bidirectional => "BIDIRECTIONAL"

/-- `reverseDirection`. -/
def reverseDirection : Direction → Direction
  | .inbound => .outbound
  | .outbound => .inbound
  | d => d

/-- The zero value of `time.Time`, which is the start of the year 1. -/
def zeroTime : Int := minMicros * 1000

/-- `Packet`, as far as an aggregator reads it. -/
structure Packet : Type extends Ddos.Sensor.Packet where
  wireLength : Int
  direction : Direction
  ipVersion : UInt8
  sourceIp : IPAddress
  destinationIp : IPAddress
  ipId : UInt16
  ipIdObserved : Bool
  hopLimit : UInt8
  hopLimitObserved : Bool
  tcpSequence : UInt32
  /-- the years that a document can carry -/
  inRange : minMicros ≤ timestamp / 1000 ∧ timestamp / 1000 ≤ maxMicros

/-- The network layer of a frame. -/
inductive Network where
  | ip4 (id length fragOffset : UInt16) (moreFragments : Bool) (ttl : UInt8)
  | ip6 (length : UInt16) (nextHeader hopLimit : UInt8)

/-- The layer above it, as far as it is decoded. -/
inductive Transport where
  | tcp (sourcePort destinationPort : UInt16) (sequence : UInt32) (flags : TCPFlags) (payload : Bytes)
  | udp (sourcePort destinationPort : UInt16) (payload : Bytes)
  | icmp
  | unsupported

/-- A captured frame of an IP packet, with the direction that the classifier gives to it. -/
structure Frame where
  timestamp : Int
  captureLength : Int
  length : Int
  direction : Direction
  sourceIp : IPAddress
  destinationIp : IPAddress
  network : Network
  transport : Transport
  /-- the years that a document can carry -/
  inRange : minMicros ≤ timestamp / 1000 ∧ timestamp / 1000 ≤ maxMicros

def noFlags : TCPFlags := ⟨false, false, false, false, false, false, false, false⟩

/-- `packetDecoder.Decode`, of a frame that is not malformed. -/
def decode (f : Frame) : Packet where
  timestamp := f.timestamp
  wireLength := f.length
  direction := f.direction
  sourceIp := f.sourceIp
  destinationIp := f.destinationIp
  ipVersion := match f.network with
    | .ip4 .. => 4
    | .ip6 .. => 6
  ipId := match f.network with
    | .ip4 id .. => id
    | .ip6 .. => 0
  ipIdObserved := match f.network with
    | .ip4 .. => true
    | .ip6 .. => false
  ipLength := match f.network with
    | .ip4 _ length .. => length.toUInt32
    | .ip6 length .. => 40 + length.toUInt32
  evidenceComplete := match f.network with
    | .ip4 _ _ fragOffset moreFragments _ =>
      f.captureLength = f.length ∧ fragOffset = 0 ∧ !moreFragments
    | .ip6 length nextHeader _ =>
      f.captureLength = f.length ∧ 0 < length ∧ (nextHeader = 6 ∨ nextHeader = 17)
  hopLimit := match f.network with
    | .ip4 _ _ _ _ ttl => ttl
    | .ip6 _ _ hopLimit => hopLimit
  hopLimitObserved := true
  protocol := match f.transport with
    | .tcp .. => .tcp
    | .udp .. => .udp
    | .icmp => .icmp
    | .unsupported => .unknownProtocol
  sourcePort := match f.transport with
    | .tcp port .. | .udp port .. => port
    | .icmp | .unsupported => 0
  destinationPort := match f.transport with
    | .tcp _ port .. | .udp _ port .. => port
    | .icmp | .unsupported => 0
  tcpSequence := match f.transport with
    | .tcp _ _ sequence .. => sequence
    | _ => 0
  tcpFlags := match f.transport with
    | .tcp _ _ _ flags _ => flags
    | _ => noFlags
  payload := match f.transport with
    | .tcp _ _ _ _ payload | .udp _ _ payload => payload
    | .icmp | .unsupported => []
  inRange := f.inRange

/-! ## Payload features -/

/-- `round4`, of a number that is not negative. -/
def round4 {K : Type} [Field K] [LinearOrder K] [IsStrictOrderedRing K] [FloorRing K] (x : K) : K :=
  round (x * 10000) / 10000

/-- How often each byte is in a payload. -/
def byteCounts (payload : Bytes) (value : Fin 256) : ℕ := payload.countP fun b => b.toNat = value.val

/-- The functions of libraries that a sensor uses. -/
structure Lib where
  /-- `sha256.Sum256`, as text -/
  sha256 : Bytes → String
  /-- the field `Entropy` of a payload -/
  entropy : Bytes → ℚ
  isHash_sha256 : ∀ data, Ddos.isHash (sha256 data) = true
  entropy_eq : ∀ payload, (entropy payload : ℝ) = round4 (Shannon.entropy (byteCounts payload))

/-- A byte that is printed as it is. -/
def isPrintable (value : UInt8) : Bool :=
  (0x20 ≤ value && value ≤ 0x7e) || value == 9 || value == 10 || value == 13

/-- `Features`. -/
structure Features where
  hash : String := ""
  prefixHash : String := ""
  length : UInt32 := 0
  entropy : ℚ := 0
  printableRatio : ℚ := 0
  simHash : String := ""
  version : String := ""

/-- `payloadfeature.Compute`. -/
def computeFeatures (lib : Lib) (payload : Bytes) : Features :=
  if payload.length = 0 then {}
  else
    { hash := lib.sha256 payload
      prefixHash := lib.sha256 (if 32 < payload.length then Bytes.slice payload 0 32 else payload)
      length := UInt32.ofNat payload.length
      entropy := lib.entropy payload
      printableRatio := round4 ((payload.countP isPrintable : ℚ) / payload.length)
      simHash := simHashText payload
      version := "1" }

/-! ## The parts of a record -/

/-- `Time.Sub`, which stays in the range of a `Duration`. -/
def sub (t u : Int) : Int := max (-2 ^ 63) (min (2 ^ 63 - 1) (t - u))

/-- `Duration.Microseconds`. -/
def microseconds (d : Int) : Int := d.tdiv 1000

/-- Hop limits, of which `finalize` adds the mode. -/
structure Hops where
  hopLimitMin : UInt8 := 0
  hopLimitMax : UInt8 := 0
  hopLimitMode : UInt8 := 0
  hopLimitDistinctCount : UInt16 := 0
  hopLimitObserved : Bool := false
  hopLimitCounts : UInt8 → UInt32 := fun _ => 0

namespace Hops

/-- The hop limit of a packet, in `trackNetworkIdentity`. -/
def track (h : Hops) (p : Packet) : Hops :=
  if p.hopLimitObserved then
    let low := if h.hopLimitObserved then h.hopLimitMin else p.hopLimit
    let high := if h.hopLimitObserved then h.hopLimitMax else p.hopLimit
    { h with
      hopLimitObserved := true
      hopLimitMin := if p.hopLimit < low then p.hopLimit else low
      hopLimitMax := if high < p.hopLimit then p.hopLimit else high
      hopLimitDistinctCount :=
        if h.hopLimitCounts p.hopLimit = 0 then h.hopLimitDistinctCount + 1
        else h.hopLimitDistinctCount
      hopLimitCounts := Function.update h.hopLimitCounts p.hopLimit (h.hopLimitCounts p.hopLimit + 1) }
  else h

/-- The loop of `finalize`: the first hop limit with the largest count, and that count. -/
def mode (counts : UInt8 → UInt32) (initial : UInt8) : UInt8 × UInt32 :=
  (List.range 256).foldl (fun (best : UInt8 × UInt32) hopLimit =>
    if best.2 < counts (UInt8.ofNat hopLimit) then
      (UInt8.ofNat hopLimit, counts (UInt8.ofNat hopLimit))
    else best) (initial, 0)

end Hops

/-- IP identifiers. -/
structure Ids where
  ipIdObservedCount : Nat := 0
  ipIdZeroCount : Nat := 0
  ipIdDistinctCount : UInt16 := 0
  ipIdValuesTruncated : Bool := false
  ipIdMonotonicTransitions : Nat := 0
  ipIdTransitionCount : Nat := 0
  ipIdValues : List UInt16 := []
  lastIpId : UInt16 := 0
  lastIpIdObserved : Bool := false

namespace Ids

/-- The values of the identifiers, of which 64 are kept. -/
def trackValue (i : Ids) (id : UInt16) : Ids :=
  if id ∈ i.ipIdValues then i
  else if i.ipIdValues.length < 64 then
    { i with ipIdValues := i.ipIdValues ++ [id], ipIdDistinctCount := i.ipIdDistinctCount + 1 }
  else { i with ipIdValuesTruncated := true }

/-- The step from the last identifier to this one. -/
def trackTransition (i : Ids) (id : UInt16) : Ids :=
  if i.lastIpIdObserved then
    { i with
      ipIdTransitionCount := i.ipIdTransitionCount + 1
      ipIdMonotonicTransitions :=
        if id = i.lastIpId + 1 then i.ipIdMonotonicTransitions + 1 else i.ipIdMonotonicTransitions }
  else i

/-- The identifier of a packet, in `trackNetworkIdentity`. -/
def track (i : Ids) (p : Packet) : Ids :=
  if p.ipIdObserved then
    let i := { i with
      ipIdObservedCount := i.ipIdObservedCount + 1
      ipIdZeroCount := if p.ipId = 0 then i.ipIdZeroCount + 1 else i.ipIdZeroCount }
    let i := (i.trackValue p.ipId).trackTransition p.ipId
    { i with lastIpId := p.ipId, lastIpIdObserved := true }
  else i

end Ids

/-- What `trackNetworkIdentity` maintains. -/
structure Identity where
  hops : Hops := {}
  ids : Ids := {}

/-- `trackNetworkIdentity`. -/
def Identity.trackNetworkIdentity (i : Identity) (p : Packet) : Identity where
  hops := i.hops.track p
  ids := i.ids.track p

/-- Sizes of packets and payloads; `finalize` adds the averages. -/
structure Sizes where
  totalBytes : Nat := 0
  minPacketSize : UInt32
  maxPacketSize : UInt32 := 0
  avgPacketSize : ℚ := 0
  minPayloadLength : UInt32
  maxPayloadLength : UInt32 := 0
  avgPayloadLength : ℚ := 0
  packetSizeSum : Nat := 0
  payloadLengthSum : Nat := 0

/-- `uint32(p.WireLength)`. -/
def Packet.wireLength32 (p : Packet) : UInt32 := UInt32.ofNat p.wireLength.toNat

/-- `uint32(len(p.Payload))`. -/
def Packet.payloadLength32 (p : Packet) : UInt32 := UInt32.ofNat p.payload.length

/-- The sizes, in `AddWithMetadata`. -/
def Sizes.track (s : Sizes) (p : Packet) : Sizes :=
  { s with
    totalBytes := s.totalBytes + p.wireLength.toNat
    packetSizeSum := s.packetSizeSum + p.wireLength.toNat
    minPacketSize := if p.wireLength32 < s.minPacketSize then p.wireLength32 else s.minPacketSize
    maxPacketSize := if s.maxPacketSize < p.wireLength32 then p.wireLength32 else s.maxPacketSize
    payloadLengthSum := s.payloadLengthSum + p.payloadLength32.toNat
    minPayloadLength :=
      if p.payloadLength32 < s.minPayloadLength then p.payloadLength32 else s.minPayloadLength
    maxPayloadLength :=
      if s.maxPayloadLength < p.payloadLength32 then p.payloadLength32 else s.maxPayloadLength }

/-- What is kept of payloads. -/
structure Payload where
  payloadPacketCount : Nat := 0
  firstPayloadHash : String := ""
  lastPayloadHash : String := ""
  payloadPrefixHash : String := ""
  payloadSimHash : String := ""
  payloadSampleHex : String := ""
  firstPayloadLength : UInt32 := 0
  payloadEntropy : ℚ := 0
  payloadPrintable : ℚ := 0
  payloadFeatureVersion : String := ""

/-- The features of the first payload, and a sample of it. -/
def Payload.first (l : Payload) (features : Features) (payload : Bytes) (previewBytes : Nat) : Payload :=
  { l with
    firstPayloadHash := features.hash
    payloadPrefixHash := features.prefixHash
    firstPayloadLength := features.length
    payloadEntropy := features.entropy
    payloadPrintable := features.printableRatio
    payloadSimHash := features.simHash
    payloadFeatureVersion := features.version
    payloadSampleHex :=
      if 0 < previewBytes then
        hex (if previewBytes < payload.length then Bytes.slice payload 0 previewBytes else payload)
      else l.payloadSampleHex }

/-- The payload, in `AddWithMetadata`. -/
def Payload.track (lib : Lib) (previewBytes : Nat) (l : Payload) (p : Packet) : Payload :=
  if 0 < p.payload.length then
    let features := computeFeatures lib p.payload
    let l := { l with payloadPacketCount := l.payloadPacketCount + 1 }
    let l := if l.firstPayloadHash = "" then l.first features p.payload previewBytes else l
    { l with lastPayloadHash := features.hash }
  else l

/-- `FlagCounts`. -/
structure FlagCounts where
  fin : Nat := 0
  syn : Nat := 0
  rst : Nat := 0
  psh : Nat := 0
  ack : Nat := 0
  urg : Nat := 0
  ece : Nat := 0
  cwr : Nat := 0
  deriving DecidableEq

/-- `addFlags`. -/
def addFlags (c : FlagCounts) (f : TCPFlags) : FlagCounts where
  fin := if f.fin then c.fin + 1 else c.fin
  syn := if f.syn then c.syn + 1 else c.syn
  rst := if f.rst then c.rst + 1 else c.rst
  psh := if f.psh then c.psh + 1 else c.psh
  ack := if f.ack then c.ack + 1 else c.ack
  urg := if f.urg then c.urg + 1 else c.urg
  ece := if f.ece then c.ece + 1 else c.ece
  cwr := if f.cwr then c.cwr + 1 else c.cwr

/-- `TCPSYNOnlyObservation`. -/
structure SynOnly where
  offsetUs : Nat
  sequence : UInt32
  deriving DecidableEq

/-- `maxTCPSYNOnlyObservations`. -/
def maxTcpSynOnlyObservations : Nat := 16

/-- What is counted of TCP flags; `finalize` adds the ratios. -/
structure Tcp where
  tcpFlags : FlagCounts := {}
  tcpFlagsObserved : Bool := false
  tcpSynOnlyCount : Nat := 0
  tcpSynAckCount : Nat := 0
  tcpAckOnlyCount : Nat := 0
  tcpSynOnlyObservations : List SynOnly := []
  tcpSynOnlyObservationsTruncated : Bool := false
  synAckRatio : Option ℚ := none
  rstRatio : Option ℚ := none
  connectionCount : Option Nat := none

namespace Tcp

/-- An offset that does not come after the last one. -/
def notAfterLast (t : Tcp) (offset : Nat) : Bool :=
  match t.tcpSynOnlyObservations.getLast? with
  | some last => offset ≤ last.offsetUs
  | none => false

/-- The observation of a SYN, in `trackTCPFlagCombinations`. -/
def observeSyn (t : Tcp) (startTime : Int) (p : Packet) : Tcp :=
  let offset := microseconds (sub p.timestamp startTime)
  if offset < 0 ∨ t.notAfterLast offset.toNat then { t with tcpSynOnlyObservationsTruncated := true }
  else if t.tcpSynOnlyObservations.length < maxTcpSynOnlyObservations then
    { t with
      tcpSynOnlyObservations := t.tcpSynOnlyObservations ++ [⟨offset.toNat, p.tcpSequence⟩] }
  else { t with tcpSynOnlyObservationsTruncated := true }

/-- `trackTCPFlagCombinations`. -/
def trackTcpFlagCombinations (t : Tcp) (startTime : Int) (p : Packet) : Tcp :=
  if p.protocol ≠ .tcp then t
  else
    let t := { t with tcpFlagsObserved := true }
    if p.tcpFlags.syn && p.tcpFlags.ack && !p.tcpFlags.rst then
      { t with tcpSynAckCount := t.tcpSynAckCount + 1 }
    else if p.tcpFlags.syn && !p.tcpFlags.ack && !p.tcpFlags.rst then
      { t with tcpSynOnlyCount := t.tcpSynOnlyCount + 1 }.observeSyn startTime p
    else if p.tcpFlags.ack && !p.tcpFlags.syn && !p.tcpFlags.rst then
      { t with tcpAckOnlyCount := t.tcpAckOnlyCount + 1 }
    else t

/-- The flags, in `AddWithMetadata`. -/
def track (t : Tcp) (startTime : Int) (p : Packet) : Tcp :=
  { t with tcpFlags := addFlags t.tcpFlags p.tcpFlags }.trackTcpFlagCombinations startTime p

/-- `addTCPFlagCombinations`. -/
def addTcpFlagCombinations (t : Tcp) (packetCount : Nat) : Tcp :=
  { t with
    synAckRatio :=
      if 0 < t.tcpFlags.syn ∧ 0 < t.tcpFlags.ack then some (t.tcpFlags.syn / t.tcpFlags.ack)
      else t.synAckRatio
    rstRatio := if 0 < packetCount then some (t.tcpFlags.rst / packetCount) else t.rstRatio
    connectionCount := if 0 < t.tcpFlags.syn then some t.tcpFlags.syn else t.connectionCount }

end Tcp

/-- `DDoSEvidence`. -/
structure Evidence where
  version : Int := 1
  samples : List Sample := []
  omittedSamples : Nat := 0

/-- `Kind`, of which the empty text is none. -/
inductive Kind where
  | dns
  | http
  | tls
  | unknown
  deriving DecidableEq, Repr

/-- `TLS`, as far as it is read. -/
structure Tls where
  sni : String
  clientHelloFingerprint : String
  serverHelloFingerprint : String
  certificateSha256 : String

/-- `Metadata`, as far as it is read: the name of a DNS query, the host of an HTTP request. -/
structure Metadata where
  kind : Option Kind := none
  dnsQueryName : Option String := none
  httpHost : Option String := none
  tls : Option Tls := none

/-! ## Records -/

/-- `Key`. -/
structure Key where
  sensorId : String
  direction : Direction
  ipVersion : UInt8
  sourceIp : IPAddress
  destinationIp : IPAddress
  sourcePort : UInt16
  destinationPort : UInt16
  protocol : Protocol
  deriving DecidableEq

/-- The key of a packet. -/
def keyOf (sensorId : String) (p : Packet) : Key :=
  ⟨sensorId, p.direction, p.ipVersion, p.sourceIp, p.destinationIp, p.sourcePort, p.destinationPort,
    p.protocol⟩

/-- The key of the other direction. -/
def reverseKeyOf (sensorId : String) (p : Packet) : Key :=
  ⟨sensorId, reverseDirection p.direction, p.ipVersion, p.destinationIp, p.sourceIp,
    p.destinationPort, p.sourcePort, p.protocol⟩

/-- `Record`. -/
structure Record where
  key : Key
  captureJobId : String
  startTime : Int
  endTime : Int := zeroTime
  packetCount : Nat := 0
  sizes : Sizes
  payload : Payload := {}
  tcp : Tcp := {}
  identity : Identity := {}
  bidirectional : Bool := false
  protocolMetadata : Metadata := {}
  ddosPacketEvidence : Option Evidence := none

/-- The record that a packet opens. -/
def newRecord (sensorId jobId : String) (p : Packet) : Record where
  key := keyOf sensorId p
  captureJobId := jobId
  startTime := p.timestamp
  sizes := { minPacketSize := p.wireLength32, minPayloadLength := p.payloadLength32 }

/-- `finalize`. -/
def finalize (r : Record) : Record :=
  let hops := r.identity.hops
  let identity :=
    { r.identity with
      hops := { hops with hopLimitMode := (Hops.mode hops.hopLimitCounts hops.hopLimitMode).1 } }
  if 0 < r.packetCount then
    { r with
      identity
      sizes := { r.sizes with
        avgPacketSize := r.sizes.packetSizeSum / r.packetCount
        avgPayloadLength := r.sizes.payloadLengthSum / r.packetCount }
      tcp := r.tcp.addTcpFlagCombinations r.packetCount }
  else { r with identity }

/-! ## Evidence -/

/-- `maxDDoSSamples`. -/
def maxDdosSamples : Nat := 32768

/-- `maxDDoSSamplesTarget`. -/
def maxDdosSamplesTarget : Nat := 2048

/-- `maxDDoSSamplesSource`. -/
def maxDdosSamplesSource : Nat := 32

/-- `maxDDoSSamplesFlow`. -/
def maxDdosSamplesFlow : Nat := 16

/-- `ddosTarget`. -/
structure DdosTarget where
  ip : IPAddress
  port : UInt16
  protocol : Protocol
  deriving DecidableEq

/-- The samples that an aggregator took in its life. -/
structure DdosCounts where
  ddosSamples : Nat
  ddosSources : Dict IPAddress Nat
  ddosTargets : Dict DdosTarget Nat

def Packet.ddosTarget (p : Packet) : DdosTarget := ⟨p.destinationIp, p.destinationPort, p.protocol⟩

namespace DdosCounts

/-- No sample is taken of a packet. -/
def refuses (c : DdosCounts) (startTime : Int) (evidence : Evidence) (p : Packet) : Bool :=
  maxDdosSamples ≤ c.ddosSamples || maxDdosSamplesSource ≤ c.ddosSources.getD p.sourceIp 0 ||
    maxDdosSamplesTarget ≤ c.ddosTargets.getD p.ddosTarget 0 ||
    maxDdosSamplesFlow ≤ evidence.samples.length || p.timestamp < startTime

/-- The counts with one more sample. -/
def take (c : DdosCounts) (p : Packet) : DdosCounts where
  ddosSamples := c.ddosSamples + 1
  ddosSources := c.ddosSources.bump p.sourceIp
  ddosTargets := c.ddosTargets.bump p.ddosTarget

end DdosCounts

/-- A packet of which there is no sample. -/
def Evidence.skip (e : Evidence) : Evidence := { e with omittedSamples := e.omittedSamples + 1 }

/-- `trackDDoS`. -/
def trackDdos (lib : Lib) (c : DdosCounts) (startTime : Int) (evidence : Option Evidence)
    (p : Packet) : DdosCounts × Option Evidence :=
  if ¬p.evidenceComplete ∨ (p.protocol ≠ .tcp ∧ p.protocol ≠ .udp) then (c, evidence)
  else
    let evidence := evidence.getD {}
    if c.refuses startTime evidence p then (c, some evidence.skip)
    else
      match ddosSample lib.sha256 p.toPacket with
      | none => (c, some evidence.skip)
      | some sample => (c.take p, some { evidence with samples := evidence.samples ++ [sample] })

/-- What `AddWithMetadata` does to the record of a packet. -/
def accumulate (lib : Lib) (previewBytes : Nat) (c : DdosCounts) (r : Record) (p : Packet)
    (metadata : Metadata) : DdosCounts × Record :=
  let tracked := trackDdos lib c r.startTime r.ddosPacketEvidence p
  (tracked.1,
    { r with
      endTime := if r.endTime < p.timestamp then p.timestamp else r.endTime
      packetCount := r.packetCount + 1
      identity := r.identity.trackNetworkIdentity p
      ddosPacketEvidence := tracked.2
      sizes := r.sizes.track p
      payload := r.payload.track lib previewBytes p
      tcp := r.tcp.track r.startTime p
      protocolMetadata := if metadata.kind.isSome then metadata else r.protocolMetadata })

/-! ## The aggregator -/

/-- `Aggregator`. -/
structure Aggregator : Type extends DdosCounts where
  sensorId : String
  jobId : String
  idle : Int
  payloadPreviewBytes : Nat
  active : Table Record.key
  idle_pos : 0 < idle
  preview_le : payloadPreviewBytes ≤ 256

/-- `NewAggregatorWithPayloadPreview`. -/
def newAggregator (sensorId jobId : String) (idle payloadPreviewBytes : Int) : Aggregator where
  ddosSamples := 0
  ddosSources := Table.empty
  ddosTargets := Table.empty
  sensorId := sensorId
  jobId := jobId
  idle := if idle ≤ 0 then 60000000000 else idle
  payloadPreviewBytes := (min payloadPreviewBytes 256).toNat
  active := Table.empty
  idle_pos := by
    split
    · decide
    · omega
  preview_le := by omega

/-- A record that is idle at a time. -/
def Record.stale (idle : Int) (r : Record) (now : Int) : Bool := !(now < r.endTime + idle)

namespace Aggregator

/-- The record that a packet comes too late for, and the one that it goes to. -/
def recordFor (a : Aggregator) (p : Packet) : Option Record × Record :=
  match a.active.get? (keyOf a.sensorId p) with
  | none => (none, newRecord a.sensorId a.jobId p)
  | some r =>
    if r.stale a.idle p.timestamp then (some r, newRecord a.sensorId a.jobId p) else (none, r)

end Aggregator

/-- Both directions of a flow are seen. -/
def setBidirectional (active : Table Record.key) (key : Key) : Table Record.key :=
  match active.get? key with
  | none => active
  | some r => active.put { r with bidirectional := true }

/-- Where the record of the other direction is active, both are marked. -/
def pair (active : Table Record.key) (key reverse : Key) : Table Record.key :=
  if (active.get? reverse).isSome then setBidirectional (setBidirectional active key) reverse
  else active

/-- An order of records by their start, which `sortRecords` may leave them in. -/
structure Sorting where
  sort : List Record → List Record
  perm : ∀ records, (sort records).Perm records
  sorted : ∀ records, (sort records).Pairwise fun r s => r.startTime ≤ s.startTime

namespace Aggregator

/-- `AddWithMetadata`. -/
def addWithMetadata (lib : Lib) (a : Aggregator) (p : Packet) (metadata : Metadata) :
    List Record × Aggregator :=
  if p.wireLength < 0 then ([], a)
  else
    let target := a.recordFor p
    let next := accumulate lib a.payloadPreviewBytes a.toDdosCounts target.2 p metadata
    ((target.1.map finalize).toList,
      { a with
        toDdosCounts := next.1
        active := pair (a.active.put next.2) (keyOf a.sensorId p) (reverseKeyOf a.sensorId p) })

section

variable (a : Aggregator) (sorting : Sorting)

/-- The records of an aggregator that are selected leave it. -/
def release (selected : Record → Bool) : List Record × Aggregator :=
  let leaving := a.active.rows.filter selected
  (sorting.sort (leaving.map finalize),
    { a with active := (leaving.map Record.key).foldl Table.erase a.active })

/-- `Expire`. -/
def expire (now : Int) : List Record × Aggregator :=
  a.release sorting fun r => r.stale a.idle now

/-- `Flush`. -/
def flush : List Record × Aggregator :=
  a.release sorting fun _ => true

end

end Aggregator

/-- A call of an aggregator. -/
inductive Event where
  | add (p : Packet) (metadata : Metadata)
  | expire (sorting : Sorting) (now : Int)
  | flush (sorting : Sorting)

/-- A call: the records that it returns, and the aggregator after it. -/
def step (lib : Lib) (a : Aggregator) : Event → List Record × Aggregator
  | .add p metadata => a.addWithMetadata lib p metadata
  | .expire sorting now => a.expire sorting now
  | .flush sorting => a.flush sorting

/-- Calls in a row: the records that they return, and the aggregator after them. -/
def run (lib : Lib) (a : Aggregator) (events : List Event) : List Record × Aggregator :=
  events.foldl (fun state event =>
    (state.1 ++ (step lib state.2 event).1, (step lib state.2 event).2)) ([], a)

end C2Hunter.Aggregate
