import C2Hunter.NetworkRecord
import C2Hunter.NetworkTcp

/-!
# Supporting measurements

`network_measurements.py`: round-trip times, packet spacing and TTLs of one flow, kept as
running statistics of fixed size. They never classify anything; they are published beside the
observations of the flow.

* `OnlineStats`, `DirectionMeasurement`, `SupportingMeasurements` — the running state.
* `SupportingMeasurements.publish` — what a report says, with `qualifySamples`.
* `hypothesis`, `describe` — the prose of an issue.

Seconds, milliseconds and their statistics are exact numbers; what the source rounds to six
decimals is rounded here too.
-/

namespace C2Hunter.Network

/-! ## Rounding -/

/-- `round(value, 6)`. -/
def round6 (value : ℚ) : ℚ := roundHalfEven (value * 1000000) / 1000000

/-- The nearest integer to the root of a number that is not negative, and the even one of two. -/
def roundSqrt (value : ℚ) : Nat :=
  let root := Nat.sqrt ⌊value⌋.toNat
  if value < (root + 1 / 2) ^ 2 then root
  else if (root + 1 / 2) ^ 2 < value then root + 1
  else if root % 2 = 0 then root
  else root + 1

/-- `round(sqrt(value), 6)`. -/
def sqrt6 (value : ℚ) : ℚ := roundSqrt (value * 1000000000000) / 1000000

/-! ## Running statistics -/

/-- `OnlineStats`; a minimum or maximum of no values is infinite in the source. -/
structure OnlineStats where
  count : Nat := 0
  mean : ℚ := 0
  m2 : ℚ := 0
  minimum : Option ℚ := none
  maximum : Option ℚ := none
  deriving DecidableEq

/-- `add` of `OnlineStats`. -/
def OnlineStats.add (s : OnlineStats) (value : ℚ) : OnlineStats :=
  let count := s.count + 1
  let delta := value - s.mean
  let mean := s.mean + delta / count
  { count := count
    mean := mean
    m2 := s.m2 + delta * (value - mean)
    minimum := some (s.minimum.elim value (min · value))
    maximum := some (s.maximum.elim value (max · value)) }

/-- `DirectionMeasurement`. -/
structure DirectionMeasurement where
  spacing : OnlineStats := {}
  lastTime : Option Int := none
  packets : Nat := 0
  ttlCount : Nat := 0
  ttlMin : Option Int := none
  ttlMax : Option Int := none
  ttlLast : Option Int := none
  ttlChanges : Nat := 0
  ttlMissing : Nat := 0
  deriving DecidableEq

/-- Milliseconds between two instants, `round((end - start) * 1000, 6)`. -/
def milliseconds (start stop : Int) : ℚ := round6 ((stop - start : Int) / 1000)

/-- `add` of `DirectionMeasurement`. -/
def DirectionMeasurement.add (m : DirectionMeasurement) (time : Int) (ttl : Obj) :
    DirectionMeasurement :=
  let m :=
    { m with
      packets := m.packets + 1
      spacing := m.lastTime.elim m.spacing fun last => m.spacing.add (milliseconds last time)
      lastTime := some time }
  match ttl.intIn 0 255 with
  | some ttl =>
    { m with
      ttlCount := m.ttlCount + 1
      ttlMin := some (m.ttlMin.elim ttl (min · ttl))
      ttlMax := some (m.ttlMax.elim ttl (max · ttl))
      ttlChanges := m.ttlChanges + if m.ttlLast.any (· ≠ ttl) then 1 else 0
      ttlLast := some ttl }
  | none => { m with ttlMissing := m.ttlMissing + 1, ttlLast := none }

/-- Forget the last packet: neither its time nor its TTL is compared with the next. -/
def DirectionMeasurement.forget (m : DirectionMeasurement) : DirectionMeasurement :=
  { m with lastTime := none, ttlLast := none }

/-- The reasons of incomplete measurements. -/
inductive Reason where
  | incompletePacketEvidence
  | nonMonotonicTimestamps
  | correlationLimitReached
  | missingTtl
  | noUnambiguousRtt
  | notTcp
  | oneDirectionObserved
  deriving DecidableEq, Repr

/-- The text of a reason. -/
def Reason.text : Reason → String
  | incompletePacketEvidence => "INCOMPLETE_PACKET_EVIDENCE"
  | nonMonotonicTimestamps => "NON_MONOTONIC_TIMESTAMPS"
  | correlationLimitReached => "CORRELATION_LIMIT_REACHED"
  | missingTtl => "MISSING_TTL"
  | noUnambiguousRtt => "NO_UNAMBIGUOUS_RTT"
  | notTcp => "NOT_TCP"
  | oneDirectionObserved => "ONE_DIRECTION_OBSERVED"

/-- The round-trip samples by their source. -/
structure RttSources where
  synAck : Nat := 0
  dataAck : Nat := 0
  deriving DecidableEq

/-- The round-trip matches that are not samples. -/
structure RttExcluded where
  ambiguous : Nat := 0
  nonpositiveTime : Nat := 0
  nonexactAck : Nat := 0
  deriving DecidableEq

/-- `SupportingMeasurements`. -/
structure SupportingMeasurements where
  rtt : OnlineStats := {}
  directions : Pair DirectionMeasurement := .both {}
  sources : RttSources := {}
  excluded : RttExcluded := {}
  /-- a set, without repetitions -/
  reasons : List Reason := []
  deriving DecidableEq

namespace SupportingMeasurements

section

variable (m : SupportingMeasurements)

/-- `sample`; `handshake` tells the two sources apart. -/
def sample (start stop : Int) (handshake ambiguous : Bool) : SupportingMeasurements :=
  if ambiguous then
    { m with excluded := { m.excluded with ambiguous := m.excluded.ambiguous + 1 } }
  else if stop ≤ start then
    { m with excluded := { m.excluded with nonpositiveTime := m.excluded.nonpositiveTime + 1 } }
  else
    { m with
      rtt := m.rtt.add (milliseconds start stop)
      sources :=
        if handshake then { m.sources with synAck := m.sources.synAck + 1 }
        else { m.sources with dataAck := m.sources.dataAck + 1 } }

/-- `gap`. -/
def gap (reason : Reason) : SupportingMeasurements :=
  { m with
    reasons := m.reasons.insert reason
    directions := ⟨m.directions.zero.forget, m.directions.one.forget⟩ }

/-- `directions[direction].add(time, ttl)`. -/
def addPacket (direction : Bool) (time : Int) (ttl : Obj) : SupportingMeasurements :=
  { m with directions := m.directions.set direction ((m.directions.get direction).add time ttl) }

/-- The part of an idle flow: the last packets are forgotten. -/
def forget : SupportingMeasurements :=
  { m with directions := ⟨m.directions.zero.forget, m.directions.one.forget⟩ }

end

end SupportingMeasurements

/-! ## Publication -/

/-- `Stats`. -/
structure Stats where
  count : Nat
  min : Option ℚ
  max : Option ℚ
  mean : Option ℚ
  stddev : Option ℚ
  deriving DecidableEq

/-- `publish` of `OnlineStats`. -/
def OnlineStats.publish (s : OnlineStats) : Stats where
  count := s.count
  min := if s.count = 0 then none else s.minimum
  max := if s.count = 0 then none else s.maximum
  mean := if s.count = 0 then none else some (round6 s.mean)
  stddev := if 2 ≤ s.count then some (sqrt6 (Max.max 0 s.m2 / s.count)) else none

/-- `TTL`. -/
structure TtlStats where
  count : Nat
  min : Option Int
  max : Option Int
  changes : Nat
  missing : Nat
  deriving DecidableEq

/-- `ttl`. -/
def DirectionMeasurement.ttl (m : DirectionMeasurement) : TtlStats :=
  ⟨m.ttlCount, m.ttlMin, m.ttlMax, m.ttlChanges, m.ttlMissing⟩

/-- `QualityStatus`. -/
inductive QualityStatus where
  | unavailable
  | limitedSamples
  | observedSamples
  deriving DecidableEq, Repr

/-- The text of a quality. -/
def QualityStatus.text : QualityStatus → String
  | unavailable => "unavailable"
  | limitedSamples => "limited_samples"
  | observedSamples => "observed_samples"

/-- `QualityReason`. -/
inductive QualityReason where
  | noSamples
  | singleSample
  | handshakeOnly
  | bidirectionalRttNotEstablished
  | selectionBiasPossible
  deriving DecidableEq, Repr

/-- The text of a reason of a quality. -/
def QualityReason.text : QualityReason → String
  | noSamples => "NO_SAMPLES"
  | singleSample => "SINGLE_SAMPLE"
  | handshakeOnly => "HANDSHAKE_ONLY"
  | bidirectionalRttNotEstablished => "BIDIRECTIONAL_RTT_NOT_ESTABLISHED"
  | selectionBiasPossible => "SELECTION_BIAS_POSSIBLE"

/-- `MetricQuality`. -/
structure MetricQuality where
  status : QualityStatus
  reasons : List QualityReason
  deriving DecidableEq

/-- `qualify_samples`. -/
def qualifySamples (count : Nat) (rtt handshakeOnly selected : Bool) : MetricQuality where
  status :=
    if count = 0 then .unavailable else if count = 1 then .limitedSamples else .observedSamples
  reasons :=
    (if count = 0 then [.noSamples] else if count = 1 then [.singleSample] else []) ++
      (if handshakeOnly then [.handshakeOnly] else []) ++
      (if rtt then [.bidirectionalRttNotEstablished] else []) ++
      (if selected then [.selectionBiasPossible] else [])

/-- `MeasurementQuality`. -/
structure MeasurementQuality where
  observedRtt : MetricQuality
  interarrival : Pair MetricQuality
  ttlObserved : Pair MetricQuality
  deriving DecidableEq

/-- The status of published measurements. -/
inductive MeasurementStatus where
  | observed
  | insufficientEvidence
  | unsupported
  deriving DecidableEq, Repr

/-- The text of a status. -/
def MeasurementStatus.text : MeasurementStatus → String
  | observed => "observed"
  | insufficientEvidence => "insufficient_evidence"
  | unsupported => "unsupported"

/-- `Measurements`. -/
structure Measurements where
  metricQuality : MeasurementQuality
  observedRtt : Stats
  rttSources : RttSources
  rttExcluded : RttExcluded
  interarrival : Pair Stats
  ttlObserved : Pair TtlStats
  coverageComplete : Bool
  status : MeasurementStatus
  reasons : List Reason
  deriving DecidableEq

/-- `any(excluded.values())`. -/
def RttExcluded.any (e : RttExcluded) : Bool :=
  e.ambiguous ≠ 0 ∨ e.nonpositiveTime ≠ 0 ∨ e.nonexactAck ≠ 0

namespace SupportingMeasurements

section

variable (m : SupportingMeasurements)

/-- The reasons that `publish` adds to those of the gaps. -/
def publishedReasons (protocol : String) : List Reason :=
  let reasons := m.reasons
  let reasons :=
    if m.directions.zero.ttlMissing ≠ 0 ∨ m.directions.one.ttlMissing ≠ 0 then
      reasons.insert .missingTtl
    else reasons
  let reasons :=
    if m.directions.zero.packets = 0 ∨ m.directions.one.packets = 0 then
      reasons.insert .oneDirectionObserved
    else reasons
  if protocol ≠ "TCP" then reasons.insert .notTcp
  else if m.rtt.count = 0 then reasons.insert .noUnambiguousRtt
  else reasons

/-- The quality of each metric. -/
def quality : MeasurementQuality :=
  let selected := !m.reasons.isEmpty
  { observedRtt := qualifySamples m.rtt.count true (m.sources.synAck ≠ 0 ∧ m.sources.dataAck = 0)
      (selected || m.excluded.any)
    interarrival :=
      ⟨qualifySamples m.directions.zero.spacing.count false false selected,
        qualifySamples m.directions.one.spacing.count false false selected⟩
    ttlObserved :=
      ⟨qualifySamples m.directions.zero.ttlCount false false
          (selected || m.directions.zero.ttlMissing ≠ 0),
        qualifySamples m.directions.one.ttlCount false false
          (selected || m.directions.one.ttlMissing ≠ 0)⟩ }

/-- Whether there is any sample at all. -/
def observed : Bool :=
  m.rtt.count ≠ 0 ∨ m.directions.zero.ttlCount ≠ 0 ∨ m.directions.zero.spacing.count ≠ 0 ∨
    m.directions.one.ttlCount ≠ 0 ∨ m.directions.one.spacing.count ≠ 0

/-- `publish`. -/
def publish (protocol : String) : Measurements where
  metricQuality := m.quality
  observedRtt := m.rtt.publish
  rttSources := m.sources
  rttExcluded := m.excluded
  interarrival := ⟨m.directions.zero.spacing.publish, m.directions.one.spacing.publish⟩
  ttlObserved := ⟨m.directions.zero.ttl, m.directions.one.ttl⟩
  coverageComplete := (m.publishedReasons protocol).isEmpty
  status :=
    if m.observed then .observed
    else if protocol = "TCP" then .insufficientEvidence
    else .unsupported
  reasons := (m.publishedReasons protocol).insertionSort fun r r' => r.text ≤ r'.text

end

end SupportingMeasurements

/-! ## Prose -/

/-- `Hypothesis`; its confidence is always `low`. -/
structure Hypothesis where
  code : String
  summary : String
  deriving DecidableEq

/-- `hypothesis`. -/
def hypothesis : Pattern → Hypothesis
  | .synRetransmissions => ⟨"response_visibility_or_filtering",
      "Missing response visibility, filtering or duplicate capture may explain repeated attempts."⟩
  | .matchedResets => ⟨"service_refusal_or_policy",
      "Service refusal or policy rejection may explain matched resets."⟩
  | .dataRetransmissions => ⟨"loss_reordering_or_capture_duplication",
      "Loss, reordering or capture duplication may explain exact data repeats."⟩
  | .duplicateAcks => ⟨"loss_reordering_or_capture_duplication",
      "Missing data, reordering or capture duplication may explain repeated ACKs."⟩
  | .udpDuplicateCandidates => ⟨"application_repeat_or_capture_duplication",
      "Application retries, intentional repeats or capture duplication may explain UDP repeats."⟩
  | .icmpErrors => ⟨"reported_network_or_policy_error",
      "A reporting device indicates a network or policy error; inspect type/code."⟩

section Describe

variable {py : Python} (text : ReportText py)

/-- `repr` of a number that may be missing. -/
def reprNumber : Option ℚ → String
  | none => "None"
  | some value => text.reprFloat value

/-- `repr` of statistics. -/
def reprStats (s : Stats) : String :=
  "\x7b'count': " ++ toString s.count ++ ", 'min': " ++ reprNumber text s.min ++ ", 'max': " ++
    reprNumber text s.max ++ ", 'mean': " ++ reprNumber text s.mean ++ ", 'stddev': " ++
    reprNumber text s.stddev ++ "\x7d"

/-- `repr` of the sources of round-trip samples. -/
def reprSources (s : RttSources) : String :=
  "\x7b'syn_ack': " ++ toString s.synAck ++ ", 'data_ack': " ++ toString s.dataAck ++ "\x7d"

/-- `repr` of the excluded matches. -/
def reprExcluded (e : RttExcluded) : String :=
  "\x7b'ambiguous': " ++ toString e.ambiguous ++ ", 'nonpositive_time': " ++
    toString e.nonpositiveTime ++ ", 'nonexact_ack': " ++ toString e.nonexactAck ++ "\x7d"

/-- `repr` of a list of reasons. -/
def reprReasons (reasons : List Reason) : String :=
  "[" ++ ", ".intercalate (reasons.map fun r => "'" ++ r.text ++ "'") ++ "]"

/-- `describe`. -/
def describe (m : Measurements) : List String :=
  [ "Representative flow capture-local RTT (ms): " ++ reprStats text m.observedRtt ++
      "; sources " ++ reprSources m.rttSources ++ "; excluded matches " ++
      reprExcluded m.rttExcluded ++ ". Not one-way latency; includes peer ACK delay.",
    "Same-direction interarrival dispersion (ms) is recorded in the measurement fields. " ++
      "Application pacing and capture effects can explain variation; " ++
      "this is not network jitter proof.",
    "Outer IPv4 TTL / IPv6 hop-limit ranges and changes " ++
      "are recorded in the measurement fields. " ++
      "Variation can motivate checking path changes or sender defaults, " ++
      "but proves neither a route change nor exact hops or asymmetry.",
    "Measurement coverage complete: " ++ (if m.coverageComplete then "True" else "False") ++
      "; reasons: " ++ reprReasons m.reasons ++ ". " ++
      "This is tracking/gap coverage, not sample adequacy; " ++
      "representativeness is not established. " ++
      "A single sample cannot establish dispersion or stability. " ++
      "No baseline is configured: RTT/spacing alone cannot establish congestion or queueing; " ++
      "compare baseline and peer captures before attributing the pattern." ]

end Describe

end C2Hunter.Network
