import C2Hunter.NetworkMeasurements
import C2Hunter.Json

/-!
# Details of ICMP errors

`network_icmp_details.py`: up to four samples of each ICMP observation are kept while a capture
is scanned, under one budget of samples and encoded bytes for the whole report, and the samples
of the displayed examples are published under a budget of the published bytes.

* `Sample`, `icmpSample` — one error, with every scalar checked before it is copied.
* `DetailBudget.add`, `DetailBudget.release`, `DetailBudget.merge` — the retained samples.
* `publishDetails` — the published details, and `Details.valid`, the check they must pass.
-/

namespace C2Hunter.Network

/-! ## Samples -/

/-- `Quote`. -/
structure Quote where
  sourceIp : Option String
  destinationIp : Option String
  sourcePort : Option Int
  destinationPort : Option Int
  protocol : Option String
  deriving DecidableEq

/-- `Sample`; its `packet_reference` is always `None`. -/
structure Sample where
  reporterIp : String
  protocol : String
  kind : Int
  code : Int
  quotedFlow : Option Quote
  time : String
  deriving DecidableEq

/-- The document of a quote. -/
def Quote.json (q : Quote) : Json :=
  .obj [("source_ip", .ofOption .str q.sourceIp), ("destination_ip", .ofOption .str q.destinationIp),
    ("source_port", .ofOption .int q.sourcePort),
    ("destination_port", .ofOption .int q.destinationPort),
    ("protocol", .ofOption .str q.protocol)]

/-- The document of a sample. -/
def Sample.json (s : Sample) : Json :=
  .obj [("reporter_ip", .str s.reporterIp), ("protocol", .str s.protocol), ("type", .int s.kind),
    ("code", .int s.code), ("quoted_flow", .ofOption Quote.json s.quotedFlow),
    ("time", .str s.time), ("packet_reference", .null)]

/-- `len(canonical(value))`. -/
def canonicalSize (value : Json) : Nat := value.size true

section Read

variable (py : Python)

/-- `_ip` of a text. -/
def validIp (s : String) : Bool :=
  1 ≤ s.length ∧ s.length ≤ 45 ∧ '%' ∉ s.toList ∧ (py.ipAddress s).isSome

/-- `_ip`. -/
def icmpIp (value : Obj) : Option String := value.str?.filter (validIp py)

/-- The names of the protocols that a quote may have. -/
def quotedProtocols : List String := ["TCP", "UDP", "ICMP", "ICMPV6"]

/-- The protocol of a quote: a short text that is one of the names in upper case. -/
def quotedProtocol (value : Obj) : Option String :=
  ((value.strIn 0 6).map py.upper).filter (· ∈ quotedProtocols)

/-- The quote of a sample, with `None` for every scalar that fails its check. -/
def readSampleQuote (quote : Record) : Quote where
  sourceIp := icmpIp py (quote.get "source_ip")
  destinationIp := icmpIp py (quote.get "destination_ip")
  sourcePort := (quote.get "source_port").intIn 0 65535
  destinationPort := (quote.get "destination_port").intIn 0 65535
  protocol := quotedProtocol py (quote.get "protocol")

variable {py} (text : ReportText py)

/-- `sample`. -/
def icmpSample (record : Record) (time : Int) : Option Sample := do
  let reporter ← icmpIp py (record.get "source_ip")
  let protocol ← (record.get "protocol").strIn 0 6
  guard (py.upper protocol = "ICMP" ∨ py.upper protocol = "ICMPV6")
  let kind ← (record.get "icmp_type").intIn 0 255
  let code ← (record.get "icmp_code").intIn 0 255
  return {
    reporterIp := reporter
    protocol := py.upper protocol
    kind := kind
    code := code
    quotedFlow := (record.get "icmp_quoted_flow").dict?.map (readSampleQuote py)
    time := text.isoformat time }

end Read

/-! ## The budget of retained samples -/

/-- `MAX_SAMPLES`. -/
def maxSamples : Int := 2048

/-- `MAX_BYTES`. -/
def maxDetailBytes : Int := 262144

/-- `PER_OBSERVATION`. -/
def perObservation : Nat := 4

/-- `Retained`. -/
structure Retained where
  ordinal : Nat
  value : Sample
  size : Nat
  deriving DecidableEq

/-- The sizes of retained samples together. -/
def retainedSize (owner : List Retained) : Nat := (owner.map Retained.size).sum

/-- `DetailBudget`. -/
structure DetailBudget where
  count : Int := 0
  size : Int := 0
  ordinal : Nat := 0
  deriving DecidableEq

namespace DetailBudget

/-- `add`: the samples of the owner afterwards, and the budget. -/
def add {py : Python} (text : ReportText py) (b : DetailBudget) (owner : List Retained)
    (record : Record) (time : Int) : List Retained × DetailBudget :=
  let b := { b with ordinal := b.ordinal + 1 }
  if perObservation ≤ owner.length ∨ maxSamples ≤ b.count then (owner, b)
  else
    match icmpSample text record time with
    | none => (owner, b)
    | some value =>
      let size := canonicalSize value.json + 1
      if maxDetailBytes < b.size + size then (owner, b)
      else (owner ++ [⟨b.ordinal, value, size⟩],
        { b with count := b.count + 1, size := b.size + size })

/-- `release`. -/
def release (b : DetailBudget) (owner : List Retained) : DetailBudget :=
  { b with count := b.count - owner.length, size := b.size - retainedSize owner }

/-- Both lists in the order in which the samples were taken. -/
def mergeSamples (target source : List Retained) : List Retained :=
  (target ++ source).insertionSort fun s s' => s.ordinal ≤ s'.ordinal

/-- `merge`: the samples of the target afterwards, and the budget. -/
def merge (b : DetailBudget) (target source : List Retained) : List Retained × DetailBudget :=
  let merged := mergeSamples target source
  (merged.take perObservation, b.release (merged.drop perObservation))

end DetailBudget

/-! ## Publication -/

/-- `Details`. -/
structure Details where
  samples : List Sample
  omittedEventDetails : Int
  deriving DecidableEq

/-- The document of details. -/
def Details.json (d : Details) : Json :=
  .obj [("version", .str "network-icmp-details-v1"), ("samples", .arr (d.samples.map Sample.json)),
    ("omitted_event_details", .int d.omittedEventDetails)]

/-- `len(canonical({"icmp_details": details}))`. -/
def Details.envelopeSize (d : Details) : Int := canonicalSize (.obj [("icmp_details", d.json)])

section Validate

variable (py : Python)

/-- The largest count that every JSON reader keeps exactly. -/
def maxSafeCount : Int := 9007199254740991

/-- `_time`. -/
def validTime (s : String) : Bool := s.length ≤ 32 ∧ isoShape s ∧ (py.fromisoformat s).isSome

/-- The checks that `validate_details` makes of a quote. -/
def Quote.valid (q : Quote) : Bool :=
  q.sourceIp.all (validIp py) ∧ q.destinationIp.all (validIp py) ∧
    q.sourcePort.all (fun port => 0 ≤ port ∧ port ≤ 65535) ∧
    q.destinationPort.all (fun port => 0 ≤ port ∧ port ≤ 65535) ∧
    q.protocol.all (· ∈ quotedProtocols)

/-- The checks that `validate_details` makes of a sample. -/
def Sample.valid (s : Sample) : Bool :=
  validIp py s.reporterIp ∧ (s.protocol = "ICMP" ∨ s.protocol = "ICMPV6") ∧
    (0 ≤ s.kind ∧ s.kind ≤ 255) ∧ (0 ≤ s.code ∧ s.code ≤ 255) ∧ validTime py s.time ∧
    s.quotedFlow.all (Quote.valid py)

/-- `validate_details`, of details that have their fields. -/
def Details.valid (d : Details) (eventCount : Int) : Bool :=
  d.samples.length ≤ perObservation ∧
    (0 ≤ d.omittedEventDetails ∧ d.omittedEventDetails ≤ maxSafeCount) ∧
    (0 ≤ eventCount ∧ eventCount ≤ maxSafeCount) ∧
    eventCount - d.samples.length = d.omittedEventDetails ∧
    d.samples.all (Sample.valid py)

end Validate

/-- What can go wrong in a report. -/
inductive ReportError where
  | invalidMaxIssues
  | invalidMaxExamples
  | keyError
  | detailByteBudget
  | invalidProducerDetails
  deriving DecidableEq, Repr

/-- The loop of `publish` over the samples of one owner: the whole size and the details after
it. `own` is the size of the details so far. -/
def packSamples (count : Int) : List Retained → Int → Int → Details → Int × Details
  | [], size, _, detail => (size, detail)
  | retained :: samples, size, own, detail =>
    let candidate : Details :=
      ⟨detail.samples ++ [retained.value], count - detail.samples.length - 1⟩
    let candidateSize := candidate.envelopeSize
    if maxDetailBytes < size - own + candidateSize then (size, detail)
    else packSamples count samples (size + (candidateSize - own)) candidateSize candidate

/-- The details of an owner before any sample is put in. -/
def Details.initial (count : Int) : Details := ⟨[], count⟩

/-- The loop of `publish` over the owners. -/
def publishOwners (py : Python) : List (Int × List Retained) → Int →
    Except ReportError (List Details)
  | [], _ => .ok []
  | (count, samples) :: owners, size =>
    let initial := Details.initial count
    let packed := packSamples count samples size initial.envelopeSize initial
    if packed.2.valid py count then
      (publishOwners py owners packed.1).map (packed.2 :: ·)
    else .error .invalidProducerDetails

/-- The size of all envelopes before any sample is put in. -/
def initialSize (owners : List (Int × List Retained)) : Int :=
  2 + max 0 ((owners.length : Int) - 1) +
    (owners.map fun owner => (Details.initial owner.1).envelopeSize).sum

/-- `publish`: the details of each owner. -/
def publishDetails (py : Python) (owners : List (Int × List Retained)) :
    Except ReportError (List Details) :=
  if maxDetailBytes < initialSize owners then .error .detailByteBudget
  else publishOwners py owners (initialSize owners)

end C2Hunter.Network
