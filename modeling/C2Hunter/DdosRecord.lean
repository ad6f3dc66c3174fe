import C2Hunter.DdosSample
import C2Hunter.DdosEvidence

/-!
# The packet evidence of a record

`validate_packet_evidence` of `ddos_packets.py`: the packet evidence in a mapping with arbitrary values
becomes a `Bundle`, or raises.

* `Value`, `Record` — what a decoded document holds.
* `Bundle`, `validatePacketEvidence` — packet evidence; a `Bundle n` accounts for at most `n` packets.
-/

namespace C2Hunter.Ddos

/-! ## Decoded values -/

/-- A value of a record. -/
inductive Value where
  | null
  | bool (b : Bool)
  | int (n : Int)
  | float (q : ℚ)
  /-- an infinity, or no number -/
  | nonfinite
  | str (s : String)
  /-- in records that do not come from a document -/
  | datetime (t : DateTime)
  | list (items : List Value)
  | dict (fields : List (String × Value))

/-- A record: values by their names. -/
abbrev Record : Type := List (String × Value)

/-- `record.get(name)`. -/
def Record.get (record : Record) (name : String) : Value := (record.lookup name).getD .null

namespace Value

/-- An integer that is not a truth value. -/
def int? : Value → Option Int
  | int n => some n
  | _ => none

/-- `value is None`. -/
def isNull : Value → Bool
  | null => true
  | _ => false

/-- The values of a mapping; others have none. -/
def fields : Value → Record
  | dict fields => fields
  | _ => []

end Value

/-- `raise InvalidRecord(message)`. -/
def invalid {α : Type} (message : String) : Except Failure α := .error (.invalidRecord message)

/-- Raise unless a condition holds. -/
def require (condition : Bool) (message : String) : Except Failure Unit :=
  if condition then .ok () else invalid message

/-! ## Fields -/

/-- An integer from 0 to a bound. -/
def bounded (bound : Nat) (message : String) (value : Value) : Except Failure Nat :=
  match value.int? with
  | some n => if 0 ≤ n ∧ n ≤ bound then .ok n.toNat else invalid message
  | none => invalid message

/-- `protocol`, in capitals. -/
inductive Protocol where
  | icmp
  | icmpv6
  | tcp
  | udp
  deriving DecidableEq, Repr

/-! ## Durations and counters -/

/-- `packet_interval_us(timestamp, duration)`. -/
def packetIntervalUs (timestamp : Int) (duration : ℚ) : Int × Int :=
  (timestamp, timestamp + ⌈duration * 1000000⌉)

/-- Sixty-four lowercase hexadecimal digits. -/
def isHash (s : String) : Bool :=
  s.length = 64 && s.toList.all fun c => "0123456789abcdef".toList.contains c

/-! ## Packet evidence -/

namespace Semantic

/-- The semantics of a name. -/
def ofText (s : String) : Option Semantic :=
  if s = "DNS_REQUEST" then some dnsRequest
  else if s = "DNS_RESPONSE" then some dnsResponse
  else if s = "NTP_REQUEST" then some ntpRequest
  else if s = "NTP_RESPONSE" then some ntpResponse
  else if s = "OTHER" then some other
  else if s = "UNKNOWN" then some unknown
  else none

/-- `semantic.endswith("RESPONSE")`. -/
def isResponse : Semantic → Bool
  | dnsResponse | ntpResponse => true
  | _ => false

/-- The port of the service that a packet speaks to. -/
def servicePort : Semantic → Option Nat
  | dnsRequest | dnsResponse => some 53
  | ntpRequest | ntpResponse => some 123
  | other | unknown => none

end Semantic

/-- The evidence of a flow of `packets` packets: samples, and how many more there were. -/
structure Bundle (packets : Nat) : Type where
  samples : List Sample
  omitted : Nat
  le_packets : samples.length + omitted ≤ packets

/-- The names of a mapping are these. -/
def hasNames (fields : Record) (names : List String) : Bool :=
  (fields.map Prod.fst).toFinset = names.toFinset

/-- The digest of a sample. -/
def sampleHash : Value → Except Failure String
  | .str s => if isHash s then .ok s else invalid "invalid DDoS sample hash"
  | _ => invalid "invalid DDoS sample hash"

/-- The digest of the transaction of a sample, if it has one. -/
def sampleTransaction (value : Value) : Except Failure (Option String) :=
  if value.isNull then .ok none else some <$> sampleHash value

/-- The time of a sample, in the interval of its flow. -/
def sampleTime (startUs endUs : Int) (value : Value) : Except Failure Int :=
  match value.int? with
  | some n =>
    if -(2 ^ 53 - 1) ≤ n ∧ n ≤ 2 ^ 53 - 1 ∧ startUs ≤ n ∧ n ≤ endUs then .ok n
    else invalid "DDoS sample outside flow interval"
  | none => invalid "DDoS sample outside flow interval"

/-- The semantics of a sample. -/
def sampleSemantic : Value → Except Failure Semantic
  | .str s =>
    match Semantic.ofText s with
    | some semantic => .ok semantic
    | none => invalid "unknown DDoS packet semantic"
  | _ => invalid "unknown DDoS packet semantic"

/-- The semantics agree with the ports, and only they come with a transaction. -/
def checkSemantic (semantic : Semantic) (transaction : Option String) (protocol : Protocol)
    (sourcePort destinationPort : Option Nat) : Except Failure Unit :=
  match semantic.servicePort with
  | none => require transaction.isNone "unexpected DDoS transaction"
  | some service =>
    let observed := if semantic.isResponse then sourcePort else destinationPort
    require (protocol = .udp ∧ observed = some service ∧ (service = 53 → transaction.isSome))
      "DDoS semantic disagrees with transport"

/-- The check of one sample. -/
def packetSampleOf (startUs endUs : Int) (protocol : Protocol)
    (sourcePort destinationPort : Option Nat) (value : Value) : Except Failure Sample := do
  require (hasNames value.fields ["timestamp_us", "profile", "semantic", "transaction"])
    "invalid DDoS packet sample"
  let time ← sampleTime startUs endUs (value.fields.get "timestamp_us")
  let profile ← sampleHash (value.fields.get "profile")
  let transaction ← sampleTransaction (value.fields.get "transaction")
  let semantic ← sampleSemantic (value.fields.get "semantic")
  checkSemantic semantic transaction protocol sourcePort destinationPort
  return ⟨time, profile, semantic, transaction⟩

/-- The samples of an evidence mapping. -/
def sampleValues : Value → Except Failure (List Value)
  | .list items =>
    if maxSamplesFlow < items.length then invalid "invalid DDoS sample count" else .ok items
  | _ => invalid "invalid DDoS sample count"

/-- A bundle whose samples account for at most the packets of the flow. -/
def bundle (packets : Nat) (samples : List Sample) (omitted : Nat) :
    Except Failure (Bundle packets) :=
  if h : samples.length + omitted ≤ packets then .ok ⟨samples, omitted, h⟩
  else invalid "invalid DDoS sample count"

/-- `validate_packet_evidence(value, …)`. -/
def validatePacketEvidence (value : Value) (packets : Nat) (interval : Int × Int)
    (protocol : Protocol) (sourcePort destinationPort : Option Nat) :
    Except Failure (Option (Bundle packets)) :=
  if value.isNull then .ok none
  else do
    require (hasNames value.fields ["version", "samples", "omitted_samples"])
      "invalid DDoS packet evidence shape"
    require ((value.fields.get "version").int? = some 1) "unsupported DDoS packet evidence"
    let items ← sampleValues (value.fields.get "samples")
    let omitted ← bounded packets "invalid DDoS sample count" (value.fields.get "omitted_samples")
    require (items.length + omitted ≤ packets) "invalid DDoS sample count"
    let samples ← items.mapM
      (packetSampleOf interval.1 interval.2 protocol sourcePort destinationPort)
    some <$> bundle packets samples omitted

end C2Hunter.Ddos
