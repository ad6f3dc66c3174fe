import C2Hunter.Python
import Mathlib.Logic.Encodable.Basic
import Mathlib.Logic.Equiv.List

/-!
# Records of the network report

What `network_report.py` reads out of a record before it looks at the traffic: the identity
of its flow, and whether its packet evidence is complete. A record is a mapping from field
names to values of any type, so every field is checked where it is read.

* `Obj`, `Record` — decoded values and mappings.
* `Endpoint`, `FlowKey`, `Pattern`, `GroupKey` — the keys of the report.
* `endpoint`, `identity`, `complete` — `_endpoint`, `_identity`, `_complete`.
* `readSegment` — the fields that `_scan_tcp` reads of a record.
* `ReportText` — the printing functions whose results matter only up to the stated laws.

Times are microseconds since the epoch: the source computes in seconds, which are read as
exact.
-/

namespace C2Hunter.Network

/-! ## Values -/

/-- A value of a record, as far as the code looks at it. -/
inductive Obj where
  | none
  | bool (b : Bool)
  | int (n : Int)
  | str (s : String)
  | datetime (t : DateTime)
  | dict (fields : List (String × Obj))
  /-- a value of another type, known by its truth value -/
  | other (truthy : Bool)

/-- `Mapping[str, object]`. -/
abbrev Record : Type := List (String × Obj)

namespace Obj

/-- `bool(value)`. -/
def truthy : Obj → Bool
  | none => false
  | bool b => b
  | int n => n ≠ 0
  | str s => s ≠ ""
  | datetime _ => true
  | dict fields => !fields.isEmpty
  | other truthy => truthy

/-- The value, if `type(value) is int`. -/
def int? : Obj → Option Int
  | int n => some n
  | _ => .none

/-- The value, if `isinstance(value, str)`. -/
def str? : Obj → Option String
  | str s => some s
  | _ => .none

/-- The value, if `isinstance(value, Mapping)`. -/
def dict? : Obj → Option Record
  | dict fields => some fields
  | _ => .none

end Obj

namespace Record

/-- `record.get(name, default)`. -/
def getD (record : Record) (name : String) (default : Obj) : Obj :=
  ((record.find? fun field => field.1 = name).map Prod.snd).getD default

/-- `record.get(name)`. -/
def get (record : Record) (name : String) : Obj := record.getD name .none

end Record

/-- An integer in a range. -/
def Obj.intIn (low high : Int) (value : Obj) : Option Int :=
  value.int?.filter fun n => low ≤ n ∧ n ≤ high

/-- A text with a length in a range. -/
def Obj.strIn (low high : Nat) (value : Obj) : Option String :=
  value.str?.filter fun s => low ≤ s.length ∧ s.length ≤ high

/-! ## Keys -/

/-- `EndpointKey`. -/
structure Endpoint where
  ip : String
  port : Option Int
  deriving DecidableEq

/-- The order by address text, then by port, with no port before the others. -/
def Endpoint.before (x y : Endpoint) : Bool :=
  x.ip < y.ip ∨ x.ip = y.ip ∧ x.port.getD (-1) < y.port.getD (-1)

/-- `sorted((x, y), key=…)`. -/
def sortEndpoints (x y : Endpoint) : Endpoint × Endpoint := if y.before x then (y, x) else (x, y)

/-- `FlowKey`. -/
structure FlowKey where
  sensor : String
  interface : Option Int
  protocol : String
  a : Endpoint
  b : Endpoint
  deriving DecidableEq

/-- `Pattern`. -/
inductive Pattern where
  | synRetransmissions
  | matchedResets
  | dataRetransmissions
  | duplicateAcks
  | icmpErrors
  | udpDuplicateCandidates
  deriving DecidableEq, Repr

/-- The text of a pattern. -/
def Pattern.text : Pattern → String
  | synRetransmissions => "syn_retransmissions"
  | matchedResets => "matched_resets"
  | dataRetransmissions => "data_retransmissions"
  | duplicateAcks => "duplicate_acks"
  | icmpErrors => "icmp_errors"
  | udpDuplicateCandidates => "udp_duplicate_candidates"

/-- `GroupKey`. -/
structure GroupKey where
  sensor : String
  interface : Option Int
  protocol : String
  pattern : Pattern
  peer : Endpoint
  deriving DecidableEq

/-! ## Printing -/

/-- Whether a character is a decimal digit. -/
def isDigit (c : Char) : Bool := '0' ≤ c ∧ c ≤ '9'

/-- A text against a template in which `0` stands for a digit and any other character for
itself. -/
def matchesTemplate : List Char → List Char → Bool
  | [], [] => true
  | t :: ts, c :: cs => (if t = '0' then isDigit c else t = c) && matchesTemplate ts cs
  | _, _ => false

/-- `YYYY-MM-DDTHH:MM:SS+00:00`, with six decimals of the seconds or none. -/
def isoShape (s : String) : Bool :=
  matchesTemplate "0000-00-00T00:00:00+00:00".toList s.toList ||
    matchesTemplate "0000-00-00T00:00:00.000000+00:00".toList s.toList

/-- The printing functions of the report. -/
structure ReportText (py : Python) : Type where
  /-- `datetime.fromtimestamp(time, UTC).isoformat()` -/
  isoformat : Int → String
  /-- `repr(key)` -/
  reprKey : GroupKey → String
  /-- `repr(value)` of a `float` -/
  reprFloat : ℚ → String
  /-- instants print in the usual form -/
  isoShape_isoformat : ∀ time, minMicros ≤ time → time ≤ maxMicros → isoShape (isoformat time) = true
  /-- and parse -/
  fromisoformat_isoformat : ∀ time, minMicros ≤ time → time ≤ maxMicros →
    (py.fromisoformat (isoformat time)).isSome = true
  /-- keys of groups print differently -/
  reprKey_injective : Function.Injective reprKey

/-- The parts of a key. -/
def GroupKey.parts (key : GroupKey) :
    List (List Nat) × Option Int × Option Int :=
  ([key.sensor, key.protocol, key.pattern.text, key.peer.ip].map fun s => s.toList.map Char.toNat,
    key.interface, key.peer.port)

theorem Pattern.text_injective : Function.Injective Pattern.text := by
  intro x y h
  cases x <;> cases y <;> first | rfl | (revert h; decide)

theorem toNats_injective : Function.Injective fun s : String => s.toList.map Char.toNat := by
  intro x y h
  refine String.toList_injective (List.map_injective_iff.mpr (fun c d h => ?_) h)
  exact Char.ext (UInt32.toNat_inj.mp h)

theorem GroupKey.parts_injective : Function.Injective GroupKey.parts := by
  rintro ⟨sensor, interface, protocol, pattern, ip, port⟩ ⟨sensor', interface', protocol', pattern', ip', port'⟩ h
  simp only [parts, List.map_cons, List.map_nil, Prod.mk.injEq, List.cons.injEq] at h
  obtain ⟨⟨hsensor, hprotocol, hpattern, hip, -⟩, rfl, rfl⟩ := h
  obtain rfl := toNats_injective hsensor
  obtain rfl := toNats_injective hprotocol
  obtain rfl := Pattern.text_injective (toNats_injective hpattern)
  obtain rfl := toNats_injective hip
  rfl

theorem epoch_inRange : minMicros ≤ 0 ∧ 0 ≤ maxMicros := by decide

/-- A library that reads every text as the epoch. -/
def samplePython : Python :=
  { Python.latin with fromisoformat := fun _ => some ⟨0, true, epoch_inRange⟩ }

/-- An instance of the laws: every instant prints as the epoch, and keys as numbers. -/
def sampleText : ReportText samplePython where
  isoformat _ := "1970-01-01T00:00:00+00:00"
  reprKey key := (Encodable.encode key.parts).repr
  reprFloat q := q.num.repr
  isoShape_isoformat _ _ _ := by decide
  fromisoformat_isoformat _ _ _ := rfl
  reprKey_injective x y h := by
    have hcode := congrArg String.toNat? h
    simp only [Nat.toNat?_repr, Option.some.injEq] at hcode
    exact GroupKey.parts_injective (Encodable.encode_injective hcode)

/-! ## Identity -/

/-- `_endpoint`; `none` where it raises. -/
def endpoint (py : Python) (ip port : Obj) : Option Endpoint :=
  match ip with
  | .str ip =>
    if 45 < ip.length ∨ '%' ∈ ip.toList then none
    else if (py.ipAddress ip).isNone then none
    else
      match port with
      | .none => some ⟨ip, none⟩
      | port => (port.intIn 0 65535).map fun port => ⟨ip, some port⟩
  | _ => none

/-- The interface of a record; `none` where the check raises. -/
def interfaceOf : Obj → Option (Option Int)
  | .none => some none
  | value => (value.intIn 0 (2 ^ 32 - 1)).map some

/-- The instant of a record; an instant without a time zone is one of UTC. -/
def instantOf (py : Python) : Obj → Option Int
  | .str s => if 64 < s.length then none else (py.fromisoformat s).map DateTime.micros
  | .datetime t => some t.micros
  | _ => none

/-- What `_identity` answers. -/
structure Identity where
  key : FlowKey
  /-- whether the record goes from the second endpoint of the key to the first -/
  direction : Bool
  time : Int

/-- `_identity`; `none` where it raises. -/
def identity (py : Python) (record : Record) : Option Identity := do
  let sensor ← (record.get "sensor_id").strIn 1 256
  let protocol ← (record.get "protocol").strIn 1 32
  let interface ← interfaceOf (record.get "capture_interface_id")
  let source ← endpoint py (record.get "source_ip") (record.get "source_port")
  let dest ← endpoint py (record.get "destination_ip") (record.get "destination_port")
  let (a, b) := sortEndpoints source dest
  let time ← instantOf py (record.get "timestamp")
  guard (-62135596800 * 1000000 ≤ time ∧ time ≤ 253402300799 * 1000000)
  let _ ← (record.getD "packet_count" (.int 1)).intIn 0 (2 ^ 63 - 1)
  let _ ← (record.getD "total_bytes" (.int 0)).intIn 0 (2 ^ 63 - 1)
  return ⟨⟨sensor, interface, py.upper protocol, a, b⟩, source ≠ a, time⟩

/-! ## Completeness -/

/-- `value is True`. -/
def Obj.isTrue : Obj → Bool
  | .bool b => b
  | _ => false

/-- `value == 1` for the values that can be. -/
def Obj.isOne : Obj → Bool
  | .int n => n = 1
  | .bool b => b
  | _ => false

/-- `type(value) in (int, bool) and value in (0, 1)`. -/
def Obj.isBit : Obj → Bool
  | .int n => n = 0 ∨ n = 1
  | .bool _ => true
  | _ => false

/-- The checks that `_complete` makes of the payload of TCP and UDP. -/
def completePayload (record : Record) : Bool :=
  match (record.get "transport_payload_length").intIn 0 65535 with
  | none => false
  | some length =>
    match record.get "payload_hash" with
    | .none => length ≤ 0
    | .str digest => digest.length ≤ 256 ∧ (0 < length → 1 ≤ digest.length)
    | _ => false

/-- Whether the value maps each flag to a bit. -/
def Obj.isFlags : Obj → Bool
  | .dict flags => ["syn", "ack", "fin", "rst", "urg"].all fun name => (Record.get flags name).isBit
  | _ => false

section

variable (record : Record)

/-- The checks that `_complete` makes of TCP. -/
def completeTcp : Bool :=
  (record.get "tcp_flags").isFlags ∧
  ((record.get "tcp_sequence").intIn 0 (2 ^ 32 - 1)).isSome ∧
  ((record.get "tcp_acknowledgment").intIn 0 (2 ^ 32 - 1)).isSome ∧
  ((record.get "tcp_window").intIn 0 65535).isSome

/-- The checks that `_complete` makes of ICMP. -/
def completeIcmp : Bool :=
  ((record.get "icmp_type").intIn 0 255).isSome ∧ ((record.get "icmp_code").intIn 0 255).isSome

/-- Whether a record has the evidence of one whole packet. -/
def wholePacket : Bool :=
  (record.get "packet_evidence_complete").isTrue ∧ (record.getD "packet_count" (.int 1)).isOne

/-- `_complete`. -/
def complete (protocol : String) : Bool :=
  wholePacket record ∧
    ((protocol = "TCP" ∨ protocol = "UDP") → completePayload record) ∧
    (protocol = "TCP" → completeTcp record) ∧
    ((protocol = "ICMP" ∨ protocol = "ICMPV6") → completeIcmp record) ∧
    (protocol = "TCP" ∨ protocol = "UDP" ∨ protocol = "ICMP" ∨ protocol = "ICMPV6")

end

/-! ## Segments -/

/-- The fields of a record that `_scan_tcp` reads. -/
structure TcpSegment where
  syn : Bool
  ack : Bool
  fin : Bool
  rst : Bool
  urg : Bool
  seq : Int
  ackNumber : Int
  length : Option Int
  window : Option Int
  /-- the payload hash, if it is a text that is not empty -/
  digest : Option String

/-- The fields, or `none` where `_scan_tcp` returns at once. -/
def readSegment (record : Record) : Option TcpSegment :=
  match record.get "tcp_flags", record.get "tcp_sequence", record.get "tcp_acknowledgment" with
  | .dict flags, .int seq, .int ackNumber =>
    some
      { syn := (Record.get flags "syn").truthy
        ack := (Record.get flags "ack").truthy
        fin := (Record.get flags "fin").truthy
        rst := (Record.get flags "rst").truthy
        urg := (Record.get flags "urg").truthy
        seq := seq
        ackNumber := ackNumber
        length := (record.get "transport_payload_length").int?
        window := (record.get "tcp_window").int?
        digest := (record.get "payload_hash").str?.filter (· ≠ "") }
  | _, _, _ => none

/-- Any of the flags that make a segment a control segment. -/
def TcpSegment.control (seg : TcpSegment) : Bool := seg.syn || seg.fin || seg.rst || seg.urg

/-- `_syn_only`. -/
def synOnly (record : Record) : Bool :=
  match record.get "tcp_flags" with
  | .dict flags =>
    (Record.get flags "syn").truthy && !((Record.get flags "ack").truthy ||
      (Record.get flags "rst").truthy || (Record.get flags "fin").truthy ||
      (Record.get flags "urg").truthy)
  | _ => false

/-- The record of a SYN between two addresses. -/
def sampleSyn (source dest : String) (seq : Int) : Record :=
  [("sensor_id", .str "sensor"), ("protocol", .str "TCP"), ("source_ip", .str source),
    ("source_port", .int 40000), ("destination_ip", .str dest), ("destination_port", .int 443),
    ("timestamp", .datetime ⟨0, true, epoch_inRange⟩), ("packet_evidence_complete", .bool true),
    ("transport_payload_length", .int 0), ("tcp_sequence", .int seq), ("tcp_acknowledgment", .int 0),
    ("tcp_window", .int 1024),
    ("tcp_flags", .dict [("syn", .int 1), ("ack", .int 0), ("fin", .int 0), ("rst", .int 0),
      ("urg", .int 0)])]

end C2Hunter.Network
