import C2Hunter.Python
import Mathlib.Data.Nat.Bitwise

/-!
# Packet evidence on both sides

A sensor and the analysis of a capture file derive the same evidence from a packet, in two languages:
`DDoSSample` of `ddos.go` and `packet_sample` of `ddos_packets.py`, and the similarity hashes of
`features.go` and `payload_features.py`. Each is embedded as its own source computes it: the sensor
with integers that wrap and slices that have to be in bounds, the analysis with unbounded integers
and slices that are clipped.

* `Sensor.responseSemantics`, `Sensor.ddosSample`, `Sensor.simHash` — the sensor.
* `Analysis.protocolSemantics`, `Analysis.packetSample`, `Analysis.simhash` — the analysis.
* `evidence_agrees` — they agree on every packet.
* `Analysis.flagsValue` — what a capture file makes of the flags leaves two of them out.

A SHA-256 digest, as text, is the parameter `sha256`.
-/

namespace C2Hunter.Ddos

open List

/-- What a payload says about its packet. -/
inductive Semantic where
  | dnsRequest
  | dnsResponse
  | ntpRequest
  | ntpResponse
  | other
  | unknown
  deriving DecidableEq, Repr

/-- The evidence of a packet. -/
structure Sample where
  timestampUs : Int
  profile : String
  semantic : Semantic
  transaction : Option String
  deriving DecidableEq, Repr

/-- The bytes of a text. -/
def utf8 (text : String) : Bytes := text.toUTF8.toList

/-- The format `016x`, of a number below `2 ^ 64`. -/
def hex16 (n : Nat) : String :=
  String.ofList (List.replicate (16 - (Nat.toDigits 16 n).length) '0' ++ Nat.toDigits 16 n)

/-! ## The sensor -/

namespace Sensor

/-- `Protocol`. -/
inductive Protocol where
  | unknownProtocol
  | tcp
  | udp
  | icmp
  deriving DecidableEq, Repr

/-- `TCPFlags`. -/
structure TCPFlags where
  fin : Bool
  syn : Bool
  rst : Bool
  psh : Bool
  ack : Bool
  urg : Bool
  ece : Bool
  cwr : Bool
  deriving DecidableEq, Repr

/-- `Packet`, as far as it is read. The timestamp is in nanoseconds from the epoch. -/
structure Packet where
  timestamp : Int
  sourcePort : UInt16
  destinationPort : UInt16
  protocol : Protocol
  tcpFlags : TCPFlags
  payload : Bytes
  ipLength : UInt32
  evidenceComplete : Bool

/-- The loop over the labels of a question: where it stops, and whether at the empty label; `none` is
a return from the function. -/
def labels (payload : Bytes) : Nat → Nat → Option (Nat × Bool)
  | 0, offset => some (offset, false)
  | turns + 1, offset =>
    if h : payload.length ≤ offset then none
    else if 268 ≤ offset then none
    else
      let size := (payload.get ⟨offset, Nat.lt_of_not_le h⟩).toNat
      if size = 0 then some (offset + 1, true)
      else if 63 < size then none
      else labels payload turns (offset + 1 + size)

section

variable (sha256 : Bytes → String)

/-- The part of `responseSemantics` for the port of DNS. -/
def dnsSemantics (payload : Bytes) (src dst : UInt16) : Semantic × Option String :=
  if h : payload.length < 17 then (.unknown, none)
  else if payload[2] &&& 0x7a ≠ 0 then (.unknown, none)
  else if payload[4] ≠ 0 then (.unknown, none)
  else if payload[5] ≠ 1 then (.unknown, none)
  else
    match labels payload 128 12 with
    | none => (.unknown, none)
    | some (offset, ended) =>
      if !ended || payload.length < offset + 4 then (.unknown, none)
      else
        let response := payload[2] &&& 0x80 ≠ 0
        if (response ∧ src ≠ 53) ∨ (¬response ∧ dst ≠ 53) then (.unknown, none)
        else
          let data := Bytes.slice payload 0 2 ++ Bytes.slice payload 12 (offset + 4)
          let token := sha256 data
          if response then (.dnsResponse, some token) else (.dnsRequest, some token)

/-- The token of a timestamp: none if all its bytes are zero. -/
def firstNonzero : Bytes → Bytes → Option String
  | [], _ => none
  | b :: rest, raw => if b ≠ 0 then some (sha256 raw) else firstNonzero rest raw

/-- The part of `responseSemantics` for the port of NTP. -/
def ntpSemantics (payload : Bytes) (src dst : UInt16) : Semantic × Option String :=
  if h : payload.length < 48 then (.unknown, none)
  else if (payload[0] >>> 3) &&& 7 ≠ 3 ∧ (payload[0] >>> 3) &&& 7 ≠ 4 then (.unknown, none)
  else if payload[0] &&& 7 = 4 ∧ src = 123 ∧ (1 : UInt8) ≤ payload[1] ∧ payload[1] ≤ 15 then
    (.ntpResponse, firstNonzero sha256 (Bytes.slice payload 24 32) (Bytes.slice payload 24 32))
  else if payload[0] &&& 7 = 3 ∧ dst = 123 then
    (.ntpRequest, firstNonzero sha256 (Bytes.slice payload 40 48) (Bytes.slice payload 40 48))
  else (.unknown, none)

/-- `responseSemantics`. -/
def responseSemantics (payload : Bytes) (src dst : UInt16) : Semantic × Option String :=
  if src = 53 ∨ dst = 53 then dnsSemantics sha256 payload src dst
  else if src = 123 ∨ dst = 123 then ntpSemantics sha256 payload src dst
  else if src = 17 ∨ src = 19 ∨ src = 389 ∨ src = 1900 ∨ src = 11211 then (.unknown, none)
  else (.other, none)

/-- `time.UnixMicro`. -/
def ofUnixMicro (us : Int) : Int := us * 1000

/-- `Time.UnixMicro`, an `int64`. -/
def unixMicro (t : Int) : Int := (t / 1000).bmod (2 ^ 64)

/-- The largest safe integer. -/
def maxSafeUS : Int := 9007199254740991

/-- The flags as a number: the bits that are set, in a loop. -/
def flagBits : Nat → List Bool → Nat → Nat
  | _, [], flags => flags
  | i, isSet :: rest, flags => flagBits (i + 1) rest (if isSet then flags ||| 1 <<< i else flags)

def TCPFlags.toList (f : TCPFlags) : List Bool :=
  [f.fin, f.syn, f.rst, f.psh, f.ack, f.urg, f.ece, f.cwr]

/-- `Packet.DDoSSample`. -/
def ddosSample (p : Packet) : Option Sample :=
  if ¬p.evidenceComplete ∨ (p.protocol ≠ .tcp ∧ p.protocol ≠ .udp) then none
  else if p.timestamp < ofUnixMicro (-maxSafeUS) ∨ ¬p.timestamp < ofUnixMicro (maxSafeUS + 1) then none
  else
    let protocol := if p.protocol = .tcp then "TCP" else "UDP"
    let flags := if p.protocol = .tcp then flagBits 0 p.tcpFlags.toList 0 else 0
    let pre := if 64 < p.payload.length then Bytes.slice p.payload 0 64 else p.payload
    let data := utf8 (protocol ++ "|" ++ toString p.ipLength.toNat ++ "|" ++ toString flags ++ "|") ++ pre
    let (semantic, token) :=
      if p.protocol = .udp then responseSemantics sha256 p.payload p.sourcePort p.destinationPort
      else (.other, none)
    some ⟨unixMicro p.timestamp, sha256 data, semantic, token⟩

end

/-! ### The similarity hash -/

/-- `fnv1a64`. -/
def fnv1a64 (value : Bytes) : UInt64 :=
  value.foldl (fun result item => (result ^^^ item.toUInt64) * 1099511628211) 14695981039346656037

/-- The votes of a shingle, one for each bit. -/
def vote (votes : List Int) (shingle : Bytes) : List Int :=
  let hashed := fnv1a64 shingle
  (List.range 64).foldl (fun votes bit =>
    if hashed &&& ((1 : UInt64) <<< bit.toUInt64) ≠ 0 then votes.set bit (votes.getD bit 0 + 1)
    else votes.set bit (votes.getD bit 0 - 1)) votes

/-- The shingles of a payload. -/
def shingles (payload : Bytes) : List Bytes :=
  if payload.length < 3 then [payload]
  else (List.range (payload.length - 3 + 1)).map fun index => Bytes.slice payload index (index + 3)

/-- `simHash`. -/
def simHash (payload : Bytes) : UInt64 :=
  let votes := (shingles payload).foldl vote (List.replicate 64 0)
  votes.zipIdx.foldl (fun result row =>
    if (0 : Int) ≤ row.1 then result ||| ((1 : UInt64) <<< row.2.toUInt64) else result) 0

/-- The field `SimHash`. -/
def simHashText (payload : Bytes) : String := hex16 (simHash payload).toNat

end Sensor

/-! ## The analysis -/

namespace Analysis

/-- The loop over the labels of a question: where it breaks, or none. -/
def labels (payload : Bytes) : Nat → Nat → Option Nat
  | 0, _ => none
  | turns + 1, offset =>
    if h : min payload.length 268 ≤ offset then none
    else
      let size := payload[offset].toNat
      if size = 0 then some (offset + 1)
      else if 63 < size then none
      else labels payload turns (offset + 1 + size)

section

variable (sha256 : Bytes → String)

/-- The part of `protocol_semantics` for the port of DNS. -/
def dnsSemantics (payload : Bytes) (sourcePort destinationPort : Option Nat) :
    Semantic × Option String :=
  if h : payload.length < 17 then (.unknown, none)
  else if payload[2].toNat &&& 0x7A ≠ 0 ∨ Bytes.slice payload 4 6 ≠ [0, 1] then (.unknown, none)
  else
    match labels payload 128 12 with
    | none => (.unknown, none)
    | some offset =>
      if payload.length < offset + 4 then (.unknown, none)
      else
        let response := payload[2].toNat &&& 0x80 ≠ 0
        if (response ∧ sourcePort ≠ some 53) ∨ (¬response ∧ destinationPort ≠ some 53) then
          (.unknown, none)
        else
          let token := sha256 (Bytes.slice payload 0 2 ++ Bytes.slice payload 12 (offset + 4))
          (if response then .dnsResponse else .dnsRequest, some token)

/-- The token of a timestamp: none if all its bytes are zero. -/
def timestampToken (raw : Bytes) : Option String :=
  if raw.any (· ≠ 0) then some (sha256 raw) else none

/-- The part of `protocol_semantics` for the port of NTP. -/
def ntpSemantics (payload : Bytes) (sourcePort destinationPort : Option Nat) :
    Semantic × Option String :=
  if h : payload.length < 48 then (.unknown, none)
  else if (payload[0].toNat >>> 3) &&& 7 ∉ [3, 4] then (.unknown, none)
  else
    let mode := payload[0].toNat &&& 7
    if mode = 4 ∧ sourcePort = some 123 ∧ 1 ≤ payload[1].toNat ∧ payload[1].toNat ≤ 15 then
      (.ntpResponse, timestampToken sha256 (Bytes.slice payload 24 32))
    else if mode = 3 ∧ destinationPort = some 123 then
      (.ntpRequest, timestampToken sha256 (Bytes.slice payload 40 48))
    else (.unknown, none)

/-- `protocol_semantics`. -/
def protocolSemantics (payload : Bytes) (sourcePort destinationPort : Option Nat) :
    Semantic × Option String :=
  if some 53 ∈ [sourcePort, destinationPort] then
    dnsSemantics sha256 payload sourcePort destinationPort
  else if some 123 ∈ [sourcePort, destinationPort] then
    ntpSemantics sha256 payload sourcePort destinationPort
  else if sourcePort ∈ [some 17, some 19, some 389, some 1900, some 11211] then (.unknown, none)
  else (.other, none)

/-- `timestamp_us`, from the days, the seconds and the microseconds of a `timedelta`. -/
def timestampUs (timestamp : DateTime) : Int :=
  let days := timestamp.micros / 86400000000
  let seconds := timestamp.micros % 86400000000 / 1000000
  let microseconds := timestamp.micros % 86400000000 % 1000000
  (days * 86400 + seconds) * 1000000 + microseconds

/-- `packet_sample`. -/
def packetSample (timestamp : DateTime) (protocol : String) (ipLength flags : Nat) (payload : Bytes)
    (sourcePort destinationPort : Option Nat) : Option Sample :=
  let stamp := timestampUs timestamp
  if ¬(-(2 ^ 53 - 1) ≤ stamp ∧ stamp ≤ 2 ^ 53 - 1) then none
  else
    let (semantic, token) :=
      if protocol = "UDP" then protocolSemantics sha256 payload sourcePort destinationPort
      else (.other, none)
    let profile := sha256
      (utf8 (protocol ++ "|" ++ toString ipLength ++ "|" ++ toString flags ++ "|") ++
        Bytes.slice payload 0 64)
    some ⟨stamp, profile, semantic, token⟩

end

/-! ### The similarity hash -/

/-- `_fnv1a64`. -/
def fnv1a64 (value : Bytes) : Nat :=
  value.foldl (fun result byte => ((result ^^^ byte.toNat) * 1099511628211) &&& (2 ^ 64 - 1))
    14695981039346656037

/-- The votes of a shingle, one for each bit. -/
def vote (votes : List Int) (shingle : Bytes) : List Int :=
  let hashed := fnv1a64 shingle
  (List.range 64).foldl (fun votes bit =>
    votes.set bit (votes.getD bit 0 + if hashed &&& (1 <<< bit) ≠ 0 then 1 else -1)) votes

/-- The shingles of a payload. -/
def shingles (payload : Bytes) : List Bytes :=
  if payload.length < 3 then [payload]
  else (List.range (payload.length - 3 + 1)).map fun index => Bytes.slice payload index (index + 3)

/-- The number that `_simhash` prints. -/
def simhashValue (payload : Bytes) : Nat :=
  let votes := (shingles payload).foldl vote (List.replicate 64 0)
  votes.zipIdx.foldl (fun result row =>
    if (0 : Int) ≤ row.1 then result ||| (1 <<< row.2) else result) 0

/-- `_simhash`. -/
def simhash (payload : Bytes) : String := hex16 (simhashValue payload)

end Analysis

/-! ## Agreement -/

section Semantics

variable (sha256 : Bytes → String) (payload : Bytes)

/-- The walk of the analysis is that of the sensor, where it ends. -/
theorem labels_eq (turns offset : Nat) : Analysis.labels payload turns offset =
      (Sensor.labels payload turns offset).bind fun r => if r.2 then some r.1 else none := by
  induction turns generalizing offset with
  | zero => rfl
  | succ turns ih =>
    rw [Analysis.labels, Sensor.labels]
    by_cases hend : payload.length ≤ offset
    · rw [dif_pos (by omega), dif_pos hend]
      rfl
    by_cases hbound : 268 ≤ offset
    · rw [dif_pos (by omega), dif_neg hend, if_pos hbound]
      rfl
    rw [dif_neg (by omega), dif_neg hend, if_neg hbound]
    simp only [get_eq_getElem]
    split
    · rfl
    split
    · rfl
    · exact ih _

theorem and_ne_zero_iff (b mask : UInt8) : b &&& mask ≠ 0 ↔ b.toNat &&& mask.toNat ≠ 0 := by
  rw [← UInt8.toNat_and, Ne, Ne, ← UInt8.toNat_inj]
  rfl

theorem port_eq_iff (port : UInt16) (n : Nat) (h : n < 65536) :
    port = UInt16.ofNat n ↔ some port.toNat = some n := by
  rw [← UInt16.toNat_inj, Option.some.injEq, UInt16.toNat_ofNat_of_lt' h]

theorem slice_question (h : 17 ≤ payload.length) : Bytes.slice payload 4 6 = [payload[4], payload[5]] := by
  rw [Bytes.slice, drop_eq_getElem_cons (by omega), drop_eq_getElem_cons (by omega)]
  rfl

theorem dnsSemantics_eq (src dst : UInt16) : Sensor.dnsSemantics sha256 payload src dst =
      Analysis.dnsSemantics sha256 payload (some src.toNat) (some dst.toNat) := by
  rw [Sensor.dnsSemantics, Analysis.dnsSemantics]
  by_cases hlength : payload.length < 17
  · rw [dif_pos hlength, dif_pos hlength]
  rw [dif_neg hlength, dif_neg hlength]
  have hflags : payload[2] &&& 0x7a ≠ 0 ↔ payload[2].toNat &&& 0x7A ≠ 0 := and_ne_zero_iff _ _
  have hresponse : payload[2] &&& 0x80 ≠ 0 ↔ payload[2].toNat &&& 0x80 ≠ 0 := and_ne_zero_iff _ _
  have hcount : Bytes.slice payload 4 6 ≠ [0, 1] ↔ payload[4] ≠ 0 ∨ payload[5] ≠ 1 := by
    rw [slice_question payload (by omega), Ne, List.cons.injEq, List.cons.injEq]
    tauto
  have hsrc : src ≠ 53 ↔ some src.toNat ≠ some 53 := not_congr (port_eq_iff src 53 (by decide))
  have hdst : dst ≠ 53 ↔ some dst.toNat ≠ some 53 := not_congr (port_eq_iff dst 53 (by decide))
  by_cases hheader : payload[2].toNat &&& 0x7A ≠ 0 ∨ Bytes.slice payload 4 6 ≠ [0, 1]
  · rw [if_pos hheader]
    obtain hno | hno := hheader
    · rw [if_pos (hflags.mpr hno)]
    · obtain hno | hno := hcount.mp hno
      · rw [if_pos hno, ite_self]
      · rw [if_pos hno, ite_self, ite_self]
  rw [if_neg hheader]
  rw [not_or, hcount, not_or] at hheader
  rw [if_neg (mt hflags.mp hheader.1), if_neg hheader.2.1, if_neg hheader.2.2, labels_eq]
  cases Sensor.labels payload 128 12 with
  | none => rfl
  | some stop =>
    obtain ⟨offset, ended⟩ := stop
    cases ended with
    | false => rfl
    | true =>
      simp only [Option.bind_some, if_true, Bool.not_true, Bool.false_or, decide_eq_true_eq, hresponse, hsrc, hdst]
      split
      · rfl
      split
      · rfl
      split
      · rfl
      · rfl

theorem firstNonzero_eq (raw rest : Bytes) :
    Sensor.firstNonzero sha256 rest raw = if rest.any (· ≠ 0) then some (sha256 raw) else none := by
  induction rest with
  | nil => rfl
  | cons b rest ih =>
    rw [Sensor.firstNonzero, any_cons]
    by_cases hb : b ≠ 0
    · rw [if_pos hb]
      simp [hb]
    · rw [if_neg hb, ih]
      simp [hb]

theorem ntpSemantics_eq (src dst : UInt16) : Sensor.ntpSemantics sha256 payload src dst =
      Analysis.ntpSemantics sha256 payload (some src.toNat) (some dst.toNat) := by
  rw [Sensor.ntpSemantics, Analysis.ntpSemantics]
  by_cases hlength : payload.length < 48
  · rw [dif_pos hlength, dif_pos hlength]
  rw [dif_neg hlength, dif_neg hlength]
  have hversion : (payload[0] >>> 3) &&& 7 ≠ 3 ∧ (payload[0] >>> 3) &&& 7 ≠ 4 ↔
      (payload[0].toNat >>> 3) &&& 7 ∉ [3, 4] := by
    simp only [Ne, ← UInt8.toNat_inj, UInt8.toNat_and, UInt8.toNat_shiftRight, mem_cons,
      not_mem_nil, or_false, not_or]
    rfl
  have hmode (n : Nat) (hn : n < 256) : payload[0] &&& 7 = UInt8.ofNat n ↔ payload[0].toNat &&& 7 = n := by
    rw [← UInt8.toNat_inj, UInt8.toNat_and, UInt8.toNat_ofNat_of_lt' hn]
    rfl
  have hresponse : payload[0] &&& 7 = 4 ∧ src = 123 ∧ (1 : UInt8) ≤ payload[1] ∧ payload[1] ≤ 15 ↔
      payload[0].toNat &&& 7 = 4 ∧ some src.toNat = some 123 ∧ 1 ≤ payload[1].toNat ∧ payload[1].toNat ≤ 15 :=
    and_congr (hmode 4 (by decide)) (and_congr (port_eq_iff src 123 (by decide)) Iff.rfl)
  have hrequest : payload[0] &&& 7 = 3 ∧ dst = 123 ↔ payload[0].toNat &&& 7 = 3 ∧ some dst.toNat = some 123 :=
    and_congr (hmode 3 (by decide)) (port_eq_iff dst 123 (by decide))
  simp only [hversion, hresponse, hrequest, firstNonzero_eq, Analysis.timestampToken]

/-- The two parsers agree on every payload. -/
theorem semantics_eq (src dst : UInt16) : Sensor.responseSemantics sha256 payload src dst =
      Analysis.protocolSemantics sha256 payload (some src.toNat) (some dst.toNat) := by
  have hport (port : UInt16) {n : Nat} (h : n < 65536) :
      port = UInt16.ofNat n ↔ some port.toNat = some n := port_eq_iff port n h
  have hdns : (src = 53 ∨ dst = 53) ↔ some 53 ∈ [some src.toNat, some dst.toNat] := by
    rw [mem_cons, mem_singleton, @eq_comm _ (some 53), @eq_comm _ (some 53)]
    exact or_congr (hport src (by decide)) (hport dst (by decide))
  have hntp : (src = 123 ∨ dst = 123) ↔ some 123 ∈ [some src.toNat, some dst.toNat] := by
    rw [mem_cons, mem_singleton, @eq_comm _ (some 123), @eq_comm _ (some 123)]
    exact or_congr (hport src (by decide)) (hport dst (by decide))
  have hservice : (src = 17 ∨ src = 19 ∨ src = 389 ∨ src = 1900 ∨ src = 11211) ↔
      some src.toNat ∈ [some 17, some 19, some 389, some 1900, some 11211] := by
    simp only [mem_cons, not_mem_nil, or_false]
    exact or_congr (hport src (by decide)) (or_congr (hport src (by decide))
      (or_congr (hport src (by decide)) (or_congr (hport src (by decide)) (hport src (by decide)))))
  rw [Sensor.responseSemantics, Analysis.protocolSemantics]
  simp only [hdns, hntp, hservice, dnsSemantics_eq, ntpSemantics_eq]

end Semantics

section Similarity

theorem fnv1a64_eq (value : Bytes) : (Sensor.fnv1a64 value).toNat = Analysis.fnv1a64 value := by
  rw [Sensor.fnv1a64, Analysis.fnv1a64]
  change _ = value.foldl _ (14695981039346656037 : UInt64).toNat
  generalize (14695981039346656037 : UInt64) = result
  induction value generalizing result with
  | nil => rfl
  | cons b value ih =>
    have hturn : ((result ^^^ b.toUInt64) * 1099511628211).toNat =
        ((result.toNat ^^^ b.toNat) * 1099511628211) &&& (2 ^ 64 - 1) := by
      rw [Nat.and_two_pow_sub_one_eq_mod, UInt64.toNat_mul, UInt64.toNat_xor, UInt8.toNat_toUInt64]
      rfl
    rw [foldl_cons, foldl_cons, ih, hturn]

/-- A power of two in a word. -/
theorem toNat_one_shiftLeft {bit : Nat} (h : bit < 64) : ((1 : UInt64) <<< bit.toUInt64).toNat = 1 <<< bit := by
  have hbit : bit.toUInt64.toNat = bit := UInt64.toNat_ofNat_of_lt' (by
    rw [UInt64.size]
    omega)
  rw [UInt64.toNat_shiftLeft, hbit, Nat.mod_eq_of_lt h, Nat.mod_eq_of_lt]
  · rfl
  · have hlt : 2 ^ bit < 2 ^ 64 := Nat.pow_lt_pow_right (by decide) h
    rwa [UInt64.toNat_one, Nat.shiftLeft_eq, Nat.one_mul]

theorem vote_eq (votes : List Int) (shingle : Bytes) : Sensor.vote votes shingle = Analysis.vote votes shingle := by
  rw [Sensor.vote, Analysis.vote]
  refine foldl_ext _ _ _ fun votes bit hbit => ?_
  have hiff : Sensor.fnv1a64 shingle &&& ((1 : UInt64) <<< bit.toUInt64) ≠ 0 ↔
      Analysis.fnv1a64 shingle &&& (1 <<< bit) ≠ 0 := by
    rw [← fnv1a64_eq, ← toNat_one_shiftLeft (mem_range.mp hbit), ← UInt64.toNat_and, Ne, Ne, ← UInt64.toNat_inj]
    rfl
  by_cases hset : Analysis.fnv1a64 shingle &&& (1 <<< bit) ≠ 0
  · rw [if_pos (hiff.mpr hset), if_pos hset]
  · rw [if_neg (mt hiff.mp hset), if_neg hset]
    rfl

theorem length_vote (votes : List Int) (shingle : Bytes) : (Sensor.vote votes shingle).length = votes.length := by
  rw [Sensor.vote]
  refine List.foldlRecOn (motive := fun v : List Int => v.length = votes.length) _ _ rfl fun v hv bit _ => ?_
  split
  · rw [length_set, hv]
  · rw [length_set, hv]

theorem length_votes (shingles : List Bytes) (votes : List Int) :
    (shingles.foldl Sensor.vote votes).length = votes.length := by
  refine List.foldlRecOn (motive := fun v : List Int => v.length = votes.length) _ _ rfl fun v hv shingle _ => ?_
  rw [length_vote, hv]

/-- The two similarity hashes agree. -/
theorem simHash_eq (payload : Bytes) : (Sensor.simHash payload).toNat = Analysis.simhashValue payload := by
  have hvotes : (Analysis.shingles payload).foldl Analysis.vote (List.replicate 64 0) =
      (Sensor.shingles payload).foldl Sensor.vote (List.replicate 64 0) :=
    foldl_ext _ _ _ fun votes shingle _ => (vote_eq votes shingle).symm
  rw [Sensor.simHash, Analysis.simhashValue, hvotes]
  have hlength := length_votes (Sensor.shingles payload) (List.replicate 64 0)
  rw [length_replicate] at hlength
  generalize (Sensor.shingles payload).foldl Sensor.vote (List.replicate 64 0) = votes at hlength
  have hindex : ∀ row ∈ votes.zipIdx, row.2 < 64 := fun row hrow => by
    have := snd_lt_of_mem_zipIdx hrow
    omega
  change _ = votes.zipIdx.foldl _ (0 : UInt64).toNat
  generalize (0 : UInt64) = result
  generalize votes.zipIdx = rows at hindex
  induction rows generalizing result with
  | nil => rfl
  | cons row rows ih =>
    rw [foldl_cons, foldl_cons, ih _ fun r hr => hindex r (mem_cons_of_mem _ hr)]
    congr 1
    split
    · rw [UInt64.toNat_or, toNat_one_shiftLeft (hindex row mem_cons_self)]
    · rfl

end Similarity

/-! ## Packets -/

/-- The transport of a packet; the flags are the byte of the header. -/
inductive Transport where
  | tcp (flags : UInt8)
  | udp
  deriving DecidableEq, Repr

/-- A packet that both sides see; `complete` says that it is captured whole, and no fragment. -/
structure Wire where
  timestamp : DateTime
  transport : Transport
  sourcePort : UInt16
  destinationPort : UInt16
  ipLength : UInt32
  payload : Bytes
  complete : Bool

namespace Sensor

/-- The flags of a byte. -/
def TCPFlags.ofByte (b : UInt8) : TCPFlags where
  fin := b &&& 0x01 ≠ 0
  syn := b &&& 0x02 ≠ 0
  rst := b &&& 0x04 ≠ 0
  psh := b &&& 0x08 ≠ 0
  ack := b &&& 0x10 ≠ 0
  urg := b &&& 0x20 ≠ 0
  ece := b &&& 0x40 ≠ 0
  cwr := b &&& 0x80 ≠ 0

/-- The packet as the sensor decodes it. -/
def observed (w : Wire) : Packet where
  timestamp := w.timestamp.micros * 1000
  sourcePort := w.sourcePort
  destinationPort := w.destinationPort
  protocol := match w.transport with
    | .tcp _ => .tcp
    | .udp => .udp
  tcpFlags := match w.transport with
    | .tcp flags => .ofByte flags
    | .udp => .ofByte 0
  payload := w.payload
  ipLength := w.ipLength
  evidenceComplete := w.complete

end Sensor

namespace Analysis

def Transport.text : Transport → String
  | .tcp _ => "TCP"
  | .udp => "UDP"

/-- The flags of a packet as a number. -/
def Transport.flags : Transport → Nat
  | .tcp flags => flags.toNat
  | .udp => 0

/-- The sample of a packet, which `_decode_packet` asks for if it is complete. -/
def sample (sha256 : Bytes → String) (w : Wire) : Option Sample :=
  if w.complete then
    packetSample sha256 w.timestamp (Transport.text w.transport) w.ipLength.toNat
      (Transport.flags w.transport) w.payload (some w.sourcePort.toNat) (some w.destinationPort.toNat)
  else none

end Analysis

theorem flagBits_ofByte (b : UInt8) : Sensor.flagBits 0 (Sensor.TCPFlags.ofByte b).toList 0 = b.toNat := by
  have hall : ∀ n < 256, Sensor.flagBits 0 (Sensor.TCPFlags.ofByte (UInt8.ofNat n)).toList 0 = n := by
    decide +kernel
  have hb := hall b.toNat b.toNat_lt
  rwa [UInt8.ofNat_toNat] at hb

theorem timestampUs_eq (timestamp : DateTime) : Analysis.timestampUs timestamp = timestamp.micros := by
  rw [Analysis.timestampUs]
  omega

/-- The timestamps that are safe are the same, and print the same. -/
theorem safe_iff (us : Int) : ¬(us * 1000 < Sensor.ofUnixMicro (-Sensor.maxSafeUS) ∨
      ¬us * 1000 < Sensor.ofUnixMicro (Sensor.maxSafeUS + 1)) ↔
      -(2 ^ 53 - 1) ≤ us ∧ us ≤ 2 ^ 53 - 1 := by
  rw [Sensor.ofUnixMicro, Sensor.ofUnixMicro, Sensor.maxSafeUS]
  omega

theorem unixMicro_eq {us : Int} (h : -(2 ^ 53 - 1) ≤ us ∧ us ≤ 2 ^ 53 - 1) : Sensor.unixMicro (us * 1000) = us := by
  rw [Sensor.unixMicro, Int.mul_ediv_cancel _ (by decide)]
  exact Int.bmod_eq_of_le (by omega) (by omega)

theorem pre_eq (payload : Bytes) :
    (if 64 < payload.length then Bytes.slice payload 0 64 else payload) = Bytes.slice payload 0 64 := by
  split
  · rfl
  · rw [Bytes.slice_zero, take_of_length_le (by omega)]

/-- Both sides derive the same evidence from every packet: the same sample, or none, and the same
similarity hash of its payload. -/
theorem evidence_agrees (sha256 : Bytes → String) (w : Wire) :
    Sensor.ddosSample sha256 (Sensor.observed w) = Analysis.sample sha256 w ∧
      Sensor.simHashText w.payload = Analysis.simhash w.payload := by
  refine ⟨?_, by rw [Sensor.simHashText, Analysis.simhash, simHash_eq]⟩
  rw [Sensor.ddosSample, Analysis.sample]
  cases hcomplete : w.complete with
  | false =>
    rw [if_pos (.inl (by simp [Sensor.observed, hcomplete])), if_neg (by simp)]
  | true =>
    have hkind : ¬(¬(Sensor.observed w).evidenceComplete = true ∨
        ((Sensor.observed w).protocol ≠ .tcp ∧ (Sensor.observed w).protocol ≠ .udp)) := by
      rw [Sensor.observed]
      cases w.transport <;> simp [hcomplete]
    rw [if_neg hkind, if_pos rfl, Analysis.packetSample, timestampUs_eq]
    have hstamp : (Sensor.observed w).timestamp = w.timestamp.micros * 1000 := rfl
    by_cases hsafe : -(2 ^ 53 - 1) ≤ w.timestamp.micros ∧ w.timestamp.micros ≤ 2 ^ 53 - 1
    · rw [hstamp, if_neg ((safe_iff _).mpr hsafe), if_neg (not_not.mpr hsafe), unixMicro_eq hsafe]
      cases htransport : w.transport with
      | tcp flags =>
        simp only [Sensor.observed, htransport, if_true, Analysis.Transport.text,
          Analysis.Transport.flags, flagBits_ofByte, pre_eq, reduceCtorEq, if_false]
        rfl
      | udp =>
        simp only [Sensor.observed, htransport, reduceCtorEq, if_false, if_true,
          Analysis.Transport.text, Analysis.Transport.flags, semantics_eq, pre_eq]
    · rw [hstamp, if_pos (by_contra fun h => hsafe ((safe_iff _).mp h)), if_pos hsafe]

/-! ## Capture files

`_transport` takes six flags out of the byte, so the number that `_decode_packet` passes to
`packet_sample` is that of the byte only if the two others are clear. -/

namespace Analysis

/-- `flags_value`, of the flags that `_transport` takes out of a byte. -/
def flagsValue (b : UInt8) : Nat :=
  (List.range 6).foldl (fun sum index =>
    sum + (1 <<< index) * if (b.toNat &&& 1 <<< index) >>> index ≠ 0 then 1 else 0) 0

theorem flagsValue_eq_mod (b : UInt8) : flagsValue b = b.toNat % 64 := by
  have hall : ∀ n < 256, flagsValue (UInt8.ofNat n) = n % 64 := by decide +kernel
  have hb := hall b.toNat b.toNat_lt
  rwa [UInt8.ofNat_toNat] at hb

theorem flagsValue_eq_iff (b : UInt8) : flagsValue b = b.toNat ↔ b.toNat < 64 := by
  rw [flagsValue_eq_mod]
  omega

end Analysis

end C2Hunter.Ddos
