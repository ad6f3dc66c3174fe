import C2Hunter.CaptureFormat
import C2Hunter.Loop

/-!
# The capture reader of the analysis

`_iter_classic_pcap` of `pcap.py` walks over a whole capture in memory by offsets, where the export
decoder reads from a stream.

* `classicIterTurn`, `iterClassicPcap` — the loop and the generator.
* `capturedPackets` — the packets of a list of records.
* `iterClassicPcap_eq` — on a file that consists of a header and records, the generator yields their
  packets, up to its limit.
-/

namespace C2Hunter

open List ClassicRecord

/-- `_CapturedPacket`. -/
structure CapturedPacket where
  timestamp : DateTime
  linkType : Nat
  data : Bytes
  originalLength : Nat
  packetIndex : Nat
  interfaceId : Nat
  deriving DecidableEq

/-- The error of a capture with too many packets. -/
def packetLimitError (maxPackets : Nat) : PcapParseError :=
  ⟨"capture exceeds the " ++ toString maxPackets ++ " packet limit", "PCAP_PACKET_LIMIT_EXCEEDED"⟩

/-- The variables of the loop. -/
structure ClassicIter where
  offset : Nat
  count : Nat

/-- The global header of a classic file, after its magic. -/
structure ClassicGlobals where
  endian : Endian
  resolution : Nat
  snaplen : Nat
  linkType : Nat

section

variable (content : Bytes) (maxPackets : Nat) (g : ClassicGlobals)

/-- A turn of the loop of `_iter_classic_pcap`. -/
def classicIterTurn (s : ClassicIter) : Except PcapParseError (Turn CapturedPacket ClassicIter) :=
  if content.length ≤ s.offset then .ok .stop
  else if content.length - s.offset < 16 then
    .error (invalidPcap "classic PCAP packet header is truncated")
  else
    let header := content.slice s.offset (s.offset + 16)
    let seconds := g.endian.toNat (header.slice 0 4)
    let fraction := g.endian.toNat (header.slice 4 8)
    let capturedLength := g.endian.toNat (header.slice 8 12)
    let originalLength := g.endian.toNat (header.slice 12 16)
    let offset := s.offset + 16
    if maxCapturedPacketBytes < capturedLength ∨ content.length - offset < capturedLength then
      .error (invalidPcap "classic PCAP packet data is truncated or oversized")
    else if originalLength < capturedLength ∨ g.snaplen < capturedLength then
      .error (invalidPcap "classic PCAP packet length exceeds original length or snap length")
    else if maxPackets < s.count + 1 then .error (packetLimitError maxPackets)
    else do
      let timestamp ← timestamp (seconds + fraction / g.resolution)
      return .emit
        ⟨timestamp, g.linkType &&& 0xFFFF, content.slice offset (offset + capturedLength),
          originalLength, s.count, 0⟩
        ⟨offset + capturedLength, s.count + 1⟩

/-- A packet moves the offset on. -/
theorem classicIterTurn_shrinks : Gen.Shrinks (fun _ => True) (fun s => content.length - s.offset)
      (classicIterTurn content maxPackets g) := by
  intro s _ t ht s' hs'
  refine ⟨trivial, ?_⟩
  simp only [classicIterTurn] at ht
  split at ht
  · cases ht
    cases hs'
  next hin =>
  simp only [Except.guard_eq_ok, Except.bind_eq_ok, Except.pure_eq_ok, Except.ok.injEq] at ht
  obtain ⟨-, -, -, -, instant, -, rfl⟩ := ht
  cases hs'
  simp only
  omega

/-- The walk over the records of a file. -/
def classicIterLoop (s : ClassicIter) : Gen PcapParseError CapturedPacket :=
  Gen.loop (classicIterTurn_shrinks content maxPackets g) s trivial

end

/-- `_iter_classic_pcap(content, max_packets)`, for content that starts with a magic. -/
def iterClassicPcap (content : Bytes) (maxPackets : Nat) : Gen PcapParseError CapturedPacket :=
  if content.length < 24 then .raise (invalidPcap "classic PCAP global header is truncated")
  else
    match classicMagic (content.take 4) with
    | none => .raise (invalidPcap "file is not a classic PCAP or PCAPNG capture")
    | some (endian, resolution) =>
      let major := endian.toNat (content.slice 4 6)
      let minor := endian.toNat (content.slice 6 8)
      let snaplen := endian.toNat (content.slice 16 20)
      let linkType := endian.toNat (content.slice 20 24)
      if major ≠ 2 ∨ minor ≠ 4 then
        .raise (invalidPcap ("unsupported classic PCAP version " ++ toString major ++ "." ++
          toString minor))
      else if snaplen < 1 ∨ maxCapturedPacketBytes < snaplen then
        .raise (invalidPcap "classic PCAP snap length is invalid")
      else classicIterLoop content maxPackets ⟨endian, resolution, snaplen, linkType⟩ ⟨24, 0⟩

/-! ## The packets of records -/

section Packets

variable (e : Endian) (resolution : Nat)

section

variable (r : ClassicRecord)

/-- The seconds of a record, with their fraction. -/
def ClassicRecord.time : ℚ := r.seconds e + r.fraction e / resolution

theorem ClassicRecord.field_lt {i : Nat} (h : i + 4 ≤ 16) : e.toNat (r.header.slice i (i + 4)) < 2 ^ 32 := by
  have hlt := e.toNat_lt (r.header.slice i (i + 4))
  rw [Bytes.length_slice_of_le (by rw [r.header_length]; exact h)] at hlt
  have hwidth : i + 4 - i = 4 := by omega
  rw [hwidth] at hlt
  exact hlt

/-- Thirty-two bits of seconds do not leave the calendar. -/
theorem ClassicRecord.time_inRange : minMicros ≤ roundHalfEven (r.time e resolution * 1000000) ∧
      roundHalfEven (r.time e resolution * 1000000) ≤ maxMicros := by
  have hseconds : r.seconds e < 2 ^ 32 := r.field_lt e (i := 0) (by decide)
  have hfraction : r.fraction e < 2 ^ 32 := r.field_lt e (i := 4) (by decide)
  have hnonneg : 0 ≤ r.time e resolution := by
    rw [time]
    positivity
  have hle : r.time e resolution ≤ 2 ^ 33 := by
    have hdiv : (r.fraction e : ℚ) / resolution ≤ r.fraction e := by
      rcases Nat.eq_zero_or_pos resolution with rfl | hpos
      · simp
      · exact div_le_self (by positivity) (by exact_mod_cast hpos)
    have h₁ : (r.seconds e : ℚ) ≤ 2 ^ 32 := by exact_mod_cast hseconds.le
    have h₂ : (r.fraction e : ℚ) ≤ 2 ^ 32 := by exact_mod_cast hfraction.le
    rw [time]
    linarith
  have hfloor : 0 ≤ ⌊r.time e resolution * 1000000⌋ := Int.floor_nonneg.mpr (by positivity)
  have hfloor' : ⌊r.time e resolution * 1000000⌋ ≤ 2 ^ 33 * 1000000 := by
    have hreal : r.time e resolution * 1000000 ≤ ((2 ^ 33 * 1000000 : Int) : ℚ) := by
      push_cast
      linarith
    have := Int.floor_mono hreal
    rwa [Int.floor_intCast] at this
  have hround : roundHalfEven (r.time e resolution * 1000000) = ⌊r.time e resolution * 1000000⌋ ∨
      roundHalfEven (r.time e resolution * 1000000) = ⌊r.time e resolution * 1000000⌋ + 1 := by
    rw [roundHalfEven]
    split
    · exact .inl rfl
    split
    · exact .inr rfl
    split
    · exact .inl rfl
    · exact .inr rfl
  rw [minMicros, maxMicros]
  rcases hround with h | h <;> rw [h] <;> constructor <;> omega

/-- The instant of a record. -/
def ClassicRecord.instant : DateTime :=
  ⟨roundHalfEven (r.time e resolution * 1000000), true, r.time_inRange e resolution⟩

theorem ClassicRecord.timestamp_time : timestamp (r.time e resolution) = .ok (r.instant e resolution) := by
  rw [timestamp, DateTime.fromtimestamp, dif_pos (r.time_inRange e resolution)]
  rfl

end

/-- The packets of records, numbered from `count`. -/
def capturedPackets (linkType : Nat) : Nat → List ClassicRecord → List CapturedPacket
  | _, [] => []
  | count, r :: records =>
    ⟨r.instant e resolution, linkType &&& 0xFFFF, r.data, r.originalLength e, count, 0⟩ ::
      capturedPackets linkType (count + 1) records

end Packets

/-! ## The generator on a file of records -/

section Iter

variable {g : ClassicGlobals} (maxPackets : Nat)

/-- The turn at a record. -/
theorem classicIterTurn_record (pre post : Bytes) {r : ClassicRecord} (count : Nat)
    (hvalid : r.Valid g.endian g.snaplen) :
    classicIterTurn (pre ++ (r.encode ++ post)) maxPackets g ⟨pre.length, count⟩ =
      if maxPackets < count + 1 then .error (packetLimitError maxPackets)
      else .ok (.emit ⟨r.instant g.endian g.resolution, g.linkType &&& 0xFFFF, r.data, r.originalLength g.endian,
          count, 0⟩ ⟨pre.length + r.encode.length, count + 1⟩) := by
  have hheader := r.header_length
  have hencode := r.length_encode
  have hlength : (pre ++ (r.encode ++ post)).length = pre.length + (16 + r.data.length + post.length) := by
    rw [length_append, length_append, hencode]
  have hslice : (pre ++ (r.encode ++ post)).slice pre.length (pre.length + 16) = r.header := by
    have h : (pre ++ (r.encode ++ post)).slice (pre.length + 0) (pre.length + 16) =
        (r.encode ++ post).slice 0 16 := Bytes.slice_append_right rfl
    rw [Nat.add_zero] at h
    rw [h, Bytes.slice_zero, encode, append_assoc, ← hheader, take_left]
  have hdata : (pre ++ (r.encode ++ post)).slice (pre.length + 16) (pre.length + 16 + r.data.length) = r.data := by
    have h : (pre ++ r.header ++ (r.data ++ post)).slice (pre.length + 16 + 0)
        (pre.length + 16 + r.data.length) = (r.data ++ post).slice 0 r.data.length :=
      Bytes.slice_append_right (by rw [length_append, hheader])
    rw [Nat.add_zero, Bytes.slice_zero, take_left] at h
    rw [encode, append_assoc, ← append_assoc pre, h]
  have hcaptured : g.endian.toNat (r.header.slice 8 12) = r.data.length := hvalid.captured
  have htime := r.timestamp_time g.endian g.resolution
  rw [time, seconds, fraction] at htime
  have horiginal := hvalid.le_original
  rw [originalLength] at horiginal
  have hmax := hvalid.le_max
  have hsnap := hvalid.le_snaplen
  rw [classicIterTurn]
  simp only [hlength, hslice, hcaptured, hdata, htime, Except.ok_bind, Except.pure_eq_ok]
  rw [if_neg (by omega), if_neg (by omega), if_neg (by omega), if_neg (by omega), hencode,
    Nat.add_assoc, originalLength]

/-- The walk over records yields their packets, until there are too many. -/
theorem classicIterLoop_eq (records : List ClassicRecord) (pre : Bytes) (count : Nat)
    (hvalid : ∀ r ∈ records, r.Valid g.endian g.snaplen) (hcount : count ≤ maxPackets) :
    classicIterLoop (pre ++ records.flatMap encode) maxPackets g ⟨pre.length, count⟩ =
      .prepend ((capturedPackets g.endian g.resolution g.linkType count records).take (maxPackets - count))
        (if count + records.length ≤ maxPackets then .done else .raise (packetLimitError maxPackets)) := by
  induction records generalizing pre count with
  | nil =>
    have hstop : classicIterTurn pre maxPackets g ⟨pre.length, count⟩ = .ok .stop := by
      rw [classicIterTurn, if_pos le_rfl]
    rw [flatMap_nil, append_nil, classicIterLoop, Gen.loop_stop _ _ hstop,
      length_nil, Nat.add_zero, if_pos hcount, capturedPackets, take_nil, Gen.prepend]
  | cons r records ih =>
    have hturn := classicIterTurn_record maxPackets pre (records.flatMap encode) count (hvalid r mem_cons_self)
    rw [flatMap_cons, classicIterLoop]
    by_cases hlimit : maxPackets < count + 1
    · rw [if_pos hlimit] at hturn
      have hzero : maxPackets - count = 0 := by omega
      rw [Gen.loop_raise _ _ hturn, hzero, take_zero, Gen.prepend, length_cons, if_neg (by omega)]
    rw [if_neg hlimit] at hturn
    have hrest := ih (pre ++ r.encode) (count + 1) (fun r' hr' => hvalid r' (mem_cons_of_mem _ hr')) (by omega)
    rw [length_append, append_assoc] at hrest
    have hroom : maxPackets - count = maxPackets - (count + 1) + 1 := by omega
    rw [Gen.loop_emit _ _ hturn, capturedPackets, hroom, take_succ_cons, Gen.prepend, length_cons]
    have hsum : count + (records.length + 1) = count + 1 + records.length := by omega
    rw [hsum]
    exact congrArg _ hrest

/-- On a file that consists of a header and records, the generator yields the packets of the
records, up to its limit. -/
theorem iterClassicPcap_eq {magic header : Bytes} {e : Endian} {resolution : Nat}
    {interface : CaptureInterface} (records : List ClassicRecord)
    (hmagic : classicMagic magic = some (e, resolution))
    (hheader : ClassicHeader e resolution header interface)
    (hvalid : ∀ r ∈ records, r.Valid e interface.snaplen) :
    iterClassicPcap (magic ++ header ++ records.flatMap encode) maxPackets =
      .prepend ((capturedPackets e resolution (e.toNat (header.slice 16 20)) 0 records).take maxPackets)
        (if records.length ≤ maxPackets then .done else .raise (packetLimitError maxPackets)) := by
  have hmagicLength := classicMagic_length hmagic
  have hheaderLength := hheader.length_eq
  have hlength : (magic ++ header).length = 24 := by
    rw [length_append, hmagicLength, hheaderLength]
  have htake : (magic ++ header ++ records.flatMap encode).take 4 = magic := by
    rw [append_assoc, ← hmagicLength, take_left]
  have hslice {i j : Nat} (hj : j ≤ 20) : (magic ++ header ++ records.flatMap encode).slice (4 + i) (4 + j) =
        header.slice i j := by
    rw [append_assoc, Bytes.slice_append_right hmagicLength, Bytes.slice_append_left (by omega)]
  have hsnaplen : e.toNat (header.slice 12 16) = interface.snaplen := by rw [hheader.interface_eq]
  have hpos := hheader.snaplen_pos
  have hle := hheader.snaplen_le
  have hloop := classicIterLoop_eq maxPackets
    (g := ⟨e, resolution, interface.snaplen, e.toNat (header.slice 16 20)⟩) records (magic ++ header) 0
    hvalid (Nat.zero_le _)
  rw [iterClassicPcap, if_neg (by rw [length_append, hlength]; omega), htake, hmagic]
  simp only [hslice (i := 0) (j := 2) (by omega), hslice (i := 2) (j := 4) (by omega),
    hslice (i := 12) (j := 16) (by omega), hslice (i := 16) (j := 20) (by omega), hheader.major,
    hheader.minor, hsnaplen]
  rw [if_neg (by simp), if_neg (by omega)]
  rw [hlength, Nat.zero_add, Nat.sub_zero] at hloop
  exact hloop

end Iter

end C2Hunter
