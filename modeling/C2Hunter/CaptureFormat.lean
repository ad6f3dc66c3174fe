import C2Hunter.Packet

/-!
# Capture files

What the programs that read captures share: the constants of the two file formats, the records of a
classic PCAP file as data, and the errors that are raised.

* `ClassicRecord`, `ClassicHeader` — the pieces of a classic file, as raw bytes.
* `invalidPcap`, `timestamp` — errors, and the instant of a packet.
-/

namespace C2Hunter

/-! ## Constants of the formats -/

/-- `_CLASSIC_MAGIC`: the byte order and the ticks of a second. -/
def classicMagic (magic : Bytes) : Option (Endian × Nat) :=
  if magic = [0xd4, 0xc3, 0xb2, 0xa1] then some (.little, 1000000)
  else if magic = [0xa1, 0xb2, 0xc3, 0xd4] then some (.big, 1000000)
  else if magic = [0x4d, 0x3c, 0xb2, 0xa1] then some (.little, 1000000000)
  else if magic = [0xa1, 0xb2, 0x3c, 0x4d] then some (.big, 1000000000)
  else none

/-- `_PCAPNG_SECTION`. -/
def pcapngSection : Bytes := [0x0a, 0x0d, 0x0d, 0x0a]

/-- `_MAX_CAPTURED_PACKET_BYTES`. -/
def maxCapturedPacketBytes : Nat := 16 * 1024 * 1024

/-! ## Classic files -/

/-- A record of a classic file. -/
structure ClassicRecord where
  header : Bytes
  data : Bytes
  header_length : header.length = 16

namespace ClassicRecord

variable (e : Endian) (r : ClassicRecord)

/-- The bytes of the record. -/
def encode : Bytes := r.header ++ r.data

/-- The four numbers of the header. -/
def seconds : Nat := e.toNat (r.header.slice 0 4)
@[inherit_doc seconds]
def fraction : Nat := e.toNat (r.header.slice 4 8)
@[inherit_doc seconds]
def capturedLength : Nat := e.toNat (r.header.slice 8 12)
@[inherit_doc seconds]
def originalLength : Nat := e.toNat (r.header.slice 12 16)

/-- The record is well formed in a file with the given snap length. -/
structure Valid (snaplen : Nat) : Prop where
  captured : r.capturedLength e = r.data.length
  le_max : r.data.length ≤ maxCapturedPacketBytes
  le_original : r.data.length ≤ r.originalLength e
  le_snaplen : r.data.length ≤ snaplen

theorem length_encode : r.encode.length = 16 + r.data.length := by
  rw [encode, List.length_append, r.header_length]

end ClassicRecord

/-- The header of a classic file, after its magic. -/
structure ClassicHeader (e : Endian) (resolution : Nat) (header : Bytes)
    (interface : CaptureInterface) : Prop where
  length_eq : header.length = 20
  major : e.toNat (header.slice 0 2) = 2
  minor : e.toNat (header.slice 2 4) = 4
  snaplen_pos : 1 ≤ interface.snaplen
  snaplen_le : interface.snaplen ≤ maxCapturedPacketBytes
  interface_eq : interface =
    ⟨0, 0, 0, e.toNat (header.slice 16 20) &&& 0xFFFF, e.toNat (header.slice 12 16), 1, resolution, 0⟩

/-! ## Blocks -/

/-! ### Packets -/

theorem classicMagic_length {magic : Bytes} {e : Endian} {resolution : Nat}
    (h : classicMagic magic = some (e, resolution)) :
    magic.length = 4 := by
  simp only [classicMagic] at h
  split at h
  · next hm => cases h; subst hm; decide
  split at h
  · next hm => cases h; subst hm; decide
  split at h
  · next hm => cases h; subst hm; decide
  · split at h
    · next hm => cases h; subst hm; decide
    · cases h

/-! ## Errors -/

/-- `PcapParseError(message)`. -/
def invalidPcap (message : String) : PcapParseError := { message := message }

/-- `_timestamp`. -/
def timestamp (seconds : ℚ) : Except PcapParseError DateTime :=
  match DateTime.fromtimestamp seconds with
  | some t => .ok t
  | none => .error (invalidPcap "capture contains an invalid packet timestamp")

end C2Hunter
