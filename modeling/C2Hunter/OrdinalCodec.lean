import C2Hunter.Gen
import C2Hunter.Leb128
import C2Hunter.Outcome
import Mathlib.Data.Nat.Bitwise

/-!
# The ordinal codec of the posting index

`_varint`, `encode_ordinals`, `_iter_decoded_ordinals` and `decode_ordinals` of
`pcap_postings.py`. A posting chunk stores an increasing list of packet indexes
as the differences of neighbours, starting from `-1`, each difference as a
base-128 varint of at most ten bytes.

* `encodeOrdinals` / `decodeOrdinals` — the codec as the source computes it: bit
  masks and shifts, the ten-round inner loop, the canonical-form comparison.
* `encodeOrdinals_eq_ok`, `decodeOrdinals_eq_ok` — what the two functions accept:
  both are characterised by `Increasing`, the lists the codec is for, and
  `deltas`, the encoding written without errors.
* `ordinalCodec_bijection` — the two functions are inverse bijections between the
  increasing 64-bit lists and the byte strings the decoder accepts.

Every later module uses the two characterisations and none unfolds a loop.
-/

namespace C2Hunter

open List Leb128

/-- `MAX_POSTING_ORDINAL = 2**64 - 1`. -/
def maxPostingOrdinal : Nat := 2 ^ 64 - 1

/-- The ways `PostingCodecError` is raised. -/
inductive PostingCodecError where
  | deltaRange
  | ordinalRange
  | ordinalOrder
  | maximumRange
  | varintForm
  | varintRange
  | varintCanonical
  | decodedOrder
  | decodedRange
  | decodedUniverse
  | dictionaryValue
  | chunkOrder
  | allPacketGap
  | chunkMetadata
  deriving DecidableEq, Repr

/-- The text each `PostingCodecError` carries; the code of all of them is
`POSTING_CODEC_INVALID`. -/
def PostingCodecError.message : PostingCodecError → String
  | deltaRange => "delta must fit in an unsigned 64-bit integer"
  | ordinalRange => "packet ordinal exceeds unsigned 64-bit range"
  | ordinalOrder => "packet ordinals must be strictly increasing"
  | maximumRange => "maximum ordinal must be an unsigned 64-bit integer"
  | varintForm => "truncated or oversized delta varint"
  | varintRange => "delta varint exceeds unsigned 64-bit range"
  | varintCanonical => "delta varint is not canonical"
  | decodedOrder => "decoded ordinals are not strictly increasing"
  | decodedRange => "decoded ordinal exceeds unsigned 64-bit range"
  | decodedUniverse => "decoded ordinal exceeds packet universe"
  | dictionaryValue => "posting dictionary value is not canonical"
  | chunkOrder => "decoded chunks are not strictly increasing"
  | allPacketGap => "ALL_PACKET is not contiguous"
  | chunkMetadata => "posting chunk metadata does not match ordinals"

/-! ## Encoding -/

/-- The `while value >= 0x80` loop of `_varint`, with the final `append`. -/
def varintLoop (value : Nat) : Bytes :=
  if value < 0x80 then [UInt8.ofNat value]
  else UInt8.ofNat ((value &&& 0x7F) ||| 0x80) :: varintLoop (value >>> 7)
termination_by value
decreasing_by
  rw [Nat.shiftRight_eq_div_pow]
  omega

/-- `_varint`. -/
def varint (value : Int) : Except PostingCodecError Bytes :=
  if ¬(0 ≤ value ∧ value ≤ maxPostingOrdinal) then .error .deltaRange
  else .ok (varintLoop value.toNat)

/-- The loop of `encode_ordinals`, from the value `previous` on. -/
def encodeLoop (previous : Int) : List Int → Except PostingCodecError Bytes
  | [] => .ok []
  | value :: rest =>
    if value < 0 ∨ value > maxPostingOrdinal then .error .ordinalRange
    else if value ≤ previous then .error .ordinalOrder
    else if value - previous > maxPostingOrdinal then .error .deltaRange
    else do
      let delta ← varint (value - previous)
      let encoded ← encodeLoop value rest
      return delta ++ encoded

/-- `encode_ordinals`. -/
def encodeOrdinals (values : List Int) : Except PostingCodecError Bytes :=
  encodeLoop (-1) values

/-! ## Decoding -/

/-- The loop `for byte_index in range(10)` that reads one varint. `rounds` counts
the rounds left; running out of them is the loop's `else` branch. Returns the
value and the bytes after it. -/
def readDelta : (rounds byteIndex decoded : Nat) → Bytes → Except PostingCodecError (Nat × Bytes)
  | 0, _, _, _ => .error .varintForm
  | _ + 1, _, _, [] => .error .varintForm
  | rounds + 1, byteIndex, decoded, byte :: rest =>
    let payload := byte.toNat &&& 0x7F
    let shift := byteIndex * 7
    if byteIndex = 9 ∧ (byte.toNat &&& 0x80 ≠ 0 ∨ payload > 0x01) then .error .varintForm
    else if payload > maxPostingOrdinal >>> shift then .error .varintRange
    else if byte.toNat &&& 0x80 = 0 then .ok (decoded ||| payload <<< shift, rest)
    else readDelta rounds (byteIndex + 1) (decoded ||| payload <<< shift) rest

/-- A varint takes at least one byte, and what is left is a suffix. -/
theorem readDelta_suffix : ∀ (rounds byteIndex decoded : Nat) (value : Bytes) (n : Nat)
    (rest : Bytes), readDelta rounds byteIndex decoded value = .ok (n, rest) →
      ∃ consumed, consumed ≠ [] ∧ value = consumed ++ rest := by
  intro rounds
  induction rounds with
  | zero => intro _ _ _ _ _ h; cases h
  | succ rounds ih =>
    intro byteIndex decoded value n rest h
    cases value with
    | nil => cases h
    | cons byte tail =>
      rw [readDelta, Except.guard_eq_ok, Except.guard_eq_ok] at h
      obtain ⟨-, -, h⟩ := h
      split at h
      · cases h
        exact ⟨[byte], cons_ne_nil _ _, rfl⟩
      · obtain ⟨consumed, -, rfl⟩ := ih _ _ _ _ _ h
        exact ⟨byte :: consumed, cons_ne_nil _ _, rfl⟩

/-- The `while offset < len(value)` loop of `_iter_decoded_ordinals`, on the bytes
not yet read. -/
def decodeLoop (maxOrdinal : Option Int) (previous : Int) (value : Bytes) :
    Gen PostingCodecError Int :=
  if value = [] then .done
  else
    match _h : readDelta 10 0 0 value with
    | .error e => .raise e
    | .ok (decoded, rest) =>
      match varint decoded with
      | .error e => .raise e
      | .ok canonical =>
        if value.take (value.length - rest.length) ≠ canonical then .raise .varintCanonical
        else if decoded = 0 then .raise .decodedOrder
        else if previous > maxPostingOrdinal - (decoded : Int) then .raise .decodedRange
        else if ∃ m ∈ maxOrdinal, previous + decoded > m then .raise .decodedUniverse
        else .yield (previous + decoded) (decodeLoop maxOrdinal (previous + decoded) rest)
termination_by value.length
decreasing_by
  obtain ⟨consumed, hne, hval⟩ := readDelta_suffix _ _ _ _ _ _ _h
  have := List.length_pos_of_ne_nil hne
  rw [hval, List.length_append]
  omega

/-- `_iter_decoded_ordinals`. -/
def iterDecodedOrdinals (value : Bytes) (maxOrdinal : Option Int) : Gen PostingCodecError Int :=
  if ∃ m ∈ maxOrdinal, ¬(0 ≤ m ∧ m ≤ maxPostingOrdinal) then .raise .maximumRange
  else decodeLoop maxOrdinal (-1) value

/-- `decode_ordinals`. -/
def decodeOrdinals (value : Bytes) (maxOrdinal : Option Int) :
    Except PostingCodecError (List Int) :=
  (iterDecodedOrdinals value maxOrdinal).collect

/-! ## Bit masks as arithmetic -/

theorem and_0x7F (n : Nat) : n &&& 0x7F = n % 128 := Nat.and_two_pow_sub_one_eq_mod n 7

theorem or_0x80 (n : Nat) : n % 128 ||| 0x80 = n % 128 + 128 := by
  have h := Nat.two_pow_add_eq_or_of_lt (i := 7) (Nat.mod_lt n (by decide : 0 < 2 ^ 7)) 1
  rw [Nat.or_comm, Nat.add_comm]
  exact h.symm

/-- The high bit of a byte is set exactly from 128 on. -/
theorem and_0x80 (b : UInt8) : b.toNat &&& 0x80 = 0 ↔ b.toNat < 128 := by
  have hb : b.toNat < 256 := b.toNat_lt
  rw [show (0x80 : Nat) = 2 ^ 7 from rfl, Nat.and_two_pow, Nat.testBit_eq_decide_div_mod_eq]
  simp
  omega

theorem varintLoop_eq_encode (value : Nat) : varintLoop value = encode value := by
  induction value using encode.induct with
  | case1 n h => rw [varintLoop, if_pos h, encode_of_lt h]
  | case2 n h ih =>
    rw [varintLoop, if_neg h, encode_of_ge (by omega), Nat.shiftRight_eq_div_pow, and_0x7F, or_0x80]
    exact congrArg _ ih

variable {xs : List Int} {previous : Int} {b : Bytes} {maxOrdinal : Option Int}

theorem varint_eq_ok {value : Int} : varint value = .ok b ↔
      (0 ≤ value ∧ value ≤ maxPostingOrdinal) ∧ b = encode value.toNat := by
  rw [varint, Except.guard_eq_ok, not_not, varintLoop_eq_encode, Except.ok.injEq, eq_comm (a := b)]

theorem varint_of_le {value : Nat} (h : value ≤ maxPostingOrdinal) : varint value = .ok (encode value) :=
  varint_eq_ok.mpr ⟨⟨by omega, by omega⟩, rfl⟩

/-! ## The lists the codec is for -/

/-- `xs` continues `previous` upwards, inside the unsigned 64-bit range, by steps
that fit 64 bits. Only the first step can fail the last condition: from `-1` to
`2 ^ 64 - 1`. -/
def Increasing (previous : Int) : List Int → Prop
  | [] => True
  | x :: xs =>
    previous < x ∧ x ≤ maxPostingOrdinal ∧ x - previous ≤ maxPostingOrdinal ∧ Increasing x xs

/-- The encoding of `xs` after `previous`: the varints of the differences. -/
def deltas (previous : Int) : List Int → Bytes
  | [] => []
  | x :: xs => Leb128.encode (x - previous).toNat ++ deltas x xs

theorem increasing_append {ys : List Int} : Increasing previous (xs ++ ys) ↔
      Increasing previous xs ∧ Increasing (xs.getLastD previous) ys := by
  induction xs generalizing previous with
  | nil => simp [Increasing]
  | cons x xs ih =>
    rw [cons_append, Increasing, Increasing, ih, getLastD_cons]
    simp only [and_assoc]

theorem deltas_append (previous : Int) (xs ys : List Int) :
    deltas previous (xs ++ ys) = deltas previous xs ++ deltas (xs.getLastD previous) ys := by
  induction xs generalizing previous with
  | nil => rfl
  | cons x xs ih =>
    rw [cons_append, deltas, deltas, ih, getLastD_cons, append_assoc]

/-- `encode_ordinals` accepts the `Increasing` lists and computes their `deltas`. -/
theorem encodeLoop_eq_ok (hprev : -1 ≤ previous) :
    encodeLoop previous xs = .ok b ↔ Increasing previous xs ∧ b = deltas previous xs := by
  induction xs generalizing previous b with
  | nil => simp [encodeLoop, Increasing, deltas, eq_comm]
  | cons x xs ih =>
    simp only [encodeLoop, Except.guard_eq_ok, Except.bind_eq_ok, varint_eq_ok, Increasing, deltas,
      pure, Except.pure, Except.ok.injEq]
    constructor
    · rintro ⟨hrange, horder, hdelta, d, ⟨-, rfl⟩, rest, hrest, rfl⟩
      obtain ⟨hinc, rfl⟩ := (ih (by omega)).mp hrest
      exact ⟨⟨by omega, by omega, by omega, hinc⟩, rfl⟩
    · rintro ⟨⟨hlt, hle, hdelta, hinc⟩, rfl⟩
      refine ⟨by omega, by omega, by omega, _, ⟨by omega, rfl⟩, deltas x xs, ?_, rfl⟩
      exact (ih (by omega)).mpr ⟨hinc, rfl⟩

/-! ## Reading one varint back -/

/-- The groups collected so far and those still in an encoding, put together. -/
theorem or_shift_groups (acc d s : Nat) : acc ||| (d % 128) <<< s ||| (d / 128) <<< (s + 7) = acc ||| d <<< s := by
  have hsplit : d = d % 128 ||| (d / 128) <<< 7 := by
    have h := Nat.two_pow_add_eq_or_of_lt (i := 7) (Nat.mod_lt d (by decide : 0 < 2 ^ 7)) (d / 128)
    rw [Nat.shiftLeft_eq, Nat.mul_comm, Nat.or_comm]
    have hd : d = 2 ^ 7 * (d / 128) + d % 128 := (Nat.div_add_mod d 128).symm
    exact hd.trans h
  conv_rhs => rw [hsplit, Nat.shiftLeft_or_distrib, ← Nat.shiftLeft_add, Nat.add_comm 7 s]
  rw [Nat.or_assoc]

/-- The ten-round loop reads back the canonical encoding of a value that fits in
what is left of the 64 bits. -/
theorem readDelta_encode : ∀ (rounds byteIndex acc d : Nat) (rest : Bytes),
    rounds + byteIndex = 10 → byteIndex ≤ 9 → d ≤ maxPostingOrdinal >>> (byteIndex * 7) →
      readDelta rounds byteIndex acc (encode d ++ rest) = .ok (acc ||| d <<< (byteIndex * 7), rest) := by
  intro rounds
  induction rounds with
  | zero => intro i _ _ _ hsum hi _; omega
  | succ rounds ih =>
    intro i acc d rest hsum hi hd
    -- in the last round only one bit of the 64 is left
    have hlast : i = 9 → d ≤ 1 := by
      rintro rfl
      exact hd
    rcases Nat.lt_or_ge d 128 with hlt | hge
    · have hb : (UInt8.ofNat d).toNat = d := toNat_last hlt
      have hhigh := (and_0x80 (UInt8.ofNat d)).mpr (by omega)
      rw [hb] at hhigh
      rw [encode_of_lt hlt, singleton_append, readDelta]
      simp only [hb, and_0x7F, Nat.mod_eq_of_lt hlt]
      rw [if_neg (by omega), if_neg (by omega), if_pos hhigh]
    · have hi9 : i < 9 := by
        by_contra hcon
        have := hlast (by omega)
        omega
      have hb : (UInt8.ofNat (d % 128 + 128)).toNat = d % 128 + 128 := toNat_group d
      have hhigh : ¬(d % 128 + 128) &&& 0x80 = 0 := by
        have h := and_0x80 (UInt8.ofNat (d % 128 + 128))
        rw [hb] at h
        omega
      have hmod : (d % 128 + 128) % 128 = d % 128 := by omega
      have hnext : d / 128 ≤ maxPostingOrdinal >>> ((i + 1) * 7) := by
        rw [Nat.succ_mul, Nat.shiftRight_add, Nat.shiftRight_eq_div_pow _ 7]
        exact Nat.div_le_div_right hd
      rw [encode_of_ge hge, cons_append, readDelta]
      simp only [hb, and_0x7F, hmod]
      rw [if_neg (by omega), if_neg (by omega), if_neg hhigh,
        ih (i + 1) _ _ _ (by omega) (by omega) hnext, Nat.succ_mul, or_shift_groups]

theorem readDelta_encode_all {d : Nat} (hd : d ≤ maxPostingOrdinal) (rest : Bytes) :
    readDelta 10 0 0 (encode d ++ rest) = .ok (d, rest) := by
  rw [readDelta_encode 10 0 0 d rest rfl (by omega) hd]
  simp

/-! ## The decoding loop -/

@[simp] theorem decodeLoop_nil (maxOrdinal : Option Int) (previous : Int) :
    decodeLoop maxOrdinal previous [] = .done := by
  rw [decodeLoop, if_pos rfl]

/-- One round of the loop on a canonical varint of a step that stays in range. -/
theorem decodeLoop_encode {d : Nat} (rest : Bytes) (hpos : 0 < d) (hd : d ≤ maxPostingOrdinal)
    (hrange : previous + d ≤ maxPostingOrdinal) :
    decodeLoop maxOrdinal previous (encode d ++ rest) =
      if ∃ m ∈ maxOrdinal, previous + d > m then .raise .decodedUniverse
      else .yield (previous + d) (decodeLoop maxOrdinal (previous + d) rest) := by
  have hne : encode d ++ rest ≠ [] := by
    simp [encode_ne_nil]
  have htake : (encode d ++ rest).take ((encode d ++ rest).length - rest.length) = encode d := by
    simp
  rw [decodeLoop, if_neg hne]
  split
  · next e he => rw [readDelta_encode_all hd] at he; cases he
  next decoded rest' he =>
  rw [readDelta_encode_all hd] at he
  cases he
  rw [varint_of_le hd]
  simp only [htake]
  rw [if_neg (not_not_intro rfl), if_neg (by omega), if_neg (by omega)]

/-- What the loop accepts starts with a canonical varint of a step in range. -/
theorem decodeLoop_inv {value : Bytes} (h : (decodeLoop maxOrdinal previous value).collect = .ok xs)
    (hne : value ≠ []) :
    ∃ (d : Nat) (rest : Bytes), 0 < d ∧ d ≤ maxPostingOrdinal ∧
      previous + d ≤ maxPostingOrdinal ∧ value = encode d ++ rest := by
  rw [decodeLoop, if_neg hne] at h
  split at h
  · cases h
  next decoded rest he =>
  split at h
  · cases h
  next canonical hv =>
  obtain ⟨⟨-, hle⟩, rfl⟩ := varint_eq_ok.mp hv
  split at h
  · cases h
  next hcanon =>
  split at h
  · cases h
  next hzero =>
  split at h
  · cases h
  next hrange =>
  obtain ⟨consumed, -, rfl⟩ := readDelta_suffix _ _ _ _ _ _ he
  refine ⟨decoded, rest, by omega, by omega, by omega, ?_⟩
  rw [not_not, length_append, Nat.add_sub_cancel, take_left] at hcanon
  rw [hcanon, Int.toNat_natCast]

/-- The loop accepts exactly the `deltas` of the `Increasing` lists under the bound. -/
theorem decodeLoop_collect {value : Bytes} : (decodeLoop maxOrdinal previous value).collect = .ok xs ↔
      Increasing previous xs ∧ value = deltas previous xs ∧ ∀ m ∈ maxOrdinal, ∀ x ∈ xs, x ≤ m := by
  induction xs generalizing previous value with
  | nil =>
    constructor
    · intro h
      rcases eq_or_ne value [] with rfl | hne
      · exact ⟨trivial, rfl, by simp⟩
      obtain ⟨d, rest, hpos, hd, hrange, rfl⟩ := decodeLoop_inv h hne
      rw [decodeLoop_encode rest hpos hd hrange] at h
      split at h
      · cases h
      · obtain ⟨l, -, hl⟩ := Gen.collect_yield_eq_ok.mp h
        cases hl
    · rintro ⟨-, rfl, -⟩
      rw [deltas, decodeLoop_nil, Gen.collect_done]
  | cons x xs ih =>
    constructor
    · intro h
      rcases eq_or_ne value [] with rfl | hne
      · rw [decodeLoop_nil] at h
        cases h
      obtain ⟨d, rest, hpos, hd, hrange, rfl⟩ := decodeLoop_inv h hne
      rw [decodeLoop_encode rest hpos hd hrange] at h
      split at h
      · cases h
      next hmax =>
      obtain ⟨l, hl, hxs⟩ := Gen.collect_yield_eq_ok.mp h
      cases hxs
      obtain ⟨hinc, rfl, hbound⟩ := ih.mp hl
      have hsub : (previous + d - previous).toNat = d := by omega
      refine ⟨⟨by omega, by omega, by omega, hinc⟩, by rw [deltas, hsub], ?_⟩
      intro m hm y hy
      rcases mem_cons.mp hy with rfl | hy
      · exact not_lt.mp fun hlt => hmax ⟨m, hm, hlt⟩
      · exact hbound m hm y hy
    · rintro ⟨⟨hlt, hle, hstep, hinc⟩, rfl, hbound⟩
      have hcast : previous + ((x - previous).toNat : Int) = x := by omega
      rw [deltas, decodeLoop_encode _ (by omega) (by omega) (by omega), hcast, if_neg]
      · exact Gen.collect_yield_eq_ok.mpr ⟨xs, ih.mpr ⟨hinc, rfl, fun m hm y hy =>
          hbound m hm y (mem_cons_of_mem _ hy)⟩, rfl⟩
      · rintro ⟨m, hm, hgt⟩
        have := hbound m hm x mem_cons_self
        omega

/-! ## The codec as a whole -/

theorem encodeOrdinals_eq_ok : encodeOrdinals xs = .ok b ↔ Increasing (-1) xs ∧ b = deltas (-1) xs :=
  encodeLoop_eq_ok le_rfl

theorem decodeOrdinals_eq_ok : decodeOrdinals b maxOrdinal = .ok xs ↔
      (∀ m ∈ maxOrdinal, 0 ≤ m ∧ m ≤ maxPostingOrdinal) ∧
      Increasing (-1) xs ∧ b = deltas (-1) xs ∧ ∀ m ∈ maxOrdinal, ∀ x ∈ xs, x ≤ m := by
  rw [decodeOrdinals, iterDecodedOrdinals]
  split
  · next h =>
    obtain ⟨m, hm, hout⟩ := h
    constructor
    · intro h
      cases h
    · rintro ⟨hin, -⟩
      exact absurd (hin m hm) hout
  · next h =>
    have hin : ∀ m ∈ maxOrdinal, 0 ≤ m ∧ m ≤ maxPostingOrdinal := by
      intro m hm
      by_contra hout
      exact h ⟨m, hm, hout⟩
    rw [decodeLoop_collect]
    exact (and_iff_right hin).symm

/-- `Increasing` from any start, in terms of the list as a whole. -/
theorem increasing_iff (hprev : -1 ≤ previous) : Increasing previous xs ↔
      xs.Pairwise (· < ·) ∧ (∀ x ∈ xs, previous < x ∧ x ≤ maxPostingOrdinal) ∧
      ∀ x ∈ xs.head?, x - previous ≤ maxPostingOrdinal := by
  induction xs generalizing previous with
  | nil => simp [Increasing]
  | cons x xs ih =>
    rw [Increasing, pairwise_cons]
    constructor
    · rintro ⟨hlt, hle, hstep, hinc⟩
      obtain ⟨hpair, hall, -⟩ := (ih (by omega)).mp hinc
      refine ⟨⟨fun y hy => (hall y hy).1, hpair⟩, ?_, ?_⟩
      · intro y hy
        rcases mem_cons.mp hy with rfl | hy
        · exact ⟨hlt, hle⟩
        · exact ⟨hlt.trans (hall y hy).1, (hall y hy).2⟩
      · rintro y ⟨⟩
        exact hstep
    · rintro ⟨⟨hhead, hpair⟩, hall, hstep⟩
      obtain ⟨hlt, hle⟩ := hall x mem_cons_self
      refine ⟨hlt, hle, hstep x rfl, (ih (by omega)).mpr ⟨hpair, ?_, ?_⟩⟩
      · exact fun y hy => ⟨hhead y hy, (hall y (mem_cons_of_mem _ hy)).2⟩
      · -- past the first element the range bound implies the bound on the step
        intro y hy
        have := hall y (mem_cons_of_mem _ (mem_of_mem_head? hy))
        omega

/-- **The codec is a bijection on its image.** Decoding undoes encoding and encoding
undoes decoding; the decodable lists are the strictly increasing lists of 64-bit
values that do not start at `2 ^ 64 - 1`; and a bound `m` accepts the byte strings
it should when it is itself a 64-bit value, and none otherwise. -/
theorem ordinalCodec_bijection : (∀ xs b, encodeOrdinals xs = .ok b → decodeOrdinals b none = .ok xs) ∧
    (∀ b xs, decodeOrdinals b none = .ok xs → encodeOrdinals xs = .ok b) ∧
    (∀ xs, (∃ b, decodeOrdinals b none = .ok xs) ↔ xs.Pairwise (· < ·) ∧ (∀ x ∈ xs, 0 ≤ x ∧ x ≤ 2 ^ 64 - 1) ∧
        ∀ x ∈ xs.head?, x ≤ 2 ^ 64 - 2) ∧
    (∀ (m : Int) b xs, decodeOrdinals b (some m) = .ok xs ↔
      (0 ≤ m ∧ m ≤ 2 ^ 64 - 1) ∧ decodeOrdinals b none = .ok xs ∧ ∀ x ∈ xs, x ≤ m) := by
  have hmax : (maxPostingOrdinal : Int) = 2 ^ 64 - 1 := rfl
  have hdec : ∀ b xs, decodeOrdinals b none = .ok xs ↔ Increasing (-1) xs ∧ b = deltas (-1) xs := by
    intro b xs
    rw [decodeOrdinals_eq_ok]
    simp
  refine ⟨?_, ?_, ?_, ?_⟩
  · intro xs b h
    exact (hdec b xs).mpr (encodeOrdinals_eq_ok.mp h)
  · intro b xs h
    exact encodeOrdinals_eq_ok.mpr ((hdec b xs).mp h)
  · intro xs
    have hinc : (∃ b, decodeOrdinals b none = .ok xs) ↔ Increasing (-1) xs := by
      refine ⟨fun ⟨b, hb⟩ => ((hdec b xs).mp hb).1, fun h => ⟨_, (hdec _ xs).mpr ⟨h, rfl⟩⟩⟩
    rw [hinc, increasing_iff le_rfl, hmax]
    refine and_congr_right fun _ => and_congr ?_ ?_
    · exact forall₂_congr fun x _ => by omega
    · exact forall₂_congr fun x _ => by omega
  · intro m b xs
    rw [decodeOrdinals_eq_ok, hdec, ← hmax]
    simp [and_assoc]

/-- A bound outside the 64-bit range rejects even the empty byte string, whose
decoding has no value above any bound. -/
theorem decodeOrdinals_negative_bound : decodeOrdinals [] none = .ok [] ∧ (∀ x ∈ ([] : List Int), x ≤ -1) ∧
      decodeOrdinals [] (some (-1)) = .error .maximumRange := by
  refine ⟨by decide +kernel, by simp, by decide +kernel⟩

end C2Hunter
