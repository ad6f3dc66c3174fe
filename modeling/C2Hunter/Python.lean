import C2Hunter.Bytes
import Mathlib

/-!
# The standard library under the code

The values and functions of the source language's standard library that the modelled
code uses: IP addresses and networks, instants with and without a time zone, and the
text functions whose full behaviour is of no interest here.

* `IPAddress`, `IPNetwork` — concrete: a packed address of its version's length, a
  network address with the length of its mask, and membership by masking.
* `DateTime` — an instant that is naive or aware; comparing the two kinds raises.
* `Python` — printing and parsing of addresses, `str.upper`, `int(text)` and the rest
  as one parameter, with the laws that the development relies on and no others.
-/

/-! ## Addresses -/

/-- The version of an address. -/
inductive IPVersion where
  | v4
  | v6
  deriving DecidableEq, Repr

namespace IPVersion

/-- The version number. -/
def number : IPVersion → Nat
  | v4 => 4
  | v6 => 6

/-- The length of a packed address. -/
def byteLength : IPVersion → Nat
  | v4 => 4
  | v6 => 16

end IPVersion

/-- An IPv4 or IPv6 address. -/
structure IPAddress where
  version : IPVersion
  /-- the address in network byte order -/
  packed : Bytes
  length_eq : packed.length = version.byteLength
  deriving DecidableEq

namespace IPAddress

/-- The address as an integer. -/
def toNat (a : IPAddress) : Nat := Bytes.ofBE a.packed

/-- `ip_address(packed)` on bytes. -/
def ofBytes (packed : Bytes) : Option IPAddress :=
  if h : packed.length = 4 then some ⟨.v4, packed, h⟩
  else if h : packed.length = 16 then some ⟨.v6, packed, h⟩
  else none

theorem ofBytes_packed (a : IPAddress) : ofBytes a.packed = some a := by
  obtain ⟨version, packed, h⟩ := a
  cases version with
  | v4 => rw [ofBytes, dif_pos (show packed.length = 4 from h)]
  | v6 =>
    have h16 : packed.length = 16 := h
    have h4 : packed.length ≠ 4 := by omega
    rw [ofBytes, dif_neg h4, dif_pos h16]

theorem eq_of_toNat {a b : IPAddress} (hv : a.version = b.version) (h : a.toNat = b.toNat) : a = b := by
  obtain ⟨v, p, hp⟩ := a
  obtain ⟨v', p', hp'⟩ := b
  cases (hv : v = v')
  have hlen : p.length = p'.length := hp.trans hp'.symm
  cases (Bytes.ofBE_inj hlen h : p = p')
  rfl

end IPAddress

/-- A network: its address and the number of leading bits it fixes. -/
structure IPNetwork where
  address : IPAddress
  prefixlen : Nat
  le_max : prefixlen ≤ 8 * address.version.byteLength
  deriving DecidableEq

namespace IPNetwork

/-- `network.max_prefixlen`. -/
def maxPrefixlen (n : IPNetwork) : Nat := 8 * n.address.version.byteLength

/-- `address in network`: same version, and the masked address is the network's. -/
def contains (n : IPNetwork) (a : IPAddress) : Bool :=
  a.version = n.address.version ∧
    a.toNat / 2 ^ (n.maxPrefixlen - n.prefixlen) * 2 ^ (n.maxPrefixlen - n.prefixlen) =
      n.address.toNat

/-- The network that holds one address. -/
def host (a : IPAddress) : IPNetwork := ⟨a, 8 * a.version.byteLength, le_rfl⟩

/-- A network that fixes every bit holds its own address only. -/
theorem contains_of_full {n : IPNetwork} (h : n.prefixlen = n.maxPrefixlen) (a : IPAddress) :
    n.contains a = true ↔ a = n.address := by
  rw [contains, decide_eq_true_eq, h, Nat.sub_self, pow_zero, Nat.div_one, Nat.mul_one]
  constructor
  · rintro ⟨hv, hn⟩
    exact IPAddress.eq_of_toNat hv hn
  · rintro rfl
    exact ⟨rfl, rfl⟩

theorem host_full (a : IPAddress) : (host a).prefixlen = (host a).maxPrefixlen := rfl

end IPNetwork

/-! ## Instants -/

/-- The first microsecond of year 1. -/
def minMicros : Int := -62135596800000000

/-- The last microsecond of year 9999. -/
def maxMicros : Int := 253402300799999999

/-- A `datetime`: microseconds from the epoch on its own clock, and whether that
clock is UTC (`aware`) or unknown. -/
structure DateTime where
  micros : Int
  aware : Bool
  /-- years run from 1 to 9999 -/
  inRange : minMicros ≤ micros ∧ micros ≤ maxMicros
  deriving DecidableEq

/-- `a < b`, or `none` where the comparison of a naive and an aware instant raises. -/
def DateTime.lt? (a b : DateTime) : Option Bool :=
  if a.aware = b.aware then some (a.micros < b.micros) else none

/-- The nearest integer, and the even one of two. -/
def roundHalfEven (q : ℚ) : Int :=
  if q - ⌊q⌋ < 1 / 2 then ⌊q⌋
  else if 1 / 2 < q - ⌊q⌋ then ⌊q⌋ + 1
  else if ⌊q⌋ % 2 = 0 then ⌊q⌋
  else ⌊q⌋ + 1

/-- `datetime.fromtimestamp(seconds, UTC)`, with exact seconds; `none` where it raises. -/
def DateTime.fromtimestamp (seconds : ℚ) : Option DateTime :=
  if h : minMicros ≤ roundHalfEven (seconds * 1000000) ∧
      roundHalfEven (seconds * 1000000) ≤ maxMicros then
    some ⟨roundHalfEven (seconds * 1000000), true, h⟩
  else none

/-! ## Functions known by their laws -/

/-- Text of ASCII characters only. -/
def Ascii (s : String) : Prop := ∀ c ∈ s.toList, c.toNat < 128

/-- The library functions whose results matter only up to the stated laws. -/
structure Python where
  /-- `str(address)` -/
  ipText : IPAddress → String
  /-- `ip_address(text)`; `none` where it raises `ValueError` -/
  ipAddress : String → Option IPAddress
  /-- `ip_network(text, strict=False)`; `none` where it raises `ValueError` -/
  ipNetwork : String → Option IPNetwork
  /-- `text.upper()` -/
  upper : String → String
  /-- `text.strip()` -/
  strip : String → String
  /-- `int(text)`; `none` where it raises `ValueError` -/
  intOfText : String → Option Int
  /-- `datetime.fromisoformat(text)`; `none` where it raises `ValueError` -/
  fromisoformat : String → Option DateTime
  /-- `hashlib.sha256(data).digest()` -/
  sha256 : Bytes → Bytes
  /-- the order in which a set with these elements is iterated -/
  setOrder : List Bytes → List Bytes
  /-- a printed address is never empty -/
  ipText_ne : ∀ a, ipText a ≠ ""
  /-- printed addresses parse back -/
  ipAddress_text : ∀ a, ipAddress (ipText a) = some a
  /-- a printed address is a network of one address -/
  ipNetwork_text : ∀ a, ipNetwork (ipText a) = some (IPNetwork.host a)
  /-- `upper` maps ASCII text letter by letter -/
  upper_ascii : ∀ s, Ascii s → upper s = s.toUpper
  /-- decimal texts of 64-bit naturals parse -/
  intOfText_nat : ∀ n : Nat, n < 2 ^ 64 → intOfText (toString n) = some (n : Int)
  /-- a digest has 32 bytes -/
  length_sha256 : ∀ data, (sha256 data).length = 32
  /-- iteration visits the elements of a set -/
  setOrder_perm : ∀ l, (setOrder l).Perm l

namespace Python

theorem latin_packed (a : IPAddress) : (String.ofList (a.packed.map fun b => Char.ofNat b.toNat)).toList.map
      (fun c => UInt8.ofNat c.toNat) = a.packed := by
  rw [String.toList_ofList, List.map_map]
  conv_rhs => rw [← List.map_id a.packed]
  refine List.map_congr_left fun b _ => ?_
  have hb : b.toNat < 256 := b.toNat_lt
  have hvalid : b.toNat.isValidChar := .inl (by omega)
  have hc : (Char.ofNat b.toNat).toNat = b.toNat := by
    rw [Char.toNat_ofNat, if_pos hvalid]
  rw [Function.comp_apply, hc, UInt8.ofNat_toNat, id]

/-- An instance of the laws: addresses print as the characters of their bytes. -/
def latin : Python where
  ipText a := String.ofList (a.packed.map fun b => Char.ofNat b.toNat)
  ipAddress s := IPAddress.ofBytes (s.toList.map fun c => UInt8.ofNat c.toNat)
  ipNetwork s := (IPAddress.ofBytes (s.toList.map fun c => UInt8.ofNat c.toNat)).map IPNetwork.host
  upper s := s.toUpper
  strip s := s
  intOfText s := s.toNat?.map Int.ofNat
  fromisoformat _ := none
  sha256 _ := List.replicate 32 0
  setOrder l := l
  ipText_ne a h := by
    have hlen := congrArg (fun s => s.toList.length) h
    have hpos : a.packed.length ≠ 0 := by
      rw [a.length_eq]
      cases a.version <;> decide
    simp only [String.toList_ofList, List.length_map] at hlen
    exact hpos hlen
  ipAddress_text a := by rw [latin_packed, IPAddress.ofBytes_packed]
  ipNetwork_text a := by rw [latin_packed, IPAddress.ofBytes_packed, Option.map_some]
  upper_ascii _ _ := rfl
  intOfText_nat n _ := by
    rw [show toString n = n.repr from rfl, Nat.toNat?_repr]
    rfl
  length_sha256 _ := List.length_replicate
  setOrder_perm _ := .rfl

end Python
