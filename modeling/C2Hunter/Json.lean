import Mathlib.Data.List.Sort
import Mathlib.Data.String.Basic
import Mathlib.Algebra.Order.Ring.Int
import Mathlib.Algebra.BigOperators.Group.List.Basic

/-!
# Compact JSON texts

The documents that `json.dumps` prints with `sort_keys=True` and
`separators=(",", ":")`: no blanks, and the members of an object by their keys.

* `Json` — documents; objects are lists of members in the order they were built.
* `Json.escape` — the escapes of a character, with `ensure_ascii` or without.
* `Json.text` — the printed document.
* `Json.size` — its encoded bytes, which add up over the members: `size_obj`.
-/

/-- A JSON document. -/
inductive Json where
  | null
  | bool (b : Bool)
  | int (n : Int)
  /-- a fractional number, as it is printed -/
  | float (printed : String)
  | str (s : String)
  | arr (items : List Json)
  | obj (fields : List (String × Json))

namespace Json

/-- A value or `null`. -/
def ofOption {α : Type} (f : α → Json) (value : Option α) : Json := value.elim null f

/-- A lowercase hexadecimal digit. -/
def hexDigit (n : Nat) : Char := Nat.digitChar (n % 16)

/-- `\uXXXX`. -/
def unicodeEscape (n : Nat) : List Char :=
  ['\\', 'u', hexDigit (n / 4096), hexDigit (n / 256), hexDigit (n / 16), hexDigit n]

/-- A character of a string. Without `ascii` only what must be escaped is; with it, all that
is not printable ASCII is, outside the first plane as a pair of surrogates. -/
def escape (ascii : Bool) (c : Char) : List Char :=
  if c = '"' then ['\\', '"']
  else if c = '\\' then ['\\', '\\']
  else if c = '\n' then ['\\', 'n']
  else if c = '\r' then ['\\', 'r']
  else if c = '\t' then ['\\', 't']
  else if c.toNat = 8 then ['\\', 'b']
  else if c.toNat = 12 then ['\\', 'f']
  else if c.toNat < 32 then unicodeEscape c.toNat
  else if ascii ∧ 127 ≤ c.toNat then
    if c.toNat < 65536 then unicodeEscape c.toNat
    else
      unicodeEscape (55296 + (c.toNat - 65536) / 1024) ++
        unicodeEscape (56320 + (c.toNat - 65536) % 1024)
  else [c]

/-- A string between its quotes. -/
def quote (ascii : Bool) (s : String) : String :=
  "\"" ++ String.ofList (s.toList.flatMap (escape ascii)) ++ "\""

/-- The members of an object by their keys. -/
def sortFields (fields : List (String × String)) : List (String × String) :=
  fields.insertionSort fun a b => a.1 ≤ b.1

mutual

/-- The printed document. -/
def text (ascii : Bool) : Json → String
  | null => "null"
  | bool b => if b then "true" else "false"
  | int n => toString n
  | float printed => printed
  | str s => quote ascii s
  | arr items => "[" ++ ",".intercalate (texts ascii items) ++ "]"
  | obj fields =>
    let fields := (sortFields (fieldTexts ascii fields)).map fun field =>
      quote ascii field.1 ++ ":" ++ field.2
    "\x7b" ++ ",".intercalate fields ++ "\x7d"

/-- The printed items of an array. -/
def texts (ascii : Bool) : List Json → List String
  | [] => []
  | item :: items => item.text ascii :: texts ascii items

/-- The members of an object, with their printed values. -/
def fieldTexts (ascii : Bool) : List (String × Json) → List (String × String)
  | [] => []
  | (key, value) :: fields => (key, value.text ascii) :: fieldTexts ascii fields

end

example : (obj [("b", int (-1)), ("a", arr [null, str "x\n"])]).text true =
    "\x7b\"a\":[null,\"x\\n\"],\"b\":-1\x7d" := by
  decide +kernel

/-! ## Encoded sizes -/

/-- The bytes of the encoded document. -/
def size (ascii : Bool) (value : Json) : Nat := (value.text ascii).utf8ByteSize

/-- The bytes of a list with a comma between its items. -/
def separated (sizes : List Nat) : Nat := sizes.sum + (sizes.length - 1)

theorem utf8ByteSize_intercalate (l : List String) :
    (",".intercalate l).utf8ByteSize = separated (l.map String.utf8ByteSize) := by
  induction l with
  | nil => rfl
  | cons s l ih =>
    cases l with
    | nil =>
      rw [String.intercalate_singleton]
      simp [separated]
    | cons s' l =>
      rw [String.intercalate_cons_cons, String.utf8ByteSize_append, String.utf8ByteSize_append, ih]
      simp only [separated, List.map_cons, List.sum_cons, List.length_cons, List.length_map]
      have hcomma : ",".utf8ByteSize = 1 := by decide
      omega

theorem separated_perm {l l' : List Nat} (h : l.Perm l') : separated l = separated l' := by
  rw [separated, separated, h.sum_eq, h.length_eq]

theorem fieldTexts_eq (ascii : Bool) (fields : List (String × Json)) :
    fieldTexts ascii fields = fields.map fun field => (field.1, field.2.text ascii) := by
  induction fields with
  | nil => rfl
  | cons field fields ih => rw [fieldTexts, ih, List.map_cons]

/-- The bytes of a key, its colon and its value. -/
def fieldSize (ascii : Bool) (field : String × Json) : Nat :=
  (quote ascii field.1).utf8ByteSize + 1 + field.2.size ascii

theorem size_obj (ascii : Bool) (fields : List (String × Json)) :
    (obj fields).size ascii = 2 + separated (fields.map (fieldSize ascii)) := by
  have hopen : "\x7b".utf8ByteSize = 1 := by decide
  have hclose : "\x7d".utf8ByteSize = 1 := by decide
  have hcolon : ":".utf8ByteSize = 1 := by decide
  -- the order of the members does not matter for the size
  have hperm : (sortFields (fieldTexts ascii fields)).Perm (fieldTexts ascii fields) :=
    List.perm_insertionSort _ _
  have hsizes := separated_perm ((hperm.map fun field => quote ascii field.1 ++ ":" ++ field.2).map
    String.utf8ByteSize)
  have hfields : ((fieldTexts ascii fields).map fun field =>
      quote ascii field.1 ++ ":" ++ field.2).map String.utf8ByteSize = fields.map (fieldSize ascii) := by
    rw [fieldTexts_eq, List.map_map, List.map_map]
    apply List.map_congr_left
    intro field _
    simp only [Function.comp_apply, String.utf8ByteSize_append, hcolon, fieldSize, size]
  rw [size, text, String.utf8ByteSize_append, String.utf8ByteSize_append, utf8ByteSize_intercalate,
    hsizes, hfields, hopen, hclose]
  omega

/-! ## Numbers -/

/-- A text of ASCII characters has a byte for each. -/
theorem utf8ByteSize_of_ascii {s : String} (h : ∀ c ∈ s.toList, c.toNat < 128) : s.utf8ByteSize = s.length := by
  rw [← String.utf8Len_toList, ← String.length_toList]
  generalize s.toList = l at h
  induction l with
  | nil => rfl
  | cons c l ih =>
    have hc : c.utf8Size = 1 :=
      Char.utf8Size_eq_one_iff.mpr (Nat.le_of_lt_succ (h c List.mem_cons_self))
    rw [String.utf8Len_cons, List.length_cons, ih fun c hc => h c (List.mem_cons_of_mem _ hc), hc]

variable {n : Nat}

theorem ascii_repr {c : Char} (h : c ∈ n.repr.toList) : c.toNat < 128 := by
  rw [Nat.toList_repr] at h
  have hdigit := Nat.isDigit_of_mem_toDigits (by decide) (by decide) h
  simp only [Char.isDigit, Bool.and_eq_true, decide_eq_true_eq] at hdigit
  exact Nat.lt_of_le_of_lt hdigit.2 (by decide)

theorem length_repr_le {k : Nat} (hk : 0 < k) (h : n < 10 ^ k) : n.repr.length ≤ k := by
  rw [← String.length_toList, Nat.toList_repr]
  exact (Nat.length_toDigits_le_iff (by decide) hk).mpr h

theorem size_nat_le (ascii : Bool) {k : Nat} (hk : 0 < k) (h : n < 10 ^ k) : (int n).size ascii ≤ k := by
  have htext : (int n).text ascii = n.repr := rfl
  rw [size, htext, utf8ByteSize_of_ascii fun _ => ascii_repr]
  exact length_repr_le hk h

end Json
