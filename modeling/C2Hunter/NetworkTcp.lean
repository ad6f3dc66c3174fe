import Mathlib

/-!
# Coordinates of TCP sequence numbers

`network_tcp.py`: sequence numbers are counted modulo `2^32`, and a capture starts anywhere in
that circle. A `TCPSequenceSpace` unrolls the circle relative to what it has seen first, as
long as everything it has seen lies within half of it.

* `Pair` — a value for each direction of a flow.
* `extend`, `TCPSequenceSpace.observe`, `TCPSequenceSpace.acknowledge` — the coordinates.
* `TCPClosure.observe` — the two FINs and their acknowledgments.
* `rebase` — a number moved around the circle.
* `extend_add`, `observe_shift`, `acknowledge_shift` — moving all coordinates moves all answers.
* `observe_moved` — the same from the first number on, which fixes where coordinates start.
-/

namespace C2Hunter.Network

open Option

/-! ## Pairs -/

/-- A value for each direction; `false` is the first. -/
structure Pair (α : Type) : Type where
  zero : α
  one : α
  deriving DecidableEq

namespace Pair

variable {α : Type}

section

variable (p : Pair α)

/-- The value of a direction. -/
def get : Bool → α
  | false => p.zero
  | true => p.one

/-- Another value for a direction. -/
def set (d : Bool) (x : α) : Pair α :=
  match d with
  | false => { p with zero := x }
  | true => { p with one := x }

@[simp] theorem get_set_self (d : Bool) (x : α) : (p.set d x).get d = x := by
  cases d <;> rfl

@[simp] theorem get_set_not (d : Bool) (x : α) : (p.set d x).get (!d) = p.get (!d) := by
  cases d <;> rfl

@[simp] theorem get_set_of_not (d : Bool) (x : α) : (p.set (!d) x).get d = p.get d := by
  cases d <;> rfl

end

/-- The same value for both directions. -/
def both (x : α) : Pair α := ⟨x, x⟩

@[simp] theorem get_both (x : α) (d : Bool) : (both x).get d = x := by
  cases d <;> rfl

/-- What holds of both sides of two pairs holds where one side is set in both. -/
theorem forall_get_set {β : Type} {P : Bool → α → β → Prop} {a : Pair α} {b : Pair β}
    (h : ∀ d, P d (a.get d) (b.get d)) {d : Bool} {x : α} {y : β} (hd : P d x y) (d' : Bool) :
    P d' ((a.set d x).get d') ((b.set d y).get d') := by
  by_cases heq : d' = d
  · rw [heq, get_set_self, get_set_self]
    exact hd
  · obtain rfl : d = !d' := Bool.eq_not_of_ne fun h => heq h.symm
    rw [get_set_of_not, get_set_of_not]
    exact h d'

end Pair

/-! ## Coordinates -/

/-- `_MODULUS`. -/
def modulus : Int := 2 ^ 32

/-- `_HALF_SPACE`. -/
def halfSpace : Int := 2 ^ 31

/-- `_extend`: the coordinate of a number that is nearest to the reference. -/
def extend (value reference : Int) : Option Int :=
  let distance := (value - reference) % modulus
  if distance = halfSpace then none
  else some (reference + if distance < halfSpace then distance else distance - modulus)

/-- `TCPSequenceSpace`. -/
structure TCPSequenceSpace where
  lower : Option Int := none
  upper : Option Int := none
  highestAck : Option Int := none
  deriving DecidableEq

namespace TCPSequenceSpace

section

variable (s : TCPSequenceSpace)

/-- The lower end of the range with a number that starts at `start`. -/
def lowerWith (start : Int) : Int := s.lower.elim start (min · start)

/-- The upper end of the range with a number that ends at `stop`. -/
def upperWith (stop : Int) : Int := s.upper.elim stop (max · stop)

/-- `observe`. -/
def observe (sequence length : Int) : Option Int × TCPSequenceSpace :=
  match s.upper.elim (some sequence) (extend sequence) with
  | none => (none, s)
  | some start =>
    if s.upperWith (start + length) - s.lowerWith start ≥ halfSpace then (none, s)
    else (some start,
      { s with lower := some (s.lowerWith start), upper := some (s.upperWith (start + length)) })

/-- `acknowledge`. -/
def acknowledge (acknowledgment : Int) : Option Int × TCPSequenceSpace :=
  match s.upper.bind (extend acknowledgment) with
  | none => (none, s)
  | some ack =>
    if s.upper.any (· < ack) then (none, s)
    else if s.highestAck.any (ack < ·) then (none, s)
    else (some ack, { s with highestAck := some ack })

end

/-- All coordinates moved. -/
def shift (c : Int) (s : TCPSequenceSpace) : TCPSequenceSpace where
  lower := s.lower.map (· + c)
  upper := s.upper.map (· + c)
  highestAck := s.highestAck.map (· + c)

end TCPSequenceSpace

/-- `TCPClosure`. -/
structure TCPClosure where
  ends : Pair (Option Int) := .both none
  acknowledged : Pair Bool := .both false
  deriving DecidableEq

/-- `observe` of `TCPClosure`. -/
def TCPClosure.observe (s : TCPClosure) (direction : Bool) (sequence acknowledgment length : Int)
    (fin ack : Bool) : Bool × TCPClosure :=
  let peer := !direction
  let acknowledged :=
    if ack ∧ s.ends.get peer = some acknowledgment then s.acknowledged.set peer true
    else s.acknowledged
  let ends :=
    if fin ∧ s.ends.get direction = none then
      s.ends.set direction (some ((sequence + length + 1) % modulus))
    else s.ends
  (acknowledged.zero && acknowledged.one, ⟨ends, acknowledged⟩)

/-! ## Moving the origin -/

/-- A 32-bit number moved around the circle. Another number stays where it is. -/
def rebase (δ n : Int) : Int := if 0 ≤ n ∧ n < modulus then (n + δ) % modulus else n

variable {value reference : Int}

section

variable {n : Int}

theorem rebase_of_inRange (δ : Int) (h : 0 ≤ n ∧ n < modulus) : rebase δ n = (n + δ) % modulus := if_pos h

theorem rebase_modEq (δ : Int) (h : 0 ≤ n ∧ n < modulus) : rebase δ n ≡ n + δ [ZMOD modulus] := by
  rw [rebase_of_inRange δ h]
  exact Int.mod_modEq _ _

theorem rebase_inRange (δ n : Int) : 0 ≤ rebase δ n ∧ rebase δ n < modulus ↔ 0 ≤ n ∧ n < modulus := by
  rw [rebase]
  split
  · next h =>
    have hpos : (0 : Int) < modulus := by decide
    exact ⟨fun _ => h, fun _ => ⟨Int.emod_nonneg _ hpos.ne', Int.emod_lt_of_pos _ hpos⟩⟩
  · rfl

/-- Numbers in the range are equal if they agree modulo `2^32`. -/
theorem eq_of_modEq {m : Int} (hm : 0 ≤ m ∧ m < modulus) (hn : 0 ≤ n ∧ n < modulus)
    (h : m ≡ n [ZMOD modulus]) : m = n := by
  rw [Int.ModEq, Int.emod_eq_of_lt hm.1 hm.2, Int.emod_eq_of_lt hn.1 hn.2] at h
  exact h

theorem rebase_injective (δ : Int) : Function.Injective (rebase δ) := by
  intro m n h
  by_cases hm : 0 ≤ m ∧ m < modulus
  · have hn : 0 ≤ n ∧ n < modulus := (rebase_inRange δ n).mp (h ▸ (rebase_inRange δ m).mpr hm)
    apply eq_of_modEq hm hn
    have hmod := (rebase_modEq δ hm).symm.trans (h ▸ rebase_modEq δ hn)
    exact Int.ModEq.add_right_cancel' δ hmod
  · have hn : ¬(0 ≤ n ∧ n < modulus) := fun hn =>
      hm ((rebase_inRange δ m).mp (h ▸ (rebase_inRange δ n).mpr hn))
    rwa [rebase, rebase, if_neg hm, if_neg hn] at h

/-- Stepping along the circle and moving it commute. -/
theorem rebase_add_emod (δ k : Int) (h : 0 ≤ n ∧ n < modulus) :
    (rebase δ n + k) % modulus = rebase δ ((n + k) % modulus) := by
  have hpos : (0 : Int) < modulus := by decide
  have hrange : 0 ≤ (n + k) % modulus ∧ (n + k) % modulus < modulus :=
    ⟨Int.emod_nonneg _ hpos.ne', Int.emod_lt_of_pos _ hpos⟩
  rw [rebase_of_inRange δ h, rebase_of_inRange δ hrange, Int.emod_add_emod, Int.emod_add_emod, add_right_comm]

/-- Numbers that agree modulo `2^32` after a move have the moved coordinate. -/
theorem extend_add {value' c : Int} (h : value' ≡ value + c [ZMOD modulus]) :
    extend value' (reference + c) = (extend value reference).map (· + c) := by
  have hdistance : (value' - (reference + c)) % modulus = (value - reference) % modulus := by
    have hsub := h.sub_right (reference + c)
    rwa [add_sub_add_right_eq_sub] at hsub
  rw [extend, extend, hdistance]
  split
  · rfl
  · rw [map_some, Option.some.injEq]
    ring

end

namespace TCPSequenceSpace

theorem lowerWith_shift (s : TCPSequenceSpace) (start c : Int) :
    (s.shift c).lowerWith (start + c) = s.lowerWith start + c := by
  obtain ⟨lower, upper, highestAck⟩ := s
  cases lower with
  | none => rfl
  | some lower => exact min_add_add_right lower start c

theorem upperWith_shift (s : TCPSequenceSpace) (stop c : Int) :
    (s.shift c).upperWith (stop + c) = s.upperWith stop + c := by
  obtain ⟨lower, upper, highestAck⟩ := s
  cases upper with
  | none => rfl
  | some upper => exact max_add_add_right upper stop c

variable {s : TCPSequenceSpace} {c length position sequence : Int}

/-- Observing a moved number in a space that has seen something. -/
theorem observe_shift {sequence' : Int} (length : Int) (hseen : s.upper.isSome = true)
    (h : sequence' ≡ sequence + c [ZMOD modulus]) :
    (s.shift c).observe sequence' length =
      ((s.observe sequence length).1.map (· + c), (s.observe sequence length).2.shift c) := by
  obtain ⟨upper, hupper⟩ := isSome_iff_exists.mp hseen
  have hstart : (s.shift c).upper.elim (some sequence') (extend sequence') =
      (s.upper.elim (some sequence) (extend sequence)).map (· + c) := by
    rw [shift, hupper]
    exact extend_add h
  rw [observe, observe, hstart]
  cases s.upper.elim (some sequence) (extend sequence) with
  | none => rfl
  | some start =>
    have hlower := lowerWith_shift s start c
    have hupper := upperWith_shift s (start + length) c
    rw [add_right_comm] at hupper
    simp only [map_some]
    rw [hlower, hupper]
    by_cases hwide : s.upperWith (start + length) - s.lowerWith start ≥ halfSpace
    · rw [if_pos hwide, if_pos (by omega)]
      rfl
    · rw [if_neg hwide, if_neg (by omega)]
      rfl

/-- The first number that a space sees fixes where its coordinates start. -/
theorem observe_fresh (s : TCPSequenceSpace) (hupper : s.upper = none) (hlower : s.lower = none)
    (sequence length : Int) :
    s.observe sequence length = if length ≥ halfSpace then (none, s) else (some sequence,
        { s with lower := some sequence, upper := some (sequence + length) }) := by
  have hlow : s.lowerWith sequence = sequence := by rw [lowerWith, hlower, elim_none]
  have hup : s.upperWith (sequence + length) = sequence + length := by
    rw [upperWith, hupper, elim_none]
  rw [observe, hupper, elim_none]
  simp only
  rw [hlow, hup, add_sub_cancel_left]

theorem acknowledge_shift {ack ack' : Int} (h : ack' ≡ ack + c [ZMOD modulus]) :
    (s.shift c).acknowledge ack' = ((s.acknowledge ack).1.map (· + c), (s.acknowledge ack).2.shift c) := by
  have hposition : (s.shift c).upper.bind (extend ack') = (s.upper.bind (extend ack)).map (· + c) := by
    rw [shift]
    cases s.upper with
    | none => rfl
    | some => exact extend_add h
  rw [acknowledge, acknowledge, hposition]
  cases s.upper.bind (extend ack) with
  | none => rfl
  | some position =>
    have hbeyond : (s.shift c).upper.any (· < position + c) = s.upper.any (· < position) := by
      rw [shift]
      cases s.upper with
      | none => rfl
      | some upper => simp
    have hstale : (s.shift c).highestAck.any (position + c < ·) = s.highestAck.any (position < ·) := by
      rw [shift]
      cases s.highestAck with
      | none => rfl
      | some highest => simp
    simp only [map_some]
    rw [hbeyond, hstale]
    split
    · rfl
    split
    · rfl
    · rfl

theorem shift_empty (c : Int) : ({} : TCPSequenceSpace).shift c = {} := rfl

/-- A number is refused, or it is placed and the range has it. -/
theorem observe_cases (s : TCPSequenceSpace) (sequence length : Int) :
    s.observe sequence length = (none, s) ∨ ∃ start, s.upper.elim (some sequence) (extend sequence) = some start ∧
      s.upperWith (start + length) - s.lowerWith start < halfSpace ∧
      s.observe sequence length = (some start, { s with
        lower := some (s.lowerWith start), upper := some (s.upperWith (start + length)) }) := by
  rw [observe]
  split
  · exact .inl rfl
  · next start hstart =>
    split
    · exact .inl rfl
    · next hwide => exact .inr ⟨start, hstart, not_le.mp hwide, rfl⟩

/-- An acknowledgment is refused, or it lies between the highest one and the frontier. -/
theorem acknowledge_cases (s : TCPSequenceSpace) (acknowledgment : Int) :
    s.acknowledge acknowledgment = (none, s) ∨ ∃ ack upper, s.upper = some upper ∧
      extend acknowledgment upper = some ack ∧ ack ≤ upper ∧ (∀ h ∈ s.highestAck, h ≤ ack) ∧
      s.acknowledge acknowledgment = (some ack, { s with highestAck := some ack }) := by
  rw [acknowledge]
  split
  · exact .inl rfl
  next ack hack =>
  obtain ⟨upper, hupper, hextend⟩ := bind_eq_some_iff.mp hack
  split
  · exact .inl rfl
  next hbeyond =>
  split
  · exact .inl rfl
  next hstale =>
  refine .inr ⟨ack, upper, hupper, hextend, ?_, fun h hh => ?_, rfl⟩
  · simpa [hupper] using hbeyond
  · simpa [mem_def.mp hh] using hstale

/-- A space that has seen nothing after a number saw nothing before, and refused it. -/
theorem observe_eq_self (h : (s.observe sequence length).2.upper = none) : (s.observe sequence length).2 = s := by
  obtain hrefused | ⟨start, -, -, hplaced⟩ := s.observe_cases sequence length
  · rw [hrefused]
  · rw [hplaced] at h
    cases h

/-- Only a space that has seen something places an acknowledgment, which does not extend it. -/
theorem acknowledge_upper {s' : TCPSequenceSpace} {acknowledgment : Int}
    (h : s.acknowledge acknowledgment = (some position, s')) : s'.upper ≠ none := by
  obtain hrefused | ⟨ack, upper, hupper, -, -, -, hplaced⟩ := s.acknowledge_cases acknowledgment
  · rw [hrefused] at h
    cases h
  · rw [hplaced] at h
    cases h
    exact fun hnone => by cases hupper.symm.trans hnone

/-- A number is placed in a space that has seen something then. -/
theorem observe_upper (h : (s.observe sequence length).1 = some position) :
    (s.observe sequence length).2.upper ≠ none := by
  obtain hrefused | ⟨start, -, -, hplaced⟩ := s.observe_cases sequence length
  · rw [hrefused] at h
    cases h
  · rw [hplaced]
    exact some_ne_none _

theorem extend_modEq (h : extend value reference = some position) : position ≡ value [ZMOD modulus] := by
  have hdistance : (value - reference) % modulus ≡ value - reference [ZMOD modulus] := Int.mod_modEq _ _
  rw [extend] at h
  split at h
  · cases h
  cases h
  split
  · calc reference + (value - reference) % modulus
        ≡ reference + (value - reference) [ZMOD modulus] := hdistance.add_left reference
      _ = value := add_sub_cancel _ _
  · calc reference + ((value - reference) % modulus - modulus)
        ≡ reference + ((value - reference) - 0) [ZMOD modulus] :=
          (hdistance.sub (Int.modEq_zero_iff_dvd.mpr dvd_rfl)).add_left reference
      _ = value := by ring

/-- A coordinate stands for its number. -/
theorem observe_modEq (h : (s.observe sequence length).1 = some position) : position ≡ sequence [ZMOD modulus] := by
  obtain hrefused | ⟨start, hstart, -, hplaced⟩ := s.observe_cases sequence length
  · rw [hrefused] at h
    cases h
  rw [hplaced] at h
  cases h
  cases hupper : s.upper with
  | none =>
    rw [hupper] at hstart
    cases hstart
    exact Int.ModEq.refl _
  | some =>
    rw [hupper] at hstart
    exact extend_modEq hstart

/-- A space and its moved copy see a number and its moved copy. The move of the coordinates is
fixed by the first number; before that it is free. -/
theorem observe_moved {sequence' δ : Int} (length : Int) (hc : c ≡ δ [ZMOD modulus])
    (hfresh : s.upper = none → s = {}) (h : sequence' ≡ sequence + δ [ZMOD modulus]) :
    ∃ c', c' ≡ δ [ZMOD modulus] ∧ (s.upper ≠ none → c' = c) ∧ (s.shift c).observe sequence' length =
        ((s.observe sequence length).1.map (· + c'), (s.observe sequence length).2.shift c') := by
  cases hupper : s.upper with
  | some =>
    refine ⟨c, hc, fun _ => rfl, observe_shift length (by rw [hupper]; rfl) ?_⟩
    exact h.trans (hc.symm.add_left sequence)
  | none =>
    obtain rfl := hfresh hupper
    refine ⟨sequence' - sequence, ?_, fun hne => absurd rfl hne, ?_⟩
    · calc sequence' - sequence ≡ sequence + δ - sequence [ZMOD modulus] := h.sub_right sequence
        _ = δ := add_sub_cancel_left _ _
    · rw [shift_empty, observe_fresh _ rfl rfl, observe_fresh _ rfl rfl]
      split
      · rfl
      · simp only [shift, map_some, map_none, Prod.mk.injEq, Option.some.injEq, TCPSequenceSpace.mk.injEq, and_true]
        omega

/-! ## Runs -/

/-- A call of a space. -/
inductive Call where
  | observe (sequence length : Int)
  | acknowledge (acknowledgment : Int)

/-- The answer to a call. -/
def answer (s : TCPSequenceSpace) : Call → Option Int × TCPSequenceSpace
  | .observe sequence length => s.observe sequence length
  | .acknowledge acknowledgment => s.acknowledge acknowledgment

/-- A property of every call of a run, each with its position. -/
def Along (P : TCPSequenceSpace → Call × Int → Prop) : TCPSequenceSpace → List (Call × Int) → Prop
  | _, [] => True
  | s, x :: calls => P s x ∧ Along P (s.answer x.1).2 calls

variable {calls : List (Call × Int)}

theorem along_of_inv {P : TCPSequenceSpace → Call × Int → Prop} {inv : TCPSequenceSpace → Prop} (hstep : ∀ s, ∀ x ∈ calls, inv s → P s x ∧ inv (s.answer x.1).2)
    (h : inv s) : Along P s calls := by
  induction calls generalizing s with
  | nil => trivial
  | cons x calls ih =>
    obtain ⟨hx, hnext⟩ := hstep s x List.mem_cons_self h
    exact ⟨hx, ih (fun s y hy => hstep s y (List.mem_cons_of_mem _ hy)) hnext⟩

/-- The range is less than half of the circle, and no acknowledgment is beyond it. -/
structure Bounded (s : TCPSequenceSpace) : Prop where
  range : ∀ lower ∈ s.lower, ∀ upper ∈ s.upper, upper - lower < halfSpace
  acked : ∀ ack ∈ s.highestAck, ∃ upper ∈ s.upper, ack ≤ upper

/-- What the answer to a call does to a space. -/
structure Sound (s : TCPSequenceSpace) (call : Call) (r : Option Int × TCPSequenceSpace) : Prop where
  bounded : Bounded r.2
  rejected : r.1 = none → r.2 = s
  acked : ∀ ack ∈ s.highestAck, ∃ ack' ∈ r.2.highestAck, ack ≤ ack'
  placed : match call with
    | .observe sequence _ => ∀ start ∈ r.1, start ≡ sequence [ZMOD modulus]
    | .acknowledge _ => r.2.lower = s.lower ∧ r.2.upper = s.upper

theorem Bounded.sound (h : Bounded s) (call : Call) : Sound s call (s.answer call) := by
  have hsame : ∀ ack ∈ s.highestAck, ∃ ack' ∈ s.highestAck, ack ≤ ack' := fun ack hack =>
    ⟨ack, hack, le_rfl⟩
  cases call with
  | observe sequence length =>
    have hmod : ∀ start ∈ (s.observe sequence length).1, start ≡ sequence [ZMOD modulus] := fun _ hstart =>
      observe_modEq hstart
    rw [answer]
    obtain hrefused | ⟨start, -, hwide, hplaced⟩ := s.observe_cases sequence length
    · rw [hrefused] at hmod ⊢
      exact ⟨h, fun _ => rfl, hsame, hmod⟩
    rw [hplaced] at hmod ⊢
    refine ⟨⟨?_, fun ack hack => ⟨_, rfl, ?_⟩⟩, (fun hnone => by cases hnone), hsame, hmod⟩
    · rintro _ ⟨⟩ _ ⟨⟩
      exact hwide
    · obtain ⟨upper, hupper, hle⟩ := h.acked ack hack
      rw [upperWith, mem_def.mp hupper]
      exact hle.trans (le_max_left _ _)
  | acknowledge acknowledgment =>
    rw [answer]
    obtain hrefused | ⟨ack, upper, hupper, -, hle, hhighest, hplaced⟩ := s.acknowledge_cases acknowledgment
    · rw [hrefused]
      exact ⟨h, fun _ => rfl, hsame, rfl, rfl⟩
    · rw [hplaced]
      refine ⟨⟨h.range, ?_⟩, (fun hnone => by cases hnone), fun old hold => ⟨ack, rfl, hhighest old hold⟩, rfl, rfl⟩
      rintro _ ⟨⟩
      exact ⟨upper, hupper, hle⟩

/-! ## True positions -/

/-- A position in a window of half of the circle. -/
def InWindow (w position : Int) : Prop := w ≤ position ∧ position < w + halfSpace

/-- The number of a segment is that of its position, and the segment lies in the window. -/
def Fits (w : Int) : Call × Int → Prop
  | (.observe sequence length, position) =>
    sequence ≡ position [ZMOD modulus] ∧ InWindow w position ∧ InWindow w (position + length)
  | (.acknowledge _, _) => True

/-- A segment is placed at its position, up to the origin `c`; so is an acknowledgment in the window that
is not beyond the frontier nor below an earlier one. -/
def Placed (w c : Int) (s : TCPSequenceSpace) : Call × Int → Prop
  | (.observe sequence length, position) => (s.observe sequence length).1 = some (position + c)
  | (.acknowledge acknowledgment, position) => acknowledgment ≡ position [ZMOD modulus] →
    InWindow w position → (∃ upper ∈ s.upper, position + c ≤ upper) →
    (∀ ack ∈ s.highestAck, ack ≤ position + c) → (s.acknowledge acknowledgment).1 = some (position + c)

/-- The coordinate of a number is the one that is less than half of the circle away. -/
theorem extend_eq (hmod : value ≡ position [ZMOD modulus])
    (hnear : position < reference + halfSpace) (hnear' : reference < position + halfSpace) :
    extend value reference = some position := by
  have hdistance : (value - reference) % modulus = (position - reference) % modulus := hmod.sub_right reference
  rw [extend, hdistance]
  rw [halfSpace] at hnear hnear'
  have hhalf : (position - reference) % modulus ≠ halfSpace := by
    rw [modulus, halfSpace]
    omega
  rw [if_neg hhalf, Option.some.injEq]
  split
  · next hbelow =>
    rw [modulus, halfSpace] at hbelow
    rw [modulus]
    omega
  · next habove =>
    rw [modulus, halfSpace] at habove
    rw [modulus]
    omega

/-- The range of a space, up to the origin. -/
def RangeAt (w c : Int) (s : TCPSequenceSpace) : Prop :=
  ∃ lower upper, s.lower = some (lower + c) ∧ s.upper = some (upper + c) ∧ InWindow w lower ∧ InWindow w upper

theorem InWindow.lt_add {w a b : Int} (ha : InWindow w a) (hb : InWindow w b) : a < b + halfSpace :=
  ha.2.trans_le (Int.add_le_add_right hb.1 _)

theorem InWindow.extend_eq {w upper : Int} (hupper : InWindow w upper)
    (hposition : InWindow w position) (hc : c ≡ 0 [ZMOD modulus])
    (hmod : value ≡ position [ZMOD modulus]) : extend value (upper + c) = some (position + c) := by
  have hnear := hposition.lt_add hupper
  have hnear' := hupper.lt_add hposition
  refine TCPSequenceSpace.extend_eq ?_ (by omega) (by omega)
  simpa using hmod.add hc.symm

theorem RangeAt.placed {w : Int} (h : RangeAt w c s) (hc : c ≡ 0 [ZMOD modulus]) {x : Call × Int}
    (hx : Fits w x) : Placed w c s x ∧ RangeAt w c (s.answer x.1).2 := by
  obtain ⟨call, position⟩ := x
  obtain ⟨lower, upper, hlower, hupper, hlow, hup⟩ := h
  cases call with
  | observe sequence length =>
    obtain ⟨hmod, hstart, hend⟩ := hx
    have hextend := hup.extend_eq hstart hc hmod
    have hlowest : s.lowerWith (position + c) = min lower position + c := by
      rw [lowerWith, hlower]
      exact min_add_add_right _ _ _
    have hhighest : s.upperWith (position + c + length) = max upper (position + length) + c := by
      rw [upperWith, hupper, add_right_comm]
      exact max_add_add_right _ _ _
    have hlow' : InWindow w (min lower position) := ⟨le_min hlow.1 hstart.1, min_lt_of_left_lt hlow.2⟩
    have hup' : InWindow w (max upper (position + length)) := ⟨le_max_of_le_left hup.1, max_lt hup.2 hend.2⟩
    have hobserve : s.observe sequence length = (some (position + c), { s with
        lower := some (min lower position + c), upper := some (max upper (position + length) + c) }) := by
      rw [observe, hupper, elim_some, hextend]
      dsimp only
      rw [hlowest, hhighest, if_neg]
      have hnear := hup'.lt_add hlow'
      omega
    rw [Placed, answer, hobserve]
    exact ⟨rfl, _, _, rfl, rfl, hlow', hup'⟩
  | acknowledge acknowledgment =>
    constructor
    · rintro hmod hack ⟨_, hfrontier, hle⟩ hhighest
      cases Option.some.inj (hupper.symm.trans hfrontier)
      have hextend := hup.extend_eq hack hc hmod
      rw [acknowledge, hupper, bind_some, hextend]
      dsimp only
      rw [if_neg (by simpa using hle), if_neg]
      cases hold : s.highestAck with
      | none => simp
      | some old => simpa using hhighest old hold
    · obtain hrefused | ⟨ack, _, -, -, -, -, hplaced⟩ := s.acknowledge_cases acknowledgment
      · rw [answer, hrefused]
        exact ⟨lower, upper, hlower, hupper, hlow, hup⟩
      · rw [answer, hplaced]
        exact ⟨lower, upper, hlower, hupper, hlow, hup⟩

/-- On a fresh space acknowledgments are refused; the first segment fixes the origin. -/
theorem exists_placed {w : Int} (h : ∀ x ∈ calls, Fits w x) : ∃ c, Along (Placed w c) {} calls := by
  induction calls with
  | nil => exact ⟨0, trivial⟩
  | cons x calls ih =>
    obtain ⟨call, position⟩ := x
    cases call with
    | acknowledge acknowledgment =>
      obtain ⟨c, hc⟩ := ih fun x hx => h x (List.mem_cons_of_mem _ hx)
      refine ⟨c, ?_, hc⟩
      rintro - - ⟨_, hnone, -⟩
      cases hnone
    | observe sequence length =>
      obtain ⟨hmod, hstart, hend⟩ := h _ List.mem_cons_self
      have hobserve : observe {} sequence length = (some (position + (sequence - position)), {
            lower := some (position + (sequence - position))
            upper := some (position + length + (sequence - position)) }) := by
        have hnear := hend.lt_add hstart
        rw [add_right_comm, add_sub_cancel, observe_fresh _ rfl rfl, if_neg (by omega)]
      have hrange : RangeAt w (sequence - position) (observe {} sequence length).2 := by
        rw [hobserve]
        exact ⟨position, position + length, rfl, rfl, hstart, hend⟩
      have hc : sequence - position ≡ 0 [ZMOD modulus] := by simpa using hmod.sub_right position
      refine ⟨sequence - position, congrArg Prod.fst hobserve, ?_⟩
      exact along_of_inv (fun s x hx hs => hs.placed hc (h x (List.mem_cons_of_mem _ hx))) hrange

/-- Every call of every run keeps the range below half of the circle and the acknowledgments below the
frontier, and segments of one window are placed at their positions, moved by one constant. -/
theorem coordinates_sound (calls : List (Call × Int)) : Along (fun s x => Sound s x.1 (s.answer x.1)) {} calls ∧
      ∀ w, (∀ x ∈ calls, Fits w x) → ∃ c, Along (Placed w c) {} calls := by
  have hfresh : Bounded {} := ⟨by rintro _ ⟨⟩, by rintro _ ⟨⟩⟩
  refine ⟨along_of_inv (fun s x _ (hs : Bounded s) => ?_) hfresh, fun w => exists_placed⟩
  exact ⟨hs.sound x.1, (hs.sound x.1).bounded⟩

end TCPSequenceSpace

end C2Hunter.Network
