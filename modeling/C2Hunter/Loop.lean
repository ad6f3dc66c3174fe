import C2Hunter.Gen
import C2Hunter.Outcome

/-!
# Loops that end

`while` loops of the source language whose turns keep an invariant and make some measure
smaller. The body of a loop is a function of the loop's variables; the loop itself is one
definition by well-founded recursion, so a program is modelled turn by turn and termination
is settled by one statement about a turn.

* `Gen.loop` — a loop of a generator. A turn leaves the loop, goes on, or goes on after
  a `yield`; it may also raise.
-/

/-! ## Loops of generators -/

/-- What a turn of a generator's loop does. -/
inductive Turn (α σ : Type) : Type where
  /-- leave the loop and return -/
  | stop : Turn α σ
  /-- go on with new variables -/
  | next : σ → Turn α σ
  /-- yield a value and go on -/
  | emit : α → σ → Turn α σ

/-- The variables of the following turn, if there is one. -/
def Turn.state? {α σ : Type} : Turn α σ → Option σ
  | stop => none
  | next s => some s
  | emit _ s => some s

namespace Gen

variable {ε α σ : Type}

/-- Every turn keeps the invariant and makes the measure smaller. -/
def Shrinks (inv : σ → Prop) (size : σ → Nat) (turn : σ → Except ε (Turn α σ)) : Prop :=
  ∀ s, inv s → ∀ t, turn s = .ok t → ∀ s', t.state? = some s' → inv s' ∧ size s' < size s

variable {inv : σ → Prop} {size : σ → Nat} {turn : σ → Except ε (Turn α σ)}

/-- `while True: ...` in a generator. -/
def loop (h : Shrinks inv size turn) (s : σ) (hs : inv s) : Gen ε α :=
  match ht : turn s with
  | .error e => .raise e
  | .ok .stop => .done
  | .ok (.next s') => loop h s' (h s hs _ ht s' rfl).1
  | .ok (.emit a s') => .yield a (loop h s' (h s hs _ ht s' rfl).1)
termination_by size s
decreasing_by
  · exact (h s hs _ ht s' rfl).2
  · exact (h s hs _ ht s' rfl).2

section Loop

variable (h : Shrinks inv size turn) {s s' : σ} (hs : inv s)

include h in
theorem Shrinks.inv_emit {a : α} (ht : turn s = .ok (.emit a s')) (hs : inv s) : inv s' :=
  (h s hs _ ht s' rfl).1

theorem loop_stop (ht : turn s = .ok .stop) : loop h s hs = .done := by
  rw [loop]
  split <;> rename_i heq <;> cases ht.symm.trans heq
  rfl

theorem loop_raise {e : ε} (ht : turn s = .error e) : loop h s hs = .raise e := by
  rw [loop]
  split <;> rename_i heq <;> cases ht.symm.trans heq
  rfl

theorem loop_emit {a : α} (ht : turn s = .ok (.emit a s')) :
    loop h s hs = .yield a (loop h s' (h.inv_emit ht hs)) := by
  rw [loop]
  split <;> rename_i heq <;> cases ht.symm.trans heq
  rfl

end Loop

end Gen
