import Mathlib.Data.List.Basic

/-!
# Generators

A generator of the source language yields some values and then either returns
or raises. What its consumer observes is exactly that: the values in order, and
the ending. `Gen ε α` is this observation as data.

* `Gen.collect` — `tuple(gen)`: the values, or the exception that cut them off.
* `Gen.consume` — `for x in gen: body`, where the body has its own effects and
  may stop the loop by raising in its own monad before the generator raises.
* `Gen.consume_of_collect` — a generator that returns is consumed like the list
  of its values; this is the rule by which loops over generators become folds.
-/

/-- The observable behaviour of a finite generator raising errors `ε` and
yielding values `α`. -/
inductive Gen (ε α : Type) : Type where
  /-- the generator returns -/
  | done : Gen ε α
  /-- the generator raises -/
  | raise : ε → Gen ε α
  /-- the generator yields a value and is resumed -/
  | yield : α → Gen ε α → Gen ε α
  deriving DecidableEq, Repr

namespace Gen

variable {ε α β σ : Type}

/-- `tuple(gen)`. -/
def collect : Gen ε α → Except ε (List α)
  | done => .ok []
  | raise e => .error e
  | yield a rest =>
    match collect rest with
    | .ok l => .ok (a :: l)
    | .error e => .error e

/-- The generator that yields the elements of a list and returns. -/
def ofList : List α → Gen ε α
  | [] => done
  | a :: l => yield a (ofList l)

/-- The generator that yields the elements of a list and goes on as another one. -/
def prepend : List α → Gen ε α → Gen ε α
  | [], g => g
  | a :: l, g => yield a (prepend l g)

@[simp] theorem collect_done : (done : Gen ε α).collect = .ok [] := rfl

@[simp] theorem collect_raise (e : ε) : (raise e : Gen ε α).collect = .error e := rfl

theorem collect_yield_eq_ok {a : α} {g : Gen ε α} {l : List α} :
    (yield a g).collect = .ok l ↔ ∃ l', g.collect = .ok l' ∧ l = a :: l' := by
  rw [collect]
  cases g.collect with
  | ok => simp [eq_comm]
  | error => simp

@[simp] theorem collect_ofList (l : List α) : (ofList l : Gen ε α).collect = .ok l := by
  induction l with
  | nil => rfl
  | cons a l ih => rw [ofList, collect_yield_eq_ok]; exact ⟨l, ih, rfl⟩

/-- A generator that returns is the generator of its values. -/
theorem eq_ofList_of_collect {g : Gen ε α} {l : List α} (h : g.collect = .ok l) : g = ofList l := by
  induction g generalizing l with
  | done => cases h; rfl
  | raise => cases h
  | yield a g ih =>
    obtain ⟨l', hl', rfl⟩ := collect_yield_eq_ok.mp h
    rw [ofList, ih hl']

/-! ## Consuming a generator -/

section Consume

variable {m : Type → Type} [Monad m]

/-- `for x in gen: s = body(s, x)`; an exception of the generator is rethrown
through `rethrow`. -/
def consume (rethrow : ε → m σ) (body : σ → α → m σ) : σ → Gen ε α → m σ
  | s, done => pure s
  | _, raise e => rethrow e
  | s, yield a rest => body s a >>= fun s' => consume rethrow body s' rest

theorem consume_ofList (rethrow : ε → m σ) (body : σ → α → m σ) (s : σ) (l : List α) :
    consume rethrow body s (ofList l) = l.foldlM body s := by
  induction l generalizing s with
  | nil => rfl
  | cons a l ih => simp only [ofList, consume, List.foldlM_cons, ih]

/-- Consuming a generator that returns is folding over its values. -/
theorem consume_of_collect {g : Gen ε α} {l : List α} (h : g.collect = .ok l)
    (rethrow : ε → m σ) (body : σ → α → m σ) (s : σ) :
    consume rethrow body s g = l.foldlM body s := by
  rw [eq_ofList_of_collect h, consume_ofList]

end Consume

/-- A loop that ends normally has drained its generator: the generator returned,
and the loop folded over its values. -/
theorem consume_eq_ok {ε' : Type} (throw : ε → ε') {body : σ → α → Except ε' σ}
    {s s' : σ} {g : Gen ε α}
    (h : consume (fun e => Except.error (throw e)) body s g = .ok s') :
    ∃ l, g.collect = .ok l ∧ l.foldlM body s = .ok s' := by
  induction g generalizing s with
  | done => exact ⟨[], rfl, h⟩
  | raise => cases h
  | yield a g ih =>
    rw [consume] at h
    cases hb : body s a with
    | error e =>
      rw [hb] at h
      cases h
    | ok s₁ =>
      rw [hb] at h
      obtain ⟨l, hl, hf⟩ := ih h
      refine ⟨a :: l, collect_yield_eq_ok.mpr ⟨l, hl, rfl⟩, ?_⟩
      rw [List.foldlM_cons, hb]
      exact hf

/-- An exception that ends a loop comes from the generator or from the body. -/
theorem consume_eq_error {ε' : Type} (throw : ε → ε') {body : σ → α → Except ε' σ}
    {s : σ} {g : Gen ε α} {e' : ε'}
    (h : consume (fun e => Except.error (throw e)) body s g = .error e') :
    (∃ e, throw e = e') ∨ ∃ t a, body t a = .error e' := by
  induction g generalizing s with
  | done => cases h
  | raise e =>
    cases h
    exact .inl ⟨e, rfl⟩
  | yield a g ih =>
    rw [consume] at h
    cases hb : body s a with
    | error e =>
      rw [hb] at h
      cases h
      exact .inr ⟨s, a, hb⟩
    | ok t =>
      rw [hb] at h
      exact ih h

end Gen
