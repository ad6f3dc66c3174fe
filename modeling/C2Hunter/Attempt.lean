import C2Hunter.Gen

/-!
# Computations over a state that may give up

`StateT σ Option` is the effect of code that works on shared variables and abandons its
work on any of several exceptions, all treated alike. `Attempt.Ensures inv m post` is
partial correctness for it: where `m` is run in a state with the invariant and does not
give up, the invariant still holds and the result satisfies `post`.

* `Attempt.giveUp` — raising.
* `ensures_pure`, `ensures_bind`, `ensures_ite`, `ensures_mono` — the rules of the language.
* `ensures_foldlM`, `ensures_consume` — the loop rules, with an invariant over the elements
  already visited.
-/

/-- Computations over a state `σ` that may give up. -/
abbrev Attempt (σ α : Type) : Type := StateT σ Option α

namespace Attempt

variable {σ α β ε : Type} {inv : σ → Prop}

/-- Give up. -/
def giveUp : Attempt σ α := fun _ => none

/-- Where `m` returns, it keeps the invariant and its result satisfies `post`. -/
def Ensures (inv : σ → Prop) (m : Attempt σ α) (post : α → Prop) : Prop :=
  ∀ s a s', inv s → m s = some (a, s') → inv s' ∧ post a

variable {post : α → Prop}

theorem ensures_giveUp : Ensures inv (giveUp : Attempt σ α) post := by
  intro s a s' _ h
  cases h

theorem ensures_pure {a : α} (h : post a) : Ensures inv (pure a : Attempt σ α) post := by
  intro s b s' hs hrun
  cases hrun
  exact ⟨hs, h⟩

variable {m : Attempt σ α}

theorem ensures_bind {f : α → Attempt σ β} {mid : α → Prop} {post : β → Prop}
    (hm : Ensures inv m mid) (hf : ∀ a, mid a → Ensures inv (f a) post) :
    Ensures inv (m >>= f) post := by
  intro s b s' hs hrun
  change (m s).bind (fun p => f p.1 p.2) = some (b, s') at hrun
  obtain ⟨⟨a, t⟩, hma, hfa⟩ := Option.bind_eq_some_iff.mp hrun
  obtain ⟨ht, ha⟩ := hm s a t hs hma
  exact hf a ha t b s' ht hfa

theorem ensures_mono {post' : α → Prop} (hm : Ensures inv m post)
    (h : ∀ a, post a → post' a) : Ensures inv m post' := by
  intro s a s' hs hrun
  obtain ⟨hs', ha⟩ := hm s a s' hs hrun
  exact ⟨hs', h a ha⟩

theorem ensures_ite {c : Prop} [Decidable c] {m' : Attempt σ α}
    (hm : c → Ensures inv m post) (hm' : ¬c → Ensures inv m' post) :
    Ensures inv (if c then m else m') post := by
  by_cases hc : c
  · rw [if_pos hc]
    exact hm hc
  · rw [if_neg hc]
    exact hm' hc

/-- A guard clause that gives up, then the rest. -/
theorem ensures_guard {c : Prop} [Decidable c]
    (hm : ¬c → Ensures inv m post) : Ensures inv (if c then giveUp else m) post :=
  ensures_ite (fun _ => ensures_giveUp) hm

variable {f : β → α → Attempt σ β}

/-- The rule for loops. -/
theorem ensures_foldlM {l : List α} {b : β} (acc : List α → β → Prop) (h0 : acc [] b)
    (hstep : ∀ pre a c, pre ++ [a] <+: l → acc pre c → Ensures inv (f c a) (acc (pre ++ [a]))) :
    Ensures inv (l.foldlM f b) (acc l) := by
  suffices ∀ (post pre : List α) (c : β), pre ++ post = l → acc pre c →
      Ensures inv (post.foldlM f c) (acc l) from this l [] b rfl h0
  intro post
  induction post with
  | nil =>
    intro pre c hl hc
    rw [List.foldlM_nil]
    rw [List.append_nil] at hl
    exact ensures_pure (hl ▸ hc)
  | cons a post ih =>
    intro pre c hl hc
    rw [List.foldlM_cons]
    refine ensures_bind (hstep pre a c ⟨post, by rw [← hl]; simp⟩ hc) fun c' hc' => ?_
    exact ih (pre ++ [a]) c' (by rw [← hl]; simp) hc'

/-- A loop over a generator that does not give up has drained it. -/
theorem consume_eq_some {g : Gen ε α} {b c : β} {s s' : σ}
    (h : Gen.consume (fun _ => giveUp) f b g s = some (c, s')) :
    ∃ l, g.collect = .ok l ∧ l.foldlM f b s = some (c, s') := by
  induction g generalizing b s with
  | done => exact ⟨[], rfl, h⟩
  | raise => cases h
  | yield a g ih =>
    change (f b a s).bind (fun p => Gen.consume (fun _ => giveUp) f p.1 g p.2) = some (c, s') at h
    obtain ⟨⟨b', t⟩, hfa, hrest⟩ := Option.bind_eq_some_iff.mp h
    obtain ⟨l, hl, hrun⟩ := ih hrest
    refine ⟨a :: l, Gen.collect_yield_eq_ok.mpr ⟨l, hl, rfl⟩, ?_⟩
    rw [List.foldlM_cons]
    change (f b a s).bind (fun p => l.foldlM f p.1 p.2) = _
    rw [hfa]
    exact hrun

/-- The rule for loops over a generator whose exceptions make the loop give up. -/
theorem ensures_consume {g : Gen ε α} {b : β} {post : β → Prop}
    (h : ∀ l, g.collect = .ok l → Ensures inv (l.foldlM f b) post) :
    Ensures inv (Gen.consume (fun _ => giveUp) f b g) post := by
  intro s c s' hs hrun
  obtain ⟨l, hl, hrun⟩ := consume_eq_some hrun
  exact h l hl s c s' hs hrun

end Attempt
