import Mathlib.Data.List.Basic
import Mathlib.Data.List.Forall2
import Mathlib.Data.List.Induction

/-!
# Computations that may raise

Rules for `Except` programs, used to take a successful run apart instead of
unfolding it.

* `Except.bind_eq_ok` — a sequence that succeeds is two successes.
* `Except.guard_eq_ok` — a guard that raises on a condition, and the rest.
* `Except.bind_eq_error`, `Except.guard_eq_error` — where an exception came from.
* `List.foldlM_eq_ok_induction` — the loop rule: an invariant over the elements
  already consumed, preserved by every successful iteration, holds at the end.
* `List.foldlM_eq_pure_of_step` — its converse: a loop none of whose iterations
  raises while the invariant holds runs to its end.
-/

namespace Except

variable {ε α β : Type}

theorem bind_eq_ok {x : Except ε α} {f : α → Except ε β} {b : β} :
    (x >>= f) = .ok b ↔ ∃ a, x = .ok a ∧ f a = .ok b := by
  cases x with
  | error =>
    refine ⟨fun h => ?_, fun ⟨a, h, _⟩ => ?_⟩
    · cases h
    · cases h
  | ok a =>
    refine ⟨fun h => ⟨a, rfl, h⟩, fun ⟨a', h, hf⟩ => ?_⟩
    cases h
    exact hf

theorem mapError_eq_ok {ε' : Type} {x : Except ε α} {f : ε → ε'} {a : α} : x.mapError f = .ok a ↔ x = .ok a := by
  cases x with
  | error | ok => simp [Except.mapError]

theorem map_eq_ok {x : Except ε α} {f : α → β} {b : β} : (f <$> x) = .ok b ↔ ∃ a, x = .ok a ∧ f a = b := by
  cases x with
  | error | ok => simp [Functor.map, Except.map]

/-- A guard clause `if c: raise e`, then the rest. -/
theorem ok_bind (a : α) (f : α → Except ε β) : ((.ok a : Except ε α) >>= f) = f a := rfl

theorem error_bind (e : ε) (f : α → Except ε β) : ((.error e : Except ε α) >>= f) = .error e := rfl

theorem guard_eq_ok {c : Prop} [Decidable c] {e : ε} {x : Except ε β} {b : β} :
    (if c then .error e else x) = .ok b ↔ ¬c ∧ x = .ok b := by
  by_cases hc : c
  · simp [hc]
  · simp [hc]

/-- An early exit `if c: return False`, then the rest. -/
theorem exit_eq_ok_true {c : Prop} [Decidable c] {x : Except ε Bool} :
    (if c then .ok false else x) = .ok true ↔ ¬c ∧ x = .ok true := by
  by_cases hc : c
  · simp [hc]
  · simp [hc]

theorem bind_eq_error {x : Except ε α} {f : α → Except ε β} {e : ε} :
    (x >>= f) = .error e ↔ x = .error e ∨ ∃ a, x = .ok a ∧ f a = .error e := by
  cases x with
  | error | ok => simp [bind, Except.bind]

theorem guard_eq_error {c : Prop} [Decidable c] {e e' : ε} {x : Except ε β} :
    (if c then .error e else x) = .error e' ↔ c ∧ e = e' ∨ ¬c ∧ x = .error e' := by
  by_cases hc : c
  · simp [hc]
  · simp [hc]

theorem mapError_eq_error {ε' : Type} {x : Except ε α} {f : ε → ε'} {e' : ε'} :
    x.mapError f = .error e' ↔ ∃ e, x = .error e ∧ f e = e' := by
  cases x with
  | error | ok => simp [Except.mapError]

/-- `pure` in `Except` is `.ok`; stated for use as a rewrite rule. -/
theorem pure_eq_ok (a : α) : (pure a : Except ε α) = .ok a := rfl

end Except

namespace List

variable {ε α σ : Type}

/-- The loop rule for `for a in l` in a computation that may raise. -/
theorem foldlM_eq_ok_induction {f : σ → α → Except ε σ} (inv : List α → σ → Prop)
    {l : List α} {s s' : σ} (h0 : inv [] s)
    (hstep : ∀ pre a t t', pre ++ [a] <+: l → inv pre t → f t a = .ok t' → inv (pre ++ [a]) t')
    (h : l.foldlM f s = .ok s') : inv l s' := by
  induction l using List.reverseRecOn generalizing s' with
  | nil =>
    cases h
    exact h0
  | append_singleton l a ih =>
    rw [List.foldlM_append, Except.bind_eq_ok] at h
    obtain ⟨t, ht, h⟩ := h
    rw [List.foldlM_cons, Except.bind_eq_ok] at h
    obtain ⟨t', ht', h⟩ := h
    cases h
    refine hstep l a t s' (List.prefix_refl _) (ih (fun pre b u u' hpre => ?_) ht) ht'
    exact hstep pre b u u' (hpre.trans (List.prefix_append l [a]))

/-- A loop whose every iteration returns while the invariant holds returns. -/
theorem foldlM_eq_pure_of_step {m : Type → Type} [Monad m] [LawfulMonad m] {f : σ → α → m σ}
    (inv : List α → σ → Prop) {l : List α} {s : σ} (h0 : inv [] s)
    (hstep : ∀ pre a t, pre ++ [a] <+: l → inv pre t → ∃ t', f t a = pure t' ∧ inv (pre ++ [a]) t') :
    ∃ s', l.foldlM f s = pure s' ∧ inv l s' := by
  induction l using List.reverseRecOn with
  | nil => exact ⟨s, rfl, h0⟩
  | append_singleton l a ih =>
    obtain ⟨t, ht, hinv⟩ := ih fun pre b u hpre =>
      hstep pre b u (hpre.trans (List.prefix_append l [a]))
    obtain ⟨t', ht', hinv'⟩ := hstep l a t (List.prefix_refl _) hinv
    refine ⟨t', ?_, hinv'⟩
    rw [List.foldlM_append, ht, pure_bind, List.foldlM_cons, ht', pure_bind]
    rfl

/-- A loop whose every iteration succeeds while the invariant holds succeeds. -/
theorem foldlM_eq_ok_of_step {f : σ → α → Except ε σ} (inv : List α → σ → Prop)
    {l : List α} {s : σ} (h0 : inv [] s)
    (hstep : ∀ pre a t, pre ++ [a] <+: l → inv pre t → ∃ t', f t a = .ok t' ∧ inv (pre ++ [a]) t') :
    ∃ s', l.foldlM f s = .ok s' ∧ inv l s' :=
  foldlM_eq_pure_of_step inv h0 hstep

/-- Two loops in lockstep: what one iteration of both keeps, both loops keep. -/
theorem foldlM_rel {α' σ' ε' : Type} {f : σ → α → Except ε σ} {g : σ' → α' → Except ε' σ'}
    {R : α → α' → Prop} {S : σ → σ' → Prop}
    (hstep : ∀ a a' s s' t t', R a a' → S s s' → f s a = .ok t → g s' a' = .ok t' → S t t')
    {l : List α} {l' : List α'} (hl : Forall₂ R l l') {s t : σ} {s' t' : σ'} (h : S s s')
    (hf : l.foldlM f s = .ok t) (hg : l'.foldlM g s' = .ok t') : S t t' := by
  induction hl generalizing s s' with
  | nil =>
    cases hf
    cases hg
    exact h
  | cons ha _ ih =>
    rw [List.foldlM_cons, Except.bind_eq_ok] at hf hg
    obtain ⟨u, hu, hf⟩ := hf
    obtain ⟨u', hu', hg⟩ := hg
    exact ih (hstep _ _ _ _ _ _ ha h hu hu') hf hg

/-- `[f(a) for a in l]` succeeds when every call does. -/
theorem mapM_eq_ok {β : Type} {f : α → Except ε β} {l : List α} {l' : List β} :
    l.mapM f = .ok l' ↔ List.Forall₂ (fun a b => f a = .ok b) l l' := by
  induction l generalizing l' with
  | nil => simp [Except.pure_eq_ok, eq_comm]
  | cons a l ih =>
    simp only [List.mapM_cons, Except.bind_eq_ok, ih, Except.pure_eq_ok, Except.ok.injEq,
      List.forall₂_cons_left_iff]
    constructor
    · rintro ⟨b, hb, bs, hbs, rfl⟩
      exact ⟨b, bs, hb, hbs, rfl⟩
    · rintro ⟨b, bs, hb, hbs, rfl⟩
      exact ⟨b, hb, bs, hbs, rfl⟩

/-- `for a in l: f(a)` succeeds when every call does. -/
theorem forM_eq_ok {f : α → Except ε Unit} {l : List α} : l.forM f = .ok () ↔ ∀ a ∈ l, f a = .ok () := by
  induction l with
  | nil => exact ⟨fun _ a ha => absurd ha not_mem_nil, fun _ => rfl⟩
  | cons a l ih =>
    have hcons : (a :: l).forM f = f a >>= fun _ => l.forM f := rfl
    rw [hcons, Except.bind_eq_ok, List.forall_mem_cons]
    constructor
    · rintro ⟨u, ha, hl⟩
      exact ⟨ha, ih.mp hl⟩
    · rintro ⟨ha, hl⟩
      exact ⟨⟨⟩, ha, ih.mpr hl⟩

theorem exists_of_mapM_eq_error {β : Type} {f : α → Except ε β} {l : List α} {e : ε}
    (h : l.mapM f = .error e) : ∃ a ∈ l, f a = .error e := by
  induction l with
  | nil => cases h
  | cons a l ih =>
    rw [List.mapM_cons, Except.bind_eq_error] at h
    rcases h with h | ⟨b, -, h⟩
    · exact ⟨a, mem_cons_self, h⟩
    rw [Except.bind_eq_error] at h
    rcases h with h | ⟨bs, -, h⟩
    · obtain ⟨a', ha', hf⟩ := ih h
      exact ⟨a', mem_cons_of_mem _ ha', hf⟩
    · cases h

end List
