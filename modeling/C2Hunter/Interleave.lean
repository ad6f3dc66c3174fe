import Mathlib.Data.List.Basic
import Mathlib.Data.List.Chain
import Mathlib.Data.List.Destutter
import Mathlib.Data.Set.Defs

/-!
# Interleaved programs

Sequential programs that share a state. A program makes calls, one after the other, and goes on with
their answers; a scheduler picks the program that makes its next call. A call is atomic, and what it
does may depend on a choice of the environment.

* `Prog` — programs as trees: a call, and what follows for each answer.
* `Prog.Calls` — what holds of every call that a program can make, whatever the answers;
  `Prog.CallsWhile` — as long as the answers are of some kind.
* `Prog.Knows` — the calls of a program are in order by what it knows, where knowledge comes from
  answers, stays true, and can only grow.
* `Machine`, `Event`, `Machine.step`, `Machine.run` — the interleavings, as functions of a list of events:
  programs start, advance by a call, or crash.
* `Machine.step_cases` — what an event does.
* `Machine.run_induction`, `Machine.run_shared`, `Machine.run_procs` — invariants of all interleavings.
* `Machine.run_knows` — the invariant rule for knowledge.
* `Machine.trace` — the machines of a run, one after the other; `List.IsChain.filterMap_of_some` and
  `List.IsChain.destutter_ne` pass from machines to the successive values of a part of them.
-/

namespace List

variable {α β : Type} {R : α → α → Prop}

/-- A chain of elements that all have a value gives a chain of values. -/
theorem IsChain.filterMap_of_some {S : β → β → Prop} {f : α → Option β} {l : List α}
    (h : l.IsChain fun a b => ∃ x y, f a = some x ∧ f b = some y ∧ S x y) :
    (l.filterMap f).IsChain S := by
  induction l with
  | nil => exact .nil
  | cons a l ih =>
    cases l with
    | nil => cases hfa : f a <;> simp [hfa]
    | cons b l =>
      obtain ⟨⟨x, y, hx, hy, hxy⟩, hrest⟩ := isChain_cons_cons.mp h
      have htail := ih hrest
      rw [filterMap_cons_some hy] at htail
      rw [filterMap_cons_some hx, filterMap_cons_some hy]
      exact isChain_cons_cons.mpr ⟨hxy, htail⟩

/-- Without repetitions, a chain of equal or related elements is one of related elements, and
starts where it started. -/
theorem IsChain.destutter_ne [DecidableEq α] {a : α} {l : List α}
    (h : (a :: l).IsChain fun x y => x = y ∨ R x y) :
    ((a :: l).destutter (· ≠ ·)).IsChain R ∧ ((a :: l).destutter (· ≠ ·)).head? = some a := by
  rw [destutter_cons']
  induction l generalizing a with
  | nil => exact ⟨isChain_singleton a, rfl⟩
  | cons b l ih =>
    obtain ⟨hab, hrest⟩ := isChain_cons_cons.mp h
    by_cases heq : a = b
    · subst heq
      rw [destutter'_cons_neg _ (by simp)]
      exact ih hrest
    rw [destutter'_cons_pos _ heq]
    obtain ⟨hchain, hhead⟩ := ih hrest
    refine ⟨hchain.cons fun c hc => ?_, rfl⟩
    rw [hhead, Option.mem_some] at hc
    exact hc ▸ hab.resolve_left heq

end List

/-- A program that makes calls `c : C`, each answered by an `A c`, and returns an `α`. -/
inductive Prog (C : Type) (A : C → Type) (α : Type) : Type where
  | ret (a : α) : Prog C A α
  | call (c : C) (k : A c → Prog C A α) : Prog C A α

namespace Prog

variable {C : Type} {A : C → Type} {α : Type}

/-- Every call that the program can make satisfies `P`, as long as the answers satisfy `R`. -/
def CallsWhile (P : C → Prop) (R : (c : C) → A c → Prop) : Prog C A α → Prop
  | ret _ => True
  | call c k => P c ∧ ∀ a, R c a → (k a).CallsWhile P R

section Knows

variable {F : Type} (ok : Set F → C → Prop) (tells : Set F → (c : C) → A c → Prop)

/-- Every call is `ok` by the facts that are known, if answers tell what they are said to tell. What
is known may grow between a call and the next. -/
def Knows : Prog C A α → Set F → Prop
  | ret _, _ => True
  | call c k, κ => ok κ c ∧ ∀ κ' a, κ ⊆ κ' → tells κ' c a → (k a).Knows κ'

variable {ok tells}

theorem Knows.mono (hok : ∀ κ κ' c, κ ⊆ κ' → ok κ c → ok κ' c) {p : Prog C A α} {κ κ' : Set F}
    (hκ : κ ⊆ κ') (h : p.Knows ok tells κ) : p.Knows ok tells κ' := by
  cases p with
  | ret => trivial
  | call c =>
    obtain ⟨hc, hk⟩ := h
    exact ⟨hok κ κ' c hκ hc, fun κ'' a hκ' ha => hk κ'' a (fun _ hf => hκ' (hκ hf)) ha⟩

/-- Answers may tell more. -/
theorem Knows.tell {tells' : Set F → (c : C) → A c → Prop} (htells : ∀ κ c a, tells' κ c a → tells κ c a)
    {p : Prog C A α} {κ : Set F} (h : p.Knows ok tells κ) : p.Knows ok tells' κ := by
  induction p generalizing κ with
  | ret => trivial
  | call c k ih => exact ⟨h.1, fun κ' a hκ ha => ih a (h.2 κ' a hκ (htells κ' c a ha))⟩

/-- Two kinds of knowledge are one. -/
theorem Knows.and {ok₂ : Set F → C → Prop} {tells₂ : Set F → (c : C) → A c → Prop}
    {p : Prog C A α} {κ : Set F}
    (h : p.Knows ok tells κ) (h₂ : p.Knows ok₂ tells₂ κ) :
    p.Knows (fun κ c => ok κ c ∧ ok₂ κ c) (fun κ c a => tells κ c a ∧ tells₂ κ c a) κ := by
  induction p generalizing κ with
  | ret => trivial
  | call c k ih =>
    exact ⟨⟨h.1, h₂.1⟩, fun κ' a hκ ha => ih a (h.2 κ' a hκ ha.1) (h₂.2 κ' a hκ ha.2)⟩

end Knows

end Prog

/-- A shared state and the programs that use it. -/
structure Machine (σ C : Type) (A : C → Type) (α : Type) : Type where
  shared : σ
  procs : List (Prog C A α)

/-- What a scheduler decides. -/
inductive Event (π χ : Type) : Type where
  /-- a program starts -/
  | start (p : π)
  /-- a program makes its next call, with a choice of the environment -/
  | advance (i : Nat) (choice : χ)
  /-- a program goes no further -/
  | crash (i : Nat)

namespace Machine

open List

variable {σ C α π χ : Type} {A : C → Type}

section Step

variable (program : π → Prog C A α) (answer : (c : C) → σ → χ → A c × σ) (stopped : α)

/-- The effect of an event; nothing happens where there is no program or no call. -/
def step (w : Machine σ C A α) : Event π χ → Machine σ C A α
  | .start p => { w with procs := w.procs ++ [program p] }
  | .advance i choice =>
    match w.procs[i]? with
    | some (.call c k) =>
      let (a, shared) := answer c w.shared choice
      ⟨shared, w.procs.set i (k a)⟩
    | _ => w
  | .crash i => { w with procs := w.procs.set i (.ret stopped) }

/-- The effect of some events. -/
def run (w : Machine σ C A α) (events : List (Event π χ)) : Machine σ C A α :=
  events.foldl (step program answer stopped) w

/-- What an event can do. -/
inductive Stepped (w : Machine σ C A α) : Event π χ → Machine σ C A α → Prop where
  | start (p : π) : Stepped w (.start p) { w with procs := w.procs ++ [program p] }
  | call (i : Nat) (choice : χ) (c : C) (k : A c → Prog C A α) (h : w.procs[i]? = some (.call c k)) :
      Stepped w (.advance i choice)
        ⟨(answer c w.shared choice).2, w.procs.set i (k (answer c w.shared choice).1)⟩
  | idle (i : Nat) (choice : χ) : Stepped w (.advance i choice) w
  | crash (i : Nat) : Stepped w (.crash i) { w with procs := w.procs.set i (.ret stopped) }

theorem step_cases (w : Machine σ C A α) (event : Event π χ) :
    Stepped program answer stopped w event (w.step program answer stopped event) := by
  cases event with
  | start p => exact .start p
  | crash i => exact .crash i
  | advance i choice =>
    rw [step]
    split
    · next c k h => exact .call i choice c k h
    · exact .idle i choice

end Step

variable {program : π → Prog C A α} {answer : (c : C) → σ → χ → A c × σ} {stopped : α}

theorem run_append (w : Machine σ C A α) (events more : List (Event π χ)) :
    w.run program answer stopped (events ++ more) =
      (w.run program answer stopped events).run program answer stopped more :=
  foldl_append

theorem run_concat (w : Machine σ C A α) (events : List (Event π χ)) (event : Event π χ) :
    w.run program answer stopped (events ++ [event]) =
      (w.run program answer stopped events).step program answer stopped event := by
  rw [run_append]
  rfl

/-- What every event preserves holds at the end; the events so far are known. -/
theorem run_induction {w : Machine σ C A α} (inv : List (Event π χ) → Machine σ C A α → Prop)
    (events : List (Event π χ)) (h0 : inv [] w)
    (hstep : ∀ pre event, pre ++ [event] <+: events → inv pre (w.run program answer stopped pre) →
      inv (pre ++ [event]) ((w.run program answer stopped pre).step program answer stopped event)) :
    inv events (w.run program answer stopped events) := by
  induction events using List.reverseRecOn with
  | nil => exact h0
  | append_singleton events event ih =>
    rw [run_concat]
    refine hstep events event prefix_rfl (ih fun pre e hpre => ?_)
    exact hstep pre e (hpre.trans (prefix_append _ _))

/-- A program of a machine after an event was there before it, or started, or made a call, or
crashed. -/
theorem mem_procs_step {w : Machine σ C A α} {event : Event π χ} {p : Prog C A α}
    (h : p ∈ (w.step program answer stopped event).procs) :
    p ∈ w.procs ∨ (∃ q, event = .start q ∧ p = program q) ∨ p = .ret stopped ∨
      ∃ i choice c k, event = .advance i choice ∧ w.procs[i]? = some (.call c k) ∧
        p = k (answer c w.shared choice).1 := by
  have hcases := step_cases program answer stopped w event
  generalize w.step program answer stopped event = w' at h hcases
  cases hcases with
  | start q =>
    rcases mem_append.mp h with h | h
    · exact .inl h
    · exact .inr (.inl ⟨q, rfl, mem_singleton.mp h⟩)
  | call i choice c k hk =>
    rcases mem_or_eq_of_mem_set h with h | h
    · exact .inl h
    · exact .inr (.inr (.inr ⟨i, choice, c, k, rfl, hk, h⟩))
  | idle => exact .inl h
  | crash =>
    rcases mem_or_eq_of_mem_set h with h | h
    · exact .inl h
    · exact .inr (.inr (.inl h))

/-- A property of programs that their calls keep holds of all programs of a machine. -/
theorem run_procs {w : Machine σ C A α} {Q : Prog C A α → Prop} (h0 : ∀ p ∈ w.procs, Q p)
    (hstart : ∀ q, Q (program q)) (hret : Q (.ret stopped))
    (hcall : ∀ c k, Q (.call c k) → ∀ a, Q (k a)) (events : List (Event π χ)) :
    ∀ p ∈ (w.run program answer stopped events).procs, Q p := by
  refine run_induction (fun _ w' => ∀ p ∈ w'.procs, Q p) events h0 fun pre event _ ih p hp => ?_
  rcases mem_procs_step hp with hp | ⟨q, -, rfl⟩ | rfl | ⟨i, choice, c, k, -, hk, rfl⟩
  · exact ih p hp
  · exact hstart q
  · exact hret
  · exact hcall c k (ih _ (mem_of_getElem? hk)) _

/-! ## Knowledge -/

section Knows

variable {F : Type} {ok : Set F → C → Prop} {tells : Set F → (c : C) → A c → Prop}
  {know : σ → Set F} {inv : σ → Prop} {allowed : (c : C) → σ → χ → Prop}

variable (program answer stopped allowed) in
/-- Every call of the run is made in circumstances that are allowed. -/
def Allows (w : Machine σ C A α) (events : List (Event π χ)) : Prop :=
  ∀ pre i choice c k, pre ++ [.advance i choice] <+: events →
    (w.run program answer stopped pre).procs[i]? = some (.call c k) →
    allowed c (w.run program answer stopped pre).shared choice

variable (allowed) in
/-- The call of an event is made in circumstances that are allowed. -/
def allowsAt [∀ c s x, Decidable (allowed c s x)] (w : Machine σ C A α) : Event π χ → Bool
  | .advance i choice =>
    match w.procs[i]? with
    | some (.call c _) => decide (allowed c w.shared choice)
    | _ => true
  | _ => true

variable (program answer stopped allowed) in
/-- `Allows`, computed along the run. -/
def allows [∀ c s x, Decidable (allowed c s x)] (w : Machine σ C A α) : List (Event π χ) → Bool
  | [] => true
  | event :: events =>
    w.allowsAt allowed event && (w.step program answer stopped event).allows events

theorem allows_of_eq_true [∀ c s x, Decidable (allowed c s x)] {w : Machine σ C A α}
    {events : List (Event π χ)} (h : w.allows program answer stopped allowed events = true) :
    w.Allows program answer stopped allowed events := by
  induction events generalizing w with
  | nil => exact fun pre i choice c k hpre => by simp at hpre
  | cons event events ih =>
    rw [allows, Bool.and_eq_true] at h
    obtain ⟨hfirst, hrest⟩ := h
    intro pre i choice c k hpre hk
    cases pre with
    | nil =>
      obtain rfl := (cons_prefix_cons.mp hpre).1
      have hk' : w.procs[i]? = some (.call c k) := hk
      rw [allowsAt, hk'] at hfirst
      exact of_decide_eq_true hfirst
    | cons first pre =>
      obtain ⟨rfl, hpre'⟩ := cons_prefix_cons.mp hpre
      exact ih hrest pre i choice c k hpre' hk

/-- Calls that are `ok` keep the invariant, add to what is known and are answered as told: then the
invariant holds throughout, and all programs know what they have to. -/
theorem run_knows {w : Machine σ C A α} {events : List (Event π χ)}
    (hok : ∀ κ κ' c, κ ⊆ κ' → ok κ c → ok κ' c)
    (hinv : inv w.shared) (hprocs : ∀ p ∈ w.procs, p.Knows ok tells (know w.shared))
    (hstart : ∀ q κ, (program q).Knows ok tells κ)
    (hcall : ∀ c s choice, inv s → ok (know s) c → allowed c s choice →
      inv (answer c s choice).2 ∧ know s ⊆ know (answer c s choice).2 ∧
        tells (know (answer c s choice).2) c (answer c s choice).1)
    (hallows : w.Allows program answer stopped allowed events) :
    inv (w.run program answer stopped events).shared ∧ ∀ p ∈ (w.run program answer stopped events).procs,
        p.Knows ok tells (know (w.run program answer stopped events).shared) := by
  refine run_induction (fun _ w' => inv w'.shared ∧ ∀ p ∈ w'.procs, p.Knows ok tells (know w'.shared))
    events ⟨hinv, hprocs⟩ fun pre event hpre ih => ?_
  have hallowed := hallows pre
  have hcases := step_cases program answer stopped (w.run program answer stopped pre) event
  generalize w.run program answer stopped pre = w₁ at ih hallowed hcases ⊢
  generalize w₁.step program answer stopped event = w₂ at hcases ⊢
  obtain ⟨hinv₁, hprocs₁⟩ := ih
  cases hcases with
  | start q =>
    refine ⟨hinv₁, fun p hp => ?_⟩
    rcases mem_append.mp hp with hp | hp
    · exact hprocs₁ p hp
    · exact mem_singleton.mp hp ▸ hstart q _
  | idle => exact ⟨hinv₁, hprocs₁⟩
  | crash =>
    refine ⟨hinv₁, fun p hp => ?_⟩
    rcases mem_or_eq_of_mem_set hp with hp | rfl
    · exact hprocs₁ p hp
    · trivial
  | call i choice c k hk =>
    obtain ⟨hc, hnext⟩ := hprocs₁ _ (mem_of_getElem? hk)
    obtain ⟨hinv₂, hgrow, htells⟩ :=
      hcall c w₁.shared choice hinv₁ hc (hallowed i choice c k hpre hk)
    refine ⟨hinv₂, fun p hp => ?_⟩
    rcases mem_or_eq_of_mem_set hp with hp | rfl
    · exact (hprocs₁ p hp).mono hok hgrow
    · exact hnext _ _ hgrow htells

end Knows

/-! ## Traces -/

variable (program answer stopped) in
/-- The machines of a run, the first one included. -/
def trace (w : Machine σ C A α) (events : List (Event π χ)) : List (Machine σ C A α) :=
  events.scanl (step program answer stopped) w

theorem head?_trace (w : Machine σ C A α) (events : List (Event π χ)) :
    (w.trace program answer stopped events).head? = some w := by
  cases events <;> simp [trace]

/-- Machines that follow each other are related, if every event of the run relates them. -/
theorem isChain_trace {R : Machine σ C A α → Machine σ C A α → Prop} {w : Machine σ C A α}
    {events : List (Event π χ)}
    (h : ∀ pre event, pre ++ [event] <+: events →
      R (w.run program answer stopped pre) (w.run program answer stopped (pre ++ [event]))) :
    (w.trace program answer stopped events).IsChain R := by
  induction events generalizing w with
  | nil => exact isChain_singleton w
  | cons event events ih =>
    rw [trace, scanl_cons]
    have hrest := ih fun pre e hpre => h (event :: pre) e (cons_prefix_cons.mpr ⟨rfl, hpre⟩)
    refine hrest.cons fun w' hw' => ?_
    rw [head?_trace, Option.mem_some] at hw'
    subst hw'
    exact h [] event (cons_prefix_cons.mpr ⟨rfl, nil_prefix⟩)

end Machine
