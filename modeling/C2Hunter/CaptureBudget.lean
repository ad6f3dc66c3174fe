import Mathlib.Algebra.Order.Ring.Int

/-!
# Capture budgets

`CaptureBudget` of `pipeline.go`: the packets and bytes that the pipelines of an analysis may capture
together. A lock serialises the calls, so that a run is a list of sizes, whoever asks. No counter
overflows while its limit is set, and a counter without a limit is not read: they are naturals.

* `reserve` — one call.
* `Steady` — no packet is refused for its bytes while some are left.
* `budget_stays_stopped` — the limits hold; a budget that stopped stays stopped if the calls are steady.
-/

namespace C2Hunter

/-- The values of `capture.StopReason` that a budget has. -/
inductive StopReason where
  | maxPackets
  | maxBytes
  deriving DecidableEq

/-- A limit that is zero is none. -/
structure CaptureBudget where
  maxPackets : Nat
  maxBytes : Nat
  packets : Nat := 0
  bytes : Nat := 0
  /-- whether `Done` is closed -/
  done : Bool := false
  stopReason : Option StopReason := none
  deriving DecidableEq

namespace CaptureBudget

variable (b : CaptureBudget)

def stopLocked (reason : StopReason) : CaptureBudget :=
  { b with stopReason := some reason, done := true }

/-- `Reserve`: whether the packet is accepted, the reason to stop, and the budget then. -/
def reserve (wireBytes : Nat) : Bool × Option StopReason × CaptureBudget :=
  if 0 < b.maxPackets ∧ b.maxPackets ≤ b.packets then
    (false, some .maxPackets, b.stopLocked .maxPackets)
  else if 0 < b.maxBytes ∧ b.maxBytes - b.bytes < wireBytes then
    (false, some .maxBytes, b.stopLocked .maxBytes)
  else
    let b := { b with packets := b.packets + 1, bytes := b.bytes + wireBytes }
    if 0 < b.maxPackets ∧ b.maxPackets ≤ b.packets then
      (true, some .maxPackets, b.stopLocked .maxPackets)
    else if 0 < b.maxBytes ∧ b.maxBytes ≤ b.bytes then
      (true, some .maxBytes, b.stopLocked .maxBytes)
    else (true, none, b)

/-- The calls for packets of these sizes: the sizes that are accepted, and the budget after them. -/
def serve (b : CaptureBudget) : List Nat → List Nat × CaptureBudget
  | [] => ([], b)
  | n :: sizes =>
    let r := b.reserve n
    let rest := serve r.2.2 sizes
    (if r.1 then n :: rest.1 else rest.1, rest.2)

/-- Every packet has a byte, and no more than are left, while some are left. -/
def Steady (b : CaptureBudget) : List Nat → Prop
  | [] => True
  | n :: sizes =>
    (0 < b.maxBytes → 0 < n ∧ (b.bytes < b.maxBytes → n ≤ b.maxBytes - b.bytes)) ∧
      Steady (b.reserve n).2.2 sizes

/-! ## Runs -/

variable {b} {n : Nat} {sizes : List Nat}

/-- The counters are within the limits. -/
structure Within (b : CaptureBudget) : Prop where
  packets : 0 < b.maxPackets → b.packets ≤ b.maxPackets
  bytes : 0 < b.maxBytes → b.bytes ≤ b.maxBytes

/-- A call counts its packet if it accepts it. -/
theorem Within.reserve (h : b.Within) {accepted : Bool} {stop : Option StopReason} {b' : CaptureBudget}
    (hr : b.reserve n = (accepted, stop, b')) :
    b'.Within ∧ b'.maxPackets = b.maxPackets ∧ b'.maxBytes = b.maxBytes ∧
      b'.packets = b.packets + accepted.toNat ∧ b'.bytes = b.bytes + accepted.toNat * n := by
  obtain ⟨hpackets, hbytes⟩ := h
  rw [CaptureBudget.reserve] at hr
  split at hr
  · cases hr
    exact ⟨⟨hpackets, hbytes⟩, rfl, rfl, rfl, by simp [stopLocked]⟩
  next hfull =>
  split at hr
  · cases hr
    exact ⟨⟨hpackets, hbytes⟩, rfl, rfl, rfl, by simp [stopLocked]⟩
  next hlarge =>
  have hnext : Within { b with packets := b.packets + 1, bytes := b.bytes + n } :=
    ⟨fun hpos => not_le.mp fun hle => hfull ⟨hpos, hle⟩, fun hpos => by
      have := hbytes hpos
      have := not_lt.mp fun hlt => hlarge ⟨hpos, hlt⟩
      simp only
      omega⟩
  simp only at hr
  split at hr
  · cases hr
    exact ⟨⟨hnext.packets, hnext.bytes⟩, rfl, rfl, rfl, by simp [stopLocked]⟩
  split at hr
  · cases hr
    exact ⟨⟨hnext.packets, hnext.bytes⟩, rfl, rfl, rfl, by simp [stopLocked]⟩
  · cases hr
    exact ⟨hnext, rfl, rfl, rfl, by simp⟩

/-- What is accepted fits in what was left. -/
theorem Within.serve (h : b.Within) : (0 < b.maxPackets → b.packets + (b.serve sizes).1.length ≤ b.maxPackets) ∧
      (0 < b.maxBytes → b.bytes + (b.serve sizes).1.sum ≤ b.maxBytes) := by
  induction sizes generalizing b with
  | nil => exact ⟨h.packets, h.bytes⟩
  | cons n sizes ih =>
    rcases hr : b.reserve n with ⟨accepted, stop, b'⟩
    obtain ⟨hwithin, hmax, hmax', hpackets, hbytes⟩ := h.reserve hr
    have hrest := ih hwithin
    rw [hmax, hmax', hpackets, hbytes] at hrest
    simp only [CaptureBudget.serve, hr]
    cases accepted with
    | false => simpa using hrest
    | true =>
      simp only [Bool.toNat_true, one_mul, if_true, List.length_cons, List.sum_cons] at hrest ⊢
      omega

/-- A budget stopped because a counter is at its limit, and for the reason that later calls get. -/
structure Stops (b : CaptureBudget) : Prop where
  done : b.done = b.stopReason.isSome
  packets : b.stopReason = some .maxPackets → 0 < b.maxPackets ∧ b.maxPackets ≤ b.packets
  bytes : b.stopReason = some .maxBytes → (0 < b.maxBytes ∧ b.maxBytes ≤ b.bytes) ∧
    ¬(0 < b.maxPackets ∧ b.maxPackets ≤ b.packets)

/-- A steady call leaves a budget that stopped as it is. -/
theorem Stops.stay (h : b.Stops) {reason : StopReason} (hstop : b.stopReason = some reason)
    (hsteady : b.Steady (n :: sizes)) : b.reserve n = (false, some reason, b) := by
  have hdone : b.done = true := h.done.trans (by rw [hstop, Option.isSome_some])
  have hsame : b.stopLocked reason = b := by rw [stopLocked, ← hstop, ← hdone]
  cases reason with
  | maxPackets => rw [CaptureBudget.reserve, if_pos (h.packets hstop), hsame]
  | maxBytes =>
    obtain ⟨hspent, hroom⟩ := h.bytes hstop
    have hlarge : 0 < b.maxBytes ∧ b.maxBytes - b.bytes < n := by
      have := hsteady.1 hspent.1
      omega
    rw [CaptureBudget.reserve, if_neg hroom, if_pos hlarge, hsame]

theorem Stops.reserve (h : b.Stops) (hsteady : b.Steady (n :: sizes)) : (b.reserve n).2.2.Stops := by
  cases hstop : b.stopReason with
  | some reason =>
    rw [h.stay hstop hsteady]
    exact h
  | none =>
    rw [CaptureBudget.reserve]
    split
    · next hfull => exact ⟨rfl, fun _ => hfull, nofun⟩
    next hroom =>
    split
    · next hlarge =>
      -- no bytes were left: a steady call does not ask for more than that
      have hspent : b.maxBytes ≤ b.bytes := by
        have := hsteady.1 hlarge.1
        omega
      exact ⟨rfl, nofun, fun _ => ⟨⟨hlarge.1, hspent⟩, hroom⟩⟩
    simp only
    split
    · next hlast => exact ⟨rfl, fun _ => hlast, nofun⟩
    next hroom =>
    split
    · next hspent => exact ⟨rfl, nofun, fun _ => ⟨hspent, hroom⟩⟩
    · exact ⟨h.done, fun hreason => absurd (hstop.symm.trans hreason) nofun,
        fun hreason => absurd (hstop.symm.trans hreason) nofun⟩

theorem steady_append {later : List Nat} :
    b.Steady (sizes ++ later) ↔ b.Steady sizes ∧ (b.serve sizes).2.Steady later := by
  induction sizes generalizing b with
  | nil => simp [Steady, CaptureBudget.serve]
  | cons n sizes ih => rw [List.cons_append, Steady, ih, Steady, CaptureBudget.serve, and_assoc]

theorem Stops.serve (h : b.Stops) (hsteady : b.Steady sizes) : (b.serve sizes).2.Stops := by
  induction sizes generalizing b with
  | nil => exact h
  | cons n sizes ih => exact ih (h.reserve hsteady) hsteady.2

/-- A budget that stopped accepts nothing, as long as the calls are steady. -/
theorem Stops.serve_stopped (h : b.Stops) {reason : StopReason} (hstop : b.stopReason = some reason)
    (hsteady : b.Steady sizes) : b.serve sizes = ([], b) := by
  induction sizes with
  | nil => rfl
  | cons n sizes ih =>
    have hstay := h.stay hstop hsteady
    have hrest := hsteady.2
    rw [hstay] at hrest
    simp only [CaptureBudget.serve, hstay, ih hrest]
    rfl

/-- The packets and bytes that are accepted are within the limits. If the calls are steady, then a budget
that stopped accepts nothing and keeps its reason. -/
theorem budget_stays_stopped (maxPackets maxBytes : Nat) (earlier later : List Nat) :
    let start : CaptureBudget := { maxPackets, maxBytes }
    let (accepted, b) := start.serve earlier
    (0 < maxPackets → accepted.length ≤ maxPackets) ∧ (0 < maxBytes → accepted.sum ≤ maxBytes) ∧
      (start.Steady (earlier ++ later) → (b.done = true → (b.serve later).1 = []) ∧
        ∀ reason, b.stopReason = some reason → (b.serve later).2.stopReason = some reason) := by
  intro start
  have hwithin : start.Within := ⟨fun _ => Nat.zero_le _, fun _ => Nat.zero_le _⟩
  have hlimits := @Within.serve start earlier hwithin
  rw [Nat.zero_add, Nat.zero_add] at hlimits
  refine ⟨hlimits.1, hlimits.2, fun hsteady => ?_⟩
  obtain ⟨hearlier, hlater⟩ := steady_append.mp hsteady
  have hstops : (start.serve earlier).2.Stops := Stops.serve ⟨rfl, nofun, nofun⟩ hearlier
  refine ⟨fun hdone => ?_, fun reason hstop => ?_⟩
  · obtain ⟨reason, hstop⟩ := Option.isSome_iff_exists.mp (hstops.done.symm.trans hdone)
    rw [hstops.serve_stopped hstop hlater]
  · rw [hstops.serve_stopped hstop hlater, hstop]

/-- A packet of 60 bytes is refused where 40 are left, and closes `Done`. One of 40 bytes is accepted
then, and the reason changes. -/
theorem stopped_budget_accepts :
    let b : CaptureBudget := { maxPackets := 2, maxBytes := 100 }
    (b.serve [60, 60]).2.done = true ∧ (b.serve [60, 60]).2.stopReason = some .maxBytes ∧ b.serve [60, 60, 40] =
        ([60, 40], { b with packets := 2, bytes := 100, done := true, stopReason := some .maxPackets }) := by
  decide

end CaptureBudget

end C2Hunter
