import Mathlib.Analysis.SpecialFunctions.Log.Base
import Mathlib.Analysis.SpecialFunctions.Log.NegMulLog

/-!
# Entropy of a finite distribution

The entropy in bits of how often each outcome was counted. It is not negative, and uniform counts
have the largest: the logarithm of the number of outcomes.
-/

namespace C2Hunter.Shannon

open Finset

variable {ι : Type} [Fintype ι]

/-- The share of an outcome. -/
noncomputable def share (counts : ι → ℕ) (i : ι) : ℝ := counts i / ∑ j, (counts j : ℝ)

/-- The entropy of counts, in bits. An outcome that was not counted adds nothing. -/
noncomputable def entropy (counts : ι → ℕ) : ℝ :=
  ∑ i, -(share counts i * Real.logb 2 (share counts i))

variable {counts : ι → ℕ}

theorem share_nonneg (i : ι) : 0 ≤ share counts i := by
  unfold share
  positivity

theorem share_le_one (i : ι) : share counts i ≤ 1 :=
  div_le_one_of_le₀ (single_le_sum (fun j _ => Nat.cast_nonneg (counts j)) (mem_univ i)) (by positivity)

theorem sum_share (h : ∑ j, (counts j : ℝ) ≠ 0) : ∑ i, share counts i = 1 := by
  unfold share
  rw [← sum_div, div_self h]

/-- The entropy through the function whose concavity Mathlib knows. -/
theorem entropy_eq : entropy counts = (∑ i, (share counts i).negMulLog) / Real.log 2 := by
  rw [entropy, sum_div]
  refine sum_congr rfl fun i _ => ?_
  rw [Real.negMulLog, Real.logb]
  ring

theorem entropy_nonneg : 0 ≤ entropy counts := by
  rw [entropy_eq]
  have hlog : 0 < Real.log 2 := Real.log_pos (by norm_num)
  have hsum : 0 ≤ ∑ i, (share counts i).negMulLog :=
    sum_nonneg fun i _ => Real.negMulLog_nonneg (share_nonneg i) (share_le_one i)
  positivity

/-- The entropy is at most the logarithm of the number of outcomes. -/
theorem entropy_le [Nonempty ι] (h : ∑ j, (counts j : ℝ) ≠ 0) : entropy counts ≤ Real.logb 2 (Fintype.card ι) := by
  have hcard : (0 : ℝ) < Fintype.card ι := Nat.cast_pos.mpr Fintype.card_pos
  -- Jensen's inequality at equal weights.
  have hjensen := Real.concaveOn_negMulLog.le_map_sum (t := univ) (w := fun _ : ι => (1 : ℝ) / Fintype.card ι)
    (p := share counts) (fun _ _ => by positivity) (by simp [hcard.ne']) (fun i _ => share_nonneg i)
  simp only [smul_eq_mul, ← mul_sum, sum_share h, mul_one] at hjensen
  have hright : Real.negMulLog (1 / Fintype.card ι) = (1 / Fintype.card ι) * Real.log (Fintype.card ι) := by
    rw [Real.negMulLog, one_div, Real.log_inv]
    ring
  rw [hright] at hjensen
  have hsum := le_of_mul_le_mul_left hjensen (by positivity)
  rw [entropy_eq, Real.logb]
  exact div_le_div_of_nonneg_right hsum (Real.log_nonneg (by norm_num))

end C2Hunter.Shannon
