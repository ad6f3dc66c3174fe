import C2Hunter.Outcome
import Mathlib.Tactic.Linarith

/-!
# Failures and limits of a DDoS analysis
-/

namespace C2Hunter.Ddos

/-- What an analysis raises. -/
inductive Failure where
  /-- `InvalidRecord`, which the loop over the records catches -/
  | invalidRecord (message : String)
  | valueError (message : String)
  /-- an integer that no float holds -/
  | overflowError
  deriving DecidableEq, Repr

/-! ## Limits -/

/-- `MAX_SAMPLES_FLOW`. -/
def maxSamplesFlow : Nat := 16

end C2Hunter.Ddos
