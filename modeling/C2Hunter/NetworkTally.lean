import C2Hunter.NetworkScan
import Mathlib.Algebra.Tropical.Basic

/-!
# Tallies

What an observation says about its events: how many there were, and when the first and the last
one was. Tallies add up: numbers by addition, first times by minimum and last times by maximum, so
that a sum does not depend on the order of its terms. The first times are tropical numbers, and
the last times tropical numbers of the opposite order.

* `Tally`, `Observation.tally` — the tally of an observation.
* `tally_again`, `tally_join` — one event more, and two observations together.
* `Flow.tallies` — the observations of a flow by their tallies.
-/

namespace C2Hunter.Network

/-- A number of events with the times of the first and the last. -/
abbrev Tally : Type := ℕ × Tropical (WithTop ℤ) × Tropical (WithTop ℤᵒᵈ)

/-- The tally of events. -/
def tallyOf (count : Nat) (first last : Int) : Tally :=
  (count, Tropical.trop (first : WithTop ℤ),
    Tropical.trop ((OrderDual.toDual last : ℤᵒᵈ) : WithTop ℤᵒᵈ))

theorem tallyOf_inj {count count' : Nat} {first last first' last' : Int} :
    tallyOf count first last = tallyOf count' first' last' ↔ count = count' ∧ first = first' ∧ last = last' := by
  simp only [tallyOf, Prod.mk.injEq, Tropical.trop_inj_iff, WithTop.coe_inj, OrderDual.toDual_inj]

theorem tallyOf_add (count count' : Nat) (first last first' last' : Int) :
    tallyOf count first last + tallyOf count' first' last' =
      tallyOf (count + count') (min first first') (max last last') := by
  simp only [tallyOf, Prod.mk_add_mk, ← Tropical.trop_min, ← WithTop.coe_min, ← toDual_max]

/-- The tally of an observation. -/
def Observation.tally (o : Observation) : Tally := tallyOf o.count o.first o.last

theorem tally_again (o : Observation) (time : Int) : (o.again time).tally = o.tally + tallyOf 1 time time := by
  rw [Observation.tally, Observation.tally, tallyOf_add]
  rfl

theorem tally_join (previous o : Observation) (samples : List Retained) :
    (previous.join o samples).tally = previous.tally + o.tally := by
  rw [Observation.tally, Observation.tally, Observation.tally, tallyOf_add]
  rfl

/-- The observations of a flow by their tallies. -/
def Flow.tallies (f : Flow) : Dict (Pattern × Endpoint) Tally :=
  f.observations.mapValues Observation.tally

section Observe

variable {py : Python} (text : ReportText py)

/-- The tally of a kind of observation after an event. -/
def Flow.tallyWith (f : Flow) (kind : Pattern × Endpoint) (time : Int) : Tally :=
  (f.tallies.find? kind).getD 0 + tallyOf 1 time time

section

variable (t : Tracker) (pattern : Pattern) (peer : Endpoint) (time : Int) (record : Record)

theorem tally_observed : (t.observed pattern peer time record).tally = t.flow.tallyWith (pattern, peer) time := by
  rw [Tracker.observed, Flow.tallyWith, Flow.tallies, Dict.find?_mapValues]
  cases t.flow.observations.find? (pattern, peer) with
  | none => exact (zero_add _).symm
  | some previous => exact tally_again previous time

/-- An event changes the tally of its kind. -/
theorem tallies_observe : (t.observe text pattern peer time record).flow.tallies =
      t.flow.tallies.put ((pattern, peer), t.flow.tallyWith (pattern, peer) time) := by
  have hobserved := tally_observed t pattern peer time record
  rw [Tracker.observe]
  simp only
  split
  · rw [Flow.tallies, Dict.mapValues_put, ← hobserved]
    rfl
  · rw [Flow.tallies, Dict.mapValues_put, ← hobserved]
    rfl

end

end Observe

end C2Hunter.Network
