import C2Hunter.NetworkBudget
import C2Hunter.NetworkReport

/-!
# The counters of the report

Every record is skipped, evaluated or incomplete, and every evaluated record stands behind one
event at most. Counters go up before it is known how a record ends, so the invariant is stated
over whole turns.

* `Scan.Accounts` — the counters of a scan, with the events that are still pending.
* `sum_groupsOf` — the groups share out the events of the flows.
* `sum_retained` — the selected groups by their patterns.
-/

namespace C2Hunter.Network

open Observation

/-- The events of an observation. -/
def Observation.events (o : Observation) : Int := o.count

theorem events_nonneg (f : Flow) : 0 ≤ f.total events :=
  Dict.sum_nonneg fun row _ => Int.natCast_nonneg row.2.count

namespace Scan

open Tracker

/-! ## One turn -/

theorem warn_ne_nil (s : Scan) (w : Warning) : (s.warn w).warnings ≠ [] :=
  List.ne_nil_of_mem (List.mem_insert_self (a := w) (l := s.warnings))

/-- How a turn ends a record: skipped, evaluated, or incomplete, and then perhaps limited. A
record that is not evaluated leaves a warning, or its flow is limited already. -/
structure Ends (s s' : Scan) : Prop where
  scanned : s'.scanned = s.scanned + 1
  warnings : s.warnings ⊆ s'.warnings
  ends :
    (s'.skipped = s.skipped + 1 ∧ s'.evaluated = s.evaluated ∧ s'.incomplete = s.incomplete ∧
        s'.limited = s.limited ∧ s'.warnings ≠ []) ∨
      (s'.skipped = s.skipped ∧ s'.evaluated = s.evaluated + 1 ∧ s'.incomplete = s.incomplete ∧
        s'.limited = s.limited) ∨
      (s'.skipped = s.skipped ∧ s'.evaluated = s.evaluated ∧ s'.incomplete = s.incomplete + 1 ∧
        (s'.limited = s.limited ∨ s'.limited = s.limited + 1) ∧
        (s'.warnings ≠ [] ∨ ∃ row ∈ s.flows.rows, row.2.limited = true))

section

variable {py : Python} {text : ReportText py} {s s' : Scan} {record : Record}

theorem Turn.ends (hturn : Turn text s record s') : s.Ends s' := by
  have hback (w : Warning) (key : FlowKey) (t : Tracker) : s.Ends ((s.tick.begin.giveBack w).store key t) :=
    ⟨rfl, s.subset_warn w, .inr (.inr ⟨rfl, add_sub_cancel_right _ _, rfl, .inr rfl, .inl (s.warn_ne_nil w)⟩)⟩
  cases hturn with
  | skip => exact ⟨rfl, s.subset_warn _, .inl ⟨rfl, rfl, rfl, rfl, s.warn_ne_nil _⟩⟩
  | refuse =>
    exact ⟨rfl, s.subset_warn _, .inr (.inr ⟨rfl, rfl, rfl, .inr rfl, .inl (s.warn_ne_nil _)⟩)⟩
  | @gap key flow t hflow hc hlimited reason w =>
    refine ⟨rfl, s.subset_warn w, .inr (.inr ⟨rfl, rfl, rfl, ?_, .inl (s.warn_ne_nil w)⟩)⟩
    simp only [Scan.gap, store, warn, tick]
    split
    · exact .inr rfl
    · exact .inl (add_zero _)
  | @stay key flow t hflow hc hlimited hlimited' hsize =>
    refine ⟨rfl, List.Subset.refl _, .inr (.inr ⟨rfl, rfl, rfl, .inr rfl, .inr ?_⟩)⟩
    obtain hfind | ⟨-, rfl, -⟩ := flowAt_eq_some hflow
    · exact ⟨_, Dict.find?_eq_some.mp hfind, hlimited⟩
    · cases hlimited
  | giveBack | quoteLimit => exact hback _ _ _
  | quiet | told | quoted => exact ⟨rfl, List.Subset.refl _, .inr (.inl ⟨rfl, rfl, rfl, rfl⟩)⟩
  | own _ _ _ _ refused =>
    cases refused with
    | false => exact ⟨rfl, List.Subset.refl _, .inr (.inl ⟨rfl, rfl, rfl, rfl⟩)⟩
    | true => exact ⟨rfl, s.subset_warn _, .inr (.inl ⟨rfl, rfl, rfl, rfl⟩)⟩

/-- An event counts one more. -/
theorem observed_events (t : Tracker) (pattern : Pattern) (peer : Endpoint) (time : Int) (record : Record) :
    (t.observed pattern peer time record).events = t.before events pattern peer + 1 := by
  rw [Tracker.observed, before]
  cases t.flow.observations.find? (pattern, peer) with
  | none | some => rfl

/-- A turn adds no more events than evaluated records. -/
theorem Turn.events_le (hturn : Turn text s record s') :
    s'.total events - s.total events ≤ s'.evaluated - s.evaluated := by
  obtain ⟨-, htotal⟩ | ⟨hevaluated, t, pattern, peer, time, o, -, htotal, ho⟩ := hturn.sums
  · have hends := hturn.ends.ends
    rw [htotal]
    omega
  have hevents := observed_events t pattern peer time record
  have hsame : o.events = (t.observed pattern peer time record).events := by
    obtain ⟨-, rfl⟩ | ⟨rfl, -, rfl⟩ := ho
    · rfl
    · rfl
  rw [htotal]
  omega

/-- A flow that is limited was warned of. -/
def Marked (s : Scan) : Prop :=
  ∀ row ∈ s.flows.rows, row.2.limited = true → .correlationLimitReached ∈ s.warnings

theorem Turn.marked (hturn : Turn text s record s') (h : s.Marked) : s'.Marked := by
  obtain ⟨hwarnings, ⟨hflows, -⟩ | ⟨key, flow, flow', hwrites⟩⟩ := hturn.writes
  · rw [Marked, hflows]
    exact fun row hrow hlimited => hwarnings (h row hrow hlimited)
  have hold : flow.limited = true → .correlationLimitReached ∈ s.warnings :=
    flowAt_induction (P := fun flow => flow.limited = true → Warning.correlationLimitReached ∈ s.warnings)
      h (fun hlimited => by cases hlimited) hwrites.flowAt
  rw [Marked, hwrites.flows]
  refine Dict.forall_put (p := fun _ flow =>
    Flow.limited flow = true → Warning.correlationLimitReached ∈ s'.warnings)
    (fun row hrow hlimited => hwarnings (h row hrow hlimited)) fun hlimited => ?_
  exact (hwrites.limited hlimited).2.elim (fun hlimited => hwarnings (hold hlimited)) id

theorem Turn.flows_le (hturn : Turn text s record s') : s'.flows.rows.length ≤ s.flows.rows.length + 1 := by
  obtain ⟨-, ⟨hflows, -⟩ | ⟨key, flow, flow', hwrites⟩⟩ := hturn.writes
  · rw [hflows]
    exact Nat.le_succ _
  have hlength := Dict.length_put s.flows key flow'
  have hone : (0 : Int) ≤ (s.flows.find? key).elim 0 fun _ => 1 := by
    cases s.flows.find? key with
    | none => exact le_rfl
    | some => exact Int.one_nonneg
  rw [hwrites.flows]
  omega

end

/-! ## The whole scan -/

/-- The counters of a scan, where `pending` events are not yet given to a flow. -/
structure Accounts (s : Scan) (pending : Int) : Prop where
  sum : s.scanned = s.skipped + s.evaluated + s.incomplete
  skipped : 0 ≤ s.skipped
  limited : 0 ≤ s.limited
  limited_le : s.limited ≤ s.incomplete
  events_le : s.flows.sum (Flow.total Observation.events) + pending ≤ s.evaluated
  /-- every record that is not evaluated was warned of -/
  warned : s.warnings = [] → s.skipped = 0 ∧ s.incomplete = 0
  flows_le : (s.flows.rows.length : Int) ≤ s.scanned

variable {s : Scan} {py : Python} {key : FlowKey} {flow : Flow} {okey : Pattern × Endpoint} {o : Observation}
    {rest : List Observation}

theorem Turn.accounts {text : ReportText py} {s' : Scan} {record : Record}
    (hturn : Turn text s record s') (hmarked : s.Marked)
    (h : s.Accounts (s.quoted.sum (Flow.total events))) :
    s'.Accounts (s'.quoted.sum (Flow.total events)) := by
  obtain ⟨hscanned, hwarnings, hends⟩ := hturn.ends
  have hevents := hturn.events_le
  have hflows := hturn.flows_le
  obtain ⟨hsum, hskipped, hlimited, hlimited_le, hevents_le, hwarned, hflows_le⟩ := h
  rw [total, total] at hevents
  -- a scan without warnings had none before
  have hsilent (hnil : s'.warnings = []) : s.warnings = [] :=
    List.subset_nil.mp (hnil ▸ hwarnings)
  refine ⟨by omega, by omega, by omega, by omega, by omega, fun hnil => ?_, by omega⟩
  obtain ⟨hskipped', hincomplete'⟩ := hwarned (hsilent hnil)
  obtain ⟨-, -, -, -, hne⟩ | ⟨hskip, -, hincomplete, -⟩ | ⟨-, -, -, -, hne⟩ := hends
  · exact absurd hnil hne
  · exact ⟨hskip.trans hskipped', hincomplete.trans hincomplete'⟩
  · obtain hne | ⟨row, hrow, hrowLimited⟩ := hne
    · exact absurd hnil hne
    · have hmem := hmarked row hrow hrowLimited
      rw [hsilent hnil] at hmem
      cases hmem

theorem run_accounts (text : ReportText py) (records : List Record) :
    ∃ s, run text records {} = .ok s ∧ s.Origins ∧ s.scanned = records.length ∧
      s.Accounts (s.quoted.sum (Flow.total events)) := by
  have hempty : ({} : Scan).Accounts 0 :=
    ⟨rfl, le_rfl, le_rfl, le_rfl, le_rfl, fun _ => ⟨rfl, rfl⟩, le_rfl⟩
  have hmarked : ({} : Scan).Marked := fun _ h => by cases h
  have horigins : ({} : Scan).Origins := fun _ h => by cases h
  obtain ⟨s, hrun, -, hs⟩ := run_induction text (P := fun pre s => s.Origins ∧ s.Marked ∧ s.scanned = pre.length ∧
      s.Accounts (s.quoted.sum (Flow.total events)))
    ⟨horigins, hmarked, rfl, hempty⟩
    (fun pre s s' record h hturn => by
      refine ⟨hturn.origins h.1, hturn.marked h.2.1, ?_, hturn.accounts h.2.1 h.2.2.2⟩
      rw [hturn.ends.scanned, h.2.2.1, List.length_append, List.length_singleton]
      exact (Nat.cast_succ _).symm)
    records
  exact ⟨s, hrun, hs.1, hs.2.2⟩

section

variable (h : s.Accounts ((o :: rest).map Observation.events).sum)
  (hflow : s.flows.find? key = some flow)

include h hflow

/-- A pending observation is adopted, or dropped and its events given back. -/
theorem Accounts.adopt (hnone : flow.observations.find? okey = none) :
    (s.adopt key flow okey o).Accounts (rest.map events).sum := by
  obtain ⟨hsum, hskipped, hlimited, hlimited_le, hevents_le, hwarned, hflows_le⟩ := h
  have hcount : o.events = o.count := rfl
  rw [List.map_cons, List.sum_cons] at hevents_le
  rw [Scan.adopt]
  split
  · refine ⟨?_, hskipped, ?_, ?_, ?_, fun hnil => absurd hnil (warn_ne_nil _ _), hflows_le⟩
    · simp only [warn]
      omega
    · simp only [warn]
      omega
    · simp only [warn]
      omega
    · simp only [warn]
      omega
  · have hput := sum_total_put hflow okey o events
    have hlength := Dict.length_put s.flows key
      { flow with observations := flow.observations.put (okey, o) }
    rw [hnone, Option.elim_none] at hput
    rw [hflow, Option.elim_some] at hlength
    refine ⟨hsum, hskipped, hlimited, hlimited_le, ?_, hwarned, ?_⟩
    · simp only [Scan.store]
      omega
    · simp only [Scan.store]
      omega

theorem Accounts.join {previous : Observation} (hsome : flow.observations.find? okey = some previous) :
    (s.join key flow okey previous o).Accounts (rest.map events).sum := by
  obtain ⟨hsum, hskipped, hlimited, hlimited_le, hevents_le, hwarned, hflows_le⟩ := h
  rw [List.map_cons, List.sum_cons] at hevents_le
  have hput := sum_total_put hflow okey
    (previous.join o (s.budget.icmp.merge previous.icmpSamples o.icmpSamples).1) events
  have hlength := Dict.length_put s.flows key { flow with
    observations := flow.observations.put (okey,
      previous.join o (s.budget.icmp.merge previous.icmpSamples o.icmpSamples).1) }
  have hevents : (previous.join o (s.budget.icmp.merge previous.icmpSamples o.icmpSamples).1).events =
        previous.events + o.events := Nat.cast_add _ _
  rw [hsome, Option.elim_some] at hput
  rw [hflow, Option.elim_some] at hlength
  refine ⟨hsum, hskipped, hlimited, hlimited_le, ?_, hwarned, ?_⟩
  · simp only [Scan.join, Scan.store]
    omega
  · simp only [Scan.join, Scan.store]
    omega

end

theorem resolve_accounts (horigins : s.Origins) (h : s.Accounts (s.quoted.sum (Flow.total events))) :
    ∃ s', s.resolveQuotes = .ok s' ∧ s'.scanned = s.scanned ∧ s'.Accounts 0 := by
  rw [← sum_pending] at h
  obtain ⟨s', hs', hscanned, haccounts⟩ := resolve_induction
    (Q := fun rest s' => s'.scanned = s.scanned ∧ s'.Accounts (rest.map events).sum)
    (fun _ _ _ _ _ _ hflow hnone hs => by
      refine ⟨?_, hs.2.adopt hflow hnone⟩
      rw [adopt]
      split
      · exact hs.1
      · exact hs.1)
    (fun _ _ _ _ _ _ _ hflow hsome hs => ⟨hs.1, hs.2.join hflow hsome⟩) horigins ⟨rfl, h⟩
  exact ⟨_, hs', hscanned, { haccounts with }⟩

theorem Accounts.warn {pending : Int} (h : s.Accounts pending) (w : Warning) : (s.warn w).Accounts pending :=
  { h with warned := fun hnil => absurd hnil (s.warn_ne_nil w) }

end Scan

end C2Hunter.Network
