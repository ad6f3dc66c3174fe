import C2Hunter.NetworkFigures
import C2Hunter.NetworkPublish
import C2Hunter.NetworkReaction

/-!
# Findings do not depend on initial sequence numbers

Two scans in lockstep: one of the records as they are, and one of the records with the numbers of
each side of each TCP flow moved around the circle. Both scans have the same flows in the same
order, the same tallies, counters and warnings.

* `rebaseRecord` — a record with its numbers moved.
* `Scan.Rebased` — the two scans; `Scan.step_rebased`, `Scan.collect_rebased`.
* `findings_rebase` — the report.

Only 32-bit numbers are moved. A number outside that range makes its record incomplete, and
reducing it modulo `2^32` would change that.
-/

namespace C2Hunter.Network

open Option

/-! ## Records -/

/-- The value of a field under another origin. -/
def rebaseValue (own peer : Int) (name : String) (value : Obj) : Obj :=
  if name = "tcp_sequence" then value.rebase own
  else if name = "tcp_acknowledgment" then value.rebase peer
  else value

/-- A TCP record with its numbers moved; another record stays as it is. -/
def rebaseRecord (py : Python) (δ : FlowKey → Bool → Int) (record : Record) : Record :=
  match identity py record with
  | none => record
  | some id =>
    if id.key.protocol = "TCP" then
      record.map fun field =>
        (field.1, rebaseValue (δ id.key id.direction) (δ id.key !id.direction) field.1 field.2)
    else record

/-- A field of a moved record. -/
theorem getD_rebase (own peer : Int) (record : Record) (name : String) {default : Obj}
    (hdefault : rebaseValue own peer name default = default) :
    Record.getD (record.map fun field => (field.1, rebaseValue own peer field.1 field.2)) name
      default = rebaseValue own peer name (record.getD name default) := by
  rw [Record.getD, List.find?_map, map_map, Record.getD]
  have hcomp : (fun field : String × Obj => decide (field.1 = name)) ∘
      (fun field : String × Obj => (field.1, rebaseValue own peer field.1 field.2)) =
      fun field => decide (field.1 = name) := rfl
  rw [hcomp]
  cases hfind : record.find? fun field => decide (field.1 = name) with
  | none => exact hdefault.symm
  | some field =>
    have hname : field.1 = name := by simpa using List.find?_some hfind
    simp only [map_some, getD_some, Function.comp_apply, hname]

section Records

variable {py : Python} (δ : FlowKey → Bool → Int)

theorem getD_rebaseRecord (record : Record) {name : String} (hseq : name ≠ "tcp_sequence")
    (hack : name ≠ "tcp_acknowledgment") (default : Obj) :
    (rebaseRecord py δ record).getD name default = record.getD name default := by
  rw [rebaseRecord]
  split
  · rfl
  split
  · have hvalue (own peer : Int) (value : Obj) : rebaseValue own peer name value = value := by
      rw [rebaseValue, if_neg hseq, if_neg hack]
    rw [getD_rebase _ _ record name (hvalue _ _ default), hvalue]
  · rfl

/-- A record keeps its identity. -/
theorem identity_rebaseRecord (record : Record) : identity py (rebaseRecord py δ record) = identity py record := by
  have hget (name : String) (hseq : name ≠ "tcp_sequence") (hack : name ≠ "tcp_acknowledgment") :
      (rebaseRecord py δ record).get name = record.get name :=
    getD_rebaseRecord δ record hseq hack _
  have hcount : (rebaseRecord py δ record).getD "packet_count" (.int 1) =
      record.getD "packet_count" (.int 1) := getD_rebaseRecord δ record (by decide) (by decide) _
  have hbytes : (rebaseRecord py δ record).getD "total_bytes" (.int 0) =
      record.getD "total_bytes" (.int 0) := getD_rebaseRecord δ record (by decide) (by decide) _
  rw [identity, identity, hget "sensor_id" (by decide) (by decide),
    hget "protocol" (by decide) (by decide), hget "capture_interface_id" (by decide) (by decide),
    hget "source_ip" (by decide) (by decide), hget "source_port" (by decide) (by decide),
    hget "destination_ip" (by decide) (by decide), hget "destination_port" (by decide) (by decide),
    hget "timestamp" (by decide) (by decide),
    hcount, hbytes]

/-- The arrival of a moved record is the moved arrival. -/
theorem arrival_rebaseRecord {record : Record} {id : Identity} (hid : identity py record = some id) :
    Arrival.Moved (δ id.key) ⟨id.key, id.direction, id.time, record⟩
      ⟨id.key, id.direction, id.time, rebaseRecord py δ record⟩ where
  key := rfl
  direction := rfl
  time := rfl
  others _ hseq hack default := getD_rebaseRecord δ record hseq hack default
  sequence hprotocol := by
    simp only [rebaseRecord, hid]
    rw [if_pos (by exact hprotocol)]
    exact getD_rebase _ _ record "tcp_sequence" rfl
  acknowledgment hprotocol := by
    simp only [rebaseRecord, hid]
    rw [if_pos (by exact hprotocol)]
    exact getD_rebase _ _ record "tcp_acknowledgment" rfl
  same hprotocol := by
    simp only [rebaseRecord, hid]
    exact if_neg hprotocol

theorem isSome_intIn_rebase (d : Int) (value : Obj) :
    ((value.rebase d).intIn 0 (2 ^ 32 - 1)).isSome = (value.intIn 0 (2 ^ 32 - 1)).isSome := by
  cases value with
  | int n =>
    have hrange := rebase_inRange d n
    have hmodulus : modulus = 2 ^ 32 := rfl
    have hiff : (0 ≤ rebase d n ∧ rebase d n ≤ 2 ^ 32 - 1) ↔ (0 ≤ n ∧ n ≤ 2 ^ 32 - 1) := by
      rw [hmodulus] at hrange
      omega
    simp only [Obj.rebase, Obj.intIn, Obj.int?, isSome_filter, any_some, decide_eq_decide]
    exact hiff
  | _ => rfl

/-- A record stays complete, or incomplete. -/
theorem complete_rebaseRecord {record : Record} {id : Identity} (hid : identity py record = some id) :
    complete (rebaseRecord py δ record) id.key.protocol = complete record id.key.protocol := by
  have hmoved := arrival_rebaseRecord δ hid
  have hget (name : String) (hseq : name ≠ "tcp_sequence") (hack : name ≠ "tcp_acknowledgment") :
      (rebaseRecord py δ record).get name = record.get name :=
    getD_rebaseRecord δ record hseq hack _
  have hwhole : wholePacket (rebaseRecord py δ record) = wholePacket record := by
    have hcount : (rebaseRecord py δ record).getD "packet_count" (.int 1) =
        record.getD "packet_count" (.int 1) := getD_rebaseRecord δ record (by decide) (by decide) _
    rw [wholePacket, wholePacket, hget "packet_evidence_complete" (by decide) (by decide), hcount]
  have hpayload : completePayload (rebaseRecord py δ record) = completePayload record := by
    rw [completePayload, completePayload, hget "transport_payload_length" (by decide) (by decide),
      hget "payload_hash" (by decide) (by decide)]
  have hicmp : completeIcmp (rebaseRecord py δ record) = completeIcmp record := by
    rw [completeIcmp, completeIcmp, hget "icmp_type" (by decide) (by decide),
      hget "icmp_code" (by decide) (by decide)]
  have htcp : id.key.protocol = "TCP" → completeTcp (rebaseRecord py δ record) = completeTcp record := by
    intro hprotocol
    rw [completeTcp, completeTcp, hget "tcp_flags" (by decide) (by decide),
      hget "tcp_window" (by decide) (by decide), hmoved.sequence hprotocol,
      hmoved.acknowledgment hprotocol, isSome_intIn_rebase, isSome_intIn_rebase]
  by_cases hprotocol : id.key.protocol = "TCP"
  · rw [complete, complete, hwhole, hpayload, hicmp, htcp hprotocol]
  · rw [complete, complete, hwhole, hpayload, hicmp, decide_eq_decide]
    simp only [hprotocol, false_imp_iff]

end Records

/-! ## Scans -/

namespace Scan

/-- A scan, and a scan of the records under another origin. -/
structure Rebased (δ : FlowKey → Bool → Int) (s s' : Scan) : Prop where
  flows : Dict.Rel (fun key f g => f.Moved (δ key) g) s.flows s'.flows
  quoted : Dict.Rel (fun _ f g => g.tallies = f.tallies) s.quoted s'.quoted
  correlations : s'.budget.correlations = s.budget.correlations
  scanned : s'.scanned = s.scanned
  skipped : s'.skipped = s.skipped
  incomplete : s'.incomplete = s.incomplete
  evaluated : s'.evaluated = s.evaluated
  limited : s'.limited = s.limited
  warnings : s'.warnings = s.warnings

section Rebased

variable {py : Python} (text : ReportText py) {δ : FlowKey → Bool → Int} {s s' : Scan}

section

variable (h : s.Rebased δ s')

include h

theorem Rebased.warn (w : Warning) : (s.warn w).Rebased δ (s'.warn w) :=
  { h with warnings := congrArg (List.insert w) h.warnings }

theorem Rebased.skip : s.skip.Rebased δ s'.skip :=
  { h with
    skipped := congrArg (· + 1) h.skipped
    warnings := congrArg (List.insert _) h.warnings }

theorem Rebased.drop : s.drop.Rebased δ s'.drop :=
  { h with
    incomplete := congrArg (· + 1) h.incomplete
    limited := congrArg (· + 1) h.limited }

/-- A key has a flow in both, or in neither. -/
theorem Rebased.flowAt (key : FlowKey) : (s.flowAt key = none ∧ s'.flowAt key = none) ∨
      ∃ f g, s.flowAt key = some f ∧ s'.flowAt key = some g ∧ f.Moved (δ key) g := by
  rw [Scan.flowAt, Scan.flowAt, h.flows.length_eq]
  obtain ⟨hnone, hnone'⟩ | ⟨f, g, hf, hg, hmoved⟩ := h.flows.find? key
  · rw [hnone, hnone']
    simp only
    split
    · exact .inl ⟨rfl, rfl⟩
    · exact .inr ⟨_, _, rfl, rfl, .fresh _⟩
  · rw [hf, hg]
    exact .inr ⟨f, g, rfl, rfl, hmoved⟩

theorem Rebased.pendingAt (key : FlowKey) : PendingMoved True (fun target => s.pendingAt (target, key))
      fun target => s'.pendingAt (target, key) := by
  have hpending (target : FlowKey) : (s.pendingAt (target, key) = none ∧ s'.pendingAt (target, key) = none) ∨
        ∃ f g, s.pendingAt (target, key) = some f ∧ s'.pendingAt (target, key) = some g ∧
          g.tallies = f.tallies := by
    rw [Scan.pendingAt, Scan.pendingAt, h.quoted.length_eq]
    obtain ⟨hnone, hnone'⟩ | ⟨f, g, hf, hg, htallies⟩ := h.quoted.find? (target, key)
    · rw [hnone, hnone']
      simp only
      split
      · exact .inl ⟨rfl, rfl⟩
      · exact .inr ⟨_, _, rfl, rfl, rfl⟩
    · rw [hf, hg]
      exact .inr ⟨f, g, rfl, rfl, htallies⟩
  constructor
  · intro _ target
    obtain ⟨hnone, hnone'⟩ | ⟨f, g, hf, hg, -⟩ := hpending target
    · simp only [hnone, hnone']
    · simp only [hf, hg, isSome_some]
  · intro target x y hx hy
    obtain ⟨hnone, -⟩ | ⟨f, g, hf, hg, htallies⟩ := hpending target
    · rw [hx] at hnone
      cases hnone
    · cases hx.symm.trans hf
      cases hy.symm.trans hg
      exact htallies

theorem Rebased.record {key : FlowKey} {r r' : Reaction} (hr : r.Moved True (δ key) r') :
    (s.record key r).Rebased δ (s'.record key r') where
  flows := h.flows.put hr.flow
  quoted := by
    have hpending := hr.pending
    rw [Scan.record, Scan.record]
    cases hx : r.pending with
    | none =>
      rw [hx, map_none, map_eq_none_iff] at hpending
      rw [hpending]
      exact h.quoted
    | some =>
      rw [hx, map_some, map_eq_some_iff] at hpending
      obtain ⟨row', hy, heq⟩ := hpending
      rw [Prod.mk.injEq] at heq
      rw [hy]
      simp only [elim_some, heq.1]
      exact h.quoted.put heq.2
  correlations := hr.budget trivial
  scanned := h.scanned
  skipped := h.skipped
  incomplete := by simp only [Scan.record, h.incomplete, hr.ending]
  evaluated := by simp only [Scan.record, h.evaluated, hr.ending]
  limited := by simp only [Scan.record, h.limited, hr.ending]
  warnings := by simp only [Scan.record, h.warnings, hr.warnings]

end

variable {t t' : Scan}

/-- One turn of the loop in both scans. -/
theorem step_rebased (h : s.Rebased δ s') {record : Record} (ht : s.step text record = .ok t)
    (ht' : s'.step text (rebaseRecord py δ record) = .ok t') : t.Rebased δ t' := by
  have htick : s.tick.Rebased δ s'.tick := { h with scanned := congrArg (· + 1) h.scanned }
  have hidentity : identity py (rebaseRecord py δ record) = identity py record :=
    identity_rebaseRecord δ record
  cases hid : identity py record with
  | none =>
    rw [step, hid] at ht
    rw [step, hidentity, hid] at ht'
    cases ht
    cases ht'
    exact htick.skip
  | some id =>
    obtain ⟨hnone, hnone'⟩ | ⟨f, g, hf, hg, hmoved⟩ := h.flowAt id.key
    · have hflow : s.tick.flowAt id.key = none := hnone
      have hflow' : s'.tick.flowAt id.key = none := hnone'
      rw [step, hid] at ht
      rw [step, hidentity, hid] at ht'
      simp only [hflow, hflow'] at ht ht'
      cases ht
      cases ht'
      exact htick.drop.warn _
    · rw [step_eq text s hid hf] at ht
      rw [step_eq text s' (hidentity.trans hid) hg] at ht'
      obtain ⟨r, hr, rfl⟩ := Except.map_eq_ok.mp ht
      obtain ⟨r', hr', rfl⟩ := Except.map_eq_ok.mp ht'
      exact htick.record (react_moved text hmoved (fun _ => h.correlations)
        (arrival_rebaseRecord δ hid) (h.pendingAt id.key) (complete_rebaseRecord δ hid) hr hr'
        (.inl trivial))

theorem Rebased.store (h : s.Rebased δ s') {key : FlowKey} {t u : Tracker}
    (hmoved : t.Moved True (δ key) u) : (s.store key t).Rebased δ (s'.store key u) :=
  { h with flows := h.flows.put hmoved.flow, correlations := hmoved.budget trivial }

/-- A flow and its moved copy after observations of the same tally. -/
theorem moved_put {d : Bool → Int} {f g : Flow} (h : f.Moved d g) {kind : Pattern × Endpoint}
    {o o' : Observation} (ho : o'.tally = o.tally) :
    Flow.Moved d { f with observations := f.observations.put (kind, o) }
      { g with observations := g.observations.put (kind, o') } := by
  refine { h with tallies := ?_ }
  rw [Flow.tallies, Flow.tallies, Dict.mapValues_put, Dict.mapValues_put, ho]
  exact congrArg (fun tallies => Table.put tallies (kind, o.tally)) h.tallies

/-- Rows of observations with the same kinds and tallies. -/
def SameRow (row row' : (Pattern × Endpoint) × Observation) : Prop :=
  row'.1 = row.1 ∧ row'.2.tally = row.2.tally

theorem sameRows {f g : Flow} (h : g.tallies = f.tallies) :
    List.Forall₂ SameRow f.observations.rows g.observations.rows := by
  have hrows : f.observations.rows.map (fun row => (row.1, row.2.tally)) =
      g.observations.rows.map fun row => (row.1, row.2.tally) :=
    (congrArg Table.rows h).symm
  rw [← List.forall₂_eq_eq_eq, List.forall₂_map_left_iff, List.forall₂_map_right_iff] at hrows
  refine hrows.imp fun row row' heq => ?_
  rw [Prod.mk.injEq] at heq
  exact ⟨heq.1.symm, heq.2.symm⟩

theorem resolveObservation_rebased (h : s.Rebased δ s') (key : FlowKey)
    {row row' : (Pattern × Endpoint) × Observation} (hrow : SameRow row row')
    (ht : resolveObservation key s row = .ok t) (ht' : resolveObservation key s' row' = .ok t') :
    t.Rebased δ t' := by
  obtain ⟨hkind, htally⟩ := hrow
  have hcount : row'.2.count = row.2.count := (tallyOf_inj.mp htally).1
  rw [resolveObservation] at ht ht'
  obtain ⟨hnone, -⟩ | ⟨f, g, hf, hg, hmoved⟩ := h.flows.find? key
  · rw [hnone] at ht
    cases ht
  have hfound : (g.observations.find? row.1).map Observation.tally =
      (f.observations.find? row.1).map Observation.tally := by
    rw [← Dict.find?_mapValues, ← Dict.find?_mapValues]
    exact congrArg (fun tallies => Dict.find? tallies row.1) hmoved.tallies
  have hlength : g.observations.rows.length = f.observations.rows.length :=
    (sameRows hmoved.tallies).length_eq.symm
  rw [hf] at ht
  rw [hg, hkind] at ht'
  simp only at ht ht'
  cases hx : f.observations.find? row.1 with
  | none =>
    rw [hx, map_none, map_eq_none_iff] at hfound
    rw [hx] at ht
    rw [hfound] at ht'
    cases ht
    cases ht'
    rw [adopt, adopt, hlength]
    split
    · refine Rebased.warn ?_ _
      exact
        { h with
          evaluated := by simp only [h.evaluated, hcount]
          incomplete := by simp only [h.incomplete, hcount]
          limited := by simp only [h.limited, hcount] }
    · exact h.store ⟨moved_put hmoved htally, fun _ => h.correlations⟩
  | some =>
    rw [hx, map_some, map_eq_some_iff] at hfound
    obtain ⟨previous', hy, hprevious⟩ := hfound
    rw [hx] at ht
    rw [hy] at ht'
    cases ht
    cases ht'
    refine h.store ⟨moved_put hmoved ?_, fun _ => h.correlations⟩
    rw [tally_join, tally_join, hprevious, htally]

theorem resolveQuote_rebased (h : s.Rebased δ s') {row row' : (FlowKey × FlowKey) × Flow}
    (hrow : row'.1 = row.1 ∧ row'.2.tallies = row.2.tallies) (ht : resolveQuote s row = .ok t)
    (ht' : resolveQuote s' row' = .ok t') : t.Rebased δ t' := by
  have htarget : s'.quoteTarget row'.1 = s.quoteTarget row.1 := by
    rw [quoteTarget, quoteTarget, hrow.1]
    obtain ⟨hnone, hnone'⟩ | ⟨f, g, hf, hg, -⟩ := h.flows.find? row.1.1
    · rw [hnone, hnone']
    · rw [hf, hg, isSome_some, isSome_some]
  rw [resolveQuote] at ht ht'
  split at ht
  · cases ht
  split at ht'
  · cases ht'
  rw [htarget] at ht'
  refine List.foldlM_rel (S := Rebased δ) ?_ (sameRows hrow.2) h ht ht'
  intro row row' s s' u u' hsame hs hu hu'
  exact resolveObservation_rebased hs _ hsame hu hu'

/-- Both scans up to their details. -/
theorem collect_rebased (δ : FlowKey → Bool → Int) (records : List Record)
    (ht : collect text records = .ok t) (ht' : collect text (records.map (rebaseRecord py δ)) = .ok t') :
    t.Rebased δ t' := by
  simp only [collect, resolveQuotes, Except.bind_eq_ok, Except.pure_eq_ok, Except.ok.injEq] at ht ht'
  obtain ⟨s, hs, s₁, ⟨s₂, hs₂, rfl⟩, ht⟩ := ht
  obtain ⟨s', hs', s₁', ⟨s₂', hs₂', rfl⟩, ht'⟩ := ht'
  have hstart : ({} : Scan).Rebased δ {} :=
    ⟨.empty, .empty, rfl, rfl, rfl, rfl, rfl, rfl, rfl⟩
  have hrecords : List.Forall₂ (fun record record' => record' = rebaseRecord py δ record) records
      (records.map (rebaseRecord py δ)) := by
    rw [List.forall₂_map_right_iff]
    exact List.forall₂_same.mpr fun _ _ => rfl
  have hrun : s.Rebased δ s' := List.foldlM_rel (S := Rebased δ) (fun record record' _ _ _ _ hrecord h hu hu' => by
      subst hrecord
      exact step_rebased text h hu hu') hrecords hstart hs hs'
  have hresolved : s₂.Rebased δ s₂' := by
    refine List.foldlM_rel (S := Rebased δ) ?_ hrun.quoted hrun hs₂ hs₂'
    intro row row' s s' u u' hrow h hu hu'
    exact resolveQuote_rebased h hrow hu hu'
  have hdone : ({ s₂ with quoted := .empty } : Scan).Rebased δ { s₂' with quoted := .empty } :=
    { hresolved with quoted := .empty }
  have hdirections : (s₂'.flows.rows.any fun row => decide (row.2.directions.length < 2)) =
      s₂.flows.rows.any fun row => decide (row.2.directions.length < 2) := by
    have hflows := hresolved.flows
    rw [Dict.Rel] at hflows
    generalize s₂.flows.rows = rows at hflows
    generalize s₂'.flows.rows = rows' at hflows
    induction hflows with
    | nil => rfl
    | cons hrow _ ih => rw [List.any_cons, List.any_cons, ih, hrow.2.directions]
  rw [← ht, ← ht']
  simp only [hdirections]
  split
  · exact hdone.warn _
  · exact hdone

/-- Both scans have the same briefs. -/
theorem Rebased.briefs (h : s.Rebased δ s') : briefs s'.flows = Network.briefs s.flows := by
  have hflows := h.flows
  rw [Dict.Rel] at hflows
  rw [Network.briefs, Network.briefs]
  generalize s.flows.rows = rows at hflows
  generalize s'.flows.rows = rows' at hflows
  induction hflows with
  | nil => rfl
  | cons hrow _ ih => rw [List.flatMap_cons, List.flatMap_cons, ih, hrow.1, hrow.2.tallies]

end Rebased

end Scan

/-! ## The report -/

/-- What a report says that does not depend on the origin of its numbers. -/
structure Report.SameFindings (report report' : Report) : Prop where
  verdict : report'.summary.verdict = report.summary.verdict
  scanned : report'.summary.scannedRecords = report.summary.scannedRecords
  skipped : report'.summary.skippedRecords = report.summary.skippedRecords
  evaluated : report'.summary.evaluatedRecords = report.summary.evaluatedRecords
  incomplete : report'.summary.incompleteRecords = report.summary.incompleteRecords
  limited : report'.summary.trackingLimitedRecords = report.summary.trackingLimitedRecords
  issueCount : report'.summary.issueCount = report.summary.issueCount

/-- Moving the numbers of each side of each TCP flow around the circle changes no finding: every
group keeps its figures, and the counters and the verdict stay the same. -/
theorem findings_rebase {py : Python} (text : ReportText py) (δ : FlowKey → Bool → Int)
    (records : List Record) {maxIssues maxExamples : Obj} {issues examples : Nat}
    (hlimits : Limits maxIssues maxExamples issues examples) {report report' : Report}
    (hreport : analyzeNetworkReport text records maxIssues maxExamples = .ok report)
    (hreport' : analyzeNetworkReport text (records.map (rebaseRecord py δ)) maxIssues maxExamples = .ok report') :
    report.SameFindings report' ∧ ∃ s s', Scan.collect text records = .ok s ∧
        Scan.collect text (records.map (rebaseRecord py δ)) = .ok s' ∧
        ∀ key, ((groupsOf examples s'.flows).find? key).map Group.figures =
          ((groupsOf examples s.flows).find? key).map Group.figures := by
  obtain ⟨s, d, hs, hd, rfl⟩ := (analyze_eq_ok text hlimits).mp hreport
  obtain ⟨s', d', hs', hd', rfl⟩ := (analyze_eq_ok text hlimits).mp hreport'
  have hrebased := Scan.collect_rebased text δ records hs hs'
  have hbriefs := List.Perm.of_eq hrebased.briefs
  have hcounts := sameCounts_groupsOf examples hbriefs
  have htotal : d'.total = d.total := by
    rw [(details_of text hlimits.bounds.2.1 hd).total, (details_of text hlimits.bounds.2.1 hd').total]
    simpa [Dict.keys] using hcounts.keys_perm.length_eq
  have hcomplete : s'.complete = s.complete := by
    rw [Scan.complete, Scan.complete, hrebased.evaluated, hrebased.warnings]
  refine ⟨⟨?_, hrebased.scanned, hrebased.skipped, hrebased.evaluated, hrebased.incomplete,
    hrebased.limited, htotal⟩, s, s', hs, hs', figures_groupsOf examples hbriefs⟩
  simp only [reportOf, htotal, hcomplete]

theorem findings_rebase_repeated_syn : ∃ report report',
      analyzeNetworkReport sampleText [sampleSyn "aaaa" "bbbb" 7, sampleSyn "aaaa" "bbbb" 7] (.int 20)
          (.int 3) = .ok report ∧
        analyzeNetworkReport sampleText ([sampleSyn "aaaa" "bbbb" 7, sampleSyn "aaaa" "bbbb" 7].map
            (rebaseRecord samplePython fun _ _ => 2 ^ 32 - 8)) (.int 20) (.int 3) = .ok report' ∧
        report.SameFindings report' := by
  have hlimits : Limits (.int 20) (.int 3) 20 3 := ⟨rfl, rfl⟩
  have hok (records : List Record) (h : (records.length : Int) ≤ maxSafeCount) :=
    analyze_ok sampleText hlimits h
  obtain ⟨report, hreport⟩ := hok [sampleSyn "aaaa" "bbbb" 7, sampleSyn "aaaa" "bbbb" 7] (by decide)
  obtain ⟨report', hreport'⟩ := hok ([sampleSyn "aaaa" "bbbb" 7, sampleSyn "aaaa" "bbbb" 7].map
    (rebaseRecord samplePython fun _ _ => 2 ^ 32 - 8)) (by decide)
  exact ⟨report, report', hreport, hreport',
    (findings_rebase sampleText (fun _ _ => 2 ^ 32 - 8) _ hlimits hreport hreport').1⟩

/-- The value of a field moved and reduced, also if it was not a 32-bit number. -/
def reduceValue (own peer : Int) (name : String) (value : Obj) : Obj :=
  match value with
  | .int n =>
    if name = "tcp_sequence" then .int ((n + own) % modulus)
    else if name = "tcp_acknowledgment" then .int ((n + peer) % modulus)
    else value
  | value => value

/-- A TCP record with all its numbers moved and reduced. -/
def reduceRecord (py : Python) (δ : FlowKey → Bool → Int) (record : Record) : Record :=
  match identity py record with
  | none => record
  | some id =>
    if id.key.protocol = "TCP" then
      record.map fun field =>
        (field.1, reduceValue (δ id.key id.direction) (δ id.key !id.direction) field.1 field.2)
    else record

/-- A number that is not a 32-bit number makes its record incomplete, and reduced it does not. -/
theorem reduceRecord_changes_evaluated :
    ((analyzeNetworkReport sampleText [sampleSyn "aaaa" "bbbb" (2 ^ 32)] (.int 20)
        (.int 3)).toOption.map fun report => report.summary.evaluatedRecords) = some 0 ∧
      ((analyzeNetworkReport sampleText
          ([sampleSyn "aaaa" "bbbb" (2 ^ 32)].map (reduceRecord samplePython fun _ _ => 0)) (.int 20)
          (.int 3)).toOption.map fun report => report.summary.evaluatedRecords) = some 1 := by
  decide +kernel

end C2Hunter.Network
