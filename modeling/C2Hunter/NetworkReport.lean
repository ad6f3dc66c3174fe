import C2Hunter.NetworkScan

/-!
# The network report

The second half of `network_report.py`: observations of the same pattern and peer are grouped,
the groups are ranked and selected so that every pattern is represented first, and the selected
groups become issues with examples and prose.

* `groupsOf` — the groups of all observations.
* `rank`, `selectGroups` — the order of groups and the selection.
* `familyCoverage` — how many groups of each pattern are shown.
* `details` — `_details`, with the published details of ICMP errors.
* `analyzeNetworkReport` — `analyze_network_report`.
-/

namespace C2Hunter.Network

/-! ## Groups -/

/-- `Group`. -/
structure Group where
  count : Nat
  flows : Nat
  /-- a set, without repetitions -/
  hosts : List String
  first : Int
  last : Int
  examples : List (FlowKey × Observation)

/-- The key of the group that an observation of a flow belongs to. -/
def groupKey (fkey : FlowKey) (okey : Pattern × Endpoint) : GroupKey :=
  ⟨fkey.sensor, fkey.interface, fkey.protocol, okey.1, okey.2⟩

/-- A group that starts with an observation. -/
def Group.start (fkey : FlowKey) (o : Observation) : Group where
  count := o.count
  flows := 1
  hosts := ([] : List String).insert fkey.a.ip |>.insert fkey.b.ip
  first := o.first
  last := o.last
  examples := [(fkey, o)]

/-- A group with one observation more. -/
def Group.add (g : Group) (maxExamples : Nat) (fkey : FlowKey) (o : Observation) : Group where
  count := g.count + o.count
  flows := g.flows + 1
  hosts := g.hosts.insert fkey.a.ip |>.insert fkey.b.ip
  first := min g.first o.first
  last := max g.last o.last
  examples := if g.examples.length < maxExamples then g.examples ++ [(fkey, o)] else g.examples

/-- An observation joins its group. -/
def addToGroup (maxExamples : Nat) (fkey : FlowKey) (groups : Dict GroupKey Group)
    (row : (Pattern × Endpoint) × Observation) : Dict GroupKey Group :=
  let key := groupKey fkey row.1
  groups.put (key,
    match groups.find? key with
    | none => Group.start fkey row.2
    | some group => group.add maxExamples fkey row.2)

/-- The groups of all observations of all flows. -/
def groupsOf (maxExamples : Nat) (flows : Dict FlowKey Flow) : Dict GroupKey Group :=
  flows.rows.foldl
    (fun groups row => row.2.observations.rows.foldl (addToGroup maxExamples row.1) groups) .empty

/-! ## Selection -/

/-- The order of ranks, as of tuples. -/
def rankLe (x y : Int × String) : Bool := x.1 < y.1 ∨ x.1 = y.1 ∧ x.2 ≤ y.2

section Selection

variable {py : Python} (text : ReportText py) (groups : Dict GroupKey Group)

/-- `rank`. -/
def rank (key : GroupKey) : Int × String :=
  (-((groups.find? key).elim 0 Group.count : Nat), text.reprKey key)

/-- `sorted(keys, key=rank)`. -/
def sortByRank (keys : List GroupKey) : List GroupKey :=
  keys.insertionSort fun x y => rankLe (rank text groups x) (rank text groups y) = true

/-- `nsmallest(n, keys, key=rank)`. -/
def nsmallest (n : Nat) (keys : List GroupKey) : List GroupKey := (sortByRank text groups keys).take n

/-- A key becomes the representative of its pattern if it ranks before the one there is. -/
def represent (representatives : Dict Pattern GroupKey) (key : GroupKey) : Dict Pattern GroupKey :=
  match representatives.find? key.pattern with
  | none => representatives.put (key.pattern, key)
  | some previous =>
    if rankLe (rank text groups previous) (rank text groups key) then representatives
    else representatives.put (key.pattern, key)

/-- The group of each pattern that ranks first. -/
def representatives : Dict Pattern GroupKey := groups.keys.foldl (represent text groups) .empty

/-- The number of groups of each pattern. -/
def observedFamilies : Dict Pattern Nat := groups.keys.foldl (fun d key => d.bump key.pattern) .empty

/-- The keys that are chosen: first the representatives, then the others, by rank. -/
def chosenGroups (maxIssues : Nat) : List GroupKey :=
  let chosen := nsmallest text groups maxIssues
    ((representatives text groups).rows.map Prod.snd)
  chosen ++ nsmallest text groups (maxIssues - chosen.length) (groups.keys.filter (· ∉ chosen))

/-- `selected`. -/
def selectGroups (maxIssues : Nat) : List GroupKey :=
  sortByRank text groups (chosenGroups text groups maxIssues)

/-- `FamilyCount`. -/
structure FamilyCount where
  pattern : Pattern
  observedGroups : Int
  retainedGroups : Int
  omittedGroups : Int
  deriving DecidableEq

/-- `FamilyCoverage`. -/
structure FamilyCoverage where
  version : String := "network-family-coverage-v1"
  selectionPolicy : String := "family-first-v1"
  families : List FamilyCount
  deriving DecidableEq

/-- The counts of a pattern. -/
def familyCount (selected : List GroupKey) (row : Pattern × Nat) : FamilyCount where
  pattern := row.1
  observedGroups := row.2
  retainedGroups := (selected.filter (·.pattern = row.1)).length
  omittedGroups := row.2 - (selected.filter (·.pattern = row.1)).length

/-- The coverage of the patterns, by their names. -/
def familyCoverage (selected : List GroupKey) : FamilyCoverage where
  families :=
    ((observedFamilies groups).rows.insertionSort fun x y => x.1.text ≤ y.1.text).map
      (familyCount selected)

end Selection

/-! ## Issues -/

/-- `Example`. -/
structure Example where
  icmpDetails : Option Details := none
  endpointA : Endpoint
  endpointB : Endpoint
  eventCount : Nat
  facts : List (String × Int)
  measurements : Measurements

/-- `Scope`. -/
structure Scope where
  sensorId : String
  interfaceId : Option Int
  protocol : String
  peer : Endpoint
  deriving DecidableEq

/-- `Issue`; its severity is always `observation`. -/
structure Issue where
  suspectedCause : Hypothesis
  detailedAnalysis : List String
  id : String
  pattern : Pattern
  title : String
  scope : Scope
  eventCount : Nat
  affectedFlowCount : Nat
  affectedHostCount : Nat
  firstSeen : String
  lastSeen : String
  examples : List Example
  omittedExamples : Int
  evidence : List String
  uncertainty : List String
  nextChecks : List String

/-- `_TITLES`. -/
def Pattern.title : Pattern → String
  | synRetransmissions => "Repeated TCP SYN attempts"
  | matchedResets => "TCP resets matched to SYN attempts"
  | dataRetransmissions => "Exact TCP data repeats"
  | duplicateAcks => "Duplicate TCP ACKs with outstanding data"
  | icmpErrors => "Observed ICMP errors"
  | udpDuplicateCandidates => "UDP duplicate candidates"

/-- `_DIAGNOSTICS`: evidence, uncertainty and the next check. -/
def Pattern.diagnostics : Pattern → String × String × String
  | synRetransmissions =>
    ("The same directional SYN sequence was observed again before a matching response.",
      "Repeated attempts do not distinguish a missing response from duplicate capture.",
      "Inspect handshake response visibility, listener state and firewall logs.")
  | matchedResets =>
    ("A reverse RST+ACK acknowledgment matched an observed SYN sequence plus one.",
      "A matched reset suggests refusal of this attempt, not proof of a host outage.",
      "Check listener availability, service policy and reset-origin logs.")
  | dataRetransmissions =>
    ("TCP sequence, payload length and payload hash repeated in the same direction.",
      "Exact repeats do not prove path loss; capture duplication remains possible.",
      "Compare sequence/ACK progress with peer captures and retransmission counters.")
  | duplicateAcks =>
    ("Repeated pure ACK sequence/acknowledgment/window signatures accompanied outstanding data.",
      "Reordering and duplicated capture can also produce duplicate ACK observations.",
      "Inspect missing sequence ranges, reordering and subsequent ACK progress.")
  | udpDuplicateCandidates =>
    ("Directional UDP payload hash and length repeated within a capture-local flow epoch.",
      "Application retries or intentional repeats are not UDP transport retransmissions.",
      "Inspect application request identifiers and expected retry/heartbeat behavior.")
  | icmpErrors =>
    ("ICMP errors were observed; valid quoted endpoints scope the affected peer when present.",
      "An ICMP report is not proof of permanent unreachability or a common root cause.",
      "Inspect original ICMP type/code, quoted headers and reporting-device policy.")

section Issues

variable {py : Python} (text : ReportText py) (flows : Dict FlowKey Flow)
  (groups : Dict GroupKey Group)

/-- The facts that an observation has, by their names. -/
def factsOf (o : Observation) : List (String × Int) :=
  (factFields.zip o.facts).filterMap fun row => row.2.map (row.1.1, ·)

/-- An example, without its details. -/
def exampleOf (row : FlowKey × Observation) : Except ReportError Example :=
  match flows.find? row.1 with
  | none => .error .keyError
  | some flow =>
    .ok {
      endpointA := row.1.a
      endpointB := row.1.b
      eventCount := row.2.count
      facts := factsOf row.2
      measurements := flow.measurements.publish row.1.protocol }

/-- An issue, given the group and its examples. -/
def issueOf (index : Nat) (key : GroupKey) (group : Group) (examples : List Example) : Issue where
  id := "pattern-" ++ toString (index + 1)
  suspectedCause := hypothesis key.pattern
  detailedAnalysis := (examples.flatMap fun e => describe text e.measurements).eraseDups
  pattern := key.pattern
  title := key.pattern.title
  scope := ⟨key.sensor, key.interface, key.protocol, key.peer⟩
  eventCount := group.count
  affectedFlowCount := group.flows
  affectedHostCount := group.hosts.length
  firstSeen := text.isoformat group.first
  lastSeen := text.isoformat group.last
  examples := examples
  omittedExamples := group.flows - examples.length
  evidence :=
    [toString group.count ++ " " ++ key.pattern.text ++ " observations across " ++
        toString group.flows ++ " flows.",
      key.pattern.diagnostics.1]
  uncertainty :=
    [key.pattern.diagnostics.2.1, "Shared peer and pattern do not establish a shared root cause."]
  nextChecks :=
    [key.pattern.diagnostics.2.2, "Check capture completeness and duplicate capture."]

/-- The issues of the selected groups, numbered from `index`. -/
def issuesOf : Nat → List GroupKey → Except ReportError (List Issue)
  | _, [] => .ok []
  | index, key :: keys =>
    match groups.find? key with
    | none => .error .keyError
    | some group => do
      let examples ← group.examples.mapM (exampleOf flows)
      let issues ← issuesOf (index + 1) keys
      return issueOf text index key group examples :: issues

section

variable (selected : List GroupKey)

/-- The observations behind the examples of the selected groups. -/
def shownExamples : List (GroupKey × FlowKey × Observation) :=
  selected.flatMap fun key =>
    ((groups.find? key).elim [] Group.examples).map fun row => (key, row)

/-- The owners of ICMP details, in the order of the examples. -/
def detailOwners : List (Int × List Retained) :=
  ((shownExamples groups selected).filter (·.1.pattern = .icmpErrors)).map fun row =>
    (row.2.2.count, row.2.2.icmpSamples)

/-- The number of flows that are shown. -/
def detailedFlows : Nat :=
  ((shownExamples groups selected).map fun row => row.2.1).eraseDups.length

end

end Issues

/-- The examples of an issue with their details, and the details that are left. -/
def attachExamples : List Example → List Details → List Example × List Details
  | e :: examples, d :: published =>
    let rest := attachExamples examples published
    ({ e with icmpDetails := some d } :: rest.1, rest.2)
  | examples, published => (examples, published)

/-- The issues with the details of their examples. -/
def attachDetails : List Issue → List Details → List Issue
  | [], _ => []
  | issue :: issues, published =>
    if issue.pattern = .icmpErrors then
      let attached := attachExamples issue.examples published
      { issue with examples := attached.1 } :: attachDetails issues attached.2
    else issue :: attachDetails issues published

/-- What `_details` returns. -/
structure DetailsResult where
  issues : List Issue
  total : Nat
  detailed : Nat
  coverage : FamilyCoverage

/-- `_details`. -/
def details {py : Python} (text : ReportText py) (flows : Dict FlowKey Flow)
    (maxIssues maxExamples : Nat) : Except ReportError DetailsResult := do
  let groups := groupsOf maxExamples flows
  let selected := selectGroups text groups maxIssues
  let issues ← issuesOf text flows groups 0 selected
  let published ← publishDetails py (detailOwners groups selected)
  return {
    issues := attachDetails issues published
    total := groups.rows.length
    detailed := detailedFlows groups selected
    coverage := familyCoverage groups selected }

/-! ## The report -/

/-- `Verdict`. -/
inductive Verdict where
  | anomalyObserved
  | noClearAnomaly
  | insufficientEvidence
  deriving DecidableEq, Repr

/-- The text of a verdict. -/
def Verdict.text : Verdict → String
  | anomalyObserved => "anomaly_observed"
  | noClearAnomaly => "no_clear_anomaly"
  | insufficientEvidence => "insufficient_evidence"

/-- `Summary`. -/
structure Summary where
  suspectedCause : Option Hypothesis
  verdict : Verdict
  narrative : String
  scannedRecords : Int
  skippedRecords : Int
  evaluatedRecords : Int
  incompleteRecords : Int
  trackingLimitedRecords : Int
  countsAreLowerBounds : Bool
  flowCount : Nat
  suspectFlowCount : Nat
  detailedFlowCount : Nat
  issueCount : Nat
  displayedIssueCount : Nat
  omittedIssueCount : Int
  coverageComplete : Bool
  truncated : Bool

/-- `Report`; its list of flows is always empty. -/
structure Report where
  familyCoverage : FamilyCoverage
  measurementVersion : String := "network-supporting-measurements-v1"
  version : String := "network-pattern-report-v1"
  summary : Summary
  issues : List Issue
  warnings : List String
  limitations : List String

/-- The limitations of every report. -/
def limitations : List String :=
  [ "Single-vantage observations do not prove loss, asymmetric routing or root cause.",
    "Duplicate capture can mimic TCP retransmissions and UDP duplicate candidates.",
    "RTT and interarrival dispersion are not classified without a configured baseline.",
    "Capture-local RTT includes peer ACK delay; it is not one-way latency.",
    "Interarrival dispersion is not proof of network jitter or congestion.",
    "Outer TTL/hop-limit variation does not prove path changes or exact hop counts.",
    "Measurements describe bounded representative flows, not pooled issue populations." ]

/-- The verdict on a number of groups. -/
def verdictOf (total : Nat) (complete : Bool) : Verdict :=
  if total ≠ 0 then .anomalyObserved
  else if complete then .noClearAnomaly
  else .insufficientEvidence

/-- The narrative of a verdict. -/
def narrativeOf (total : Nat) (complete : Bool) : String :=
  let narrative :=
    if total ≠ 0 then "Supported observable patterns identified; inspect grouped evidence."
    else if complete then "No supported anomaly pattern observed."
    else "Evidence is insufficient to exclude anomaly patterns."
  if !complete ∧ total ≠ 0 then
    narrative ++ " Coverage is incomplete; additional patterns may be unobservable."
  else narrative

/-- Whether a scan covered its capture. -/
def Scan.complete (s : Scan) : Bool := s.evaluated ≠ 0 ∧ s.warnings = []

/-- The flows with observations. -/
def Scan.suspects (s : Scan) : Nat :=
  (s.flows.rows.filter fun row => !row.2.observations.rows.isEmpty).length

/-- The report of a scan and its details. -/
def reportOf (s : Scan) (d : DetailsResult) : Report where
  familyCoverage := d.coverage
  summary :=
    { suspectedCause := d.issues.head?.map Issue.suspectedCause
      verdict := verdictOf d.total s.complete
      narrative := narrativeOf d.total s.complete
      scannedRecords := s.scanned
      skippedRecords := s.skipped
      evaluatedRecords := s.evaluated
      incompleteRecords := s.incomplete
      trackingLimitedRecords := s.limited
      countsAreLowerBounds := s.limited ≠ 0
      flowCount := s.flows.rows.length
      suspectFlowCount := s.suspects
      detailedFlowCount := d.detailed
      issueCount := d.total
      displayedIssueCount := d.issues.length
      omittedIssueCount := d.total - d.issues.length
      coverageComplete := s.complete
      truncated := d.issues.length < d.total ∨ s.limited ≠ 0 }
  issues := d.issues
  warnings := (s.warnings.map Warning.text).insertionSort (· ≤ ·)
  limitations := limitations

/-- `analyze_network_report`. -/
def analyzeNetworkReport {py : Python} (text : ReportText py) (records : List Record)
    (maxIssues maxExamples : Obj) : Except ReportError Report :=
  match maxIssues.intIn 1 100 with
  | none => .error .invalidMaxIssues
  | some maxIssues =>
    match maxExamples.intIn 1 10 with
    | none => .error .invalidMaxExamples
    | some maxExamples => do
      let s ← Scan.collect text records
      let d ← details text s.flows maxIssues.toNat maxExamples.toNat
      return reportOf s d

end C2Hunter.Network
