import C2Hunter.FlowAccepted

/-!
# The packet cap of an analysis

`capture_limits.py`: the records of an analysis are cut off where the cap on packets is reached, and the
record at the boundary is kept in part, with the telemetry reset that depends on its packets.

* `partly` — that record.
* `partly_valid` — it is valid again, if it has no packet evidence, which is kept as it is, and if its
  bytes are those of packets.
-/

namespace C2Hunter.CaptureLimits

open List

open Aggregate

/-! ## Records -/

/-- The dump of a `FlowRecord`. A port may be null; flags that are null are no flags. -/
structure Dump : Type extends FlowRecord where
  sourcePortNull : Bool := false
  destinationPortNull : Bool := false
  ipTtl : Option Nat := none
  packetEvidenceComplete : Bool := false
  source_null : sourcePortNull = true → sourcePort = 0
  destination_null : destinationPortNull = true → destinationPort = 0

/-- The check of the evidence, where ports may be null. -/
def checkDumpEvidence (d : Dump) : Except Rejection Unit :=
  match Ddos.validatePacketEvidence d.ddosPacketEvidence d.packetCount
      (Ddos.packetIntervalUs (d.timestamp / 1000) d.durationSeconds) (evidenceProtocol d.protocol.toUpper)
      (if d.sourcePortNull then none else some d.sourcePort)
      (if d.destinationPortNull then none else some d.destinationPort) with
  | .error failure => .error (.value (failureText failure))
  | .ok _ => .ok ()

/-- The validation of a dump. -/
def validateDump (d : Dump) : Except Rejection Unit :=
  let errors := fieldErrors d.toFlowRecord ++
    constraint "ip_ttl" "less_than_equal" (optionally d.ipTtl fun n => n ≤ 255)
  if errors ≠ [] then .error (.fields errors)
  else do
    checkDumpEvidence d
    checkCounters d.toFlowRecord
    checkObservations d.toFlowRecord
    checkHops d.toFlowRecord
    checkIds d.toFlowRecord

/-! ## The cap -/

/-- `_positive_int` -/
def positiveInt (value : Int) : Option Nat := if value ≤ 0 then none else some value.toNat

/-- `allocate_sensor_limit` -/
def allocateSensorLimit (configured : Int) (sensorIds : List String) (sensorId : String) : Option Nat :=
  (positiveInt configured).map fun limit =>
    let sensors := sensorIds.dedup.insertionSort (· ≤ ·)
    if sensorId ∉ sensors then 0
    else limit / sensors.length + if sensors.idxOf sensorId < limit % sensors.length then 1 else 0

/-- `_record_packets` -/
def recordPackets (d : Dump) : Nat := if d.packetCount = 0 then 1 else d.packetCount

/-- `_TCP_COUNTER_FIELDS` -/
def tcpCounterFields : List String :=
  ["tcp_flags.fin", "tcp_flags.syn", "tcp_flags.rst", "tcp_flags.psh", "tcp_flags.ack", "tcp_flags.urg",
    "tcp_flags.ece", "tcp_flags.cwr"]

/-- The record at the boundary. -/
def partly (d : Dump) (remaining : Nat) : Dump :=
  { d with
    packetCount := remaining
    totalBytes := d.totalBytes * remaining / recordPackets d
    averagePacketSize := some ((d.totalBytes * remaining / recordPackets d : Nat) / remaining)
    packetSizes := []
    hopLimitMin := none
    hopLimitMax := none
    hopLimitMode := none
    hopLimitDistinctCount := 0
    ipIdObservedCount := 0
    ipIdZeroCount := 0
    ipIdDistinctCount := 0
    ipIdMonotonicTransitions := 0
    ipIdTransitionCount := 0
    ipIdValuesTruncated := true
    ipTtl := none
    transportPayloadPacketCount := none
    packetEvidenceComplete := false
    tcpFlags := d.tcpFlags.filter fun flag => "tcp_flags." ++ flag.1 ∉ tcpCounterFields
    tcpSynCount := if d.tcpFlagsObserved then 0 else d.tcpSynCount
    tcpAckCount := if d.tcpFlagsObserved then 0 else d.tcpAckCount
    tcpRstCount := if d.tcpFlagsObserved then 0 else d.tcpRstCount
    tcpSynOnlyCount := if d.tcpFlagsObserved then 0 else d.tcpSynOnlyCount
    tcpSynAckCount := if d.tcpFlagsObserved then 0 else d.tcpSynAckCount
    tcpAckOnlyCount := if d.tcpFlagsObserved then 0 else d.tcpAckOnlyCount
    tcpSynOnlyObservations := if d.tcpFlagsObserved then some [] else d.tcpSynOnlyObservations
    tcpSynOnlyObservationsTruncated :=
      if d.tcpFlagsObserved then true else d.tcpSynOnlyObservationsTruncated
    bidirectional := if d.tcpFlagsObserved then false else d.bidirectional }

/-- The loop over the records: what is retained, and how many packets. -/
def retain : Nat → List Dump → List Dump × Nat
  | _, [] => ([], 0)
  | remaining, d :: records =>
    if remaining = 0 then ([], 0)
    else if recordPackets d ≤ remaining then
      let kept := retain (remaining - recordPackets d) records
      (d :: kept.1, recordPackets d + kept.2)
    else ([partly d remaining], remaining)

/-- The counts that are reported. -/
structure Counts where
  configuredMaxPackets : Nat
  observedPackets : Nat
  retainedPackets : Nat
  discardedPackets : Nat
  deriving DecidableEq

/-- `limit_flow_records` -/
def limitFlowRecords (records : List Dump) (configured : Int) : List Dump × Counts :=
  let observed := (records.map recordPackets).sum
  match positiveInt configured with
  | none => (records, ⟨0, observed, observed, 0⟩)
  | some limit =>
    if observed ≤ limit then (records, ⟨limit, observed, observed, 0⟩)
    else
      let kept := retain limit records
      (kept.1, ⟨limit, observed, kept.2, observed - kept.2⟩)

/-! ## The record at the boundary -/

/-- Fewer flags have no error either. -/
theorem flagsError_filter {flags : List (String × ℚ)} {p : String × ℚ → Bool} {seen seen' : List String}
    (hseen : seen' ⊆ seen) (h : flagsError seen flags = none) : flagsError seen' (flags.filter p) = none := by
  induction flags generalizing seen seen' with
  | nil => rfl
  | cons flag flags ih =>
    obtain ⟨key, val⟩ := flag
    rw [flagsError] at h
    split at h
    · cases h
    next hflag =>
    by_cases hp : p (key, val) = true
    · have hflag' : flagError seen' key val = none := by
        simp only [flagError] at hflag ⊢
        grind
      rw [filter_cons_of_pos hp, flagsError, hflag']
      exact ih (cons_subset_cons _ hseen) h
    · rw [filter_cons_of_neg hp]
      exact ih (fun name hname => mem_cons_of_mem _ (hseen hname)) h

variable {records : List Dump} {cap : Int} {d : Dump}

theorem validateDump_eq_ok : validateDump d = .ok () ↔ FieldsOk d.toFlowRecord ∧
    optionally d.ipTtl (fun n => n ≤ 255) = true ∧ checkDumpEvidence d = .ok () ∧
    checkCounters d.toFlowRecord = .ok () ∧ checkObservations d.toFlowRecord = .ok () ∧
    checkHops d.toFlowRecord = .ok () ∧ checkIds d.toFlowRecord = .ok () := by
  simp only [validateDump, Except.guard_eq_ok, not_not, append_eq_nil_iff, fieldErrors_eq_nil,
    constraint_eq_nil, Except.bind_eq_ok, Unique.exists_iff, PUnit.default_eq_unit, and_assoc]

theorem partly_valid {n : Nat} (h : validateDump d = .ok ()) (hpos : 0 < n)
    (hevidence : d.ddosPacketEvidence = .null) (hbytes : d.totalBytes ≤ 65535 * d.packetCount) :
    validateDump (partly d n) = .ok () := by
  obtain ⟨hfields, -, -, hcounters, hobservations, -, -⟩ := validateDump_eq_ok.mp h
  obtain ⟨_, hunobserved, hrest⟩ := Except.bind_eq_ok.mp hcounters
  obtain ⟨_, htcp, -⟩ := Except.bind_eq_ok.mp hrest
  simp [refuse, FlowRecord.counters] at hunobserved htcp
  have hcount := hfields.packetCount
  have hpackets : recordPackets d = d.packetCount := if_neg (by omega)
  have haverage : ((d.totalBytes * n / recordPackets d : Nat) : ℚ) / n ≤ 65535 := by
    rw [average_le_iff hpos, hpackets]
    refine Nat.div_le_of_le_mul ?_
    calc d.totalBytes * n ≤ 65535 * d.packetCount * n := Nat.mul_le_mul_right _ hbytes
      _ = d.packetCount * (65535 * n) := by ring
  refine validateDump_eq_ok.mpr ⟨{ hfields with
    packetCount := hpos
    tcpFlags := flagsError_filter (List.Subset.refl _) hfields.tcpFlags
    packetSizes := Nat.zero_le _
    average_nonneg := by simp [partly, optionally]; positivity
    average_le := by simpa [partly, optionally] using haverage
    hopLimitMin := rfl
    hopLimitMax := rfl
    hopLimitMode := rfl
    hopLimitDistinctCount := Nat.zero_le _
    ipIdObservedCount := Nat.zero_le _
    ipIdZeroCount := Nat.zero_le _
    ipIdDistinctCount := Nat.zero_le _
    ipIdMonotonicTransitions := Nat.zero_le _
    ipIdTransitionCount := Nat.zero_le _
    observations := ?_
    offsets := ?_ }, rfl, ?_, ?_, ?_, ?_, ?_⟩
  · cases hobserved : d.tcpFlagsObserved
    · simpa [partly, hobserved] using hfields.observations
    · simp [partly, hobserved, optionally]
  · cases hobserved : d.tcpFlagsObserved
    · simpa [partly, hobserved] using hfields.offsets
    · simp [partly, hobserved, optionally]
  · rw [checkDumpEvidence, show (partly d n).ddosPacketEvidence = .null from hevidence]
    rfl
  · -- the counters are all zero: they were reset, or nothing was observed
    cases hobserved : d.tcpFlagsObserved
    · simp [checkCounters, FlowRecord.counters, refuse, partly, hobserved, hunobserved hobserved]
      rfl
    · simp [checkCounters, FlowRecord.counters, refuse, partly, hobserved, htcp hobserved]
      rfl
  · cases hobserved : d.tcpFlagsObserved
    · simpa [checkObservations, partly, hobserved] using hobservations
    · simp [checkObservations, partly, hobserved, refuse, htcp hobserved]
      rfl
  · rfl
  · rfl

/-! ## The records that are kept -/

/-- The records are cut off after this many packets: between two of them, or inside the last one. -/
def CutAt (records : List Dump) (packets : Nat) (kept : List Dump) : Prop :=
  (kept <+: records ∧ (kept.map recordPackets).sum = packets) ∨
    ∃ whole last n, whole ++ [last] <+: records ∧ kept = whole ++ [partly last n] ∧ 0 < n ∧
      (whole.map recordPackets).sum + n = packets

theorem retain_cutAt {remaining : Nat} (h : remaining < (records.map recordPackets).sum) :
    CutAt records remaining (retain remaining records).1 ∧ (retain remaining records).2 = remaining := by
  induction records generalizing remaining with
  | nil => simp at h
  | cons d records ih =>
    rw [map_cons, sum_cons] at h
    rw [retain]
    by_cases hzero : remaining = 0
    · rw [if_pos hzero, hzero]
      exact ⟨.inl ⟨List.nil_prefix, rfl⟩, rfl⟩
    rw [if_neg hzero]
    by_cases hfits : recordPackets d ≤ remaining
    · rw [if_pos hfits]
      have hless : remaining - recordPackets d < (records.map recordPackets).sum := by omega
      obtain ⟨hcut, hcount⟩ := ih hless
      refine ⟨?_, by simp only [hcount]; omega⟩
      rcases hcut with ⟨hkept, hsum⟩ | ⟨whole, last, n, hwhole, hkept, hpos, hsum⟩
      · exact .inl ⟨cons_prefix_cons.mpr ⟨rfl, hkept⟩, by simp [hsum]; omega⟩
      · refine .inr ⟨d :: whole, last, n, cons_prefix_cons.mpr ⟨rfl, hwhole⟩, ?_, hpos, ?_⟩
        · simp [hkept]
        · simp only [map_cons, sum_cons]
          omega
    · rw [if_neg hfits]
      exact ⟨.inr ⟨[], d, remaining, by simp, rfl, by omega, by simp⟩, rfl⟩

theorem limitFlowRecords_cutAt (hcap : 0 < cap) :
    CutAt records (min cap.toNat (records.map recordPackets).sum) (limitFlowRecords records cap).1 ∧
      (limitFlowRecords records cap).2 = ⟨cap.toNat, (records.map recordPackets).sum,
        min cap.toNat (records.map recordPackets).sum,
        (records.map recordPackets).sum - min cap.toNat (records.map recordPackets).sum⟩ := by
  rw [limitFlowRecords, positiveInt, if_neg (by omega)]
  simp only
  split
  · next hfits =>
    rw [Nat.min_eq_right hfits, Nat.sub_self]
    exact ⟨.inl ⟨prefix_refl _, rfl⟩, rfl⟩
  · next hover =>
    obtain ⟨hcut, hcount⟩ := retain_cutAt (not_le.mp hover)
    rw [Nat.min_eq_left (by omega), hcount]
    exact ⟨hcut, rfl⟩

theorem sum_shares (q r n : Nat) :
    ((List.range n).map fun i => q + if i < r then 1 else 0).sum = n * q + min r n := by
  induction n with
  | zero => simp
  | succ n ih =>
    rw [range_succ, map_append, sum_append, ih, map_singleton, sum_singleton, Nat.succ_mul]
    split <;> omega

theorem sum_allocateSensorLimit (hcap : 0 < cap) {sensorIds : List String} (hne : sensorIds ≠ []) :
    (sensorIds.dedup.map fun id => (allocateSensorLimit cap sensorIds id).getD 0).sum = cap.toNat := by
  have hperm := perm_insertionSort (· ≤ ·) sensorIds.dedup
  rw [← (hperm.map _).sum_eq]
  simp only [allocateSensorLimit, positiveInt, if_neg (not_le.mpr hcap), Option.map_some, Option.getD_some]
  have hnodup := hperm.nodup_iff.mpr (nodup_dedup sensorIds)
  have hpos : 0 < (sensorIds.dedup.insertionSort (· ≤ ·)).length := by
    rw [hperm.length_eq]
    exact length_pos_of_mem (mem_dedup.mpr (head_mem hne))
  generalize sensorIds.dedup.insertionSort (· ≤ ·) = sensors at hnodup hpos
  have hmap : (sensors.map fun id => if id ∉ sensors then 0
      else cap.toNat / sensors.length + if sensors.idxOf id < cap.toNat % sensors.length then 1 else 0) =
      (List.range sensors.length).map fun i =>
        cap.toNat / sensors.length + if i < cap.toNat % sensors.length then 1 else 0 := by
    refine ext_getElem (by simp) fun i hi hi' => ?_
    simp [hnodup.idxOf_getElem]
  rw [hmap, sum_shares, Nat.min_eq_left (Nat.mod_lt _ hpos).le, Nat.div_add_mod]

/-! ## The main result -/

def loopback : IPAddress := ⟨.v4, [127, 0, 0, 1], rfl⟩

/-- A record of two packets, with nothing observed but their bytes. -/
def sampleRecord (totalBytes : Nat) : Dump where
  toFlowRecord :=
    { fromRecord
        { key := ⟨"s", .inbound, 4, loopback, loopback, 0, 0, .udp⟩
          captureJobId := "j"
          startTime := 0
          endTime := 0
          sizes := { minPacketSize := 0, minPayloadLength := 0 } } with
      packetCount := 2
      totalBytes := totalBytes }
  source_null h := absurd h Bool.false_ne_true
  destination_null h := absurd h Bool.false_ne_true

end C2Hunter.CaptureLimits
