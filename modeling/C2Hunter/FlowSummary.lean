import C2Hunter.FlowAggregate

/-!
# What a record says about its packets

A record is a summary of the packets that went into it: `Summary r ps` says so for each part of the
record, and `Summary.accumulate` that one more packet keeps it. `Accounts` carries this to an
aggregator: the packets that were added are those of the records it returned and of the records that
are active, each in exactly one.

* `Tallies`, `FlagsCounted`, `SynObserved`, `HopsTracked`, `IdsTracked`, `PayloadTracked`,
  `EvidenceTracked` — the parts.
* `Summary.accumulate` — a packet is accumulated.
* `Accounts.run` — calls in a row.
-/

namespace C2Hunter.Aggregate

open List Function Table

open Ddos (Sample)
open Ddos.Sensor (Protocol TCPFlags ddosSample simHashText)

/-! ## Packets in a record -/

section

variable (ps : List Packet)

/-- The largest timestamp; no packet is older than `zeroTime`. -/
def latest : Int := (ps.map fun p => p.timestamp).foldl max zeroTime

/-- The wire bytes of packets. -/
def wireBytes : Nat := (ps.map fun p => p.wireLength.toNat).sum

theorem latest_concat (p : Packet) : latest (ps ++ [p]) = max (latest ps) p.timestamp := by
  simp [latest]

theorem latest_mono (p : Packet) : latest ps ≤ latest (ps ++ [p]) := by
  rw [latest_concat]
  exact le_max_left _ _

end

variable {p : Packet} {ps : List Packet}

theorem le_latest (h : p ∈ ps) : p.timestamp ≤ latest ps := by
  induction ps using List.reverseRecOn with
  | nil => simp at h
  | append_singleton ps q ih =>
    rw [latest_concat]
    rcases mem_append.mp h with h | h
    · exact (ih h).trans (le_max_left _ _)
    · rw [mem_singleton.mp h]
      exact le_max_right _ _

theorem wireBytes_concat (ps : List Packet) (p : Packet) :
    wireBytes (ps ++ [p]) = wireBytes ps + p.wireLength.toNat := by
  simp [wireBytes]

/-- The key, the times, the number and the bytes of the packets in a record. -/
structure Tallies (sensorId : String) (r : Record) (ps : List Packet) : Prop where
  key : ∀ p ∈ ps, keyOf sensorId p = r.key
  startTime : ∀ p ∈ ps.head?, p.timestamp = r.startTime
  endTime : r.endTime = latest ps
  packetCount : r.packetCount = ps.length
  totalBytes : r.sizes.totalBytes = wireBytes ps
  packetSizeSum : r.sizes.packetSizeSum = wireBytes ps

/-- A packet that may go into a record of packets. -/
structure Fits (sensorId : String) (r : Record) (ps : List Packet) (p : Packet) : Prop where
  key : keyOf sensorId p = r.key
  first : ps = [] → p.timestamp = r.startTime

variable {lib : Lib} {previewBytes : Nat} {sensorId : String} {r : Record} {metadata : Metadata}

theorem Tallies.accumulate {c : DdosCounts} (h : Tallies sensorId r ps) (hfits : Fits sensorId r ps p) :
    Tallies sensorId (accumulate lib previewBytes c r p metadata).2 (ps ++ [p]) where
  key := by
    intro q hq
    rcases mem_append.mp hq with hq | hq
    · exact h.key q hq
    · rw [mem_singleton.mp hq]
      exact hfits.key
  startTime := by
    intro q hq
    cases ps with
    | nil =>
      obtain rfl : p = q := by simpa using hq
      exact hfits.first rfl
    | cons => exact h.startTime q (by simpa using hq)
  endTime := by
    change (if r.endTime < p.timestamp then p.timestamp else r.endTime) = _
    rw [latest_concat, h.endTime]
    split <;> omega
  packetCount := by
    change r.packetCount + 1 = _
    rw [h.packetCount, length_append, length_singleton]
  totalBytes := by
    change r.sizes.totalBytes + p.wireLength.toNat = _
    rw [h.totalBytes, wireBytes_concat]
  packetSizeSum := by
    change r.sizes.packetSizeSum + p.wireLength.toNat = _
    rw [h.packetSizeSum, wireBytes_concat]

/-! ## TCP flags -/

/-- How many of the packets carry each flag. -/
def FlagCounts.ofPackets (ps : List Packet) : FlagCounts where
  fin := ps.countP fun p => p.tcpFlags.fin
  syn := ps.countP fun p => p.tcpFlags.syn
  rst := ps.countP fun p => p.tcpFlags.rst
  psh := ps.countP fun p => p.tcpFlags.psh
  ack := ps.countP fun p => p.tcpFlags.ack
  urg := ps.countP fun p => p.tcpFlags.urg
  ece := ps.countP fun p => p.tcpFlags.ece
  cwr := ps.countP fun p => p.tcpFlags.cwr

theorem countP_concat (f : Packet → Bool) (ps : List Packet) (p : Packet) :
    (ps ++ [p]).countP f = if f p then ps.countP f + 1 else ps.countP f := by
  rw [countP_append, countP_singleton]
  split <;> rfl

theorem addFlags_ofPackets (ps : List Packet) (p : Packet) :
    addFlags (.ofPackets ps) p.tcpFlags = .ofPackets (ps ++ [p]) := by
  simp only [addFlags, FlagCounts.ofPackets, countP_concat]

/-- A first packet of a handshake. -/
def Packet.isSynOnly (p : Packet) : Bool :=
  p.protocol = .tcp && p.tcpFlags.syn && !p.tcpFlags.ack && !p.tcpFlags.rst

/-- An answer to one. -/
def Packet.isSynAck (p : Packet) : Bool :=
  p.protocol = .tcp && p.tcpFlags.syn && p.tcpFlags.ack && !p.tcpFlags.rst

/-- A packet after the handshake. -/
def Packet.isAckOnly (p : Packet) : Bool :=
  p.protocol = .tcp && p.tcpFlags.ack && !p.tcpFlags.syn && !p.tcpFlags.rst

/-- The flags and their combinations are counted. -/
structure FlagsCounted (t : Tcp) (ps : List Packet) : Prop where
  tcpFlags : t.tcpFlags = .ofPackets ps
  observed : t.tcpFlagsObserved = ps.any fun p => p.protocol = .tcp
  synOnly : t.tcpSynOnlyCount = ps.countP Packet.isSynOnly
  synAck : t.tcpSynAckCount = ps.countP Packet.isSynAck
  ackOnly : t.tcpAckOnlyCount = ps.countP Packet.isAckOnly
  connectionCount : t.connectionCount = none

section

variable {t : Tcp}

/-- What an observation leaves as it is. -/
theorem FlagsCounted.observeSyn (h : FlagsCounted t ps) (startTime : Int) (p : Packet) :
    FlagsCounted (t.observeSyn startTime p) ps := by
  rw [Tcp.observeSyn]
  split
  · exact { h with }
  · split
    · exact { h with }
    · exact { h with }

set_option linter.unusedSimpArgs false in
theorem FlagsCounted.track (h : FlagsCounted t ps) (startTime : Int) (p : Packet) :
    FlagsCounted (t.track startTime p) (ps ++ [p]) := by
  rw [Tcp.track, Tcp.trackTcpFlagCombinations]
  have hflags : addFlags t.tcpFlags p.tcpFlags = .ofPackets (ps ++ [p]) := by
    rw [h.tcpFlags, addFlags_ofPackets]
  by_cases htcp : p.protocol = .tcp
  · rw [if_neg (not_not.mpr htcp)]
    have hobserved : (ps ++ [p]).any (fun q => q.protocol = .tcp) = true := by simp [htcp]
    -- One case for each value of the three flags that are looked at.
    cases hsyn : p.tcpFlags.syn <;> cases hack : p.tcpFlags.ack <;> cases hrst : p.tcpFlags.rst <;>
      simp only [Bool.false_and, Bool.true_and, Bool.and_false, Bool.and_true, Bool.not_true,
        Bool.not_false, Bool.false_eq_true, if_true, if_false]
    -- only a SYN alone is observed
    on_goal 5 => refine FlagsCounted.observeSyn ?_ startTime p
    all_goals
      refine ⟨hflags, hobserved.symm, ?_, ?_, ?_, ?_⟩
      all_goals simp [countP_concat, h.synOnly, h.synAck, h.ackOnly, h.connectionCount, Packet.isSynOnly,
        Packet.isSynAck, Packet.isAckOnly, htcp, hsyn, hack, hrst]
  · rw [if_pos htcp]
    refine ⟨hflags, ?_, ?_, ?_, ?_, h.connectionCount⟩
    · simp [h.observed, htcp]
    · simp [countP_concat, h.synOnly, Packet.isSynOnly, htcp]
    · simp [countP_concat, h.synAck, Packet.isSynAck, htcp]
    · simp [countP_concat, h.ackOnly, Packet.isAckOnly, htcp]

end

/-! ## Observations of SYN packets -/

/-- The observations are in order, not later than the last packet, and complete unless it is said
that they are not. -/
structure SynObserved (t : Tcp) (startTime : Int) (ps : List Packet) : Prop where
  length_le : t.tcpSynOnlyObservations.length ≤ maxTcpSynOnlyObservations
  increasing : (t.tcpSynOnlyObservations.map SynOnly.offsetUs).Pairwise (· < ·)
  offset_le : ∀ o ∈ t.tcpSynOnlyObservations, (o.offsetUs : Int) * 1000 ≤ latest ps - startTime
  complete : t.tcpSynOnlyObservationsTruncated = false →
    t.tcpSynOnlyObservations.length = t.tcpSynOnlyCount
  length_le_count : t.tcpSynOnlyObservations.length ≤ t.tcpSynOnlyCount
  truncated : t.tcpSynOnlyObservationsTruncated = true → 0 < t.tcpSynOnlyCount

section

variable {t : Tcp} {startTime : Int}

/-- One more packet of another kind. -/
theorem SynObserved.mono (h : SynObserved t startTime ps) (p : Packet) : SynObserved t startTime (ps ++ [p]) := by
  refine { h with offset_le := fun o ho => ?_ }
  have := h.offset_le o ho
  have := latest_mono ps p
  omega

/-- An offset that is observed is not later than its packet. -/
theorem microseconds_sub_le (t u : Int) : microseconds (sub t u) * 1000 ≤ max 0 (t - u) := by
  have hsub : sub t u ≤ max 0 (t - u) := by
    rw [sub]
    omega
  rw [microseconds]
  rcases Int.le_total 0 (sub t u) with hsign | hsign
  · rw [Int.tdiv_eq_ediv_of_nonneg hsign]
    omega
  · rw [← Int.neg_neg (sub t u), Int.neg_tdiv, Int.tdiv_eq_ediv_of_nonneg (by omega)]
    omega

/-- What an observation appends comes after the last one. -/
theorem lt_of_not_notAfterLast {offset : Nat}
    (hsorted : (t.tcpSynOnlyObservations.map SynOnly.offsetUs).Pairwise (· < ·))
    (h : t.notAfterLast offset = false) : ∀ o ∈ t.tcpSynOnlyObservations, o.offsetUs < offset := by
  rw [Tcp.notAfterLast] at h
  generalize t.tcpSynOnlyObservations = observations at h hsorted
  induction observations using List.reverseRecOn with
  | nil => simp
  | append_singleton observations last =>
    simp only [getLast?_append, getLast?_singleton, Option.some_or, decide_eq_false_iff_not, not_le] at h
    rw [map_append, pairwise_append] at hsorted
    intro o ho
    rcases mem_append.mp ho with ho | ho
    · exact (hsorted.2.2 _ (mem_map_of_mem ho) last.offsetUs (by simp)).trans h
    · rw [mem_singleton.mp ho]
      exact h

section

variable (h : SynObserved t startTime ps) (hstart : startTime ≤ latest (ps ++ [p]))

include h hstart

/-- The observation of a SYN that is already counted. -/
theorem SynObserved.observeSyn (counted : FlagCounts) : SynObserved (Tcp.observeSyn { t with
        tcpFlags := counted
        tcpFlagsObserved := true
        tcpSynOnlyCount := t.tcpSynOnlyCount + 1 } startTime p) startTime (ps ++ [p]) := by
  have hold := (h.mono p).offset_le
  have hcount := h.length_le_count
  rw [Tcp.observeSyn]
  simp only
  split
  · exact ⟨h.length_le, h.increasing, hold, by simp, Nat.le_succ_of_le hcount, fun _ => Nat.succ_pos _⟩
  next hlate =>
  rw [not_or, not_lt, Bool.not_eq_true] at hlate
  split
  · next hroom =>
    have hlast : p.timestamp ≤ latest (ps ++ [p]) := le_latest (by simp)
    have hoffset := microseconds_sub_le p.timestamp startTime
    refine ⟨?_, ?_, ?_, ?_, ?_, fun _ => Nat.succ_pos _⟩
    · simp only [length_append, length_singleton]
      exact hroom
    · rw [map_append, pairwise_append]
      refine ⟨h.increasing, by simp, ?_⟩
      intro a ha b hb
      obtain ⟨o, ho, rfl⟩ := mem_map.mp ha
      obtain rfl : b = _ := by simpa using hb
      exact lt_of_not_notAfterLast h.increasing hlate.2 o ho
    · intro o ho
      rcases mem_append.mp ho with ho | ho
      · exact hold o ho
      · rw [mem_singleton.mp ho]
        simp only [Int.toNat_of_nonneg hlate.1]
        omega
    · intro htruncated
      simp only [length_append, length_singleton, h.complete htruncated]
    · simp only [length_append, length_singleton]
      omega
  · exact ⟨h.length_le, h.increasing, hold, by simp, Nat.le_succ_of_le hcount, fun _ => Nat.succ_pos _⟩

theorem SynObserved.track : SynObserved (t.track startTime p) startTime (ps ++ [p]) := by
  rw [Tcp.track, Tcp.trackTcpFlagCombinations]
  split
  · exact { h.mono p with }
  simp only
  split
  · exact { h.mono p with }
  split
  · exact h.observeSyn hstart _
  · split
    · exact { h.mono p with }
    · exact { h.mono p with }

end

/-! ## Hop limits -/

/-- The hop limits of packets. -/
def hopLimits (ps : List Packet) : List UInt8 :=
  (ps.filter fun p => p.hopLimitObserved).map fun p => p.hopLimit

theorem hopLimits_concat (ps : List Packet) (p : Packet) :
    hopLimits (ps ++ [p]) = if p.hopLimitObserved then hopLimits ps ++ [p.hopLimit] else hopLimits ps := by
  cases hp : p.hopLimitObserved <;> simp [hopLimits, hp]

theorem length_hopLimits_le (ps : List Packet) : (hopLimits ps).length ≤ ps.length := by
  rw [hopLimits, length_map]
  exact List.length_filter_le _ _

theorem count_hopLimits_lt (h : ps.length < 2 ^ 32) (limit : UInt8) : (hopLimits ps).count limit < 2 ^ 32 :=
  (count_le_length.trans (length_hopLimits_le ps)).trans_lt h

theorem card_toFinset_le (limits : List UInt8) : limits.toFinset.card ≤ 256 := by
  refine (Finset.card_le_univ _).trans_eq ?_
  rw [← FinEnum.card_eq_fintypeCard, FinEnum.card_UInt8]
  rfl

end

/-- The hop limits are counted, modulo the width of a counter; the number of different ones is right
as long as no counter wrapped. -/
structure HopsTracked (i : Hops) (ps : List Packet) : Prop where
  observed : i.hopLimitObserved = true ↔ hopLimits ps ≠ []
  range : ∀ h ∈ hopLimits ps, i.hopLimitMin ≤ h ∧ h ≤ i.hopLimitMax
  counts : ∀ h, i.hopLimitCounts h = UInt32.ofNat ((hopLimits ps).count h)
  distinct : ps.length < 2 ^ 32 → i.hopLimitDistinctCount.toNat = (hopLimits ps).toFinset.card

theorem ofNat_eq_zero_iff {n : Nat} (h : n < 2 ^ 32) : UInt32.ofNat n = 0 ↔ n = 0 := by
  rw [← UInt32.toNat_inj, UInt32.toNat_ofNat_of_lt' h, UInt32.toNat_zero]

section

variable {i : Hops}

theorem HopsTracked.track (h : HopsTracked i ps) (p : Packet) : HopsTracked (i.track p) (ps ++ [p]) := by
  rw [Hops.track]
  split
  · next hp =>
    have hconcat : hopLimits (ps ++ [p]) = hopLimits ps ++ [p.hopLimit] := by
      rw [hopLimits_concat, if_pos hp]
    refine ⟨by simp [hconcat], ?_, ?_, ?_⟩
    · intro limit hlimit
      rw [hconcat, mem_append, mem_singleton] at hlimit
      have hold : limit ∈ hopLimits ps → i.hopLimitObserved = true := fun hmem =>
        h.observed.mpr (ne_nil_of_mem hmem)
      have hrange := h.range limit
      simp only [UInt8.lt_iff_toNat_lt, UInt8.le_iff_toNat_le] at hrange ⊢
      rcases hlimit with hlimit | rfl
      · rw [if_pos (hold hlimit), if_pos (hold hlimit)]
        have := hrange hlimit
        constructor <;> split <;> omega
      · constructor <;> split_ifs <;> omega
    · intro limit
      simp only [hconcat, count_append, count_singleton, beq_iff_eq, update_apply]
      by_cases hlimit : limit = p.hopLimit
      · rw [if_pos hlimit, if_pos hlimit.symm, h.counts, hlimit, UInt32.ofNat_add]
        rfl
      · rw [if_neg hlimit, if_neg (Ne.symm hlimit), Nat.add_zero, h.counts]
    · intro hlength
      rw [length_append, length_singleton] at hlength
      have hdistinct := h.distinct (by omega)
      have hcount := count_hopLimits_lt (by omega : ps.length < 2 ^ 32) p.hopLimit
      have hcard := card_toFinset_le (hopLimits ps)
      simp only [hconcat, h.counts, ofNat_eq_zero_iff hcount, count_eq_zero,
        toFinset_append, toFinset_cons, toFinset_nil, insert_empty_eq,
        Finset.union_singleton]
      split
      · next hnew =>
        rw [Finset.card_insert_of_notMem (by simpa using hnew), UInt16.toNat_add, hdistinct]
        exact Nat.mod_eq_of_lt (by simp; omega)
      · next hseen =>
        rw [Finset.insert_eq_of_mem (by simpa using hseen), hdistinct]
  · next hp =>
    have hconcat : hopLimits (ps ++ [p]) = hopLimits ps := by
      rw [hopLimits_concat, if_neg hp]
    refine ⟨hconcat ▸ h.observed, hconcat ▸ h.range, hconcat ▸ h.counts, fun hlength => ?_⟩
    rw [hconcat]
    exact h.distinct (by simp at hlength; omega)

/-- The mode of a loop over counts: the value that it starts from, or one that is counted. -/
theorem mode_fold (counts : UInt8 → UInt32) (limits : List Nat) (best : UInt8 × UInt32)
    (hbest : best.2 = 0 ∨ best.2 = counts best.1) :
    let final := limits.foldl (fun (best : UInt8 × UInt32) hopLimit =>
      if best.2 < counts (UInt8.ofNat hopLimit) then
        (UInt8.ofNat hopLimit, counts (UInt8.ofNat hopLimit))
      else best) best
    (final.2 = 0 ∨ final.2 = counts final.1) ∧ best.2 ≤ final.2 ∧
      ∀ l ∈ limits, counts (UInt8.ofNat l) ≤ final.2 := by
  induction limits generalizing best with
  | nil => exact ⟨hbest, UInt32.le_refl _, by simp⟩
  | cons l limits ih =>
    simp only [foldl_cons]
    split
    · next hlt =>
      obtain ⟨hvalue, hle, hall⟩ := ih (UInt8.ofNat l, counts (UInt8.ofNat l)) (.inr rfl)
      refine ⟨hvalue, UInt32.le_trans (UInt32.le_of_lt hlt) hle, ?_⟩
      intro k hk
      rcases mem_cons.mp hk with rfl | hk
      · exact hle
      · exact hall k hk
    · next hge =>
      obtain ⟨hvalue, hle, hall⟩ := ih best hbest
      refine ⟨hvalue, hle, ?_⟩
      intro k hk
      rcases mem_cons.mp hk with rfl | hk
      · exact UInt32.le_trans (UInt32.not_lt.mp hge) hle
      · exact hall k hk

/-- Where some hop limit has a count, so has the mode. -/
theorem counts_mode_ne_zero {counts : UInt8 → UInt32} {h : UInt8} (hh : counts h ≠ 0)
    (initial : UInt8) : counts (Hops.mode counts initial).1 ≠ 0 := by
  obtain ⟨hvalue, -, hall⟩ := mode_fold counts (List.range 256) (initial, 0) (.inl rfl)
  have hle := hall h.toNat (mem_range.mpr h.toNat_lt)
  rw [UInt8.ofNat_toNat] at hle
  change counts h ≤ (Hops.mode counts initial).2 at hle
  change (Hops.mode counts initial).2 = 0 ∨
    (Hops.mode counts initial).2 = counts (Hops.mode counts initial).1 at hvalue
  have hpos : (Hops.mode counts initial).2 ≠ 0 := by
    intro hzero
    rw [hzero, UInt32.le_zero_iff] at hle
    exact hh hle
  rw [← hvalue.resolve_left hpos]
  exact hpos

/-- The mode is one of the hop limits, as long as no counter wrapped. -/
theorem HopsTracked.mode_mem (h : HopsTracked i ps) (hlength : ps.length < 2 ^ 32)
    (hobserved : i.hopLimitObserved = true) (initial : UInt8) :
    (Hops.mode i.hopLimitCounts initial).1 ∈ hopLimits ps := by
  obtain ⟨first, rest, hlimits⟩ := exists_cons_of_ne_nil (h.observed.mp hobserved)
  have hcount := count_hopLimits_lt hlength
  have hpos : i.hopLimitCounts first ≠ 0 := by
    rw [h.counts, ne_eq, ofNat_eq_zero_iff (hcount first), count_eq_zero, hlimits]
    simp
  have hmode := counts_mode_ne_zero hpos initial
  rw [h.counts, ne_eq, ofNat_eq_zero_iff (hcount _), count_eq_zero, not_not] at hmode
  exact hmode

/-! ## IP identifiers -/

/-- The IP identifiers of packets. -/
def ipIds (ps : List Packet) : List UInt16 :=
  (ps.filter fun p => p.ipIdObserved).map fun p => p.ipId

theorem ipIds_concat (ps : List Packet) (p : Packet) :
    ipIds (ps ++ [p]) = if p.ipIdObserved then ipIds ps ++ [p.ipId] else ipIds ps := by
  cases hp : p.ipIdObserved <;> simp [ipIds, hp]

theorem length_ipIds_le (ps : List Packet) : (ipIds ps).length ≤ ps.length := by
  rw [ipIds, length_map]
  exact List.length_filter_le _ _

end

/-- The identifiers are counted, and at most 64 of them are told apart. -/
structure IdsTracked (i : Ids) (ids : List UInt16) : Prop where
  observed : i.ipIdObservedCount = ids.length
  zero : i.ipIdZeroCount = ids.count 0
  values_nodup : i.ipIdValues.Nodup
  values_subset : i.ipIdValues ⊆ ids
  values_le : i.ipIdValues.length ≤ 64
  distinct : i.ipIdDistinctCount.toNat = i.ipIdValues.length
  transitions : i.ipIdTransitionCount = ids.length - 1
  monotonic : i.ipIdMonotonicTransitions ≤ i.ipIdTransitionCount
  last : i.lastIpIdObserved = true ↔ ids ≠ []

namespace IdsTracked

variable {i : Ids} {ids : List UInt16}

theorem distinct_le (h : IdsTracked i ids) : i.ipIdDistinctCount.toNat ≤ ids.length := by
  rw [h.distinct]
  exact (h.values_nodup.subperm h.values_subset).length_le

/-- The values that are kept, after one more identifier. -/
theorem trackValue (id : UInt16) (hnodup : i.ipIdValues.Nodup) (hsubset : i.ipIdValues ⊆ ids)
    (hle : i.ipIdValues.length ≤ 64) (hdistinct : i.ipIdDistinctCount.toNat = i.ipIdValues.length) :
    let j := i.trackValue id
    j.ipIdValues.Nodup ∧ j.ipIdValues ⊆ ids ++ [id] ∧ j.ipIdValues.length ≤ 64 ∧
      j.ipIdDistinctCount.toNat = j.ipIdValues.length := by
  have hsubset' : i.ipIdValues ⊆ ids ++ [id] := fun a ha => mem_append_left _ (hsubset ha)
  simp only [Ids.trackValue]
  split
  · exact ⟨hnodup, hsubset', hle, hdistinct⟩
  next hnew =>
  split
  · next hroom =>
    refine ⟨?_, ?_, ?_, ?_⟩
    · refine hnodup.append (nodup_singleton id) ?_
      simpa using hnew
    · refine append_subset.mpr ⟨hsubset', ?_⟩
      simp
    · simpa using hroom
    · rw [UInt16.toNat_add, hdistinct, length_append, length_singleton]
      exact Nat.mod_eq_of_lt (by simp; omega)
  · exact ⟨hnodup, hsubset', hle, hdistinct⟩

/-- What `trackValue` leaves as it is. -/
theorem trackValue_counts (i : Ids) (id : UInt16) : (i.trackValue id).ipIdObservedCount = i.ipIdObservedCount ∧
      (i.trackValue id).ipIdZeroCount = i.ipIdZeroCount ∧
      (i.trackValue id).ipIdTransitionCount = i.ipIdTransitionCount ∧
      (i.trackValue id).ipIdMonotonicTransitions = i.ipIdMonotonicTransitions ∧
      (i.trackValue id).lastIpIdObserved = i.lastIpIdObserved := by
  rw [Ids.trackValue]
  split
  · exact ⟨rfl, rfl, rfl, rfl, rfl⟩
  · split
    · exact ⟨rfl, rfl, rfl, rfl, rfl⟩
    · exact ⟨rfl, rfl, rfl, rfl, rfl⟩

/-- What `trackTransition` leaves as it is. -/
theorem trackTransition_values (i : Ids) (id : UInt16) :
    (i.trackTransition id).ipIdObservedCount = i.ipIdObservedCount ∧
      (i.trackTransition id).ipIdZeroCount = i.ipIdZeroCount ∧
      (i.trackTransition id).ipIdValues = i.ipIdValues ∧
      (i.trackTransition id).ipIdDistinctCount = i.ipIdDistinctCount := by
  rw [Ids.trackTransition]
  split
  · exact ⟨rfl, rfl, rfl, rfl⟩
  · exact ⟨rfl, rfl, rfl, rfl⟩

/-- The transitions, after one more identifier. -/
theorem trackTransition (id : UInt16) (htransitions : i.ipIdTransitionCount = ids.length - 1)
    (hmonotonic : i.ipIdMonotonicTransitions ≤ i.ipIdTransitionCount)
    (hlast : i.lastIpIdObserved = true ↔ ids ≠ []) :
    (i.trackTransition id).ipIdTransitionCount = ids.length ∧
      (i.trackTransition id).ipIdMonotonicTransitions ≤ (i.trackTransition id).ipIdTransitionCount := by
  rw [Ids.trackTransition]
  split
  · next hobserved =>
    have hpos := length_pos_of_ne_nil (hlast.mp hobserved)
    simp only
    constructor
    · omega
    · split <;> omega
  · next hobserved =>
    have hnil : ids = [] := not_not.mp fun h => hobserved (hlast.mpr h)
    rw [hnil] at htransitions ⊢
    exact ⟨htransitions, hmonotonic⟩

theorem track (h : IdsTracked i (ipIds ps)) (p : Packet) : IdsTracked (i.track p) (ipIds (ps ++ [p])) := by
  rw [Ids.track, ipIds_concat]
  split
  · simp only
    generalize hi : ({ i with
      ipIdObservedCount := i.ipIdObservedCount + 1
      ipIdZeroCount := if p.ipId = 0 then i.ipIdZeroCount + 1 else i.ipIdZeroCount } : Ids) = counted
    have hold : counted.ipIdValues ⊆ ipIds ps := hi ▸ h.values_subset
    obtain ⟨hnodup, hsubset, hle, hdistinct⟩ := trackValue p.ipId
      (hi ▸ h.values_nodup) hold (hi ▸ h.values_le) (hi ▸ h.distinct)
    obtain ⟨hobserved, hzero, htransitions, hmonotonic, hlast⟩ := trackValue_counts counted p.ipId
    obtain ⟨hobserved', hzero', hvalues', hdistinct'⟩ :=
      trackTransition_values (counted.trackValue p.ipId) p.ipId
    have hcount : (counted.trackValue p.ipId).ipIdTransitionCount = (ipIds ps).length - 1 := by
      rw [htransitions, ← hi]
      exact h.transitions
    obtain ⟨htransitions', hmonotonic'⟩ := trackTransition p.ipId hcount
      (by rw [htransitions, hmonotonic, ← hi]; exact h.monotonic)
      (by rw [hlast, ← hi]; exact h.last)
    refine ⟨?_, ?_, ?_, ?_, ?_, ?_, ?_, hmonotonic', by simp⟩
    · rw [hobserved', hobserved, ← hi, length_append, length_singleton, ← h.observed]
    · rw [hzero', hzero, ← hi, count_append, count_singleton, ← h.zero]
      simp only [beq_iff_eq]
      split <;> rfl
    · simpa only [hvalues'] using hnodup
    · simpa only [hvalues'] using hsubset
    · simpa only [hvalues'] using hle
    · simpa only [hvalues', hdistinct'] using hdistinct
    · simpa only [length_append, length_singleton, Nat.add_sub_cancel] using htransitions'
  · exact h

end IdsTracked

/-! ## Payloads -/

/-- What a record keeps of payloads, of which it knows the first and the last. -/
def Payload.holding (lib : Lib) (previewBytes count : Nat) (payload last : Bytes) : Payload :=
  { ({ payloadPacketCount := count } : Payload).first (computeFeatures lib payload) payload previewBytes
    with lastPayloadHash := (computeFeatures lib last).hash }

/-- Either no payload was seen, or the record keeps the first and the last. -/
structure PayloadTracked (lib : Lib) (previewBytes : Nat) (l : Payload) (ps : List Packet) : Prop where
  count : l.payloadPacketCount = ps.countP fun p => 0 < p.payload.length
  kept : l = {} ∨ ∃ payload last : Bytes, payload ≠ [] ∧ last ≠ [] ∧
    l = Payload.holding lib previewBytes l.payloadPacketCount payload last

theorem sha256_ne_empty (lib : Lib) (data : Bytes) : lib.sha256 data ≠ "" := by
  intro h
  have hhash := lib.isHash_sha256 data
  rw [h] at hhash
  exact absurd hhash (by decide)

theorem hash_computeFeatures (lib : Lib) {payload : Bytes} (h : payload ≠ []) :
    (computeFeatures lib payload).hash = lib.sha256 payload := by
  rw [computeFeatures, if_neg (by simpa using h)]

theorem PayloadTracked.track {l : Payload} (h : PayloadTracked lib previewBytes l ps) (p : Packet) :
    PayloadTracked lib previewBytes (l.track lib previewBytes p) (ps ++ [p]) := by
  rw [Payload.track]
  split
  · next hp =>
    have hne : p.payload ≠ [] := ne_nil_of_length_pos hp
    have hcount : l.payloadPacketCount + 1 = (ps ++ [p]).countP fun q => 0 < q.payload.length := by
      rw [countP_concat, if_pos (by simpa using hp), h.count]
    rcases h.kept with rfl | ⟨payload, last, hpayload, hlast, hl⟩
    · exact ⟨hcount, .inr ⟨p.payload, p.payload, hne, hne, rfl⟩⟩
    have hfirst : l.firstPayloadHash ≠ "" := by
      rw [hl]
      change (computeFeatures lib payload).hash ≠ ""
      rw [hash_computeFeatures lib hpayload]
      exact sha256_ne_empty lib payload
    simp only [if_neg hfirst]
    exact ⟨hcount, .inr ⟨payload, p.payload, hpayload, hne, by rw [hl]; rfl⟩⟩
  · next hp =>
    refine ⟨?_, h.kept⟩
    rw [countP_concat, if_neg (by simpa using hp), h.count]

/-! ## Evidence -/

/-- The samples are of packets in the record, from its start on; with those omitted there are no
more than packets. -/
structure EvidenceTracked (lib : Lib) (e : Evidence) (startTime : Int) (ps : List Packet) : Prop where
  version : e.version = 1
  samples_le : e.samples.length ≤ maxDdosSamplesFlow
  length_le : e.samples.length + e.omittedSamples ≤ ps.length
  sample : ∀ s ∈ e.samples, ∃ p ∈ ps, startTime ≤ p.timestamp ∧
    ddosSample lib.sha256 p.toPacket = some s

namespace EvidenceTracked

variable {e : Evidence} {startTime : Int}

theorem empty : EvidenceTracked lib {} startTime ps :=
  ⟨rfl, Nat.zero_le _, Nat.zero_le _, by simp⟩

theorem mono (h : EvidenceTracked lib e startTime ps) (p : Packet) :
    EvidenceTracked lib e startTime (ps ++ [p]) := by
  refine { h with length_le := h.length_le.trans (by simp), sample := fun s hs => ?_ }
  obtain ⟨q, hq, hsample⟩ := h.sample s hs
  exact ⟨q, mem_append_left _ hq, hsample⟩

theorem skip (h : EvidenceTracked lib e startTime ps) (p : Packet) :
    EvidenceTracked lib e.skip startTime (ps ++ [p]) := by
  refine { h.mono p with length_le := ?_ }
  have := h.length_le
  simp only [Evidence.skip, length_append, length_singleton]
  omega

theorem trackDdos {c : DdosCounts} {evidence : Option Evidence} (p : Packet)
    (h : ∀ e ∈ evidence, EvidenceTracked lib e startTime ps) :
    ∀ e ∈ (trackDdos lib c startTime evidence p).2, EvidenceTracked lib e startTime (ps ++ [p]) := by
  have hold : EvidenceTracked lib (evidence.getD {}) startTime ps := by
    cases evidence with
    | none => exact empty
    | some e => exact h e rfl
  rw [Aggregate.trackDdos]
  split
  · exact fun e he => (h e he).mono p
  simp only
  split
  · intro e he
    cases he
    exact hold.skip p
  next hroom =>
  split
  · intro e he
    cases he
    exact hold.skip p
  next sample hsample =>
  intro e he
  cases he
  simp only [DdosCounts.refuses, Bool.or_eq_true, decide_eq_true_eq, not_or, not_le, not_lt] at hroom
  have hlength := hold.length_le
  refine ⟨hold.version, ?_, ?_, ?_⟩
  · simp only [length_append, length_singleton]
    exact hroom.1.2
  · simp only [length_append, length_singleton]
    omega
  · intro s hs
    rcases mem_append.mp hs with hs | hs
    · exact (hold.mono p).sample s hs
    · rw [mem_singleton.mp hs]
      exact ⟨p, by simp, hroom.2, hsample⟩

end EvidenceTracked

/-! ## Summaries -/

/-- A record is a summary of these packets. -/
structure Summary (lib : Lib) (previewBytes : Nat) (sensorId : String) (r : Record)
    (ps : List Packet) : Prop where
  tallies : Tallies sensorId r ps
  flags : FlagsCounted r.tcp ps
  syn : SynObserved r.tcp r.startTime ps
  hops : HopsTracked r.identity.hops ps
  ids : IdsTracked r.identity.ids (ipIds ps)
  payload : PayloadTracked lib previewBytes r.payload ps
  evidence : ∀ e ∈ r.ddosPacketEvidence, EvidenceTracked lib e r.startTime ps

namespace Summary

variable {jobId : String}

/-- A record that was just opened. -/
theorem new (p : Packet) : Summary lib previewBytes sensorId (newRecord sensorId jobId p) [] where
  tallies := ⟨by simp, by simp, rfl, rfl, rfl, rfl⟩
  flags := ⟨rfl, rfl, rfl, rfl, rfl, rfl⟩
  syn := ⟨Nat.zero_le _, .nil, by simp [newRecord], fun _ => rfl, Nat.le_refl _, by simp [newRecord]⟩
  hops := ⟨by simp [newRecord, hopLimits], by simp [hopLimits], fun _ => rfl, fun _ => rfl⟩
  ids := ⟨rfl, rfl, .nil, by simp [newRecord], Nat.zero_le _, rfl, rfl, Nat.le_refl _, by simp [newRecord, ipIds]⟩
  payload := ⟨rfl, .inl rfl⟩
  evidence := by simp [newRecord]

/-- A packet is accumulated. -/
theorem accumulate (h : Summary lib previewBytes sensorId r ps)
    (hfits : Fits sensorId r ps p) (c : DdosCounts) (metadata : Metadata) :
    Summary lib previewBytes sensorId (accumulate lib previewBytes c r p metadata).2 (ps ++ [p]) where
  tallies := h.tallies.accumulate hfits
  flags := h.flags.track r.startTime p
  syn := by
    refine h.syn.track ?_
    obtain ⟨first, hfirst⟩ : ∃ first, (ps ++ [p]).head? = some first := by
      cases ps <;> exact ⟨_, rfl⟩
    have htallies : Tallies sensorId (Aggregate.accumulate lib previewBytes c r p metadata).2
        (ps ++ [p]) := h.tallies.accumulate hfits
    exact (htallies.startTime first hfirst).symm.trans_le (le_latest (mem_of_mem_head? hfirst))
  hops := h.hops.track p
  ids := h.ids.track p
  payload := h.payload.track p
  evidence := EvidenceTracked.trackDdos p h.evidence

theorem setBidirectional (h : Summary lib previewBytes sensorId r ps) :
    Summary lib previewBytes sensorId { r with bidirectional := true } ps :=
  { h with tallies := { h.tallies with } }

end Summary

/-! ## The active records -/

section

theorem mem_put {t : Table Record.key} {x : Record} (h : r ∈ (t.put x).rows) :
    r = x ∨ (r ∈ t.rows ∧ r.key ≠ x.key) := by
  have hget := get?_of_mem h
  rw [get?_put] at hget
  by_cases hkey : r.key = x.key
  · rw [if_pos hkey] at hget
    exact .inl (Option.some.inj hget).symm
  · rw [if_neg hkey] at hget
    exact .inr ⟨mem_of_get? hget, hkey⟩

theorem keys_put (t : Table Record.key) (x : Record) : (t.put x).rows.map Record.key =
      if x.key ∈ t.rows.map Record.key then t.rows.map Record.key
      else t.rows.map Record.key ++ [x.key] :=
  map_key_putRows x t.rows

/-- A record is another one, up to the mark of both directions. -/
def Marked (r s : Record) : Prop := r = s ∨ r = { s with bidirectional := true }

variable {s : Record}

theorem Marked.trans {t : Record} (h : Marked r s) (h' : Marked s t) : Marked r t := by
  rcases h with rfl | rfl
  · exact h'
  · rcases h' with rfl | rfl
    · exact .inr rfl
    · exact .inr rfl

theorem Marked.key_eq (h : Marked r s) : r.key = s.key := by
  rcases h with rfl | rfl <;> rfl

end

/-- Marks do not change which records are active. -/
structure SameRecords (t t' : Table Record.key) : Prop where
  keys : t'.rows.map Record.key = t.rows.map Record.key
  marked : ∀ r ∈ t'.rows, ∃ s ∈ t.rows, Marked r s

theorem SameRecords.trans {t t' t'' : Table Record.key} (h : SameRecords t t')
    (h' : SameRecords t' t'') : SameRecords t t'' where
  keys := h'.keys.trans h.keys
  marked r hr := by
    obtain ⟨s, hs, hrs⟩ := h'.marked r hr
    obtain ⟨u, hu, hsu⟩ := h.marked s hs
    exact ⟨u, hu, hrs.trans hsu⟩

theorem sameRecords_setBidirectional (t : Table Record.key) (key : Key) :
    SameRecords t (setBidirectional t key) := by
  rw [setBidirectional]
  split
  · exact ⟨rfl, fun r hr => ⟨r, hr, .inl rfl⟩⟩
  next r hget =>
  have hmem : r ∈ t.rows := mem_of_get? hget
  refine ⟨?_, fun s hs => ?_⟩
  · rw [keys_put, if_pos (mem_map_of_mem (f := Record.key) hmem)]
  · rcases mem_put hs with rfl | ⟨hs, -⟩
    · exact ⟨r, hmem, .inr rfl⟩
    · exact ⟨s, hs, .inl rfl⟩

theorem sameRecords_pair (t : Table Record.key) (key reverse : Key) : SameRecords t (pair t key reverse) := by
  rw [pair]
  split
  · exact (sameRecords_setBidirectional t key).trans (sameRecords_setBidirectional _ reverse)
  · exact ⟨rfl, fun r hr => ⟨r, hr, .inl rfl⟩⟩

/-! ## Packets and records -/

section

variable {keys : List Key} {key : Key}

section

variable (hnodup : keys.Nodup) (hmem : key ∈ keys) (now : Key → List Packet)

include hnodup hmem

/-- The packets of several keys, where those of one key are replaced. -/
theorem flatMap_update (ps : List Packet) :
    (keys.flatMap (update now key ps)).Perm (ps ++ (keys.erase key).flatMap now) := by
  refine ((perm_cons_erase hmem).flatMap_right _).trans ?_
  rw [flatMap_cons, update_self]
  refine .of_eq (congrArg _ (flatMap_congr fun k hk => ?_))
  have hne : k ≠ key := fun h => (List.Nodup.mem_erase_iff hnodup).mp hk |>.1 h
  rw [update_of_ne hne]

/-- One more packet of a key, whose packets are all still with it or all gone. -/
theorem flatMap_one_more {gone : List Packet} (h : gone ++ ps = now key ++ [p]) :
    (gone ++ keys.flatMap (update now key ps)).Perm (keys.flatMap now ++ [p]) := by
  have hold := flatMap_update hnodup hmem now (now key)
  rw [update_eq_self] at hold
  refine ((flatMap_update hnodup hmem now ps).append_left gone).trans ?_
  rw [← append_assoc, h, append_assoc]
  refine .trans ?_ (hold.symm.append_right [p])
  rw [append_assoc]
  exact .append_left _ perm_append_comm

end

/-- The packets of several keys that do not have this one. -/
theorem flatMap_update_of_notMem (hmem : key ∉ keys) (now : Key → List Packet) (ps : List Packet) :
    keys.flatMap (update now key ps) = keys.flatMap now := by
  refine flatMap_congr fun k hk => ?_
  have hne : k ≠ key := fun h => hmem (h ▸ hk)
  rw [update_of_ne hne]

/-- A record that was returned, and the packets in it. -/
def Returned (lib : Lib) (previewBytes : Nat) (sensorId : String) (record : Record)
    (ps : List Packet) : Prop :=
  ∃ r, Summary lib previewBytes sensorId r ps ∧ ps ≠ [] ∧ record = finalize r

end

/-- The packets that were added are those of the records returned, `parts`, and those of the records
that are active, `now`. -/
structure Accounts (lib : Lib) (a : Aggregator) (emitted : List Record) (added : List Packet)
    (parts : List (List Packet)) (now : Key → List Packet) : Prop where
  emitted : List.Forall₂ (Returned lib a.payloadPreviewBytes a.sensorId) emitted parts
  active : ∀ r ∈ a.active.rows,
    Summary lib a.payloadPreviewBytes a.sensorId r (now r.key) ∧ now r.key ≠ []
  perm : (parts.flatten ++ (a.active.rows.map Record.key).flatMap now).Perm added

/-- The packets that a call adds. -/
def addedBy : Event → List Packet
  | .add p _ => if p.wireLength < 0 then [] else [p]
  | .expire .. => []
  | .flush .. => []

/-- The packets that calls add. -/
def addedPackets (events : List Event) : List Packet := events.flatMap addedBy

/-! ## One call -/

/-- What a packet does to an aggregator: it opens a record, extends one, or comes too late for one. -/
inductive Added (lib : Lib) (a : Aggregator) (p : Packet) (metadata : Metadata)
    (active : Table Record.key) : List Record → Prop where
  | opened (hget : a.active.get? (keyOf a.sensorId p) = none)
      (hactive : SameRecords (a.active.put (accumulate lib a.payloadPreviewBytes a.toDdosCounts
        (newRecord a.sensorId a.jobId p) p metadata).2) active) :
      Added lib a p metadata active []
  | extended (r : Record) (hget : a.active.get? (keyOf a.sensorId p) = some r)
      (hstale : r.stale a.idle p.timestamp = false)
      (hactive : SameRecords (a.active.put (accumulate lib a.payloadPreviewBytes a.toDdosCounts
        r p metadata).2) active) :
      Added lib a p metadata active []
  | split (r : Record) (hget : a.active.get? (keyOf a.sensorId p) = some r)
      (hstale : r.stale a.idle p.timestamp = true)
      (hactive : SameRecords (a.active.put (accumulate lib a.payloadPreviewBytes a.toDdosCounts
        (newRecord a.sensorId a.jobId p) p metadata).2) active) :
      Added lib a p metadata active [finalize r]

variable {a : Aggregator}

theorem added (hwire : ¬p.wireLength < 0) : Added lib a p metadata (a.addWithMetadata lib p metadata).2.active
      (a.addWithMetadata lib p metadata).1 := by
  rw [Aggregator.addWithMetadata, if_neg hwire]
  simp only [Aggregator.recordFor]
  split
  · next hget => exact .opened hget (sameRecords_pair _ _ _)
  · next r hget =>
    split
    · next hstale => exact .split r hget hstale (sameRecords_pair _ _ _)
    · next hstale => exact .extended r hget (by simpa using hstale) (sameRecords_pair _ _ _)

theorem Aggregator.addWithMetadata_config (lib : Lib) (a : Aggregator) (p : Packet) (metadata : Metadata) :
    (a.addWithMetadata lib p metadata).2.sensorId = a.sensorId ∧
      (a.addWithMetadata lib p metadata).2.payloadPreviewBytes = a.payloadPreviewBytes ∧
      (a.addWithMetadata lib p metadata).2.idle = a.idle := by
  rw [Aggregator.addWithMetadata]
  split
  · exact ⟨rfl, rfl, rfl⟩
  · exact ⟨rfl, rfl, rfl⟩

variable {emitted : List Record} {packets : List Packet} {parts : List (List Packet)}
    {now : Key → List Packet}

section

variable {active : Table Record.key}

/-- After a packet, the active records are summaries: one holds the packets `ps` with this one, the
others what they held. -/
theorem summary_put (hold : ∀ r ∈ a.active.rows,
      Summary lib a.payloadPreviewBytes a.sensorId r (now r.key) ∧ now r.key ≠ [])
    (hr : Summary lib a.payloadPreviewBytes a.sensorId r ps) (hfits : Fits a.sensorId r ps p)
    (hactive : SameRecords (a.active.put (accumulate lib a.payloadPreviewBytes a.toDdosCounts
      r p metadata).2) active) :
    ∀ s ∈ active.rows, Summary lib a.payloadPreviewBytes a.sensorId s
        (update now (keyOf a.sensorId p) (ps ++ [p]) s.key) ∧
      update now (keyOf a.sensorId p) (ps ++ [p]) s.key ≠ [] := by
  have hkey : (accumulate lib a.payloadPreviewBytes a.toDdosCounts r p metadata).2.key =
      keyOf a.sensorId p := hfits.key.symm
  intro s hs
  obtain ⟨t, ht, hmarked⟩ := hactive.marked s hs
  have hsummary : Summary lib a.payloadPreviewBytes a.sensorId t
      (update now (keyOf a.sensorId p) (ps ++ [p]) t.key) ∧
      update now (keyOf a.sensorId p) (ps ++ [p]) t.key ≠ [] := by
    rcases mem_put ht with rfl | ⟨ht, hne⟩
    · rw [hkey, update_self]
      exact ⟨hr.accumulate hfits _ metadata, by simp⟩
    · rw [update_of_ne (hkey ▸ hne)]
      exact hold t ht
  rw [hmarked.key_eq]
  rcases hmarked with rfl | rfl
  · exact hsummary
  · exact ⟨hsummary.1.setBidirectional, hsummary.2⟩

theorem mem_keys_of_get? (hget : a.active.get? (keyOf a.sensorId p) = some r) :
    keyOf a.sensorId p ∈ a.active.rows.map Record.key :=
  mem_map.mpr ⟨r, mem_of_get? hget, key_of_get? hget⟩

/-- The keys of the active records after a packet. -/
theorem keys_active (hkey : keyOf a.sensorId p = r.key)
    (hactive : SameRecords (a.active.put (accumulate lib a.payloadPreviewBytes a.toDdosCounts
      r p metadata).2) active) :
    active.rows.map Record.key = if (a.active.get? (keyOf a.sensorId p)).isSome then a.active.rows.map Record.key
      else a.active.rows.map Record.key ++ [keyOf a.sensorId p] := by
  have hkey' : (accumulate lib a.payloadPreviewBytes a.toDdosCounts r p metadata).2.key =
      keyOf a.sensorId p := hkey.symm
  rw [hactive.keys, keys_put, hkey']
  cases hget : a.active.get? (keyOf a.sensorId p) with
  | none => rw [if_neg (get?_eq_none.mp hget), if_neg (by simp)]
  | some => rw [if_pos (mem_keys_of_get? hget), if_pos (by simp)]

theorem Accounts.add {out : List Record} (h : Accounts lib a emitted packets parts now) {a' : Aggregator}
    (hsensor : a'.sensorId = a.sensorId) (hpreview : a'.payloadPreviewBytes = a.payloadPreviewBytes)
    (hadded : Added lib a p metadata a'.active out) :
    ∃ parts' now', Accounts lib a' (emitted ++ out) (packets ++ [p]) parts' now' := by
  have hnew : Summary lib a.payloadPreviewBytes a.sensorId (newRecord a.sensorId a.jobId p) [] :=
    .new p
  cases hadded with
  | opened hget hactive =>
    have hfits : Fits a.sensorId (newRecord a.sensorId a.jobId p) [] p := ⟨rfl, fun _ => rfl⟩
    refine ⟨parts, update now (keyOf a.sensorId p) ([] ++ [p]), ?_, ?_, ?_⟩
    · rw [append_nil, hsensor, hpreview]
      exact h.emitted
    · rw [hsensor, hpreview]
      exact summary_put h.active hnew hfits hactive
    · rw [keys_active hfits.key hactive, hget, if_neg (by simp), flatMap_append,
        flatMap_update_of_notMem (get?_eq_none.mp hget), ← append_assoc]
      simpa using h.perm.append_right [p]
  | extended r hget hstale hactive =>
    have hmem := mem_of_get? hget
    have hkey := key_of_get? hget
    have hr := h.active r hmem
    have hfits : Fits a.sensorId r (now r.key) p := ⟨hkey.symm, fun hnil => absurd hnil hr.2⟩
    refine ⟨parts, update now (keyOf a.sensorId p) (now r.key ++ [p]), ?_, ?_, ?_⟩
    · rw [append_nil, hsensor, hpreview]
      exact h.emitted
    · rw [hsensor, hpreview]
      exact summary_put h.active hr.1 hfits hactive
    · rw [keys_active hfits.key hactive, hget, if_pos (by simp)]
      have hmore := flatMap_one_more a.active.nodup (mem_keys_of_get? hget) now
        (by rw [hkey, nil_append] : [] ++ (now r.key ++ [p]) = now (keyOf a.sensorId p) ++ [p])
      refine .trans (hmore.append_left _) ?_
      rw [← append_assoc]
      exact h.perm.append_right [p]
  | split r hget hstale hactive =>
    have hmem := mem_of_get? hget
    have hkey := key_of_get? hget
    have hr := h.active r hmem
    have hfits : Fits a.sensorId (newRecord a.sensorId a.jobId p) [] p := ⟨rfl, fun _ => rfl⟩
    refine ⟨parts ++ [now r.key], update now (keyOf a.sensorId p) ([] ++ [p]), ?_, ?_, ?_⟩
    · rw [hsensor, hpreview]
      exact rel_append h.emitted (.cons ⟨r, hr.1, hr.2, rfl⟩ .nil)
    · rw [hsensor, hpreview]
      exact summary_put h.active hnew hfits hactive
    · rw [keys_active hfits.key hactive, hget, if_pos (by simp), flatten_append, flatten_singleton, append_assoc]
      have hmore := flatMap_one_more a.active.nodup (mem_keys_of_get? hget) now
        (by rw [hkey, nil_append] : now r.key ++ ([] ++ [p]) = now (keyOf a.sensorId p) ++ [p])
      refine .trans (hmore.append_left _) ?_
      rw [← append_assoc]
      exact h.perm.append_right [p]

end

/-- The records that stay are those that are not selected. -/
theorem rows_release (a : Aggregator) (sorting : Sorting) (selected : Record → Bool) :
    (a.release sorting selected).2.active.rows = a.active.rows.filter fun r => !selected r := by
  simp only [Aggregator.release]
  rw [rows_foldl_erase]
  refine filter_congr fun r hr => ?_
  have hiff : r.key ∈ (a.active.rows.filter selected).map Record.key ↔ selected r = true := by
    constructor
    · intro hmem
      obtain ⟨s, hs, hkey⟩ := mem_map.mp hmem
      rw [mem_filter] at hs
      have hsame := (get?_of_mem hs.1).symm.trans (hkey ▸ get?_of_mem hr)
      exact Option.some.inj hsame ▸ hs.2
    · exact fun hselected => mem_map_of_mem (mem_filter.mpr ⟨hr, hselected⟩)
  simp [hiff]

variable {record : Record}

theorem Accounts.release (h : Accounts lib a emitted packets parts now) (sorting : Sorting)
    (selected : Record → Bool) :
    ∃ parts' now', Accounts lib (a.release sorting selected).2
      (emitted ++ (a.release sorting selected).1) packets parts' now' := by
  -- The packets of the records that leave, in the order in which these are returned.
  have hleaving : List.Forall₂ (Returned lib a.payloadPreviewBytes a.sensorId)
      ((a.active.rows.filter selected).map finalize)
      ((a.active.rows.filter selected).map fun r => now r.key) := by
    rw [forall₂_map_left_iff, forall₂_map_right_iff, forall₂_same]
    intro r hr
    have hsummary := h.active r (mem_of_mem_filter hr)
    exact ⟨r, hsummary.1, hsummary.2, rfl⟩
  obtain ⟨sorted, hsorted, hperm⟩ := perm_comp_forall₂ (sorting.perm _) hleaving
  refine ⟨parts ++ sorted, now, rel_append h.emitted hsorted, ?_, ?_⟩
  · rw [rows_release]
    exact fun r hr => h.active r (mem_of_mem_filter hr)
  · rw [rows_release, flatten_append, append_assoc]
    refine .trans (.append_left _ ?_) h.perm
    have hflat : sorted.flatten.Perm (((a.active.rows.filter selected).map Record.key).flatMap now) := by
      refine hperm.flatten.trans (.of_eq ?_)
      rw [flatMap_def, map_map]
      rfl
    refine (hflat.append_right _).trans ?_
    rw [← flatMap_append, ← map_append]
    exact ((filter_append_perm selected a.active.rows).map Record.key).flatMap_right now

theorem Accounts.step (h : Accounts lib a emitted packets parts now) (event : Event) :
    ∃ parts' now', Accounts lib (step lib a event).2 (emitted ++ (step lib a event).1)
      (packets ++ addedBy event) parts' now' := by
  cases event with
  | add p metadata =>
    rw [Aggregate.step, addedBy]
    by_cases hwire : p.wireLength < 0
    · rw [Aggregator.addWithMetadata, if_pos hwire, if_pos hwire, append_nil, append_nil]
      exact ⟨parts, now, h⟩
    · rw [if_neg hwire]
      have hconfig := a.addWithMetadata_config lib p metadata
      exact h.add hconfig.1 hconfig.2.1 (added hwire)
  | expire sorting | flush sorting =>
    rw [addedBy, append_nil]
    exact h.release sorting _

theorem run_concat (lib : Lib) (a : Aggregator) (events : List Event) (event : Event) :
    run lib a (events ++ [event]) = ((run lib a events).1 ++ (step lib (run lib a events).2 event).1,
        (step lib (run lib a events).2 event).2) := by
  rw [run, foldl_concat]
  rfl

/-- Calls in a row account for the packets that they add. -/
theorem Accounts.run (lib : Lib) (hempty : a.active = empty) (events : List Event) :
    ∃ parts now, Accounts lib (run lib a events).2 (run lib a events).1 (addedPackets events) parts now := by
  induction events using List.reverseRecOn with
  | nil =>
    refine ⟨[], fun _ => [], .nil, ?_, ?_⟩
    · change ∀ r ∈ a.active.rows, _
      simp [hempty]
    · change (([] : List (List Packet)).flatten ++ (a.active.rows.map Record.key).flatMap fun _ => []).Perm []
      simp
  | append_singleton events event ih =>
    obtain ⟨parts, now, h⟩ := ih
    rw [run_concat, addedPackets, flatMap_append, flatMap_singleton]
    exact h.step event

theorem step_config (lib : Lib) (a : Aggregator) (event : Event) : (step lib a event).2.sensorId = a.sensorId ∧
      (step lib a event).2.payloadPreviewBytes = a.payloadPreviewBytes ∧
      (step lib a event).2.idle = a.idle := by
  cases event with
  | add p metadata => exact a.addWithMetadata_config lib p metadata
  | expire | flush => exact ⟨rfl, rfl, rfl⟩

theorem run_config (lib : Lib) (a : Aggregator) (events : List Event) : (run lib a events).2.sensorId = a.sensorId ∧
      (run lib a events).2.payloadPreviewBytes = a.payloadPreviewBytes ∧
      (run lib a events).2.idle = a.idle := by
  induction events using List.reverseRecOn with
  | nil => exact ⟨rfl, rfl, rfl⟩
  | append_singleton events event ih =>
    rw [run_concat]
    obtain ⟨hsensor, hpreview, hidle⟩ := step_config lib (run lib a events).2 event
    exact ⟨hsensor.trans ih.1, hpreview.trans ih.2.1, hidle.trans ih.2.2⟩

/-- A record that calls return holds packets that they add. -/
theorem returned_of_mem (hempty : a.active = empty) {events : List Event} (h : record ∈ (run lib a events).1) :
    ∃ ps, Returned lib a.payloadPreviewBytes a.sensorId record ps ∧ ps ⊆ addedPackets events := by
  obtain ⟨parts, now, haccounts⟩ := Accounts.run lib hempty events
  have hemitted := haccounts.emitted
  rw [(run_config lib a events).1, (run_config lib a events).2.1] at hemitted
  obtain ⟨i, hi, rfl⟩ := getElem_of_mem h
  have hi' : i < parts.length := hemitted.length_eq ▸ hi
  refine ⟨parts[i], hemitted.get hi hi', fun p hp => ?_⟩
  refine haccounts.perm.subset (mem_append_left _ ?_)
  exact mem_flatten.mpr ⟨parts[i], getElem_mem hi', hp⟩

/-- What a record says of its packets when it is returned. -/
theorem Returned.tallies (h : Returned lib previewBytes sensorId record ps) : Tallies sensorId record ps := by
  obtain ⟨r, hsummary, -, rfl⟩ := h
  have ht := hsummary.tallies
  rw [finalize]
  simp only
  split
  · exact { ht with }
  · exact { ht with }

/-- A flush leaves no record. -/
theorem rows_flush (a : Aggregator) (sorting : Sorting) : (a.flush sorting).2.active.rows = [] := by
  rw [Aggregator.flush, rows_release]
  simp

/-- A packet alone, and a flush. -/
theorem run_single (lib : Lib) (hempty : a.active = empty)
    (hwire : ¬p.wireLength < 0) (metadata : Metadata) (sorting : Sorting) :
    ∃ record, (run lib a [.add p metadata, .flush sorting]).1 = [record] ∧
      Returned lib a.payloadPreviewBytes a.sensorId record [p] := by
  obtain ⟨parts, now, h⟩ := Accounts.run lib hempty [.add p metadata, .flush sorting]
  have hemitted := h.emitted
  rw [(run_config lib a _).1, (run_config lib a _).2.1] at hemitted
  have hrows : (run lib a [.add p metadata, .flush sorting]).2.active.rows = [] :=
    rows_flush _ sorting
  have hperm := h.perm
  rw [hrows, map_nil, flatMap_nil, append_nil] at hperm
  have hadded : addedPackets [.add p metadata, .flush sorting] = [p] := by
    simp [addedPackets, addedBy, hwire]
  rw [hadded, perm_singleton] at hperm
  -- No part is empty, so that there is one.
  generalize (run lib a [.add p metadata, .flush sorting]).1 = emitted at hemitted ⊢
  cases hemitted with
  | nil => simp at hperm
  | @cons record part emitted parts hrecord hrest =>
    obtain ⟨r, -, hne, -⟩ := id hrecord
    cases hrest with
    | nil =>
      rw [flatten_singleton] at hperm
      exact ⟨record, rfl, hperm ▸ hrecord⟩
    | @cons record' part' emitted parts hrecord' _ =>
      obtain ⟨-, -, hne', -⟩ := id hrecord'
      have hlength := congrArg List.length hperm
      have hpos := length_pos_of_ne_nil hne
      have hpos' := length_pos_of_ne_nil hne'
      simp only [flatten_cons, length_append, length_singleton] at hlength
      omega

end C2Hunter.Aggregate
