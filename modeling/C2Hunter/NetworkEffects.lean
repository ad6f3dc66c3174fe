import C2Hunter.NetworkScan

/-!
# What a packet does to its flow

Each rule of the scan either leaves the observations of the flow alone or adds one event, and
all of them keep the shared counter of correlations in step with the flow. The rules of TCP are
five, and the flags that they ask for exclude each other, so a packet tells one event at most.

* `TCPDirection.WF` — the times of outstanding data are known, so nothing raises.
* `Tracker.Conserves` — the counter moves with the flow, within its bounds.
* `Tracker.Calm`, `Tracker.Told` — no event, or one event of the packet; `Tracker.Quiet` and
  `Tracker.Tells` say that also the mark of a limited flow stays.
* `Tracker.scanTcp_effect`, `Tracker.scanUdp_effect` — the two transports.
-/

namespace C2Hunter.Network

open List

/-! ## Directions -/

/-- Every outstanding piece of data is there once, with its time. -/
structure TCPDirection.WF (d : TCPDirection) : Prop where
  nodup : (d.ends.map HeapEntry.key).Nodup
  sent : ∀ entry ∈ d.ends, (d.sentTimes.find? entry.key).isSome = true
  seen : ∀ entry ∈ d.ends, entry.key ∈ d.seen

theorem TCPDirection.WF.fresh : ({} : TCPDirection).WF where
  nodup := nodup_nil
  sent := fun _ h => by cases h
  seen := fun _ h => by cases h

/-- The loop over `ends` takes what the acknowledgment covers, and does not raise. -/
theorem retire_eq (ack : Int) (ends : List HeapEntry) (r : Retiring) (hnodup : (ends.map HeapEntry.key).Nodup)
    (hsent : ∀ entry ∈ ends, (r.sentTimes.find? entry.key).isSome = true) :
    ∃ r', retire ack ends r = .ok r' ∧ r'.ends = ends.dropWhile (fun entry => entry.rank ≤ ack) ∧
      r'.outstanding = (ends.takeWhile fun entry => entry.rank ≤ ack).foldl (fun o entry => o.erase entry.key)
          r.outstanding ∧
      ∀ entry ∈ r'.ends, (r'.sentTimes.find? entry.key).isSome = true := by
  induction ends generalizing r with
  | nil => exact ⟨_, rfl, rfl, rfl, fun _ h => by cases h⟩
  | cons entry ends ih =>
    rw [map_cons, nodup_cons] at hnodup
    obtain ⟨start, hstart⟩ := Option.isSome_iff_exists.mp (hsent entry mem_cons_self)
    by_cases hcovered : entry.rank ≤ ack
    · rw [retire, if_pos hcovered, hstart, dropWhile_cons_of_pos (by simpa using hcovered),
        takeWhile_cons_of_pos (by simpa using hcovered)]
      apply ih _ hnodup.2
      intro entry' hentry'
      -- the time that is forgotten is of another piece of data
      have hne : entry'.key ≠ entry.key := fun h =>
        hnodup.1 (h ▸ mem_map_of_mem hentry')
      rw [Dict.find?_erase, if_neg hne]
      exact hsent entry' (mem_cons_of_mem _ hentry')
    · rw [retire, if_neg hcovered, dropWhile_cons_of_neg (by simpa using hcovered),
        takeWhile_cons_of_neg (by simpa using hcovered)]
      exact ⟨_, rfl, rfl, rfl, hsent⟩

section

variable {d : TCPDirection}

/-- An acknowledgment does not raise, and forgets no data that was seen. -/
theorem TCPDirection.WF.acknowledge (h : d.WF) (ack time : Int) (m : SupportingMeasurements) (sample : Bool) :
    ∃ outstanding d' m', d.acknowledge ack time m sample = .ok (outstanding, d', m') ∧
      d'.WF ∧ d'.seen = d.seen := by
  rw [TCPDirection.acknowledge]
  cases d.sequence.acknowledge ack with
  | mk position =>
    cases position with
    | none => exact ⟨_, _, _, rfl, h, rfl⟩
    | some position =>
      obtain ⟨r, hr, hends, -, hsent⟩ := retire_eq position d.ends
        { ends := d.ends, sentTimes := d.sentTimes, outstanding := d.outstanding } h.nodup h.sent
      have hsuffix : r.ends <:+ d.ends := hends ▸ dropWhile_suffix _
      simp only [hr]
      refine ⟨_, _, _, rfl, ⟨?_, hsent, ?_⟩, rfl⟩
      · exact h.nodup.sublist (hsuffix.sublist.map _)
      · intro entry hentry
        exact h.seen entry (hsuffix.subset hentry)

theorem TCPDirection.WF.mark (h : d.WF) (key : DataKey) (position : Option Int)
    (sequence : TCPSequenceSpace) : (d.mark key position sequence).WF where
  nodup := h.nodup
  sent := h.sent
  seen := fun entry hentry => mem_insert_of_mem (h.seen entry hentry)

/-- Data that was not seen before joins the outstanding data. -/
theorem TCPDirection.WF.send (h : d.WF) {key : DataKey} (hnew : key ∉ d.seen) (position : Int)
    (sequence : TCPSequenceSpace) (time : Int) :
    ((d.mark key (some position) sequence).enqueue key position time).WF where
  nodup := by
    have hperm := (perm_orderedInsert (fun x y : HeapEntry => x.le y = true)
      ⟨position + key.length, key⟩ d.ends).map HeapEntry.key
    refine hperm.nodup_iff.mpr (nodup_cons.mpr ⟨fun hmem => ?_, h.nodup⟩)
    obtain ⟨entry, hentry, hkey⟩ := mem_map.mp hmem
    have hseen := h.seen entry hentry
    rw [hkey] at hseen
    exact hnew hseen
  sent := by
    intro entry hentry
    rw [enqueue, Dict.find?_put]
    obtain rfl | hentry := (mem_orderedInsert _).mp hentry
    · rw [if_pos rfl, Option.isSome_some]
    · split
      · rfl
      · exact h.sent entry hentry
  seen := by
    intro entry hentry
    obtain rfl | hentry := (mem_orderedInsert _).mp hentry
    · exact mem_insert_self
    · exact mem_insert_of_mem (h.seen entry hentry)

/-- Both directions of a flow are well-formed. -/
def Flow.WF (f : Flow) : Prop := ∀ direction, (f.tcp.get direction).WF

/-! ## Conservation -/

end

namespace Tracker

/-- The counter of correlations moves with the flow, and neither leaves its bounds. -/
structure Conserves (t t' : Tracker) : Prop where
  held : t'.budget.correlations - t'.flow.size = t.budget.correlations - t.flow.size
  size_le : t.flow.size ≤ maxFlowCorrelations → t'.flow.size ≤ maxFlowCorrelations
  total_le : t.budget.correlations ≤ maxTotalCorrelations →
    t'.budget.correlations ≤ maxTotalCorrelations
  wf : t.flow.WF → t'.flow.WF

/-- No event: the observations and the samples stay. -/
structure Calm (t t' : Tracker) : Prop extends Conserves t t' where
  observations : t'.flow.observations = t.flow.observations
  icmp : t'.budget.icmp = t.budget.icmp

/-- One event of a packet, which is no ICMP error. -/
structure Told (p : Arrival) (t t' : Tracker) : Prop extends Conserves t t' where
  told : ∃ pattern peer, pattern ≠ .icmpErrors ∧
    t'.flow.observations =
      t.flow.observations.put ((pattern, peer), t.observed pattern peer p.time p.record)
  icmp : t'.budget.icmp = t.budget.icmp

/-- No event, and whether the flow is limited stays. -/
structure Quiet (t t' : Tracker) : Prop extends Calm t t' where
  limited : t'.flow.limited = t.flow.limited

/-- One event, and whether the flow is limited stays. -/
structure Tells (p : Arrival) (t t' : Tracker) : Prop extends Told p t t' where
  limited : t'.flow.limited = t.flow.limited

variable {t u v : Tracker} {p : Arrival}

theorem Conserves.trans (h : t.Conserves u) (h' : u.Conserves v) : t.Conserves v where
  held := h'.held.trans h.held
  size_le := fun hsize => h'.size_le (h.size_le hsize)
  total_le := fun htotal => h'.total_le (h.total_le htotal)
  wf := fun hwf => h'.wf (h.wf hwf)

theorem Calm.trans (h : t.Calm u) (h' : u.Calm v) : t.Calm v where
  toConserves := h.toConserves.trans h'.toConserves
  observations := h'.observations.trans h.observations
  icmp := h'.icmp.trans h.icmp

theorem Calm.told (h : t.Calm u) (h' : u.Told p v) : t.Told p v where
  toConserves := h.toConserves.trans h'.toConserves
  told := by
    obtain ⟨pattern, peer, hpattern, htold⟩ := h'.told
    refine ⟨pattern, peer, hpattern, ?_⟩
    rw [htold, observed, observed, h.observations]
  icmp := h'.icmp.trans h.icmp

theorem Told.calm (h : t.Told p u) (h' : u.Calm v) : t.Told p v where
  toConserves := h.toConserves.trans h'.toConserves
  told := by
    obtain ⟨pattern, peer, hpattern, htold⟩ := h.told
    exact ⟨pattern, peer, hpattern, h'.observations.trans htold⟩
  icmp := h'.icmp.trans h.icmp

theorem Quiet.trans (h : t.Quiet u) (h' : u.Quiet v) : t.Quiet v where
  toCalm := h.toCalm.trans h'.toCalm
  limited := h'.limited.trans h.limited

theorem Quiet.tells (h : t.Quiet u) (h' : u.Tells p v) : t.Tells p v where
  toTold := h.toCalm.told h'.toTold
  limited := h'.limited.trans h.limited

theorem Tells.quiet (h : t.Tells p u) (h' : u.Quiet v) : t.Tells p v where
  toTold := h.toTold.calm h'.toCalm
  limited := h'.limited.trans h.limited

/-- A change that concerns neither correlations nor observations. -/
theorem Quiet.of_frame (hbudget : u.budget = t.budget) (htcp : u.flow.tcp = t.flow.tcp)
    (hudp : u.flow.udp = t.flow.udp) (hlimited : u.flow.limited = t.flow.limited)
    (hobservations : u.flow.observations = t.flow.observations) : t.Quiet u := by
  have hsize : u.flow.size = t.flow.size := by rw [Flow.size, Flow.size, htcp, hudp]
  refine ⟨⟨⟨by rw [hbudget, hsize], by rw [hsize]; exact id, by rw [hbudget]; exact id, ?_⟩,
    hobservations, by rw [hbudget]⟩, hlimited⟩
  intro hwf direction
  rw [htcp]
  exact hwf direction

section

variable (t : Tracker)

theorem Quiet.refl : t.Quiet t := .of_frame rfl rfl rfl rfl rfl

/-! ## The methods of a flow -/

theorem clearTcp_quiet : t.Quiet t.clearTcp where
  held := by
    simp only [clearTcp, Flow.size, Pair.both, length_nil]
    push_cast
    ring
  size_le := fun hsize => by
    simp only [clearTcp, Flow.size, Pair.both, length_nil] at hsize ⊢
    omega
  total_le := fun htotal => by
    simp only [clearTcp]
    omega
  limited := rfl
  wf := fun _ direction => by
    rw [clearTcp, Pair.get_both]
    exact .fresh
  observations := rfl
  icmp := rfl

theorem clearCorrelations_quiet : t.Quiet t.clearCorrelations := by
  apply t.clearTcp_quiet.trans
  refine ⟨⟨⟨?_, ?_, ?_, fun hwf => hwf⟩, rfl, rfl⟩, rfl⟩
  · simp only [clearCorrelations, Flow.size, length_nil]
    push_cast
    ring
  · intro hsize
    simp only [clearCorrelations, Flow.size, length_nil] at hsize ⊢
    omega
  · intro htotal
    simp only [clearCorrelations]
    omega

theorem forgetEpoch_quiet : t.Quiet t.forgetEpoch := .of_frame rfl rfl rfl rfl rfl

theorem measure_quiet (f : SupportingMeasurements → SupportingMeasurements) :
    t.Quiet (t.measure f) := .of_frame rfl rfl rfl rfl rfl

/-- The size of a flow after a direction has changed. -/
theorem modifyTcp_size (direction : Bool) (f : TCPDirection → TCPDirection) :
    ((t.modifyTcp direction f).flow.size : Int) = t.flow.size + (f (t.flow.tcp.get direction)).seen.length -
        (t.flow.tcp.get direction).seen.length := by
  cases direction with
  | false | true =>
    simp only [modifyTcp, Flow.size, Pair.set, Pair.get]
    push_cast
    ring

end

variable {f : TCPDirection → TCPDirection}

theorem modifyTcp_wf {direction : Bool}
    (h : (t.flow.tcp.get direction).WF → (f (t.flow.tcp.get direction)).WF) (hwf : t.flow.WF) :
    (t.modifyTcp direction f).flow.WF := by
  intro direction'
  rw [modifyTcp]
  by_cases hdirection : direction' = direction
  · subst hdirection
    rw [Pair.get_set_self]
    exact h (hwf direction')
  · obtain rfl : direction' = !direction := by
      cases direction' <;> cases direction <;> simp_all
    rw [Pair.get_set_not]
    exact hwf _

/-- A direction changes and keeps what it has seen. -/
theorem modifyTcp_quiet {direction : Bool}
    (hseen : (f (t.flow.tcp.get direction)).seen = (t.flow.tcp.get direction).seen)
    (hwf : (t.flow.tcp.get direction).WF → (f (t.flow.tcp.get direction)).WF) :
    t.Quiet (t.modifyTcp direction f) := by
  have hsize := modifyTcp_size t direction f
  rw [hseen, add_sub_cancel_right, Int.natCast_inj] at hsize
  exact ⟨⟨⟨by rw [hsize]; rfl, by rw [hsize]; exact id, fun h => h, modifyTcp_wf hwf⟩, rfl, rfl⟩, rfl⟩

/-- A refused reservation changes nothing; a granted one counts one correlation more, which the
flow may hold. -/
theorem reserve_eq_some : t.reserve = some u ↔
    (t.flow.size < maxFlowCorrelations ∧ t.budget.correlations < maxTotalCorrelations) ∧
      u = { t with budget := { t.budget with correlations := t.budget.correlations + 1 } } := by
  rw [reserve]
  split
  · next hfull =>
    simp only [reduceCtorEq, false_iff]
    rintro ⟨⟨hsize, htotal⟩, -⟩
    exact hfull.elim (fun h => absurd h hsize.not_ge) fun h => absurd h htotal.not_ge
  · next hroom =>
    rw [not_or, not_le, not_le] at hroom
    simp only [Option.some.injEq, hroom, and_self, true_and]
    exact eq_comm

/-- After a reservation, a correlation more is in step. -/
theorem Quiet.of_reserve (hreserve : t.reserve = some u) (hbudget : v.budget = u.budget)
    (hsize : v.flow.size = t.flow.size + 1) (hlimited : v.flow.limited = t.flow.limited)
    (hobservations : v.flow.observations = t.flow.observations)
    (hwf : t.flow.WF → v.flow.WF) : t.Quiet v := by
  obtain ⟨⟨hroom, htotal⟩, rfl⟩ := reserve_eq_some.mp hreserve
  refine ⟨⟨⟨?_, ?_, ?_, hwf⟩, hobservations, by rw [hbudget]⟩, hlimited⟩
  · rw [hbudget, hsize]
    push_cast
    ring
  · intro _
    omega
  · intro _
    rw [hbudget]
    exact htotal

/-- An event that is no ICMP error. -/
theorem observe_tells {py : Python} (text : ReportText py) (t : Tracker) (p : Arrival)
    {pattern : Pattern} (peer : Endpoint) (hpattern : pattern ≠ .icmpErrors) :
    t.Tells p (t.observe text pattern peer p.time p.record) := by
  rw [observe, if_neg hpattern]
  exact ⟨⟨⟨rfl, id, id, fun hwf => hwf⟩, ⟨pattern, peer, hpattern, rfl⟩, rfl⟩, rfl⟩

/-! ## One event at most -/

/-- What a rule does, and whether it tells an event. -/
def Effect (p : Arrival) (t t' : Tracker) : Bool → Prop
  | true => t.Tells p t'
  | false => t.Quiet t'

theorem Effect.conserves {told : Bool} (h : Effect p t u told) : t.Conserves u := by
  cases told with
  | false => exact Calm.toConserves (Quiet.toCalm h)
  | true => exact Told.toConserves (Tells.toTold h)

theorem Effect.limited {told : Bool} (h : Effect p t u told) : u.flow.limited = t.flow.limited := by
  cases told with
  | false => exact Quiet.limited h
  | true => exact Tells.limited h

/-- Rules after each other, of which one at most tells an event. -/
theorem Effect.trans {told told' : Bool} (h : Effect p t u told) (h' : Effect p u v told')
    (hone : ¬(told = true ∧ told' = true)) : Effect p t v (told || told') := by
  cases told with
  | false =>
    cases told' with
    | false => exact Quiet.trans h h'
    | true => exact Quiet.tells h h'
  | true =>
    cases told' with
    | false => exact Tells.quiet h h'
    | true => exact absurd ⟨rfl, rfl⟩ hone

section Rules

variable {py : Python} (text : ReportText py) (seg : TcpSegment)

section

variable (t : Tracker)

/-- A SYN tells an event if it repeats another. -/
theorem scanSyn_effect (p : Arrival) : ∃ told, Effect p t (t.scanSyn text p seg) told ∧
      (told = true → seg.syn = true ∧ seg.ack = false) := by
  rw [scanSyn]
  split
  · next hsyn =>
    have hflags : seg.syn = true ∧ seg.ack = false := by simp_all
    -- the anchor of the epoch concerns nothing else
    have hanchor (u : Tracker) : u.Quiet (if synOnly p.record then
          { u with flow := { u.flow with
              epochSyn := u.flow.epochSyn.set p.direction (some seg.seq) } }
        else u) := by
      split
      · exact .of_frame rfl rfl rfl rfl rfl
      · exact .refl u
    cases t.flow.syn.find? (p.direction, seg.seq) with
    | some =>
      refine ⟨true, Tells.quiet ?_ (hanchor _), fun _ => hflags⟩
      exact (t.observe_tells text p p.dest (by decide)).quiet (.of_frame rfl rfl rfl rfl rfl)
    | none =>
      refine ⟨false, Quiet.trans ?_ (hanchor _), fun h => by cases h⟩
      exact (t.clearTcp_quiet.trans t.clearTcp.forgetEpoch_quiet).trans (.of_frame rfl rfl rfl rfl rfl)
  · exact ⟨false, .refl t, fun h => by cases h⟩

theorem matchSyn_effect (p : Arrival) (row : Int × Bool) : Effect p t (t.matchSyn text p seg row) seg.rst := by
  have herase : t.Quiet
      { t with flow := { t.flow with syn := t.flow.syn.erase (answered p seg) } } :=
    .of_frame rfl rfl rfl rfl rfl
  rw [matchSyn]
  cases seg.rst with
  | false =>
    simp only [Bool.false_eq_true, if_false]
    exact herase.trans (measure_quiet _ _)
  | true =>
    simp only [if_true]
    exact herase.tells (observe_tells text _ p p.source (by decide : Pattern.matchedResets ≠ _))

/-- A response tells an event if it is a reset. -/
theorem scanResponse_effect (p : Arrival) : ∃ told, Effect p t (t.scanResponse text p seg) told ∧
      (told = true → seg.ack = true ∧ seg.rst = true) := by
  rw [scanResponse]
  split
  · next hresponse =>
    cases t.flow.syn.find? (answered p seg) with
    | none => exact ⟨false, .refl t, fun h => by cases h⟩
    | some row => exact ⟨seg.rst, t.matchSyn_effect text seg p row, fun hrst => ⟨hresponse.1, hrst⟩⟩
  · exact ⟨false, .refl t, fun h => by cases h⟩

/-- A change of the sequence space only. -/
theorem modifySequence_quiet (direction : Bool) (f : TCPSequenceSpace → TCPSequenceSpace) :
    t.Quiet (t.modifyTcp direction fun own => { own with sequence := f own.sequence }) :=
  modifyTcp_quiet rfl fun hwf => ⟨hwf.nodup, hwf.sent, hwf.seen⟩

theorem placeSyn_quiet (p : Arrival) (length : Int) : t.Quiet (t.placeSyn p seg length) := by
  rw [placeSyn]
  split
  · exact t.modifySequence_quiet p.direction fun s => (s.observe _ length).2
  · exact .refl t

theorem placeFin_quiet (p : Arrival) (length : Int) : t.Quiet (t.placeFin p seg length) := by
  rw [placeFin]
  split
  · exact t.modifySequence_quiet p.direction fun s => (s.observe seg.seq (length + 1)).2
  · exact .refl t

theorem scanControl_quiet (p : Arrival) (length : Int) : t.Quiet (t.scanControl p seg length) :=
  (t.placeSyn_quiet seg p length).trans (placeFin_quiet seg _ p length)

theorem modifyLastAck_quiet (direction : Bool) (signature : Option (Int × Int × Int)) :
    t.Quiet (t.modifyTcp direction fun own => { own with lastAck := signature }) :=
  modifyTcp_quiet rfl fun hwf => ⟨hwf.nodup, hwf.sent, hwf.seen⟩

end

/-- An acknowledgment does not raise, and tells an event only if it carries no data. -/
theorem scanAck_effect (hwf : t.flow.WF) (p : Arrival) (length window : Int) :
    ∃ t' told, t.scanAck text p seg length window = .ok t' ∧ Effect p t t' told ∧
      (told = true → seg.ack = true ∧ seg.control = false ∧ length = 0) := by
  rw [scanAck]
  split
  · next hack =>
    obtain ⟨outstanding, reverse, m, hok, hreverse, hseen⟩ :=
      (hwf !p.direction).acknowledge seg.ackNumber p.time t.flow.measurements !seg.control
    simp only [hok]
    have hretired : t.Quiet ((t.modifyTcp (!p.direction) fun _ => reverse).measure fun _ => m) :=
      (modifyTcp_quiet hseen fun _ => hreverse).trans (measure_quiet _ _)
    refine ⟨_, decide (!seg.control ∧ length = 0 ∧ 0 < window ∧ outstanding ∧
      ((((t.modifyTcp (!p.direction) fun _ => reverse).measure fun _ => m).flow.tcp.get
        p.direction).lastAck = some (seg.seq, seg.ackNumber, window))), rfl, ?_, ?_⟩
    · split
      · next htold =>
        rw [decide_eq_true htold]
        exact (hretired.tells (observe_tells text _ p _ (by decide))).quiet (modifyLastAck_quiet _ _ _)
      · next htold =>
        rw [decide_eq_false htold]
        exact hretired.trans (modifyLastAck_quiet _ _ _)
    · intro htold
      obtain ⟨hcontrol, hlength, -⟩ := of_decide_eq_true htold
      exact ⟨hack.1, by simpa using hcontrol, hlength⟩
  · exact ⟨_, false, rfl, modifyLastAck_quiet _ _ _, fun h => by cases h⟩

/-- Data that is sent for the first time takes the place that was reserved for it. -/
theorem sendData_quiet {t' : Tracker} (hreserve : t.reserve = some t') (p : Arrival) {key : DataKey}
    (hnew : key ∉ (t.flow.tcp.get p.direction).seen) : t.Quiet (t'.sendData p key).1 := by
  have hflow : t'.flow = t.flow := by
    obtain ⟨-, rfl⟩ := reserve_eq_some.mp hreserve
    rfl
  have hquiet (f : TCPDirection → TCPDirection) (hseen : (f (t.flow.tcp.get p.direction)).seen =
        (t.flow.tcp.get p.direction).seen.insert key)
      (hwf : (t.flow.tcp.get p.direction).WF → (f (t.flow.tcp.get p.direction)).WF) :
      t.Quiet (t'.modifyTcp p.direction f) := by
    have hsize := t'.modifyTcp_size p.direction f
    rw [hflow, hseen, insert_of_not_mem hnew, length_cons] at hsize
    push_cast at hsize
    refine .of_reserve hreserve rfl (by omega) (by rw [modifyTcp, hflow]) (by rw [modifyTcp, hflow]) fun h => ?_
    rw [← hflow] at h hwf
    exact modifyTcp_wf hwf h
  rw [sendData, hflow]
  cases (t.flow.tcp.get p.direction).sequence.observe key.seq key.length with
  | mk position sequence =>
    cases position with
    | none =>
      exact hquiet (·.mark key none sequence) rfl fun hwf => hwf.mark key none sequence
    | some position =>
      exact hquiet (fun own => (own.mark key (some position) sequence).enqueue key position p.time)
        rfl fun hwf => hwf.send hnew position sequence p.time

section

variable (t : Tracker) (p : Arrival)

theorem sendData_ne_limit (key : DataKey) : (t.sendData p key).2 ≠ .limit := by
  rw [sendData]
  split <;> exact DataOutcome.noConfusion

/-- Data that is refused leaves the flow and the budget alone. -/
theorem scanKey_limit (key : DataKey) (h : (t.scanKey text p key).2 = .limit) : (t.scanKey text p key).1 = t := by
  rw [scanKey] at h ⊢
  by_cases hseen : key ∈ (t.flow.tcp.get p.direction).seen
  · rw [if_pos hseen] at h
    cases h
  rw [if_neg hseen] at h ⊢
  cases hreserve : t.reserve with
  | none => rfl
  | some t' =>
    rw [hreserve] at h
    exact absurd h (t'.sendData_ne_limit p key)

theorem scanData_limit (length : Int) (h : (t.scanData text p seg length).2 = .limit) :
    (t.scanData text p seg length).1 = t := by
  rw [scanData] at h ⊢
  cases hdigest : seg.digest with
  | none => rfl
  | some =>
    rw [hdigest] at h
    by_cases hdata : 0 < length ∧ !seg.control
    · simp only [hdata, and_self, if_true] at h ⊢
      exact t.scanKey_limit text p _ h
    · simp only [hdata, if_false]

/-- A repeat tells an event. -/
theorem scanKey_effect (key : DataKey) : ∃ told, Effect p t (t.scanKey text p key).1 told ∧
      (told = true → (t.scanKey text p key).2 = .next) := by
  rw [scanKey]
  by_cases hseen : key ∈ (t.flow.tcp.get p.direction).seen
  · rw [if_pos hseen]
    refine ⟨true, ?_, fun _ => rfl⟩
    have hambiguous : t.Quiet (t.modifyTcp p.direction fun own =>
        { own with rttAmbiguous := true }) :=
      modifyTcp_quiet rfl fun hwf => ⟨hwf.nodup, hwf.sent, hwf.seen⟩
    exact hambiguous.tells (observe_tells text _ p p.dest (by decide : Pattern.dataRetransmissions ≠ _))
  · rw [if_neg hseen]
    refine ⟨false, ?_, fun h => by cases h⟩
    cases hreserve : t.reserve with
    | none => exact .refl t
    | some => exact sendData_quiet hreserve p hseen

/-- Data tells an event if it repeats other data. It is refused without an event. -/
theorem scanData_effect (length : Int) : ∃ told, Effect p t (t.scanData text p seg length).1 told ∧
      (told = true ∨ (t.scanData text p seg length).2 = .limit → seg.control = false ∧ 0 < length) ∧
      (told = true → (t.scanData text p seg length).2 = .next) := by
  rw [scanData]
  cases seg.digest with
  | none => exact ⟨false, .refl t, by simp, by simp⟩
  | some digest =>
    simp only
    by_cases hdata : 0 < length ∧ !seg.control
    · rw [if_pos hdata]
      obtain ⟨told, heffect, hnext⟩ := t.scanKey_effect text p ⟨seg.seq, length, digest⟩
      exact ⟨told, heffect, fun _ => ⟨by simpa using hdata.2, hdata.1⟩, hnext⟩
    · rw [if_neg hdata]
      exact ⟨false, .refl t, by simp, by simp⟩

end

/-- The rules that need the payload length and the window. -/
theorem scanPayload_effect (hwf : t.flow.WF) (p : Arrival) :
    ∃ t' outcome told, t.scanPayload text p seg = .ok (t', outcome) ∧ Effect p t t' told ∧
      (told = true ∨ outcome = .limit → seg.control = false) ∧
      (told = true → outcome ≠ .limit) := by
  rw [scanPayload]
  split
  · next length window hlength hwindow =>
    have hcontrol := scanControl_quiet seg t p length
    obtain ⟨u, told, hok, hack, hflags⟩ :=
      scanAck_effect text seg (hcontrol.wf hwf) p length window
    obtain ⟨told', hdata, hflags', hnext⟩ := scanData_effect text seg u p length
    rw [hok]
    refine ⟨_, _, told || told', rfl, ?_, ?_, ?_⟩
    · have hquiet : Effect p t _ false := hcontrol
      have hboth := hquiet.trans hack (by simp)
      refine Effect.trans hboth hdata fun hone => ?_
      have hzero := (hflags hone.1).2.2
      have hpositive := (hflags' (.inl hone.2)).2
      omega
    · rintro (htold | hlimit)
      · rw [Bool.or_eq_true] at htold
        exact htold.elim (fun h => (hflags h).2.1) fun h => (hflags' (.inl h)).1
      · exact (hflags' (.inr hlimit)).1
    · intro htold hlimit
      rw [Bool.or_eq_true] at htold
      have hpositive := (hflags' (.inr hlimit)).2
      obtain htold | htold := htold
      · have hzero := (hflags htold).2.2
        omega
      · exact DataOutcome.noConfusion ((hnext htold).symm.trans hlimit)
  · exact ⟨t, .next, false, rfl, .refl t, by simp, by simp⟩

theorem scanClose_quiet (t : Tracker) (p : Arrival) : t.Quiet (t.scanClose p seg) := by
  have hclosure : t.Quiet { t with flow := { t.flow with closure := (t.closing p seg).2 } } :=
    .of_frame rfl rfl rfl rfl rfl
  rw [scanClose]
  split
  · exact hclosure.trans ((clearTcp_quiet _).trans (forgetEpoch_quiet _))
  · exact hclosure

/-- `_scan_tcp` does not raise. It tells one event at most, and none if it is refused. -/
theorem scanTcp_effect (hwf : t.flow.WF) (p : Arrival) :
    ∃ t' refused told, t.scanTcp text p = .ok (t', refused) ∧ Effect p t t' told ∧
      ¬(told = true ∧ refused = true) := by
  rw [scanTcp]
  cases readSegment p.record with
  | none => exact ⟨t, false, false, rfl, .refl t, by simp⟩
  | some seg =>
    obtain ⟨told, hsyn, hflags⟩ := scanSyn_effect text seg t p
    obtain ⟨told', hresponse, hflags'⟩ := scanResponse_effect text seg (t.scanSyn text p seg) p
    -- a SYN that repeats has no ACK, a reset that matches has one
    have hfirst := hsyn.trans hresponse fun hone => by
      have hno := (hflags hone.1).2
      rw [(hflags' hone.2).1] at hno
      cases hno
    obtain ⟨u, outcome, told'', hok, hpayload, hcontrol, hlimit⟩ :=
      scanPayload_effect text seg (hfirst.conserves.wf hwf) p
    -- both are control segments, which carry no data and no duplicate acknowledgment
    have hcontrol' : (told || told') = true → seg.control = true := by
      intro htold
      rw [Bool.or_eq_true] at htold
      rw [TcpSegment.control]
      obtain htold | htold := htold
      · simp [(hflags htold).1]
      · simp [(hflags' htold).2]
    have hall := hfirst.trans hpayload fun hone => by
      have hno := hcontrol (.inl hone.2)
      rw [hcontrol' hone.1] at hno
      cases hno
    simp only [hok]
    cases outcome with
    | next =>
      refine ⟨_, _, told || told' || told'', rfl, ?_, by simp⟩
      have hclose : Effect p u _ false := scanClose_quiet seg u p
      have htrans := hall.trans hclose (by simp)
      rwa [Bool.or_false] at htrans
    | returned => exact ⟨_, _, told || told' || told'', rfl, hall, by simp⟩
    | limit =>
      refine ⟨_, _, told || told' || told'', rfl, hall, ?_⟩
      rintro ⟨htold, -⟩
      rw [Bool.or_eq_true] at htold
      obtain htold | htold := htold
      · have hno := hcontrol (.inr rfl)
        rw [hcontrol' htold] at hno
        cases hno
      · exact hlimit htold rfl

/-- A datagram that is refused leaves the flow and the budget alone. -/
theorem scanUdp_refused (t : Tracker) (p : Arrival) (h : (t.scanUdp text p).2 = true) :
    (t.scanUdp text p).1 = t := by
  revert h
  rw [scanUdp]
  split
  · next length digest _ _ =>
    split
    · exact fun _ => rfl
    split
    · exact fun h => by cases h
    split
    · exact fun _ => rfl
    · exact fun h => by cases h
  · exact fun _ => rfl

/-- The branch of UDP tells one event at most, and none if it is refused. -/
theorem scanUdp_effect (t : Tracker) (p : Arrival) : ∃ told, Effect p t (t.scanUdp text p).1 told ∧
      ¬(told = true ∧ (t.scanUdp text p).2 = true) := by
  rw [scanUdp]
  split
  · next length digest hlength hdigest =>
    by_cases hempty : digest = ""
    · rw [if_pos hempty]
      exact ⟨false, .refl t, by simp⟩
    rw [if_neg hempty]
    by_cases hseen : (p.direction, length, digest) ∈ t.flow.udp
    · rw [if_pos hseen]
      have htells := observe_tells text t p p.dest (by decide : Pattern.udpDuplicateCandidates ≠ _)
      exact ⟨true, htells, by simp⟩
    rw [if_neg hseen]
    cases hreserve : t.reserve with
    | none => exact ⟨false, .refl t, by simp⟩
    | some t' =>
      refine ⟨false, ?_, by simp⟩
      have hflow : t'.flow = t.flow := by
        obtain ⟨-, rfl⟩ := reserve_eq_some.mp hreserve
        rfl
      have hlimited : t'.flow.limited = t.flow.limited := by rw [hflow]
      have hobservations : t'.flow.observations = t.flow.observations := by rw [hflow]
      refine .of_reserve hreserve rfl ?_ hlimited hobservations fun hwf direction => ?_
      · simp only [Flow.size, hflow, insert_of_not_mem hseen, length_cons]
        omega
      · rw [← hflow] at hwf
        exact hwf direction
  · exact ⟨false, .refl t, by simp⟩

end Rules

end Tracker

end C2Hunter.Network
