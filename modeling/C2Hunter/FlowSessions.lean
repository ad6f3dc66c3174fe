import C2Hunter.FlowSummary

/-!
# Conservation of packets

The records of an aggregator, returned and active, hold each packet that was added exactly once, so
that their counters add up to the packets and their bytes. Without `Expire` and `Flush`, the records of
a key are the sessions of its packets: a packet opens a new session if it comes at least the idle
timeout after the largest timestamp of the last one.

* `Held` — records and the packets in them.
* `Held.count_key`, `Held.bytes_key` — the counters of the records of a key.
* `sessions`, `InSessions.run` — records and sessions.
* `records_summarize` — all that records say.
-/

namespace C2Hunter.Aggregate

open List Function

/-! ## Counters -/

/-- Records, and the packets in each of them. -/
abbrev Held (sensorId : String) : List Record → List (List Packet) → Prop :=
  List.Forall₂ (Tallies sensorId)

variable {parts : List (List Packet)}

namespace Held

variable {sensorId : String} {records : List Record}

/-- The packets of a key are those in the records of the key. -/
theorem filter_part {r : Record} {ps : List Packet} (h : Tallies sensorId r ps) (key : Key) :
    ps.filter (fun p => keyOf sensorId p = key) = if r.key = key then ps else [] := by
  split
  · next hkey =>
    rw [filter_eq_self]
    intro p hp
    simp [h.key p hp, hkey]
  · next hkey =>
    rw [filter_eq_nil_iff]
    intro p hp
    simp [h.key p hp, hkey]

section

variable (h : Held sensorId records parts)

include h

theorem count_key (key : Key) : ((records.filter fun r => r.key = key).map Record.packetCount).sum =
      (parts.flatten.filter fun p => keyOf sensorId p = key).length := by
  induction h with
  | nil => rfl
  | @cons r ps records parts hr _ ih =>
    rw [flatten_cons, filter_append, length_append, ← ih, filter_part hr, filter_cons]
    by_cases hkey : r.key = key
    · simp [hkey, hr.packetCount]
    · simp [hkey]

theorem bytes_key (key : Key) : ((records.filter fun r => r.key = key).map fun r => r.sizes.totalBytes).sum =
      wireBytes (parts.flatten.filter fun p => keyOf sensorId p = key) := by
  induction h with
  | nil => rfl
  | @cons r ps records parts hr _ ih =>
    have happend : ∀ l l' : List Packet, wireBytes (l ++ l') = wireBytes l + wireBytes l' := by
      simp [wireBytes]
    rw [flatten_cons, filter_append, happend, ← ih, filter_part hr, filter_cons]
    by_cases hkey : r.key = key
    · simp [hkey, hr.totalBytes]
    · simp [hkey, wireBytes]

theorem count : (records.map Record.packetCount).sum = parts.flatten.length := by
  induction h with
  | nil => rfl
  | @cons r ps records parts hr _ ih =>
    rw [flatten_cons, length_append, ← ih, map_cons, sum_cons, hr.packetCount]

theorem bytes : (records.map fun r => r.sizes.totalBytes).sum = wireBytes parts.flatten := by
  induction h with
  | nil => rfl
  | @cons r ps records parts hr _ ih =>
    rw [flatten_cons, map_cons, sum_cons, hr.totalBytes, ih, wireBytes, wireBytes,
      wireBytes, map_append, sum_append]

end

end Held

variable {a : Aggregator} {emitted : List Record} {packets : List Packet} {now : Key → List Packet}

/-- The records of an aggregator, returned and active. -/
theorem Accounts.held {lib : Lib} (h : Accounts lib a emitted packets parts now) :
    ∃ parts', Held a.sensorId (emitted ++ a.active.rows) parts' ∧ parts'.flatten.Perm packets := by
  refine ⟨parts ++ a.active.rows.map fun r => now r.key, rel_append ?_ ?_, ?_⟩
  · exact h.emitted.imp fun _ _ hreturned => hreturned.tallies
  · rw [forall₂_map_right_iff, forall₂_same]
    exact fun r hr => (h.active r hr).1.tallies
  · refine .trans (.of_eq ?_) h.perm
    rw [flatten_append, flatMap_def, map_map]
    rfl

/-! ## Sessions -/

/-- One more packet of a key: it goes to the last session, unless it comes at least the idle timeout
after the largest timestamp of that. -/
def addToSessions (idle : Int) (sessions : List (List Packet)) (p : Packet) : List (List Packet) :=
  match sessions.getLast? with
  | none => [[p]]
  | some last =>
    if p.timestamp < latest last + idle then sessions.dropLast ++ [last ++ [p]] else sessions ++ [[p]]

/-- The sessions of packets. -/
def sessions (idle : Int) (ps : List Packet) : List (List Packet) := ps.foldl (addToSessions idle) []

theorem sessions_concat (idle : Int) (ps : List Packet) (p : Packet) :
    sessions idle (ps ++ [p]) = addToSessions idle (sessions idle ps) p := by
  rw [sessions, foldl_concat]
  rfl

theorem addToSessions_concat (idle : Int) (past : List (List Packet)) (last : List Packet) (p : Packet) :
    addToSessions idle (past ++ [last]) p =
      if p.timestamp < latest last + idle then past ++ [last ++ [p]] else past ++ [last] ++ [[p]] := by
  rw [addToSessions, getLast?_append, getLast?_singleton, dropLast_concat]
  rfl

/-- The records of each key are the sessions of its packets: those returned, `past`, and the active
one, `now`. -/
structure InSessions (lib : Lib) (a : Aggregator) (emitted : List Record) (added : List Packet)
    (past : Key → List (List Packet)) (now : Key → List Packet) : Prop where
  emitted : ∀ key, List.Forall₂ (Returned lib a.payloadPreviewBytes a.sensorId)
    (emitted.filter fun r => r.key = key) (past key)
  active : ∀ r ∈ a.active.rows,
    Summary lib a.payloadPreviewBytes a.sensorId r (now r.key) ∧ now r.key ≠ []
  split : ∀ key, sessions a.idle (added.filter fun p => keyOf a.sensorId p = key) =
    past key ++ if key ∈ a.active.rows.map Record.key then [now key] else []
  fresh : ∀ key ∉ a.active.rows.map Record.key, past key = []

theorem key_finalize (r : Record) : (finalize r).key = r.key := by
  rw [finalize]
  simp only
  split <;> rfl

variable {past : Key → List (List Packet)}

section

variable {lib : Lib}

/-- The packets of a key after one more. -/
theorem filter_concat (sensorId : String) (packets : List Packet) (p : Packet) (key : Key) :
    (packets ++ [p]).filter (fun q => keyOf sensorId q = key) =
      if keyOf sensorId p = key then packets.filter (fun q => keyOf sensorId q = key) ++ [p]
      else packets.filter fun q => keyOf sensorId q = key := by
  by_cases h : keyOf sensorId p = key <;> simp [h]

variable {out : List Record}

/-- What holds of each key after a packet holds if it holds of the key of the packet. -/
theorem InSessions.of_key (h : InSessions lib a emitted packets past now) {a' : Aggregator}
    {p : Packet} {ps : List Packet} {returned : List (List Packet)}
    (hsensor : a'.sensorId = a.sensorId) (hpreview : a'.payloadPreviewBytes = a.payloadPreviewBytes)
    (hidle : a'.idle = a.idle)
    (hout : List.Forall₂ (Returned lib a.payloadPreviewBytes a.sensorId) out returned)
    (houtKey : ∀ r ∈ out, r.key = keyOf a.sensorId p)
    (hactive : ∀ r ∈ a'.active.rows, Summary lib a.payloadPreviewBytes a.sensorId r
        (update now (keyOf a.sensorId p) ps r.key) ∧
      update now (keyOf a.sensorId p) ps r.key ≠ [])
    (hkeys : ∀ key, key ∈ a'.active.rows.map Record.key ↔
      key ∈ a.active.rows.map Record.key ∨ key = keyOf a.sensorId p) (hsessions : addToSessions a.idle
        (sessions a.idle (packets.filter fun q => keyOf a.sensorId q = keyOf a.sensorId p)) p =
      past (keyOf a.sensorId p) ++ returned ++ [ps]) :
    ∃ past' now', InSessions lib a' (emitted ++ out) (packets ++ [p]) past' now' := by
  refine ⟨update past (keyOf a.sensorId p) (past (keyOf a.sensorId p) ++ returned),
    update now (keyOf a.sensorId p) ps, fun key => ?_, ?_, fun key => ?_, fun key hkey => ?_⟩
  · rw [hsensor, hpreview, filter_append]
    by_cases hkey : key = keyOf a.sensorId p
    · subst hkey
      rw [update_self]
      refine rel_append (h.emitted _) ?_
      rwa [filter_eq_self.mpr fun r hr => by simp [houtKey r hr]]
    have hnone : (out.filter fun r => r.key = key) = [] := by
      rw [filter_eq_nil_iff]
      intro r hr
      simp [houtKey r hr, Ne.symm hkey]
    rw [update_of_ne hkey, hnone, append_nil]
    exact h.emitted key
  · rw [hsensor, hpreview]
    exact hactive
  · rw [hsensor, hidle, filter_concat]
    by_cases hkey : key = keyOf a.sensorId p
    · subst hkey
      rw [if_pos rfl, sessions_concat, hsessions, if_pos ((hkeys _).mpr (.inr rfl)), update_self, update_self]
    · rw [if_neg (Ne.symm hkey), h.split key, update_of_ne hkey, update_of_ne hkey]
      simp only [hkeys, hkey, or_false]
  · rw [hkeys, not_or] at hkey
    rw [update_of_ne hkey.2]
    exact h.fresh key hkey.1

theorem InSessions.add (h : InSessions lib a emitted packets past now) {a' : Aggregator} {p : Packet}
    {metadata : Metadata} (hsensor : a'.sensorId = a.sensorId)
    (hpreview : a'.payloadPreviewBytes = a.payloadPreviewBytes) (hidle : a'.idle = a.idle)
    (hadded : Added lib a p metadata a'.active out) :
    ∃ past' now', InSessions lib a' (emitted ++ out) (packets ++ [p]) past' now' := by
  have hnew : Summary lib a.payloadPreviewBytes a.sensorId (newRecord a.sensorId a.jobId p) [] :=
    .new p
  have hfitsNew : Fits a.sensorId (newRecord a.sensorId a.jobId p) [] p := ⟨rfl, fun _ => rfl⟩
  have hsessions := h.split (keyOf a.sensorId p)
  cases hadded with
  | opened hget hactive =>
    have hnone := Table.get?_eq_none.mp hget
    have hkeys := keys_active hfitsNew.key hactive
    rw [hget, if_neg (by simp)] at hkeys
    refine h.of_key hsensor hpreview hidle .nil (by simp)
      (summary_put h.active hnew hfitsNew hactive) (fun key => by simp [hkeys]) ?_
    rw [hsessions, h.fresh _ hnone, if_neg hnone]
    rfl
  | extended r hget hstale hactive =>
    have hmem := mem_keys_of_get? hget
    have hkey := Table.key_of_get? hget
    obtain ⟨hr, hne⟩ := h.active r (Table.mem_of_get? hget)
    have hfits : Fits a.sensorId r (now r.key) p := ⟨hkey.symm, fun hnil => absurd hnil hne⟩
    have hkeys := keys_active hfits.key hactive
    rw [hget, if_pos (by simp)] at hkeys
    refine h.of_key hsensor hpreview hidle .nil (by simp) (summary_put h.active hr hfits hactive) (fun key => ?_) ?_
    · rw [hkeys]
      exact ⟨.inl, fun hor => hor.elim id fun heq => heq ▸ hmem⟩
    · rw [Record.stale, Bool.not_eq_false', decide_eq_true_eq, hr.tallies.endTime, hkey] at hstale
      rw [hsessions, if_pos hmem, addToSessions_concat, if_pos hstale, hkey, append_nil]
  | split r hget hstale hactive =>
    have hmem := mem_keys_of_get? hget
    have hkey := Table.key_of_get? hget
    obtain ⟨hr, hne⟩ := h.active r (Table.mem_of_get? hget)
    have hkeys := keys_active hfitsNew.key hactive
    rw [hget, if_pos (by simp)] at hkeys
    have hout : List.Forall₂ (Returned lib a.payloadPreviewBytes a.sensorId) [finalize r] [now r.key] :=
      .cons ⟨r, hr, hne, rfl⟩ .nil
    refine h.of_key hsensor hpreview hidle hout (by simp [key_finalize, hkey])
      (summary_put h.active hnew hfitsNew hactive) (fun key => ?_) ?_
    · rw [hkeys]
      exact ⟨.inl, fun hor => hor.elim id fun heq => heq ▸ hmem⟩
    · rw [Record.stale, Bool.not_eq_true', decide_eq_false_iff_not, hr.tallies.endTime, hkey] at hstale
      rw [hsessions, if_pos hmem, addToSessions_concat, if_neg hstale, hkey]
      rfl

end

/-- Calls that only add packets. -/
theorem InSessions.run (lib : Lib) (hempty : a.active = Table.empty) (packets : List (Packet × Metadata)) :
    ∃ past now, InSessions lib (run lib a (packets.map fun p => .add p.1 p.2)).2
      (run lib a (packets.map fun p => .add p.1 p.2)).1
      (addedPackets (packets.map fun p => .add p.1 p.2)) past now := by
  induction packets using List.reverseRecOn with
  | nil =>
    refine ⟨fun _ => [], fun _ => [], fun key => .nil, ?_, fun key => ?_, fun _ _ => rfl⟩
    · change ∀ r ∈ a.active.rows, _
      simp [hempty]
    · change [] = [] ++ if key ∈ a.active.rows.map Record.key then _ else _
      simp [hempty]
  | append_singleton packets p ih =>
    obtain ⟨past, now, h⟩ := ih
    rw [map_append, map_singleton, run_concat, addedPackets, flatMap_append, flatMap_singleton]
    simp only [step, addedBy]
    split
    · next hwire =>
      rw [Aggregator.addWithMetadata, if_pos hwire, append_nil, append_nil]
      exact ⟨past, now, h⟩
    · next hwire =>
      obtain ⟨hsensor, hpreview, hidle⟩ := Aggregator.addWithMetadata_config lib
        (Aggregate.run lib a (packets.map fun p => .add p.1 p.2)).2 p.1 p.2
      exact h.add hsensor hpreview hidle (added hwire)

/-- The active record of a key. -/
theorem filter_rows (t : Table Record.key) (key : Key) :
    (t.rows.filter fun r => r.key = key) = (t.get? key).toList := by
  cases hget : t.get? key with
  | none =>
    rw [Table.get?_eq_none] at hget
    simp only [Option.toList_none, filter_eq_nil_iff, decide_eq_true_eq]
    exact fun r hr hkey => hget (mem_map.mpr ⟨r, hr, hkey⟩)
  | some r =>
    have hmem := Table.get?_eq_some.mp hget
    have hnodup : t.rows.Nodup := t.nodup.of_map
    rw [Option.toList_some, ← perm_singleton, perm_ext_iff_of_nodup (hnodup.filter _) (nodup_singleton r)]
    intro s
    rw [mem_filter, decide_eq_true_eq, mem_singleton]
    constructor
    · exact fun hs => Option.some.inj ((Table.get?_eq_some.mpr hs).symm.trans hget)
    · rintro rfl
      exact hmem

/-- The records of a key are its sessions. -/
theorem InSessions.held {lib : Lib} (h : InSessions lib a emitted packets past now) (key : Key) :
    Held a.sensorId ((emitted ++ a.active.rows).filter fun r => r.key = key)
      (sessions a.idle (packets.filter fun p => keyOf a.sensorId p = key)) := by
  rw [h.split, filter_append, filter_rows]
  refine rel_append ((h.emitted key).imp fun _ _ hreturned => hreturned.tallies) ?_
  cases hget : a.active.get? key with
  | none =>
    rw [if_neg (Table.get?_eq_none.mp hget)]
    exact .nil
  | some r =>
    have hmem := Table.get?_eq_some.mp hget
    rw [if_pos (mem_map.mpr ⟨r, hmem.1, hmem.2⟩)]
    exact .cons (hmem.2 ▸ (h.active r hmem.1).1.tallies) .nil

end C2Hunter.Aggregate
