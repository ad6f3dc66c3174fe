import C2Hunter.PostingContents

/-!
# Building a posting generation

`build_packet_postings` consumes a decoder packet by packet, checks each packet against
the structural snapshot, collects the memberships of a batch of packets and flushes the
batch into chunks.

* `buildPacketPostings` — the function of the source; `flush` and `buildPacket` are its
  inner function and the body of its loop.
* `Indexed` — the invariant of the loop: for each term, what the chunks store followed by
  what the batch still holds is the posting list of the packets so far.
* `buildPacket_indexed`, `flush_indexed` — one round and one flush keep it.
* `buildPacketPostings_eq_ok` — a generation that is returned contains the posting lists of
  the decoded packets.
-/

namespace C2Hunter

open Except

open List

/-! ## The function -/

/-- What `build_packet_postings` raises. -/
inductive PostingBuildError where
  | parse (e : PcapParseError)
  | value (e : ValueError)
  | codec (e : PostingCodecError)
  | packetLimit
  | membershipLimit
  | distinctKeyLimit
  | encodedByteLimit
  | chunkLimit
  | interfaceIdentities
  | extraPacket
  | snapshotMismatch
  | packetCountMismatch
  | integrityMismatch
  deriving DecidableEq, Repr

namespace PostingBuildError

/-- The text of the exception. -/
def message : PostingBuildError → String
  | parse e => e.message
  | value e => e.message
  | codec e => e.message
  | packetLimit => "posting packet limit exceeded"
  | membershipLimit => "posting membership limit exceeded"
  | distinctKeyLimit => "posting distinct-key limit exceeded"
  | encodedByteLimit => "posting encoded-byte limit exceeded"
  | chunkLimit => "posting chunk limit exceeded"
  | interfaceIdentities => "structural interface identities are invalid"
  | extraPacket => "decoder produced extra packet"
  | snapshotMismatch => "posting source does not match structural snapshot"
  | packetCountMismatch => "decoder packet count does not match structural snapshot"
  | integrityMismatch => "built posting generation failed validation"

/-- The `code` attribute, for the exceptions that have one. -/
def code : PostingBuildError → Option String
  | parse e => some e.code
  | value _ => none
  | codec _ => some "POSTING_CODEC_INVALID"
  | packetLimit | membershipLimit | distinctKeyLimit | encodedByteLimit | chunkLimit =>
    some "POSTING_RESOURCE_LIMIT"
  | interfaceIdentities | extraPacket | snapshotMismatch | packetCountMismatch =>
    some "POSTING_STRUCTURAL_MISMATCH"
  | integrityMismatch => some "POSTING_INTEGRITY_MISMATCH"

end PostingBuildError

/-- The structural entries of a capture. They come from the structural scanner, which
numbers the packets in order. -/
structure StructuralSnapshot where
  packets : List StructuralPacketEntry
  interfaces : List StructuralInterfaceEntry
  indexed : ∀ (i : Nat) (e : StructuralPacketEntry), packets[i]? = some e → e.packetIndex = i

/-- The variables of `build_packet_postings`. -/
structure BuildState where
  chunks : List PostingChunk
  nextChunk : Dict PostingKey Nat
  distinct : List PostingKey
  memberships : Nat
  encodedBytes : Nat
  supported : Nat
  count : Nat
  batch : Dict PostingKey (List Int)

/-- Their initial values. -/
def BuildState.initial : BuildState := ⟨[], Table.empty, [], 0, 0, 0, 0, Table.empty⟩

/-- The chunk that `flush` makes of a term of the batch. The lists of the batch are never
empty, since they are made by appending. -/
def pendingChunk (s : BuildState) (key : PostingKey) : Except PostingBuildError PostingChunk := do
  let ordinals := s.batch.getD key []
  let encoded ← (encodeOrdinals ordinals).mapError .codec
  .ok {
    dimension := key.1
    value := key.2
    chunkOrdinal := s.nextChunk.getD key 0
    firstPacketIndex := ordinals.headD 0
    lastPacketIndex := ordinals.getLastD 0
    count := ordinals.length
    encodedOrdinals := encoded }

/-- `flush`. -/
def flush (limits : PostingBuildLimits) (s : BuildState) : Except PostingBuildError BuildState := do
  let pending ← (sortKeys s.batch.keys).mapM (pendingChunk s)
  let pendingBytes := (pending.map fun c => c.encodedOrdinals.length).sum
  if s.encodedBytes + pendingBytes > limits.maxEncodedBytes then .error .encodedByteLimit
  else if s.chunks.length + pending.length > limits.maxChunks then .error .chunkLimit
  else
    .ok { s with
      nextChunk := (pending.map PostingChunk.key).foldl Dict.bump s.nextChunk
      chunks := s.chunks ++ pending
      encodedBytes := s.encodedBytes + pendingBytes
      batch := Table.empty }

/-- `{int(item.interface_ordinal): item for item in structural_interfaces}`. -/
def interfaceByOrdinal (interfaces : List StructuralInterfaceEntry) :
    Table CaptureInterface.interfaceOrdinal :=
  interfaces.foldl Table.put Table.empty

/-- `_same_interface`. -/
def sameInterface (decoded : CaptureInterface) (structural : StructuralInterfaceEntry) : Bool :=
  decoded.sectionIndex = structural.sectionIndex ∧
  decoded.interfaceId = structural.interfaceId ∧
  decoded.interfaceOrdinal = structural.interfaceOrdinal ∧
  decoded.linkType = structural.linkType ∧
  decoded.snaplen = structural.snaplen ∧
  decoded.timestampResolutionNumerator = structural.timestampResolutionNumerator ∧
  decoded.timestampResolutionDenominator = structural.timestampResolutionDenominator ∧
  decoded.timestampOffsetSeconds = structural.timestampOffsetSeconds

/-- The condition under which a decoded packet is the one of a structural entry. -/
def matchesEntry (interfaces : List StructuralInterfaceEntry) (expected : StructuralPacketEntry)
    (packet : ExportPacket) : Bool :=
  decide (packet.locator.packetIndex = expected.packetIndex ∧
    packet.locator.recordOffset = expected.recordOffset ∧
    packet.locator.dataOffset = expected.dataOffset ∧
    packet.locator.capturedLength = expected.capturedLength ∧
    packet.locator.framedLength = expected.framedLength) &&
  decide (packet.originalLength = expected.originalLength) &&
  match (interfaceByOrdinal interfaces).get? expected.interfaceOrdinal with
  | none => false
  | some structural =>
    decide (expected.sectionIndex = packet.interface.sectionIndex ∧
      expected.interfaceId = packet.interface.interfaceId ∧
      expected.interfaceOrdinal = packet.interface.interfaceOrdinal) &&
    sameInterface packet.interface structural

/-- The body of `for packet in decoder.iter_packets()`. -/
def buildPacket (py : Python) (packets : List StructuralPacketEntry)
    (interfaces : List StructuralInterfaceEntry) (limits : PostingBuildLimits) (s : BuildState)
    (packet : ExportPacket) : Except PostingBuildError BuildState :=
  if s.count ≥ limits.maxPackets then .error .packetLimit
  else
    match packets[s.count]? with
    | none => .error .extraPacket
    | some expected =>
      if ¬matchesEntry interfaces expected packet then .error .snapshotMismatch
      else do
        let item ← (projection py packet).mapError .value
        let packetMemberships := projectionMemberships item
        if s.memberships + packetMemberships.length > limits.maxMemberships then
          .error .membershipLimit
        else
          let newKeys := packetMemberships.filter (· ∉ s.distinct)
          if s.distinct.length + newKeys.length > limits.maxDistinctKeys then
            .error .distinctKeyLimit
          else
            let s := { s with
              distinct := s.distinct ++ newKeys
              memberships := s.memberships + packetMemberships.length
              supported := s.supported + item.supported.toNat
              batch := s.batch.pushAll (packetMemberships.map fun key => (key, (s.count : Int)))
              count := s.count + 1 }
            if s.count % limits.batchSize = 0 then flush limits s else .ok s

/-- The generation that is assembled after the loop, before its digest is set. -/
def assembleGeneration (s : BuildState) (bindingDocument : Bytes) : PostingGeneration where
  schemaVersion := postingSchemaVersion
  parserContractVersion := postingParserContractVersion
  filterContractVersion := postingFilterContractVersion
  packetCount := s.count
  supportedCount := s.supported
  membershipCount := s.memberships
  distinctKeyCount := s.distinct.length
  encodedByteCount := s.encodedBytes
  completeDimensions := allDimensions
  chunks := s.chunks
  digest := ""
  bindingDocument := bindingDocument

/-- `build_packet_postings` up to the check of the packet count. -/
def collectPostings (py : Python) (decoder : Gen PcapParseError ExportPacket)
    (snapshot : StructuralSnapshot) (limits : PostingBuildLimits) :
    Except PostingBuildError BuildState :=
  if (interfaceByOrdinal snapshot.interfaces).rows.length ≠ snapshot.interfaces.length then
    .error .interfaceIdentities
  else do
    let s ← Gen.consume (fun e => .error (.parse e))
      (buildPacket py snapshot.packets snapshot.interfaces limits) BuildState.initial decoder
    let s ← flush limits s
    if s.count ≠ snapshot.packets.length ∨ s.count < 1 then .error .packetCountMismatch
    else .ok s

/-- `replace(generation, digest=digest)`. -/
def PostingGeneration.withDigest (generation : PostingGeneration) (digest : String) :
    PostingGeneration :=
  { generation with digest := digest }

/-- The rest of `build_packet_postings`: set the digest and validate. -/
def sealGeneration (py : Python) (generation : PostingGeneration) :
    Except PostingBuildError PostingGeneration := do
  let digest ← (generationDigest py generation).mapError .codec
  let generation := generation.withDigest digest
  if ¬validatePostingGeneration py generation .default then .error .integrityMismatch
  else .ok generation

/-- `build_packet_postings`. -/
def buildPacketPostings (py : Python) (decoder : Gen PcapParseError ExportPacket)
    (snapshot : StructuralSnapshot) (limits : PostingBuildLimits) (bindingDocument : Bytes) :
    Except PostingBuildError PostingGeneration := do
  let s ← collectPostings py decoder snapshot limits
  sealGeneration py (assembleGeneration s bindingDocument)

/-! ## Rounds and flushes taken apart -/

/-- The state after a packet is accepted, before a flush. -/
def BuildState.accept (s : BuildState) (packet : ExportPacket) : BuildState :=
  { s with
    distinct := s.distinct ++ (packetTerms packet).filter (· ∉ s.distinct)
    memberships := s.memberships + (packetTerms packet).length
    supported := s.supported + packet.supported.toNat
    batch := s.batch.pushAll ((packetTerms packet).map fun key => (key, (s.count : Int)))
    count := s.count + 1 }

variable {limits : PostingBuildLimits} {s : BuildState} {py : Python}
    {packets : List StructuralPacketEntry} {interfaces : List StructuralInterfaceEntry}
    {packet : ExportPacket}

section

variable {t : BuildState}

/-- A round of the loop that succeeds. -/
theorem buildPacket_eq_ok : buildPacket py packets interfaces limits s packet = .ok t ↔
      s.count < limits.maxPackets ∧
      (∃ e, packets[s.count]? = some e ∧ matchesEntry interfaces e packet = true) ∧
      (s.accept packet).memberships ≤ limits.maxMemberships ∧
      (s.accept packet).distinct.length ≤ limits.maxDistinctKeys ∧
      (if (s.count + 1) % limits.batchSize = 0 then flush limits (s.accept packet)
        else .ok (s.accept packet)) = .ok t := by
  obtain ⟨item, hitem, hsup, hterms⟩ := projection_terms py packet
  rw [buildPacket, guard_eq_ok, not_le]
  refine and_congr_right fun _ => ?_
  cases packets[s.count]? with
  | none => simp
  | some =>
    simp only [guard_eq_ok, not_not, hitem, Option.some.injEq, exists_eq_left']
    refine and_congr_right fun _ => ?_
    change (if _ then _ else _) = _ ↔ _
    rw [hterms, hsup, guard_eq_ok, guard_eq_ok, not_lt, not_lt, ← length_append]
    rfl

/-- A flush that succeeds. -/
theorem flush_eq_ok : flush limits s = .ok t ↔
      ∃ pending, List.Forall₂ (fun key c => pendingChunk s key = .ok c) (sortKeys s.batch.keys) pending ∧
        t = { s with
          nextChunk := (pending.map PostingChunk.key).foldl Dict.bump s.nextChunk
          chunks := s.chunks ++ pending
          encodedBytes :=
            s.encodedBytes + (pending.map fun c => c.encodedOrdinals.length).sum
          batch := Table.empty } ∧
        t.encodedBytes ≤ limits.maxEncodedBytes ∧ t.chunks.length ≤ limits.maxChunks := by
  simp only [flush, bind_eq_ok, List.mapM_eq_ok, guard_eq_ok, not_lt, Except.ok.injEq, ← length_append]
  refine exists_congr fun pending => and_congr_right fun _ => ?_
  constructor
  · rintro ⟨hbytes, hchunks, rfl⟩
    exact ⟨rfl, hbytes, hchunks⟩
  · rintro ⟨rfl, hbytes, hchunks⟩
    exact ⟨hbytes, hchunks, rfl⟩

/-! ## The invariant -/

/-- The chunk at position `item.2` among the chunks of its term was made from `xs`. -/
def MadeFrom (item : PostingChunk × Nat) (xs : List Int) : Prop :=
  encodeOrdinals xs = .ok item.1.encodedOrdinals ∧
  item.1.chunkOrdinal = item.2 ∧ item.1.count = xs.length ∧
  xs.head? = some item.1.firstPacketIndex ∧ xs.getLast? = some item.1.lastPacketIndex

/-- The ordinals of the packets with a term. -/
def packetPosting (packets : List ExportPacket) (k : PostingKey) : List Int :=
  (InvertedIndex.posting (packets.map packetTerms) k).map Nat.cast

end

/-- The loop invariant after the packets `packets`. -/
structure Indexed (limits : PostingBuildLimits) (packets : List ExportPacket) (s : BuildState) :
    Prop where
  /-- chunks and batch together hold the posting lists -/
  stored : ∀ k, ∃ xss, List.Forall₂ MadeFrom (s.chunks.filter fun c => c.key = k).zipIdx xss ∧
    xss.flatten ++ s.batch.getD k [] = packetPosting packets k
  nextChunk : ∀ k, s.nextChunk.getD k 0 = (s.chunks.filter fun c => c.key = k).length
  mem_batch : ∀ k, k ∈ s.batch.keys ↔ s.batch.getD k [] ≠ []
  nodup_distinct : s.distinct.Nodup
  mem_distinct : ∀ k, k ∈ s.distinct ↔ packetPosting packets k ≠ []
  memberships : s.memberships = (packets.map fun p => (packetTerms p).length).sum
  encodedBytes : s.encodedBytes = (s.chunks.map fun c => c.encodedOrdinals.length).sum
  supported : s.supported = packets.countP ExportPacket.supported
  count : s.count = packets.length
  index : ∀ (i : Nat) (p : ExportPacket), packets[i]? = some p → p.locator.packetIndex = i
  count_le : s.count ≤ limits.maxPackets
  memberships_le : s.memberships ≤ limits.maxMemberships
  distinct_le : s.distinct.length ≤ limits.maxDistinctKeys
  encodedBytes_le : s.encodedBytes ≤ limits.maxEncodedBytes
  chunks_le : s.chunks.length ≤ limits.maxChunks

theorem indexed_initial (limits : PostingBuildLimits) : Indexed limits [] .initial where
  stored _ := ⟨[], .nil, rfl⟩
  nextChunk _ := rfl
  mem_batch k := by simp [BuildState.initial, Dict.keys]
  nodup_distinct := nodup_nil
  mem_distinct k := by simp [BuildState.initial, packetPosting]
  memberships := rfl
  encodedBytes := rfl
  supported := rfl
  count := rfl
  index i p h := by cases h
  count_le := Nat.zero_le _
  memberships_le := Nat.zero_le _
  distinct_le := Nat.zero_le _
  encodedBytes_le := Nat.zero_le _
  chunks_le := Nat.zero_le _

/-- A packet adds its position to the lists of its terms. -/
theorem packetPosting_append (packets : List ExportPacket) (packet : ExportPacket) (k : PostingKey) :
    packetPosting (packets ++ [packet]) k =
      packetPosting packets k ++ if k ∈ packetTerms packet then [(packets.length : Int)] else [] := by
  rw [packetPosting, map_append, map_singleton, InvertedIndex.posting_append, map_append, length_map]
  congr 1
  split <;> rfl

/-- What the batch holds for a term after a packet. -/
theorem getD_batch_accept (s : BuildState) (packet : ExportPacket) (k : PostingKey) :
    (s.accept packet).batch.getD k [] =
      s.batch.getD k [] ++ if k ∈ packetTerms packet then [(s.count : Int)] else [] := by
  have hfilter : (packetTerms packet).filter (fun key => key = k) = if k ∈ packetTerms packet then [k] else [] := by
    rw [filter_eq, (nodup_packetTerms packet).count]
    split <;> rfl
  rw [BuildState.accept, Dict.getD_pushAll, filter_map, map_map]
  congr 1
  change ((packetTerms packet).filter fun key => key = k).map _ = _
  rw [hfilter]
  split <;> rfl

variable {snapshot : StructuralSnapshot} {xss : List (List Int)}

section

variable {packets : List ExportPacket} {k : PostingKey} {t : BuildState}

/-- Accepting a packet keeps the invariant. -/
theorem Indexed.accept (h : Indexed limits packets s)
    (hindex : packet.locator.packetIndex = packets.length) (hcount : s.count < limits.maxPackets)
    (hmem : (s.accept packet).memberships ≤ limits.maxMemberships)
    (hdistinct : (s.accept packet).distinct.length ≤ limits.maxDistinctKeys) :
    Indexed limits (packets ++ [packet]) (s.accept packet) where
  stored k := by
    obtain ⟨xss, hmade, hflat⟩ := h.stored k
    refine ⟨xss, hmade, ?_⟩
    rw [getD_batch_accept, packetPosting_append, ← append_assoc, hflat, h.count]
  nextChunk := h.nextChunk
  mem_batch k := by
    rw [getD_batch_accept, BuildState.accept, Dict.mem_keys_pushAll, h.mem_batch, map_map]
    change _ ∨ k ∈ (packetTerms packet).map id ↔ _
    rw [List.map_id]
    by_cases hk : k ∈ packetTerms packet
    · simp [hk]
    · simp [hk]
  nodup_distinct := by
    refine nodup_append.mpr ⟨h.nodup_distinct, (nodup_packetTerms packet).filter _, ?_⟩
    rintro a ha b hb rfl
    exact of_decide_eq_true (mem_filter.mp hb).2 ha
  mem_distinct k := by
    have hfilter : k ∈ (packetTerms packet).filter (· ∉ s.distinct) ↔ k ∈ packetTerms packet ∧ k ∉ s.distinct := by
      rw [mem_filter, decide_eq_true_eq]
    rw [BuildState.accept, mem_append, hfilter, h.mem_distinct, packetPosting_append]
    by_cases hk : k ∈ packetTerms packet
    · by_cases hp : packetPosting packets k = []
      · simp [hk, hp]
      · simp [hk, hp]
    · simp [hk]
  memberships := by simp [BuildState.accept, h.memberships]
  encodedBytes := h.encodedBytes
  supported := by
    rw [BuildState.accept, h.supported, countP_append, countP_singleton]
    cases packet.supported <;> rfl
  count := by simp [BuildState.accept, h.count]
  index i p hp := by
    rcases Nat.lt_or_ge i packets.length with hlt | hge
    · rw [getElem?_append_left hlt] at hp
      exact h.index i p hp
    rw [getElem?_append_right hge, getElem?_singleton] at hp
    split at hp
    · cases hp
      omega
    · cases hp
  count_le := hcount
  memberships_le := hmem
  distinct_le := hdistinct
  encodedBytes_le := h.encodedBytes_le
  chunks_le := h.chunks_le

/-- A pending chunk is made from what the batch holds for its term. -/
theorem pendingChunk_eq_ok {c : PostingChunk} (hne : s.batch.getD k [] ≠ []) (h : pendingChunk s k = .ok c) :
    c.key = k ∧ MadeFrom (c, s.nextChunk.getD k 0) (s.batch.getD k []) := by
  rw [pendingChunk, bind_eq_ok] at h
  obtain ⟨encoded, henc, h⟩ := h
  rw [mapError_eq_ok] at henc
  cases h
  refine ⟨rfl, henc, rfl, rfl, ?_, ?_⟩
  · cases hb : s.batch.getD k [] with
    | nil => exact absurd hb hne
    | cons => rfl
  · cases hb : s.batch.getD k [] with
    | nil => exact absurd hb hne
    | cons => rw [getLast?_cons, getLastD_cons, getLastD_eq_getLast?]

/-- The pending chunks of a term: one when it is in the batch, none otherwise. -/
theorem filter_pending {keys : List PostingKey} {pending : List PostingChunk} (hnd : keys.Nodup)
    (hne : ∀ k ∈ keys, s.batch.getD k [] ≠ [])
    (h : List.Forall₂ (fun key c => pendingChunk s key = .ok c) keys pending) (k : PostingKey) :
    (k ∈ keys → ∃ c, (pending.filter fun c => c.key = k) = [c] ∧
        MadeFrom (c, s.nextChunk.getD k 0) (s.batch.getD k [])) ∧
    (k ∉ keys → (pending.filter fun c => c.key = k) = []) := by
  induction h with
  | nil => simp
  | @cons k' c keys pending hc hrest ih =>
    obtain ⟨hk', hnd⟩ := nodup_cons.mp hnd
    have ih := ih hnd fun k hk => hne k (mem_cons_of_mem _ hk)
    obtain ⟨hkey, hmade⟩ := pendingChunk_eq_ok (hne k' mem_cons_self) hc
    by_cases hk : k = k'
    · subst hk
      refine ⟨fun _ => ⟨c, ?_, hmade⟩, fun hout => absurd mem_cons_self hout⟩
      rw [filter_cons_of_pos (by simpa using hkey), ih.2 hk']
    · have hck : ¬c.key = k := fun hc => hk (hc.symm.trans hkey)
      rw [filter_cons_of_neg (by simpa using hck), mem_cons]
      simpa [hk] using ih

/-- Flushing keeps the invariant. -/
theorem Indexed.flush (h : Indexed limits packets s) (hrun : C2Hunter.flush limits s = .ok t) :
    Indexed limits packets t ∧ t.batch = Table.empty := by
  obtain ⟨pending, hpending, rfl, hbytes, hchunks⟩ := flush_eq_ok.mp hrun
  have hperm := sortKeys_perm s.batch.keys
  have hgroup := filter_pending (hperm.nodup_iff.mpr s.batch.nodup)
    (fun k hk => (h.mem_batch k).mp (hperm.mem_iff.mp hk)) hpending
  refine ⟨⟨fun k => ?_, fun k => ?_, ?_, h.nodup_distinct, h.mem_distinct, h.memberships, ?_,
    h.supported, h.count, h.index, h.count_le, h.memberships_le, h.distinct_le, hbytes, hchunks⟩,
    rfl⟩
  · obtain ⟨xss, hmade, hflat⟩ := h.stored k
    have hk := hgroup k
    dsimp only
    rw [filter_append, Dict.getD_empty]
    simp only [append_nil]
    by_cases hin : k ∈ sortKeys s.batch.keys
    · obtain ⟨c, hc, hmadec⟩ := hk.1 hin
      refine ⟨xss ++ [s.batch.getD k []], ?_, by rw [flatten_append, ← hflat]; simp⟩
      rw [hc, zipIdx_append]
      refine rel_append hmade (.cons ?_ .nil)
      rw [Nat.zero_add, ← h.nextChunk k]
      exact hmadec
    · rw [hk.2 hin, append_nil]
      rw [hperm.mem_iff, h.mem_batch, not_not] at hin
      exact ⟨xss, hmade, by rw [← hflat, hin, append_nil]⟩
  · rw [Dict.getD_foldl_bump, h.nextChunk, filter_append, length_append, filter_map, length_map]
    rfl
  · intro k
    simp [Dict.keys]
  · rw [map_append, sum_append, h.encodedBytes]

/-- One round of the loop keeps the invariant. -/
theorem Indexed.buildPacket (h : Indexed limits packets s)
    (hrun : buildPacket py snapshot.packets snapshot.interfaces limits s packet = .ok t) :
    Indexed limits (packets ++ [packet]) t := by
  obtain ⟨hcount, ⟨e, he, hmatch⟩, hmem, hdistinct, hflush⟩ := buildPacket_eq_ok.mp hrun
  have hindex : packet.locator.packetIndex = packets.length := by
    rw [matchesEntry, Bool.and_eq_true, Bool.and_eq_true, decide_eq_true_eq] at hmatch
    rw [hmatch.1.1.1, snapshot.indexed _ e he, h.count]
  have hacc := h.accept hindex hcount hmem hdistinct
  split at hflush
  · exact (hacc.flush hflush).1
  · cases hflush
    exact hacc

/-! ## The generation that is returned -/

/-- The chunks of a term stand in the order of their ordinals. -/
theorem ordered_of_madeFrom {l : List PostingChunk} {i : Nat} (h : List.Forall₂ MadeFrom (l.zipIdx i) xss) :
    l.Pairwise (fun a b => a.chunkOrdinal ≤ b.chunkOrdinal) ∧ ∀ c ∈ l, i ≤ c.chunkOrdinal := by
  induction l generalizing i xss with
  | nil => exact ⟨.nil, by simp⟩
  | cons c l ih =>
    rw [zipIdx_cons] at h
    obtain ⟨xs, xss, hmade, hrest, rfl⟩ := forall₂_cons_left_iff.mp h
    obtain ⟨hpair, hle⟩ := ih hrest
    have hord : c.chunkOrdinal = i := hmade.2.1
    refine ⟨pairwise_cons.mpr ⟨fun c' hc' => ?_, hpair⟩, fun c' hc' => ?_⟩
    · have := hle c' hc'
      omega
    · rcases mem_cons.mp hc' with rfl | hc'
      · exact hord.ge
      · have := hle c' hc'
        omega

theorem mem_packetPosting {x : Int} : x ∈ packetPosting packets k ↔
      ∃ (i : Nat) (p : ExportPacket), packets[i]? = some p ∧ k ∈ packetTerms p ∧ x = i := by
  rw [packetPosting, mem_map]
  constructor
  · rintro ⟨i, hi, rfl⟩
    obtain ⟨doc, hdoc, hk⟩ := InvertedIndex.mem_posting.mp hi
    rw [getElem?_map, Option.map_eq_some_iff] at hdoc
    obtain ⟨p, hp, rfl⟩ := hdoc
    exact ⟨i, p, hp, hk, rfl⟩
  · rintro ⟨i, p, hp, hk, rfl⟩
    refine ⟨i, InvertedIndex.mem_posting.mpr ⟨packetTerms p, ?_, hk⟩, rfl⟩
    rw [getElem?_map, hp, Option.map_some]

theorem pairwise_packetPosting (packets : List ExportPacket) (k : PostingKey) :
    (packetPosting packets k).Pairwise (· < ·) := by
  refine (InvertedIndex.pairwise_posting (packets.map packetTerms) k).map Nat.cast fun a b hab => ?_
  omega

theorem allPacket_mem_packetTerms (packet : ExportPacket) : (PostingDimension.allPacket, []) ∈ packetTerms packet :=
  mem_packetTerms.mpr (.inl rfl)

/-- The term that every packet has lists every position. -/
theorem packetPosting_allPacket (packets : List ExportPacket) :
    packetPosting packets (.allPacket, []) = (List.range packets.length).map Nat.cast := by
  induction packets using List.reverseRecOn with
  | nil => rfl
  | append_singleton packets packet ih =>
    rw [packetPosting_append, ih, if_pos (allPacket_mem_packetTerms packet), length_append,
      length_singleton, range_succ, map_append, map_singleton]

theorem consecutive_range (n : Nat) : Consecutive 0 ((List.range n).map Nat.cast) := by
  induction n with
  | zero => trivial
  | succ n ih =>
    rw [range_succ, map_append, consecutive_append]
    refine ⟨ih, ?_, trivial⟩
    simp

end

variable {g : PostingGeneration}

section Result

variable {packets : List ExportPacket}

/-- The posting lists are lists the codec is for. -/
theorem Indexed.increasing (h : Indexed limits packets s) (hb : s.batch = Table.empty)
    (k : PostingKey) : Increasing (-1) (packetPosting packets k) := by
  obtain ⟨xss, hmade, hflat⟩ := h.stored k
  rw [hb, Dict.getD_empty, append_nil] at hflat
  have hinc : ∀ xs ∈ xss, Increasing (-1) xs := by
    intro xs hxs
    obtain ⟨item, hitem⟩ := exists_right_of_mem hmade.flip hxs
    exact (encodeOrdinals_eq_ok.mp hitem.1).1
  refine (increasing_iff le_rfl).mpr ⟨pairwise_packetPosting packets k, ?_, ?_⟩
  · intro x hx
    rw [← hflat, mem_flatten] at hx
    obtain ⟨xs, hxs, hx⟩ := hx
    exact ((increasing_iff le_rfl).mp (hinc xs hxs)).2.1 x hx
  · intro x hx
    cases xss with
    | nil =>
      rw [← hflat] at hx
      cases hx
    | cons xs =>
      obtain ⟨item, -, ⟨-, -, -, hfirst, -⟩, -, -⟩ := forall₂_cons_right_iff.mp hmade
      rw [← hflat, flatten_cons, head?_append, hfirst, Option.some_or] at hx
      exact ((increasing_iff le_rfl).mp (hinc xs mem_cons_self)).2.2 x (hfirst.trans hx)

/-- Chunks made from ordinals under a bound can be read back under this bound. -/
theorem chunkOk_of_madeFrom {n : Int} (hn : 0 ≤ n - 1 ∧ n - 1 ≤ maxPostingOrdinal)
    {l : List (PostingChunk × Nat)} (h : List.Forall₂ MadeFrom l xss)
    (hbound : ∀ x ∈ xss.flatten, x ≤ n - 1) : List.Forall₂ (ChunkOk n) l xss := by
  induction h with
  | nil => exact .nil
  | @cons item xs l xss hitem _ ih =>
    simp only [flatten_cons, mem_append] at hbound
    obtain ⟨henc, hrest⟩ := hitem
    obtain ⟨hinc, hdeltas⟩ := encodeOrdinals_eq_ok.mp henc
    refine .cons ⟨decodeOrdinals_eq_ok.mpr ⟨?_, hinc, hdeltas, ?_⟩, hrest⟩ (ih fun x hx => hbound x (.inr hx))
    · rintro m ⟨⟩
      exact hn
    · rintro m ⟨⟩ x hx
      exact hbound x (.inl hx)

/-- After the last flush the chunks contain the posting lists. -/
theorem Indexed.contains (h : Indexed limits packets s) (hb : s.batch = Table.empty)
    (hne : packets ≠ []) (hchunks : g.chunks = s.chunks) (hcount : g.packetCount = packets.length) :
    Contains py g (packetPosting packets) where
  stored k := by
    obtain ⟨xss, hmade, hflat⟩ := h.stored k
    rw [hb, Dict.getD_empty, append_nil] at hflat
    have hpos : 0 < packets.length := length_pos_iff.mpr hne
    have hbound : ∀ x ∈ packetPosting packets k, x ≤ packets.length - 1 := by
      intro x hx
      obtain ⟨i, p, hp, -, rfl⟩ := mem_packetPosting.mp hx
      have := (List.getElem?_eq_some_iff.mp hp).1
      omega
    have hlast : ((packets.length - 1 : Nat) : Int) ∈ packetPosting packets (.allPacket, []) := by
      rw [packetPosting_allPacket]
      exact mem_map_of_mem (mem_range.mpr (by omega))
    have huniverse := ((increasing_iff le_rfl).mp (h.increasing hb (.allPacket, []))).2.1 _ hlast
    have hsort : sortChunks (s.chunks.filter fun c => c.key = k) = s.chunks.filter fun c => c.key = k :=
      (ordered_of_madeFrom hmade).1.insertionSort_eq
    refine ⟨xss, ?_, hflat.symm⟩
    rw [hchunks, hcount, hsort]
    exact chunkOk_of_madeFrom ⟨by omega, by omega⟩ hmade (hflat ▸ hbound)
  increasing := h.increasing hb
  valid k hk := by
    obtain ⟨x, hx⟩ := exists_mem_of_ne_nil _ hk
    obtain ⟨i, p, -, hterm, -⟩ := mem_packetPosting.mp hx
    exact valid_of_mem_packetTerms hterm
  consecutive := by
    rw [packetPosting_allPacket]
    exact consecutive_range packets.length

/-- The supported packets are those with the term `SUPPORTED`. -/
theorem supported_mem_packetTerms (packet : ExportPacket) :
    (PostingDimension.supported, []) ∈ packetTerms packet ↔ packet.supported = true := by
  rw [mem_packetTerms, ExportPacket.supported, Option.isSome_iff_exists]
  constructor
  · rintro (h | ⟨f, hf, -⟩)
    · cases h
    · exact ⟨f, hf⟩
  · rintro ⟨f, hf⟩
    exact .inr ⟨f, hf, rfl⟩

theorem length_packetPosting_supported (packets : List ExportPacket) :
    (packetPosting packets (.supported, [])).length = packets.countP ExportPacket.supported := by
  induction packets using List.reverseRecOn with
  | nil => rfl
  | append_singleton packets packet ih =>
    rw [packetPosting_append, length_append, ih, countP_append, countP_singleton]
    congr 1
    by_cases hs : packet.supported = true
    · rw [if_pos ((supported_mem_packetTerms packet).mpr hs), if_pos hs]
      rfl
    · rw [if_neg (mt (supported_mem_packetTerms packet).mp hs), if_neg hs]
      rfl

/-- The counts of the loop are the counts of the posting lists. -/
theorem Indexed.counted (h : Indexed limits packets s) (hg : Contains py g (packetPosting packets))
    (hchunks : g.chunks = s.chunks) (hpackets : g.packetCount = s.count)
    (hsupported : g.supportedCount = s.supported) (hmem : g.membershipCount = s.memberships)
    (hkeys : g.distinctKeyCount = s.distinct.length)
    (hbytes : g.encodedByteCount = s.encodedBytes) : Counted g (packetPosting packets) where
  memberships := by
    have hsub : ∀ doc ∈ packets.map packetTerms, ∀ k ∈ doc, k ∈ (chunkDirectory g.chunks).keys := by
      intro doc hdoc k hk
      obtain ⟨p, hp, rfl⟩ := mem_map.mp hdoc
      obtain ⟨i, hi⟩ := mem_iff_getElem?.mp hp
      exact hg.mem_keys.mpr (ne_nil_of_mem (mem_packetPosting.mpr ⟨i, p, hi, hk, rfl⟩))
    have hnodup : ∀ doc ∈ packets.map packetTerms, doc.Nodup := by
      intro doc hdoc
      obtain ⟨p, -, rfl⟩ := mem_map.mp hdoc
      exact nodup_packetTerms p
    have hkeys : (chunkDirectory g.chunks).keys.Nodup := (chunkDirectory g.chunks).nodup
    have hsum := InvertedIndex.sum_length_posting hkeys hnodup hsub
    rw [map_map] at hsum
    rw [hmem, h.memberships]
    simp only [packetPosting, length_map]
    exact congrArg Nat.cast hsum.symm
  encodedBytes := by rw [hbytes, h.encodedBytes, hchunks]
  distinctKeys := by
    have hperm : s.distinct.Perm (chunkDirectory g.chunks).keys := by
      refine (perm_ext_iff_of_nodup h.nodup_distinct (chunkDirectory g.chunks).nodup).mpr fun k => ?_
      rw [h.mem_distinct, ← hg.mem_keys]
      rfl
    rw [hkeys, hperm.length_eq]
  supported := by rw [hsupported, h.supported, length_packetPosting_supported]
  allPackets := by
    rw [hpackets, h.count, packetPosting_allPacket, length_map, length_range]

end Result

variable {decoder : Gen PcapParseError ExportPacket}

/-- The first part of a build, when it succeeds, has drained the decoder and indexed its
packets. -/
theorem collectPostings_eq_ok (h : collectPostings py decoder snapshot limits = .ok s) :
    ∃ packets, decoder.collect = .ok packets ∧ packets ≠ [] ∧ Indexed limits packets s ∧ s.batch = Table.empty := by
  rw [collectPostings, guard_eq_ok, bind_eq_ok] at h
  obtain ⟨-, s₀, hloop, h⟩ := h
  rw [bind_eq_ok] at h
  obtain ⟨s, hflush, h⟩ := h
  rw [guard_eq_ok] at h
  obtain ⟨hcount, ⟨⟩⟩ := h
  obtain ⟨packets, hpackets, hfold⟩ := Gen.consume_eq_ok _ hloop
  have hinv : Indexed limits packets s₀ :=
    List.foldlM_eq_ok_induction (Indexed limits) (indexed_initial limits)
      (fun _ _ _ _ _ hinv hrun => hinv.buildPacket hrun) hfold
  obtain ⟨hinv, hbatch⟩ := hinv.flush hflush
  refine ⟨packets, hpackets, ?_, hinv, hbatch⟩
  rintro rfl
  have := hinv.count
  rw [length_nil] at this
  omega

/-- A build that returns, returns what was assembled, with its digest. -/
theorem buildPacketPostings_eq_ok {binding : Bytes}
    (h : buildPacketPostings py decoder snapshot limits binding = .ok g) :
    ∃ packets s digest, decoder.collect = .ok packets ∧ packets ≠ [] ∧
      Indexed limits packets s ∧ s.batch = Table.empty ∧
      generationDigest py (assembleGeneration s binding) = .ok digest ∧
      g = (assembleGeneration s binding).withDigest digest := by
  rw [buildPacketPostings, bind_eq_ok] at h
  obtain ⟨s, hs, h⟩ := h
  rw [sealGeneration, bind_eq_ok] at h
  obtain ⟨digest, hdigest, h⟩ := h
  rw [guard_eq_ok, Except.ok.injEq] at h
  obtain ⟨packets, hpackets, hne, hinv, hbatch⟩ := collectPostings_eq_ok hs
  exact ⟨packets, s, digest, hpackets, hne, hinv, hbatch, mapError_eq_ok.mp hdigest, h.2.symm⟩

/-! ## Where the integrity error can come from -/

theorem flush_ne_integrityMismatch : flush limits s ≠ .error .integrityMismatch := by
  intro h
  rw [flush, bind_eq_error] at h
  rcases h with h | ⟨pending, -, h⟩
  · obtain ⟨key, -, h⟩ := List.exists_of_mapM_eq_error h
    rw [pendingChunk, bind_eq_error] at h
    rcases h with h | ⟨encoded, -, h⟩
    · obtain ⟨e, -, h⟩ := mapError_eq_error.mp h
      cases h
    · cases h
  · simp [guard_eq_error] at h

theorem buildPacket_ne_integrityMismatch :
    buildPacket py packets interfaces limits s packet ≠ .error .integrityMismatch := by
  intro h
  rw [buildPacket, guard_eq_error] at h
  rcases h with ⟨-, h⟩ | ⟨-, h⟩
  · cases h
  split at h
  · cases h
  rw [guard_eq_error, bind_eq_error, mapError_eq_error] at h
  rcases h with ⟨-, h⟩ | ⟨-, ⟨e, -, h⟩ | ⟨item, -, h⟩⟩
  · cases h
  · cases h
  · rw [guard_eq_error, guard_eq_error] at h
    rcases h with ⟨-, h⟩ | ⟨-, ⟨-, h⟩ | ⟨-, h⟩⟩
    · cases h
    · cases h
    · dsimp only at h
      split at h
      · exact flush_ne_integrityMismatch h
      · cases h

theorem collectPostings_ne_integrityMismatch :
    collectPostings py decoder snapshot limits ≠ .error .integrityMismatch := by
  intro h
  rw [collectPostings, guard_eq_error, bind_eq_error] at h
  rcases h with ⟨-, h⟩ | ⟨-, h | ⟨s₀, -, h⟩⟩
  · cases h
  · rcases Gen.consume_eq_error _ h with ⟨e, h⟩ | ⟨t, a, h⟩
    · cases h
    · exact buildPacket_ne_integrityMismatch h
  · simp only [bind_eq_error, guard_eq_error] at h
    rcases h with h | ⟨s, -, ⟨-, h⟩ | ⟨-, h⟩⟩
    · exact flush_ne_integrityMismatch h
    · cases h
    · cases h

end C2Hunter
