import C2Hunter.PostingBuild

/-!
# The posting generation is an exact inverted index

The results on `build_packet_postings` as a whole.

* `posting_generation_exact` — what can be read from a returned generation is exactly the
  inverted index of the decoded packets, its counts are the cardinalities they claim to be,
  and the builder's own validation cannot fail under the default limits.
* `posting_digest_logical` — the digest document depends on the packets and the binding
  only, not on how the packets were batched.
-/

namespace C2Hunter

open List PostingBuildLimits

/-- The memberships of the projection of a packet. -/
def packetMemberships (py : Python) (packet : ExportPacket) : List PostingKey :=
  match projection py packet with
  | .ok item => projectionMemberships item
  | .error _ => []

theorem packetMemberships_eq (py : Python) : packetMemberships py = packetTerms := by
  funext packet
  obtain ⟨item, hitem, -, hterms⟩ := projection_terms py packet
  rw [packetMemberships, hitem]
  exact hterms

/-- The posting list of a term as the packet indexes of its members. -/
theorem packetPosting_eq_filter {packets : List ExportPacket}
    (hindex : ∀ (i : Nat) (p : ExportPacket), packets[i]? = some p → p.locator.packetIndex = i)
    (k : PostingKey) :
    packetPosting packets k =
      (packets.filter fun p => k ∈ packetTerms p).map fun p => (p.locator.packetIndex : Int) := by
  induction packets using List.reverseRecOn with
  | nil => rfl
  | append_singleton packets packet ih =>
    have hlast : packet.locator.packetIndex = packets.length := hindex packets.length packet (by simp)
    have ih := ih fun i p hp => hindex i p (by
      rw [getElem?_append_left (List.getElem?_eq_some_iff.mp hp).1]
      exact hp)
    rw [packetPosting_append, ih, filter_append, map_append]
    congr 1
    by_cases hk : k ∈ packetTerms packet
    · simp [hk, hlast]
    · simp [hk]

section Built

variable {py : Python} {decoder : Gen PcapParseError ExportPacket} {snapshot : StructuralSnapshot}
  {limits : PostingBuildLimits} {binding : Bytes}
    {packets : List ExportPacket} {s : BuildState} {g : PostingGeneration} {digest : String}

/-- The generation assembled from an indexed state contains and counts the posting lists,
whatever its digest. -/
theorem Indexed.assembled (py : Python) (h : Indexed limits packets s) (hb : s.batch = Table.empty)
    (hne : packets ≠ []) (binding : Bytes) (digest : String) :
    Contains py ((assembleGeneration s binding).withDigest digest) (packetPosting packets) ∧
    Counted ((assembleGeneration s binding).withDigest digest) (packetPosting packets) := by
  have hcontains : Contains py ((assembleGeneration s binding).withDigest digest) (packetPosting packets) :=
    h.contains hb hne rfl (by rw [← h.count]; rfl)
  exact ⟨hcontains, h.counted hcontains rfl rfl rfl rfl rfl rfl⟩

/-- The terms of a packet sequence. -/
def distinctTerms (packets : List ExportPacket) : List PostingKey :=
  (packets.flatMap packetTerms).dedup

theorem mem_distinctTerms {k : PostingKey} : k ∈ distinctTerms packets ↔ packetPosting packets k ≠ [] := by
  unfold distinctTerms
  rw [mem_dedup, mem_flatMap]
  constructor
  · rintro ⟨p, hp, hterm⟩
    obtain ⟨i, hi⟩ := mem_iff_getElem?.mp hp
    exact ne_nil_of_mem (mem_packetPosting.mpr ⟨i, p, hi, hterm, rfl⟩)
  · intro hk
    obtain ⟨x, hx⟩ := exists_mem_of_ne_nil _ hk
    obtain ⟨i, p, hp, hterm, -⟩ := mem_packetPosting.mp hx
    exact ⟨p, mem_of_getElem? hp, hterm⟩

theorem nodup_distinctTerms (packets : List ExportPacket) : (distinctTerms packets).Nodup :=
  nodup_dedup _

theorem Indexed.length_distinct (h : Indexed limits packets s) :
    s.distinct.length = (distinctTerms packets).length := by
  have hperm : s.distinct.Perm (distinctTerms packets) := by
    refine (perm_ext_iff_of_nodup h.nodup_distinct (nodup_distinctTerms packets)).mpr fun k => ?_
    rw [h.mem_distinct, mem_distinctTerms]
  exact hperm.length_eq

/-- The document does not mention the digest. -/
theorem generationDigest_digest (g : PostingGeneration) (digest : String) :
    generationDigest py (g.withDigest digest) = generationDigest py g := rfl

theorem digitChar_mem {n : Nat} (h : n < 16) : Nat.digitChar n ∈ "0123456789abcdef".toList := by
  have hall : ∀ n : Fin 16, Nat.digitChar n ∈ "0123456789abcdef".toList := by decide
  exact hall ⟨n, h⟩

theorem length_flatMap_pair {α β : Type} (f g : α → β) (l : List α) :
    (l.flatMap fun a => [f a, g a]).length = 2 * l.length := by
  simp [length_flatMap, Nat.mul_comm]

/-- The digest of a document has the form that the validation asks for. -/
theorem digestPattern_hex {b : Bytes} (h : b.length = 32) : digestPattern (hex b) = true := by
  rw [digestPattern, decide_eq_true_eq, hex, String.toList_ofList, length_flatMap_pair, h]
  refine ⟨rfl, fun c hc => ?_⟩
  obtain ⟨x, -, hc⟩ := mem_flatMap.mp hc
  have hx : x.toNat < 256 := x.toNat_lt
  rcases mem_pair.mp hc with rfl | rfl
  · exact digitChar_mem (by omega)
  · exact digitChar_mem (by omega)

theorem digestPattern_generationDigest (h : generationDigest py g = .ok digest) : digestPattern digest = true := by
  rw [generationDigest, Except.bind_eq_ok] at h
  obtain ⟨⟨document, stats⟩, -, h⟩ := h
  cases h
  exact digestPattern_hex (py.length_sha256 document)

/-- Every chunk holds at least one membership. -/
theorem length_chunks_le {P : PostingKey → List Int} (h : Contains py g P) (hc : Counted g P) :
    (g.chunks.length : Int) ≤ g.membershipCount := by
  have hone : ∀ n ∈ g.chunks.map fun c => c.count.toNat, 1 ≤ n := by
    intro n hn
    obtain ⟨c, hc, rfl⟩ := mem_map.mp hn
    obtain ⟨i, xs, hok⟩ := h.exists_chunkOk hc
    have hcount : c.count = xs.length := hok.2.2.1
    have := length_pos_iff.mpr hok.ne_nil
    omega
  have hle := length_le_sum_of_one_le _ hone
  rw [length_map, h.sum_count] at hle
  rw [hc.memberships]
  exact Int.ofNat_le.mpr hle

/-- The maxima of the limits are no larger than the default ones. -/
def WithinDefault (limits : PostingBuildLimits) : Prop :=
  limits.maxPackets ≤ PostingBuildLimits.default.maxPackets ∧
  limits.maxMemberships ≤ PostingBuildLimits.default.maxMemberships ∧
  limits.maxDistinctKeys ≤ PostingBuildLimits.default.maxDistinctKeys ∧
  limits.maxEncodedBytes ≤ PostingBuildLimits.default.maxEncodedBytes ∧
  limits.maxChunks ≤ PostingBuildLimits.default.maxChunks

/-- Under the default limits the header of an assembled generation is valid. -/
theorem Indexed.validHeader_eq (py : Python) (h : Indexed limits packets s)
    (hb : s.batch = Table.empty) (hne : packets ≠ []) (hlimits : WithinDefault limits)
    (hbinding : binding.length ≤ default.maxEncodedBytes)
    (hdigest : digestPattern digest = true) :
    validHeader ((assembleGeneration s binding).withDigest digest) .default = true := by
  obtain ⟨hcontains, hcounted⟩ := h.assembled py hb hne binding digest
  have hchunks := length_chunks_le hcontains hcounted
  obtain ⟨hpackets, hmem, hkeys, hbytes, hmax⟩ := hlimits
  have hpos : 0 < packets.length := length_pos_iff.mpr hne
  have hsup : s.supported ≤ s.count := by
    rw [h.supported, h.count]
    exact countP_le_length
  have hcount := h.count
  have huniverse : s.count ≤ min default.maxPackets (maxPostingOrdinal + 1) :=
    le_min (h.count_le.trans hpackets) ((h.count_le.trans hpackets).trans (by decide))
  rw [validHeader, decide_eq_true_eq]
  dsimp only [assembleGeneration, PostingGeneration.withDigest] at hchunks ⊢
  exact ⟨⟨by omega, by omega, by omega, by omega, by omega⟩, rfl, rfl, rfl,
    ⟨by omega, Int.ofNat_le.mpr huniverse⟩, Int.ofNat_le.mpr hsup,
    Int.ofNat_le.mpr (h.memberships_le.trans hmem), Int.ofNat_le.mpr (h.distinct_le.trans hkeys),
    Int.ofNat_le.mpr (h.encodedBytes_le.trans hbytes), h.chunks_le.trans hmax, hchunks, hbinding,
    rfl, hdigest⟩

/-- Under the default limits the second part of a build succeeds. -/
theorem Indexed.sealGeneration_eq (py : Python) (h : Indexed limits packets s)
    (hb : s.batch = Table.empty) (hne : packets ≠ []) (hlimits : WithinDefault limits)
    (binding : Bytes) (hbinding : binding.length ≤ default.maxEncodedBytes) :
    ∃ digest, sealGeneration py (assembleGeneration s binding) =
      .ok ((assembleGeneration s binding).withDigest digest) := by
  have hstream := (h.assembled py hb hne binding "").1.stream_eq
  obtain ⟨digest, hdigest⟩ : ∃ digest, generationDigest py (assembleGeneration s binding) =
      .ok digest := ⟨_, Except.bind_eq_ok.mpr ⟨_, hstream, rfl⟩⟩
  obtain ⟨hcontains, hcounted⟩ := h.assembled py hb hne binding digest
  have hvalid : validatePostingGeneration py ((assembleGeneration s binding).withDigest digest)
      .default = true := by
    rw [hcontains.validate_eq hcounted (by rw [generationDigest_digest]; exact hdigest)]
    exact h.validHeader_eq py hb hne hlimits hbinding (digestPattern_generationDigest hdigest)
  refine ⟨digest, ?_⟩
  rw [sealGeneration, Except.bind_eq_ok]
  exact ⟨digest, Except.mapError_eq_ok.mpr hdigest, Except.guard_eq_ok.mpr ⟨by simp [hvalid], rfl⟩⟩

/-- The validation of what was built cannot fail under the default limits. -/
theorem buildPacketPostings_ne_integrityMismatch (hlimits : WithinDefault limits)
    (hbinding : binding.length ≤ default.maxEncodedBytes) :
    buildPacketPostings py decoder snapshot limits binding ≠ .error .integrityMismatch := by
  intro h
  rw [buildPacketPostings, Except.bind_eq_error] at h
  rcases h with h | ⟨s, hs, h⟩
  · exact collectPostings_ne_integrityMismatch h
  · obtain ⟨packets, -, hne, hinv, hb⟩ := collectPostings_eq_ok hs
    obtain ⟨digest, hseal⟩ := hinv.sealGeneration_eq py hb hne hlimits binding hbinding
    rw [hseal] at h
    cases h

/-! ## The index -/

/-- **The generation is an exact inverted index.** For a build that returns, reading any
term gives the increasing list of the indexes of the packets that have it, `ALL_PACKET`
lists all of them, and every count is the cardinality it stands for. The builder's own
validation cannot fail under the default limits. -/
theorem posting_generation_exact (py : Python) (decoder : Gen PcapParseError ExportPacket)
    (snapshot : StructuralSnapshot) (limits : PostingBuildLimits) (binding : Bytes) :
    (∀ g, buildPacketPostings py decoder snapshot limits binding = .ok g →
      ∃ packets, decoder.collect = .ok packets ∧ (∀ d v, ∃ xs, postingValues g d v = .ok xs ∧ xs.Pairwise (· < ·) ∧
          xs = (packets.filter fun p => (d, v) ∈ packetMemberships py p).map
            fun p => (p.locator.packetIndex : Int)) ∧
        postingValues g .allPacket [] = .ok ((List.range packets.length).map Nat.cast) ∧
        g.packetCount = packets.length ∧
        g.supportedCount = packets.countP ExportPacket.supported ∧
        g.membershipCount = ((packets.map fun p => (packetMemberships py p).length).sum : Nat) ∧
        g.distinctKeyCount = (packets.flatMap (packetMemberships py)).dedup.length ∧
        g.encodedByteCount = ((g.chunks.map fun c => c.encodedOrdinals.length).sum : Nat)) ∧
    (WithinDefault limits → binding.length ≤ default.maxEncodedBytes →
      buildPacketPostings py decoder snapshot limits binding ≠ .error .integrityMismatch) := by
  refine ⟨fun g h => ?_, buildPacketPostings_ne_integrityMismatch⟩
  rw [packetMemberships_eq]
  obtain ⟨packets, s, digest, hcollect, hne, hinv, hb, -, rfl⟩ := buildPacketPostings_eq_ok h
  obtain ⟨hcontains, hcounted⟩ := hinv.assembled py hb hne binding digest
  refine ⟨packets, hcollect, fun d v => ?_, ?_, ?_, ?_, ?_, ?_, hcounted.encodedBytes⟩
  · exact ⟨_, hcontains.postingValues_eq d v, pairwise_packetPosting packets (d, v),
      packetPosting_eq_filter hinv.index (d, v)⟩
  · rw [hcontains.postingValues_eq, packetPosting_allPacket]
  · exact congrArg Nat.cast hinv.count
  · exact congrArg Nat.cast hinv.supported
  · exact congrArg Nat.cast hinv.memberships
  · exact congrArg Nat.cast hinv.length_distinct

/-! ### A sample capture -/

/-- The interface of the sample capture. -/
def sampleInterface : CaptureInterface := ⟨0, 0, 0, 1, 65535, 1, 1000000, 0⟩

/-- A packet of the sample capture. -/
def samplePacket (index : Nat) (fields : Option PacketFields) : ExportPacket where
  timestamp := ⟨0, true, by decide⟩
  fields := fields
  rawPacketBytes := [0]
  locator := ⟨"", 0, index, 24 + 17 * index, 40 + 17 * index, 1, 17⟩
  interface := sampleInterface
  originalLength := 1

/-- The decoded fields of its supported packets. -/
def sampleFields : PacketFields where
  sourceIp := ⟨.v4, [10, 0, 0, 1], rfl⟩
  destinationIp := ⟨.v4, [10, 0, 0, 2], rfl⟩
  sourcePort := some 1234
  destinationPort := some 53
  protocol := 17
  direction := .outbound
  hasPayload := true

/-- A capture of two supported packets around an unsupported one. -/
def samplePackets : List ExportPacket :=
  [samplePacket 0 (some sampleFields), samplePacket 1 none, samplePacket 2 (some sampleFields)]

/-- Its structural entries. -/
def sampleEntry (index : Nat) : StructuralPacketEntry :=
  ⟨index, 24 + 17 * index, 40 + 17 * index, 1, 1, 17, 0, 0, 0, 0⟩

/-- Its structural snapshot. -/
def sampleSnapshot : StructuralSnapshot where
  packets := (List.range 3).map sampleEntry
  interfaces := [sampleInterface]
  indexed i e h := by
    rw [List.getElem?_map, Option.map_eq_some_iff] at h
    obtain ⟨j, hj, rfl⟩ := h
    obtain ⟨hlt, rfl⟩ := List.getElem?_eq_some_iff.mp hj
    simp [sampleEntry]

/-- The default limits with another batch size. -/
def sampleLimits (n : Nat) (h : 0 < n) : PostingBuildLimits where
  batchSize := n
  positive := ⟨by decide, by decide, by decide, by decide, by decide, h⟩

/-- Under the limits of the sample, a build whose first part succeeds returns. -/
theorem sample_build {n m : Nat} {hn : 0 < n} (h : ((collectPostings .latin (.ofList samplePackets) sampleSnapshot
      (sampleLimits n hn)).toOption.map fun s => s.chunks.length) = some m) :
    ∃ g, buildPacketPostings .latin (.ofList samplePackets) sampleSnapshot (sampleLimits n hn) [] =
      .ok g ∧ g.chunks.length = m := by
  cases hs : collectPostings .latin (.ofList samplePackets) sampleSnapshot (sampleLimits n hn) with
  | error =>
    rw [hs] at h
    cases h
  | ok s =>
    rw [hs] at h
    obtain ⟨packets, -, hne, hinv, hb⟩ := collectPostings_eq_ok hs
    obtain ⟨digest, hseal⟩ := hinv.sealGeneration_eq .latin hb hne
      ⟨le_rfl, le_rfl, le_rfl, le_rfl, le_rfl⟩ [] (Nat.zero_le _)
    refine ⟨_, Except.bind_eq_ok.mpr ⟨s, hs, hseal⟩, Option.some.inj h⟩

/-- With batches of one packet the posting lists are cut into more chunks than with
batches of two. -/
theorem sample_chunks : ((collectPostings .latin (.ofList samplePackets) sampleSnapshot
      (sampleLimits 1 (by decide))).toOption.map fun s => s.chunks.length) = some 17 ∧
    ((collectPostings .latin (.ofList samplePackets) sampleSnapshot
      (sampleLimits 2 (by decide))).toOption.map fun s => s.chunks.length) = some 16 := by
  decide +kernel

theorem posting_generation_exact_sample : ∃ g, buildPacketPostings .latin (.ofList samplePackets) sampleSnapshot
        (sampleLimits 2 (by decide)) [] = .ok g ∧
      postingValues g .allPacket [] = .ok [0, 1, 2] ∧ WithinDefault (sampleLimits 2 (by decide)) ∧
      buildPacketPostings .latin (.ofList samplePackets) sampleSnapshot
        (sampleLimits 2 (by decide)) [] ≠ .error .integrityMismatch := by
  obtain ⟨g, hg, -⟩ := sample_build sample_chunks.2
  have hlimits : WithinDefault (sampleLimits 2 (by decide)) := by
    refine ⟨le_rfl, le_rfl, le_rfl, le_rfl, le_rfl⟩
  obtain ⟨hexact, hvalid⟩ := posting_generation_exact .latin (.ofList samplePackets) sampleSnapshot
    (sampleLimits 2 (by decide)) []
  obtain ⟨packets, hpackets, -, hall, -⟩ := hexact g hg
  rw [Gen.collect_ofList] at hpackets
  cases hpackets
  exact ⟨g, hg, hall, hlimits, hvalid hlimits (Nat.zero_le _)⟩

/-! ## The digest -/

/-- The document of a generation that was built, in terms of the packets. -/
def logicalDocument (packets : List ExportPacket) (g : PostingGeneration) : Bytes :=
  digestDomain ++ digestHeader g ++ encodeAscii "\n" ++
    (sortKeys (distinctTerms packets)).flatMap fun k => digestLine k (packetPosting packets k)

theorem Contains.digestDocument_eq (h : Contains py g (packetPosting packets)) :
    g.digestDocument py = .ok (logicalDocument packets g) := by
  have hperm : (chunkDirectory g.chunks).keys.Perm (distinctTerms packets) := by
    refine (perm_ext_iff_of_nodup (chunkDirectory g.chunks).nodup (nodup_distinctTerms packets)).mpr fun k => ?_
    rw [mem_distinctTerms, ← h.mem_keys]
    rfl
  rw [PostingGeneration.digestDocument, h.stream_eq, sortedKeys, sortKeys_congr hperm]
  rfl

/-- The digest is the hash of the document. -/
theorem generationDigest_eq {document : Bytes} (hdigest : generationDigest py g = .ok digest)
    (hdoc : g.digestDocument py = .ok document) : digest = hex (py.sha256 document) := by
  rw [generationDigest, Except.bind_eq_ok] at hdigest
  obtain ⟨⟨document', stats⟩, hstream, h⟩ := hdigest
  rw [PostingGeneration.digestDocument, hstream] at hdoc
  cases hdoc
  cases h
  rfl

/-- The header of a generation that was built depends on the packets and the binding. -/
theorem Indexed.digestHeader_eq {limits' : PostingBuildLimits} {s' : BuildState}
    (h : Indexed limits packets s) (h' : Indexed limits' packets s') (binding : Bytes) :
    digestHeader (assembleGeneration s binding) = digestHeader (assembleGeneration s' binding) := by
  simp only [digestHeader, assembleGeneration, h.count, h'.count, h.supported, h'.supported,
    h.memberships, h'.memberships, h.length_distinct, h'.length_distinct]

/-- **The digest is a function of the logical index.** Two builds over the same packets
and binding, in particular two that differ in the batch size, write the same digest
document, byte for byte, and agree on the digest and on all logical counts. -/
theorem posting_digest_logical (py : Python) (decoder : Gen PcapParseError ExportPacket)
    (snapshot : StructuralSnapshot) (limits limits' : PostingBuildLimits) (binding : Bytes)
    (g g' : PostingGeneration)
    (h : buildPacketPostings py decoder snapshot limits binding = .ok g)
    (h' : buildPacketPostings py decoder snapshot limits' binding = .ok g') :
    (∃ document, g.digestDocument py = .ok document ∧ g'.digestDocument py = .ok document ∧
      g.digest = hex (py.sha256 document)) ∧
    g.digest = g'.digest ∧ g.packetCount = g'.packetCount ∧
    g.supportedCount = g'.supportedCount ∧ g.membershipCount = g'.membershipCount ∧
    g.distinctKeyCount = g'.distinctKeyCount := by
  obtain ⟨packets, s, digest, hcollect, hne, hinv, hb, hdigest, rfl⟩ := buildPacketPostings_eq_ok h
  obtain ⟨packets', s', digest', hcollect', -, hinv', hb', hdigest', rfl⟩ :=
    buildPacketPostings_eq_ok h'
  cases hcollect.symm.trans hcollect'
  obtain ⟨hcontains, -⟩ := hinv.assembled py hb hne binding digest
  obtain ⟨hcontains', -⟩ := hinv'.assembled py hb' hne binding digest'
  have hdoc := hcontains.digestDocument_eq
  have hdoc' := hcontains'.digestDocument_eq
  have hsame : logicalDocument packets ((assembleGeneration s binding).withDigest digest) =
      logicalDocument packets ((assembleGeneration s' binding).withDigest digest') := by
    unfold logicalDocument
    rw [show digestHeader ((assembleGeneration s binding).withDigest digest) =
        digestHeader ((assembleGeneration s' binding).withDigest digest') from
      hinv.digestHeader_eq hinv' binding]
  have hhash := generationDigest_eq (hdigest : generationDigest py _ = _) hdoc
  have hhash' := generationDigest_eq (hdigest' : generationDigest py _ = _) hdoc'
  rw [← hsame] at hdoc' hhash'
  refine ⟨⟨_, hdoc, hdoc', hhash⟩, hhash.trans hhash'.symm, ?_, ?_, ?_, ?_⟩
  · exact congrArg Nat.cast (hinv.count.trans hinv'.count.symm)
  · exact congrArg Nat.cast (hinv.supported.trans hinv'.supported.symm)
  · exact congrArg Nat.cast (hinv.memberships.trans hinv'.memberships.symm)
  · exact congrArg Nat.cast (hinv.length_distinct.trans hinv'.length_distinct.symm)

theorem posting_digest_logical_sample : ∃ g g', buildPacketPostings .latin (.ofList samplePackets) sampleSnapshot
        (sampleLimits 1 (by decide)) [] = .ok g ∧
      buildPacketPostings .latin (.ofList samplePackets) sampleSnapshot (sampleLimits 2 (by decide)) [] = .ok g' ∧
      g.chunks ≠ g'.chunks ∧ g.digest = g'.digest := by
  obtain ⟨g, hg, hchunks⟩ := sample_build sample_chunks.1
  obtain ⟨g', hg', hchunks'⟩ := sample_build sample_chunks.2
  refine ⟨g, g', hg, hg', fun heq => ?_, ?_⟩
  · rw [heq, hchunks'] at hchunks
    cases hchunks
  · exact (posting_digest_logical .latin (.ofList samplePackets) sampleSnapshot
      (sampleLimits 1 (by decide)) (sampleLimits 2 (by decide)) [] g g' hg hg').2.1

end Built

end C2Hunter
