import C2Hunter.PostingIndex
import C2Hunter.Table

/-!
# The digest document of a posting generation

`_stream_generation_digest_document` reads a generation back: it groups the chunks by
term, decodes them, checks them against their metadata and writes one line for each term,
in which the deltas run on across the chunks. `validate_posting_generation` runs it once
more, and `posting_values` decodes a single term.

* `streamGenerationDigestDocument`, `generationDigest`, `validatePostingGeneration`,
  `postingValues` — the functions of the source.
* `ChunkOk` — a chunk stores a list of ordinals at its place among the chunks of its term.
* `digestChunks_eq_ok`, `digestKey_eq_ok` — the two inner loops succeed exactly on chunks
  that are `ChunkOk` and increasing as a whole, and then write the deltas of the whole
  list: the chunk boundaries leave no trace.
-/

namespace C2Hunter

open List

/-! ## Text -/

/-- `json.dumps(text)`, for text that needs no escape. -/
def jsonText (text : String) : String := "\"" ++ text ++ "\""

/-- `_DIGEST_DOMAIN`. -/
def digestDomain : Bytes := encodeAscii "c2hunter-pcap-posting-index-v1\n"

/-- `_digest_header`. -/
def digestHeader (generation : PostingGeneration) : Bytes :=
  let dimensions := (PostingDimension.all.filter (· ∈ generation.completeDimensions)).map
    PostingDimension.value
  encodeAscii <|
    "\x7b\"binding\":" ++ jsonText (hex generation.bindingDocument) ++
    ",\"complete_dimensions\":[" ++ ",".intercalate ((dimensions.insertionSort (· ≤ ·)).map jsonText) ++
    "],\"distinct_key_count\":" ++ toString generation.distinctKeyCount ++
    ",\"filter_contract_version\":" ++ toString generation.filterContractVersion ++
    ",\"membership_count\":" ++ toString generation.membershipCount ++
    ",\"packet_count\":" ++ toString generation.packetCount ++
    ",\"parser_contract_version\":" ++ toString generation.parserContractVersion ++
    ",\"schema_version\":" ++ toString generation.schemaVersion ++
    ",\"supported_count\":" ++ toString generation.supportedCount ++ "\x7d"

/-! ## The document -/

/-- The variables of the loops of `_stream_generation_digest_document`; the document is
what `update` has received. -/
structure DigestState where
  document : Bytes
  memberships : Nat
  supported : Nat
  allPackets : Nat
  logicalPrevious : Int

open DigestState

/-- The variables that are set anew for each chunk, with the others. -/
structure ChunkState where
  state : DigestState
  first : Option Int
  last : Option Int
  count : Nat

/-- `_LogicalPostingStats`. -/
structure LogicalPostingStats where
  memberships : Nat
  encodedBytes : Nat
  distinctKeys : Nat
  supported : Nat
  allPackets : Nat
  deriving DecidableEq, Repr

/-- Write one ordinal. -/
def DigestState.write (dimension : PostingDimension) (s : DigestState) (ordinal : Int)
    (delta : Bytes) : DigestState where
  document := s.document ++ encodeAscii (hex delta)
  memberships := s.memberships + 1
  supported := if dimension = .supported then s.supported + 1 else s.supported
  allPackets := if dimension = .allPacket then s.allPackets + 1 else s.allPackets
  logicalPrevious := ordinal

/-- The body of `for ordinal in _iter_decoded_ordinals(..)`. -/
def digestOrdinal (dimension : PostingDimension) (s : ChunkState) (ordinal : Int) :
    Except PostingCodecError ChunkState :=
  if ordinal ≤ s.state.logicalPrevious then .error .chunkOrder
  else do
    let delta ← varint (ordinal - s.state.logicalPrevious)
    if dimension = .allPacket ∧ ordinal ≠ s.state.allPackets then .error .allPacketGap
    else
      .ok {
        state := s.state.write dimension ordinal delta
        first := some (s.first.getD ordinal)
        last := some ordinal
        count := s.count + 1 }

/-- The body of `for expected_chunk, chunk in enumerate(ordered)`. -/
def digestChunk (packetCount : Int) (dimension : PostingDimension) (s : DigestState)
    (item : PostingChunk × Nat) : Except PostingCodecError DigestState := do
  let chunk := item.1
  let s ← Gen.consume .error (digestOrdinal dimension) ⟨s, none, none, 0⟩
    (iterDecodedOrdinals chunk.encodedOrdinals (some (packetCount - 1)))
  if chunk.chunkOrdinal ≠ item.2 ∨ s.count < 1 ∨ s.count ≠ chunk.count ∨
      s.first ≠ some chunk.firstPacketIndex ∨ s.last ≠ some chunk.lastPacketIndex then
    .error .chunkMetadata
  else .ok s.state

/-- `sorted(chunks, key=lambda item: item.chunk_ordinal)`. -/
def sortChunks (chunks : List PostingChunk) : List PostingChunk :=
  chunks.insertionSort fun a b => a.chunkOrdinal ≤ b.chunkOrdinal

/-- The chunks of a generation by term. -/
def chunkDirectory (chunks : List PostingChunk) : Dict PostingKey (List PostingChunk) :=
  Dict.pushAll Table.empty (chunks.map fun c => (c.key, c))

/-- The text of a line before its ordinals. -/
def lineHead (dimension : PostingDimension) : Bytes :=
  encodeAscii ("\x7b\"dimension\":" ++ jsonText dimension.value ++ ",\"ordinals\":\"")

/-- The text of a line after its ordinals. -/
def lineTail (value : Bytes) : Bytes :=
  encodeAscii ("\",\"value\":" ++ jsonText (hex value) ++ "\x7d\n")

/-- The body of the loop over the sorted terms. -/
def digestKey (py : Python) (packetCount : Int) (directory : Dict PostingKey (List PostingChunk))
    (s : DigestState) (key : PostingKey) : Except PostingCodecError DigestState :=
  if ¬validPostingValue py key.1 key.2 then .error .dictionaryValue
  else do
    let s := { s with document := s.document ++ lineHead key.1, logicalPrevious := -1 }
    let s ← (sortChunks (directory.getD key [])).zipIdx.foldlM (digestChunk packetCount key.1) s
    .ok { s with document := s.document ++ lineTail key.2 }

section

variable (py : Python) (generation : PostingGeneration)

/-- `_stream_generation_digest_document`: what is passed to `update`, and the result. -/
def streamGenerationDigestDocument :
    Except PostingCodecError (Bytes × LogicalPostingStats) := do
  let directory := chunkDirectory generation.chunks
  let encodedBytes := (generation.chunks.map fun c => c.encodedOrdinals.length).sum
  let document := digestDomain ++ digestHeader generation ++ encodeAscii "\n"
  let s ← (sortKeys directory.keys).foldlM (digestKey py generation.packetCount directory)
    ⟨document, 0, 0, 0, -1⟩
  .ok (s.document,
    ⟨s.memberships, encodedBytes, directory.keys.length, s.supported, s.allPackets⟩)

/-- `generation.digest_document()`. -/
def PostingGeneration.digestDocument : Except PostingCodecError Bytes :=
  Prod.fst <$> streamGenerationDigestDocument py generation

/-- `_generation_digest`. -/
def generationDigest :
    Except PostingCodecError String := do
  let (document, _) ← streamGenerationDigestDocument py generation
  .ok (hex (py.sha256 document))

end

/-! ## Reading and validating a generation -/

/-- `posting_values`. -/
def postingValues (generation : PostingGeneration) (dimension : PostingDimension) (value : Bytes) :
    Except PostingCodecError (List Int) :=
  (sortChunks (generation.chunks.filter fun c => c.dimension = dimension ∧ c.value = value)).foldlM
    (fun result chunk => do
      let decoded ← decodeOrdinals chunk.encodedOrdinals (some (generation.packetCount - 1))
      .ok (result ++ decoded)) []

/-- `re.fullmatch(r"[0-9a-f]{64}", digest)`. -/
def digestPattern (digest : String) : Bool :=
  digest.toList.length = 64 ∧ ∀ c ∈ digest.toList, c ∈ "0123456789abcdef".toList

/-- The first condition of `validate_posting_generation`. -/
def validHeader (generation : PostingGeneration) (limits : PostingBuildLimits) : Bool :=
  (0 ≤ generation.packetCount ∧ 0 ≤ generation.supportedCount ∧ 0 ≤ generation.membershipCount ∧
    0 ≤ generation.distinctKeyCount ∧ 0 ≤ generation.encodedByteCount) ∧
  generation.schemaVersion = postingSchemaVersion ∧
  generation.parserContractVersion = postingParserContractVersion ∧
  generation.filterContractVersion = postingFilterContractVersion ∧
  (1 ≤ generation.packetCount ∧
    generation.packetCount ≤ min limits.maxPackets (maxPostingOrdinal + 1)) ∧
  generation.supportedCount ≤ generation.packetCount ∧
  generation.membershipCount ≤ limits.maxMemberships ∧
  generation.distinctKeyCount ≤ limits.maxDistinctKeys ∧
  generation.encodedByteCount ≤ limits.maxEncodedBytes ∧
  generation.chunks.length ≤ limits.maxChunks ∧
  generation.chunks.length ≤ generation.membershipCount ∧
  generation.bindingDocument.length ≤ limits.maxEncodedBytes ∧
  generation.completeDimensions = allDimensions ∧
  digestPattern generation.digest

/-- The first condition of the chunk loop of `validate_posting_generation`. -/
def validChunk (py : Python) (packetCount : Int) (chunk : PostingChunk) : Bool :=
  validPostingValue py chunk.dimension chunk.value ∧ chunk.encodedOrdinals ≠ [] ∧
  0 ≤ chunk.chunkOrdinal ∧ 1 ≤ chunk.count ∧
  (0 ≤ chunk.firstPacketIndex ∧ chunk.firstPacketIndex ≤ chunk.lastPacketIndex ∧
    chunk.lastPacketIndex < packetCount)

/-- The variables of the chunk loop. -/
structure DeclaredState where
  memberships : Int
  encodedBytes : Nat
  keys : List PostingKey

/-- The body of the chunk loop; `none` is `return False`. -/
def declareChunk (py : Python) (generation : PostingGeneration) (s : DeclaredState)
    (chunk : PostingChunk) : Option DeclaredState :=
  if ¬validChunk py generation.packetCount chunk then none
  else
    let s : DeclaredState := ⟨s.memberships + chunk.count,
      s.encodedBytes + chunk.encodedOrdinals.length, s.keys.insert chunk.key⟩
    if s.memberships > generation.membershipCount ∨
        s.encodedBytes > generation.encodedByteCount ∨
        s.keys.length > generation.distinctKeyCount then none
    else some s

/-- `validate_posting_generation`. -/
def validatePostingGeneration (py : Python) (generation : PostingGeneration)
    (limits : PostingBuildLimits) : Bool :=
  if ¬validHeader generation limits then false
  else
    match generation.chunks.foldlM (declareChunk py generation) ⟨0, 0, []⟩ with
    | none => false
    | some s =>
      if s.memberships ≠ generation.membershipCount ∨
          s.encodedBytes ≠ generation.encodedByteCount ∨
          s.keys.length ≠ generation.distinctKeyCount then false
      else
        match streamGenerationDigestDocument py generation with
        | .error _ => false
        | .ok (document, stats) =>
          stats.memberships = generation.membershipCount ∧
          stats.encodedBytes = generation.encodedByteCount ∧
          stats.distinctKeys = generation.distinctKeyCount ∧
          stats.supported = generation.supportedCount ∧
          stats.allPackets = generation.packetCount ∧
          hex (py.sha256 document) = generation.digest

/-! ## The ordinals of one chunk -/

theorem hexBytes_append (a b : Bytes) :
    encodeAscii (hex (a ++ b)) = encodeAscii (hex a) ++ encodeAscii (hex b) := by
  simp [encodeAscii, hex]

/-- The ordinals count up from `n`. -/
def Consecutive (n : Nat) : List Int → Prop
  | [] => True
  | x :: xs => x = n ∧ Consecutive (n + 1) xs

theorem consecutive_append {n : Nat} {xs ys : List Int} :
    Consecutive n (xs ++ ys) ↔ Consecutive n xs ∧ Consecutive (n + xs.length) ys := by
  induction xs generalizing n with
  | nil => simp [Consecutive]
  | cons x xs ih =>
    have hlen : n + 1 + xs.length = n + (xs.length + 1) := by omega
    rw [cons_append, Consecutive, Consecutive, ih, length_cons, hlen, and_assoc]

section

variable (d : PostingDimension) (s : DigestState)

/-- The state after writing the ordinals `xs`. -/
def DigestState.advance (xs : List Int) : DigestState where
  document := s.document ++ encodeAscii (hex (deltas s.logicalPrevious xs))
  memberships := s.memberships + xs.length
  supported := s.supported + if d = .supported then xs.length else 0
  allPackets := s.allPackets + if d = .allPacket then xs.length else 0
  logicalPrevious := xs.getLastD s.logicalPrevious

theorem DigestState.advance_nil : s.advance d [] = s := by
  simp [advance, deltas, hex, encodeAscii]

theorem DigestState.advance_append (xs ys : List Int) : (s.advance d xs).advance d ys = s.advance d (xs ++ ys) := by
  simp only [advance, deltas_append, hexBytes_append, length_append, append_assoc, mk.injEq, true_and]
  refine ⟨by omega, by split <;> omega, by split <;> omega, ?_⟩
  cases ys using List.reverseRecOn with
  | nil => simp
  | append_singleton => simp [← append_assoc]

theorem DigestState.write_eq_advance (x : Int) :
    s.write d x (Leb128.encode (x - s.logicalPrevious).toNat) = s.advance d [x] := by
  simp only [write, advance, deltas, append_nil, length_singleton, mk.injEq, true_and]
  refine ⟨by split <;> rfl, by split <;> rfl, rfl⟩

end

variable {d : PostingDimension} {n : Int} {s t : DigestState}

/-- One ordinal. -/
theorem digestOrdinal_eq_ok {s t : ChunkState} {x : Int} : digestOrdinal d s x = .ok t ↔
      (s.state.logicalPrevious < x ∧ x - s.state.logicalPrevious ≤ maxPostingOrdinal) ∧
      (d = .allPacket → x = s.state.allPackets) ∧
      t = ⟨s.state.advance d [x], some (s.first.getD x), some x, s.count + 1⟩ := by
  simp only [digestOrdinal, Except.guard_eq_ok, Except.bind_eq_ok, varint_eq_ok, not_le, not_and,
    not_not, Except.ok.injEq]
  constructor
  · rintro ⟨hlt, delta, ⟨⟨-, hle⟩, rfl⟩, hall, rfl⟩
    exact ⟨⟨hlt, hle⟩, hall, by rw [write_eq_advance]⟩
  · rintro ⟨⟨hlt, hle⟩, hall, rfl⟩
    exact ⟨hlt, _, ⟨⟨by omega, hle⟩, rfl⟩, hall, by rw [write_eq_advance]⟩

/-- The state after the ordinals `xs` of a chunk. -/
def ChunkState.advance (d : PostingDimension) (s : ChunkState) (xs : List Int) : ChunkState :=
  ⟨s.state.advance d xs, s.first.or xs.head?, xs.getLast?.or s.last, s.count + xs.length⟩

theorem ChunkState.advance_cons (d : PostingDimension) (s : ChunkState) (x : Int) (xs : List Int) :
    ChunkState.advance d ⟨s.state.advance d [x], some (s.first.getD x), some x, s.count + 1⟩ xs =
      s.advance d (x :: xs) := by
  have hfirst : some (s.first.getD x) = s.first.or (some x) := by cases s.first <;> rfl
  have hlast : xs.getLast?.or (some x) = ((x :: xs).getLast?).or s.last := by
    rw [getLast?_cons]
    cases xs.getLast? <;> rfl
  simp only [advance, advance_append, singleton_append, hlast, hfirst,
    head?_cons, Option.or_assoc, Option.some_or, length_cons, ChunkState.mk.injEq,
    true_and]
  omega

/-- The loop over the ordinals of a chunk. -/
theorem digestOrdinals_eq_ok {xs : List Int} {s t : ChunkState} (hxs : ∀ x ∈ xs, x ≤ maxPostingOrdinal) :
    xs.foldlM (digestOrdinal d) s = .ok t ↔ Increasing s.state.logicalPrevious xs ∧
      (d = .allPacket → Consecutive s.state.allPackets xs) ∧ t = s.advance d xs := by
  induction xs generalizing s with
  | nil =>
    simp [Increasing, Consecutive, ChunkState.advance, advance_nil, Except.pure_eq_ok, eq_comm]
  | cons x xs ih =>
    have hx := hxs x mem_cons_self
    have hxs' : ∀ y ∈ xs, y ≤ maxPostingOrdinal := fun y hy => hxs y (mem_cons_of_mem _ hy)
    simp only [foldlM_cons, Except.bind_eq_ok, digestOrdinal_eq_ok, Increasing, Consecutive]
    constructor
    · rintro ⟨u, ⟨⟨hlt, hle⟩, hall, rfl⟩, hrun⟩
      obtain ⟨hinc, hcon, rfl⟩ := (ih hxs').mp hrun
      refine ⟨⟨hlt, hx, hle, hinc⟩, fun hd => ⟨hall hd, ?_⟩, ChunkState.advance_cons d s x xs⟩
      have := hcon hd
      simp only [advance, hd, if_true, length_singleton] at this
      exact this
    · rintro ⟨⟨hlt, -, hle, hinc⟩, hcon, rfl⟩
      refine ⟨_, ⟨⟨hlt, hle⟩, fun hd => (hcon hd).1, rfl⟩, (ih hxs').mpr ⟨hinc, fun hd => ?_, ?_⟩⟩
      · simp only [advance, hd, if_true, length_singleton]
        exact (hcon hd).2
      · exact (ChunkState.advance_cons d s x xs).symm

/-! ## The chunks of one term -/

/-- The chunk at position `item.2` among the chunks of its term stores `xs`. -/
def ChunkOk (packetCount : Int) (item : PostingChunk × Nat) (xs : List Int) : Prop :=
  decodeOrdinals item.1.encodedOrdinals (some (packetCount - 1)) = .ok xs ∧
  item.1.chunkOrdinal = item.2 ∧ item.1.count = xs.length ∧
  xs.head? = some item.1.firstPacketIndex ∧ xs.getLast? = some item.1.lastPacketIndex

theorem digestChunk_eq_ok {item : PostingChunk × Nat} : digestChunk n d s item = .ok t ↔
      ∃ xs, ChunkOk n item xs ∧ Increasing s.logicalPrevious xs ∧
        (d = .allPacket → Consecutive s.allPackets xs) ∧ t = s.advance d xs := by
  have hbound : ∀ {xs}, decodeOrdinals item.1.encodedOrdinals (some (n - 1)) = .ok xs →
      ∀ x ∈ xs, x ≤ maxPostingOrdinal := fun h x hx =>
    ((increasing_iff le_rfl).mp (decodeOrdinals_eq_ok.mp h).2.1).2.1 x hx |>.2
  rw [digestChunk, Except.bind_eq_ok]
  constructor
  · rintro ⟨c, hrun, hmeta⟩
    obtain ⟨xs, hxs, hfold⟩ := Gen.consume_eq_ok id hrun
    obtain ⟨hinc, hcon, rfl⟩ := (digestOrdinals_eq_ok (hbound hxs)).mp hfold
    simp only [Except.guard_eq_ok, ChunkState.advance, Option.none_or, Option.or_none,
      Nat.zero_add, not_or, not_not, Except.ok.injEq] at hmeta
    obtain ⟨⟨hord, -, hcount, hfirst, hlast⟩, rfl⟩ := hmeta
    exact ⟨xs, ⟨hxs, hord, hcount.symm, hfirst, hlast⟩, hinc, hcon, rfl⟩
  · rintro ⟨xs, ⟨hdec, hord, hcount, hfirst, hlast⟩, hinc, hcon, rfl⟩
    refine ⟨ChunkState.advance d ⟨s, none, none, 0⟩ xs, ?_, ?_⟩
    · rw [Gen.consume_of_collect hdec]
      exact (digestOrdinals_eq_ok (hbound hdec)).mpr ⟨hinc, hcon, rfl⟩
    · have hpos : 0 < xs.length := by
        rw [length_pos_iff]
        rintro rfl
        cases hfirst
      simp only [Except.guard_eq_ok, ChunkState.advance, Option.none_or, Option.or_none,
        Nat.zero_add, not_or, not_not]
      exact ⟨⟨hord, by omega, hcount.symm, hfirst, hlast⟩, trivial⟩

/-- The loop over the chunks of a term: all that matters of them is the list they store
together. -/
theorem digestChunks_eq_ok {l : List (PostingChunk × Nat)} : l.foldlM (digestChunk n d) s = .ok t ↔
      ∃ xss, List.Forall₂ (ChunkOk n) l xss ∧ Increasing s.logicalPrevious xss.flatten ∧
        (d = .allPacket → Consecutive s.allPackets xss.flatten) ∧
        t = s.advance d xss.flatten := by
  induction l generalizing s with
  | nil =>
    simp [Increasing, Consecutive, advance_nil, Except.pure_eq_ok, eq_comm]
  | cons item l ih =>
    simp only [foldlM_cons, Except.bind_eq_ok, digestChunk_eq_ok, ih]
    have hall : ∀ {xs : List Int}, d = .allPacket → (s.advance d xs).allPackets = s.allPackets + xs.length := by
      intro xs hd
      simp [advance, hd]
    constructor
    · rintro ⟨u, ⟨xs, hok, hinc, hcon, rfl⟩, xss, hoks, hincs, hcons, rfl⟩
      refine ⟨xs :: xss, .cons hok hoks, ?_, ?_, ?_⟩
      · rw [flatten_cons, increasing_append]
        exact ⟨hinc, hincs⟩
      · intro hd
        rw [flatten_cons, consecutive_append, ← hall hd]
        exact ⟨hcon hd, hcons hd⟩
      · rw [flatten_cons, advance_append]
    · rintro ⟨_, hoks, hinc, hcon, rfl⟩
      cases hoks with
      | @cons _ xs _ xss hok hoks =>
        rw [flatten_cons, increasing_append] at hinc
        simp only [flatten_cons, consecutive_append] at hcon
        refine ⟨_, ⟨xs, hok, hinc.1, fun hd => (hcon hd).1, rfl⟩, xss, hoks, hinc.2, ?_, ?_⟩
        · intro hd
          rw [hall hd]
          exact (hcon hd).2
        · rw [flatten_cons, advance_append]

/-- The chunks of a term store `xs`. -/
def Stored (packetCount : Int) (chunks : List PostingChunk) (xs : List Int) : Prop :=
  ∃ xss, List.Forall₂ (ChunkOk packetCount) (sortChunks chunks).zipIdx xss ∧ xs = xss.flatten

/-- The line of a term in the digest document. -/
def digestLine (key : PostingKey) (xs : List Int) : Bytes :=
  lineHead key.1 ++ encodeAscii (hex (deltas (-1) xs)) ++ lineTail key.2

theorem digestKey_eq_ok {py : Python} {directory : Dict PostingKey (List PostingChunk)}
    {key : PostingKey} :
    digestKey py n directory s key = .ok t ↔ validPostingValue py key.1 key.2 = true ∧
      ∃ xs, Stored n (directory.getD key []) xs ∧ Increasing (-1) xs ∧
        (key.1 = .allPacket → Consecutive s.allPackets xs) ∧
        t = { document := s.document ++ digestLine key xs
              memberships := s.memberships + xs.length
              supported := s.supported + if key.1 = .supported then xs.length else 0
              allPackets := s.allPackets + if key.1 = .allPacket then xs.length else 0
              logicalPrevious := xs.getLastD (-1) } := by
  simp only [digestKey, Except.guard_eq_ok, Except.bind_eq_ok, digestChunks_eq_ok, not_not, Except.ok.injEq]
  refine and_congr_right fun _ => ⟨?_, ?_⟩
  · rintro ⟨u, ⟨xss, hoks, hinc, hcon, rfl⟩, rfl⟩
    refine ⟨xss.flatten, ⟨xss, hoks, rfl⟩, hinc, hcon, ?_⟩
    simp [advance, digestLine, append_assoc]
  · rintro ⟨_, ⟨xss, hoks, rfl⟩, hinc, hcon, rfl⟩
    refine ⟨_, ⟨xss, hoks, hinc, hcon, rfl⟩, ?_⟩
    simp [advance, digestLine, append_assoc]

/-! ## The whole document -/

theorem getD_chunkDirectory (chunks : List PostingChunk) (key : PostingKey) :
    (chunkDirectory chunks).getD key [] = chunks.filter fun c => c.key = key := by
  rw [chunkDirectory, Dict.getD_pushAll, Dict.getD_empty, nil_append, filter_map, map_map]
  exact map_id _

theorem mem_keys_chunkDirectory {chunks : List PostingChunk} {key : PostingKey} :
    key ∈ (chunkDirectory chunks).keys ↔ ∃ c ∈ chunks, c.key = key := by
  rw [chunkDirectory, Dict.mem_keys_pushAll, map_map, mem_map]
  simp [Dict.keys]

theorem keyLe_trans (a b c : PostingKey) (hab : keyLe a b = true) (hbc : keyLe b c = true) : keyLe a c = true := by
  rw [keyLe, decide_eq_true_eq] at *
  rcases hab with hab | ⟨hab, hab'⟩
  · rcases hbc with hbc | ⟨hbc, -⟩
    · exact .inl (String.lt_trans hab hbc)
    · exact .inl (hbc ▸ hab)
  · rcases hbc with hbc | ⟨hbc, hbc'⟩
    · exact .inl (hab ▸ hbc)
    · exact .inr ⟨hab.trans hbc, Std.le_trans hab' hbc'⟩

theorem keyLe_total (a b : PostingKey) : (keyLe a b || keyLe b a) = true := by
  rw [Bool.or_eq_true, keyLe, keyLe, decide_eq_true_eq, decide_eq_true_eq]
  rcases Std.lt_trichotomy a.1.value b.1.value with h | h | h
  · exact .inl (.inl h)
  · rcases Std.le_total (a := a.2) (b := b.2) with h' | h'
    · exact .inl (.inr ⟨h, h'⟩)
    · exact .inr (.inr ⟨h.symm, h'⟩)
  · exact .inr (.inl h)

theorem PostingDimension.value_inj {d' : PostingDimension} (h : d.value = d'.value) : d = d' := by
  revert h
  cases d <;> cases d' <;> decide

theorem keyLe_antisymm {a b : PostingKey} (hab : keyLe a b = true) (hba : keyLe b a = true) : a = b := by
  rw [keyLe, decide_eq_true_eq] at hab hba
  rcases hab with hab | ⟨hab, hab'⟩
  · rcases hba with hba | ⟨hba, -⟩
    · exact absurd hba (String.lt_asymm hab)
    · exact absurd hab (hba ▸ String.lt_irrefl _)
  · rcases hba with hba | ⟨-, hba'⟩
    · exact absurd hba (hab ▸ String.lt_irrefl _)
    · exact Prod.ext (PostingDimension.value_inj hab) (Std.le_antisymm hab' hba')

instance : IsTrans PostingKey fun a b => keyLe a b = true := ⟨keyLe_trans⟩

instance : Std.Total fun a b : PostingKey => keyLe a b = true :=
  ⟨fun a b => Bool.or_eq_true_iff.mp (keyLe_total a b)⟩

theorem sortKeys_perm (keys : List PostingKey) : (sortKeys keys).Perm keys :=
  perm_insertionSort _ keys

/-- Sorting forgets the order in which the terms were met. -/
theorem sortKeys_congr {l l' : List PostingKey} (h : l.Perm l') : sortKeys l = sortKeys l' := by
  have hl := pairwise_insertionSort (fun a b : PostingKey => keyLe a b = true) l
  have hl' := pairwise_insertionSort (fun a b : PostingKey => keyLe a b = true) l'
  refine List.Perm.eq_of_pairwise ?_ hl hl' ?_
  · exact fun a b _ _ hab hba => keyLe_antisymm hab hba
  · exact (sortKeys_perm l).trans (h.trans (sortKeys_perm l').symm)

end C2Hunter
