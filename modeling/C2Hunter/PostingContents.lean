import C2Hunter.PostingDigest
import C2Hunter.InvertedIndex

/-!
# What a posting generation contains

A generation is read in three ways: term by term (`posting_values`), as a whole into the
digest document, and by the validation. All three see the chunks only through the lists
they store.

* `Contains py g P` — the chunks of `g` store, for each term `k`, the ordinals `P k`.
* `Contains.postingValues_eq`, `Contains.stream_eq` — what is read from such a generation,
  in terms of `P` alone.
* `Contains.validate_eq` — such a generation passes the validation when its counts are
  those of `P` and under the limits.
-/

namespace C2Hunter

open List

/-- The generation stores the ordinals `P k` for each term `k`. -/
structure Contains (py : Python) (g : PostingGeneration) (P : PostingKey → List Int) : Prop where
  stored : ∀ k, Stored g.packetCount (g.chunks.filter fun c => c.key = k) (P k)
  increasing : ∀ k, Increasing (-1) (P k)
  valid : ∀ k, P k ≠ [] → validPostingValue py k.1 k.2 = true
  consecutive : Consecutive 0 (P (.allPacket, []))

variable {chunks : List PostingChunk}

section

variable {n : Int} {xs : List Int}

theorem ChunkOk.ne_nil {item : PostingChunk × Nat} (h : ChunkOk n item xs) : xs ≠ [] := by
  obtain ⟨-, -, -, hfirst, -⟩ := h
  rintro rfl
  cases hfirst

/-- Chunks store nothing only when there are none. -/
theorem Stored.eq_nil_iff (h : Stored n chunks xs) : xs = [] ↔ chunks = [] := by
  obtain ⟨xss, hoks, rfl⟩ := h
  have hlen : (sortChunks chunks).length = xss.length := by
    rw [← hoks.length_eq, length_zipIdx]
  have hsort : (sortChunks chunks).length = chunks.length := length_insertionSort _ _
  constructor
  · intro hnil
    cases xss with
    | nil => exact length_eq_zero_iff.mp (hsort ▸ hlen)
    | cons =>
      obtain ⟨item, l, hok, -, -⟩ := forall₂_cons_right_iff.mp hoks
      rw [flatten_cons, append_eq_nil_iff] at hnil
      exact absurd hnil.1 hok.ne_nil
  · rintro rfl
    rw [length_nil] at hsort
    rw [length_eq_zero_iff.mp (hlen.symm.trans hsort), flatten_nil]

end

variable {g : PostingGeneration} {P : PostingKey → List Int}

section Reading

variable {py : Python} {k : PostingKey} {d : PostingDimension} {keys : List PostingKey}

/-- The terms of the directory are those with a non-empty list. -/
theorem Contains.mem_keys (h : Contains py g P) : k ∈ (chunkDirectory g.chunks).keys ↔ P k ≠ [] := by
  rw [mem_keys_chunkDirectory, Ne, (h.stored k).eq_nil_iff, filter_eq_nil_iff]
  simp

/-- `posting_values` returns the list of the term. -/
theorem Contains.postingValues_eq (h : Contains py g P) (d : PostingDimension) (v : Bytes) :
    postingValues g d v = .ok (P (d, v)) := by
  obtain ⟨xss, hoks, hflat⟩ := h.stored (d, v)
  have hfilter : (g.chunks.filter fun c => c.dimension = d ∧ c.value = v) =
      g.chunks.filter fun c => c.key = (d, v) := by
    refine filter_congr fun c _ => ?_
    exact decide_eq_decide.mpr Prod.mk_inj.symm
  rw [postingValues, hfilter, hflat]
  -- the loop appends the stored lists one after another
  have hloop : ∀ (l : List PostingChunk) (i : Nat) (xss : List (List Int)) (acc : List Int),
      List.Forall₂ (ChunkOk g.packetCount) (l.zipIdx i) xss →
      l.foldlM (fun result chunk => do
        let decoded ← decodeOrdinals chunk.encodedOrdinals (some (g.packetCount - 1))
        .ok (result ++ decoded)) acc = .ok (acc ++ xss.flatten) := by
    intro l
    induction l with
    | nil =>
      intro i xss acc hoks
      cases hoks
      simp [Except.pure_eq_ok]
    | cons c l ih =>
      intro i xss acc hoks
      rw [zipIdx_cons] at hoks
      cases hoks with
      | cons hok hoks =>
        rw [foldlM_cons, Except.bind_eq_ok]
        refine ⟨_, Except.bind_eq_ok.mpr ⟨_, hok.1, rfl⟩, ?_⟩
        rw [ih (i + 1) _ _ hoks, flatten_cons, append_assoc]
  exact hloop _ 0 xss [] hoks

theorem Contains.valid_mem (h : Contains py g P) (hk : k ∈ (chunkDirectory g.chunks).keys) :
    validPostingValue py k.1 k.2 = true :=
  h.valid k (h.mem_keys.mp hk)

/-- The one value of the dimensions that only say that a packet is there. -/
theorem value_eq_nil (hd : d = .allPacket ∨ d = .supported) {v : Bytes}
    (h : validPostingValue py d v = true) : v = [] := by
  rcases hd with rfl | rfl
  · exact of_decide_eq_true h
  · exact of_decide_eq_true h

section

variable (d : PostingDimension) (P : PostingKey → List Int) (keys : List PostingKey)

/-- The ordinals of a dimension, over some terms. -/
def countIn : Nat :=
  (keys.map fun k => if k.1 = d then (P k).length else 0).sum

theorem countIn_append (k : PostingKey) :
    countIn d P (keys ++ [k]) = countIn d P keys + if k.1 = d then (P k).length else 0 := by
  simp [countIn]

end

/-- A dimension whose only value is empty is counted at that value. -/
theorem countIn_eq (hd : d = .allPacket ∨ d = .supported) (hnd : keys.Nodup)
    (hvalid : ∀ k ∈ keys, validPostingValue py k.1 k.2 = true) :
    countIn d P keys = if (d, []) ∈ keys then (P (d, [])).length else 0 := by
  induction keys with
  | nil => rfl
  | cons k keys ih =>
    obtain ⟨hk, hnd⟩ := nodup_cons.mp hnd
    have ih := ih hnd fun k hk => hvalid k (mem_cons_of_mem _ hk)
    rw [countIn, map_cons, sum_cons, ← countIn, ih]
    by_cases hkd : k.1 = d
    · have hkey : k = (d, []) :=
        Prod.ext hkd (value_eq_nil (hkd ▸ hd) (hvalid k mem_cons_self))
      rw [if_pos hkd, hkey, if_neg (hkey ▸ hk), if_pos mem_cons_self, Nat.add_zero]
    · have hne : (d, []) ≠ k := fun h => hkd (h ▸ rfl)
      simp [hkd, hne]

/-- The loop over the terms. -/
theorem Contains.digestKeys (h : Contains py g P) (hnd : keys.Nodup)
    (hkeys : ∀ k ∈ keys, k ∈ (chunkDirectory g.chunks).keys) (document : Bytes) :
    ∃ s, keys.foldlM (digestKey py g.packetCount (chunkDirectory g.chunks)) ⟨document, 0, 0, 0, -1⟩ = .ok s ∧
      s.document = document ++ keys.flatMap (fun k => digestLine k (P k)) ∧
      s.memberships = (keys.map fun k => (P k).length).sum ∧
      s.supported = countIn .supported P keys ∧ s.allPackets = countIn .allPacket P keys := by
  refine List.foldlM_eq_ok_of_step (fun pre (s : DigestState) =>
      s.document = document ++ pre.flatMap (fun k => digestLine k (P k)) ∧
      s.memberships = (pre.map fun k => (P k).length).sum ∧
      s.supported = countIn .supported P pre ∧ s.allPackets = countIn .allPacket P pre)
    ⟨by simp, rfl, rfl, rfl⟩ ?_
  rintro pre k s hpre ⟨hdoc, hmem, hsup, hallp⟩
  have hnd' : (pre ++ [k]).Nodup := hnd.sublist hpre.sublist
  have hin : ∀ k' ∈ pre ++ [k], k' ∈ (chunkDirectory g.chunks).keys :=
    fun k' hk' => hkeys k' (hpre.subset hk')
  have hk : k ∈ (chunkDirectory g.chunks).keys := hin k (by simp)
  refine ⟨_, digestKey_eq_ok.mpr ⟨h.valid_mem hk, P k, ?_, h.increasing k, ?_, rfl⟩, ?_⟩
  · rw [getD_chunkDirectory]
    exact h.stored k
  · -- no term of this dimension came before
    intro hd
    have hkey : k = (.allPacket, []) :=
      Prod.ext hd (value_eq_nil (.inl hd) (h.valid_mem hk))
    obtain ⟨hpnd, -, hdisj⟩ := nodup_append.mp hnd'
    have hzero : countIn .allPacket P pre = 0 := by
      rw [countIn_eq (.inl rfl) hpnd fun k' hk' => h.valid_mem (hin k' (by simp [hk']))]
      refine if_neg fun hmem => ?_
      exact hdisj _ hmem k (by simp) hkey.symm
    rw [hallp, hzero, hkey]
    exact h.consecutive
  · refine ⟨?_, ?_, ?_, ?_⟩
    · simp [hdoc]
    · simp [hmem]
    · rw [countIn_append, hsup]
    · rw [countIn_append, hallp]

/-- The terms of a generation in the order of the document. -/
def sortedKeys (g : PostingGeneration) : List PostingKey :=
  sortKeys (chunkDirectory g.chunks).keys

theorem sortedKeys_perm (g : PostingGeneration) : (sortedKeys g).Perm (chunkDirectory g.chunks).keys :=
  sortKeys_perm _

/-- The digest document and the statistics, in terms of what is stored. -/
theorem Contains.stream_eq (h : Contains py g P) : streamGenerationDigestDocument py g = .ok
      (digestDomain ++ digestHeader g ++ encodeAscii "\n" ++ (sortedKeys g).flatMap fun k => digestLine k (P k),
       { memberships := ((chunkDirectory g.chunks).keys.map fun k => (P k).length).sum
         encodedBytes := (g.chunks.map fun c => c.encodedOrdinals.length).sum
         distinctKeys := (chunkDirectory g.chunks).keys.length
         supported := (P (.supported, [])).length
         allPackets := (P (.allPacket, [])).length }) := by
  have hperm := sortedKeys_perm g
  have hnd : (sortedKeys g).Nodup := hperm.nodup_iff.mpr (chunkDirectory g.chunks).nodup
  have hcount : ∀ {d}, d = .allPacket ∨ d = .supported → countIn d P (sortedKeys g) = (P (d, [])).length := by
    intro d hd
    rw [countIn_eq hd hnd fun k hk => h.valid_mem (hperm.mem_iff.mp hk)]
    split
    · rfl
    · next hout =>
      rw [hperm.mem_iff, h.mem_keys, not_not] at hout
      rw [hout, length_nil]
  obtain ⟨s, hrun, hdoc, hmem, hsup, hallp⟩ := h.digestKeys hnd (fun k hk => hperm.mem_iff.mp hk)
    (digestDomain ++ digestHeader g ++ encodeAscii "\n")
  rw [streamGenerationDigestDocument, Except.bind_eq_ok]
  refine ⟨s, hrun, ?_⟩
  rw [hdoc, hmem, hsup, hallp, hcount (.inr rfl), hcount (.inl rfl), (hperm.map _).sum_eq]

end Reading

/-! ## Validation -/

section Validation

variable {py : Python}

theorem exists_right_of_mem {α β : Type} {R : α → β → Prop} {l : List α} {l' : List β}
    (h : List.Forall₂ R l l') {a : α} (ha : a ∈ l) : ∃ b, R a b := by
  induction h with
  | nil => cases ha
  | cons hab _ ih =>
    rcases mem_cons.mp ha with rfl | ha
    · exact ⟨_, hab⟩
    · exact ih ha

section

variable {c : PostingChunk} {n : Int} {xs : List Int}

/-- Every chunk stores something at some place. -/
theorem Contains.exists_chunkOk (h : Contains py g P) (hc : c ∈ g.chunks) :
    ∃ i xs, ChunkOk g.packetCount (c, i) xs := by
  obtain ⟨xss, hoks, -⟩ := h.stored c.key
  have hsort : c ∈ sortChunks (g.chunks.filter fun c' => c'.key = c.key) := by
    rw [sortChunks, mem_insertionSort, mem_filter]
    exact ⟨hc, decide_eq_true rfl⟩
  obtain ⟨i, hi⟩ := mem_iff_getElem?.mp hsort
  obtain ⟨xs, hxs⟩ := exists_right_of_mem hoks (mk_mem_zipIdx_iff_getElem?.mpr hi)
  exact ⟨i, xs, hxs⟩

/-- A chunk that stores something passes the check on chunks. -/
theorem ChunkOk.validChunk {i : Nat} (h : ChunkOk n (c, i) xs)
    (hv : validPostingValue py c.dimension c.value = true) : validChunk py n c = true := by
  have hne := h.ne_nil
  obtain ⟨hdec, hord, hcount, hfirst, hlast⟩ := h
  obtain ⟨-, hinc, henc, hbound⟩ := decodeOrdinals_eq_ok.mp hdec
  obtain ⟨hpair, hrange, -⟩ := (increasing_iff le_rfl).mp hinc
  have hfmem : c.firstPacketIndex ∈ xs := mem_of_mem_head? hfirst
  have hlmem : c.lastPacketIndex ∈ xs := mem_of_getLast? hlast
  have hle : c.firstPacketIndex ≤ c.lastPacketIndex := by
    cases xs with
    | nil => cases hfirst
    | cons =>
      cases hfirst
      rcases mem_cons.mp hlmem with heq | hmem
      · exact heq.ge
      · exact ((pairwise_cons.mp hpair).1 _ hmem).le
  have hbytes : c.encodedOrdinals ≠ [] := by
    cases xs with
    | nil => exact absurd rfl hne
    | cons =>
      rw [henc, deltas]
      exact append_ne_nil_of_left_ne_nil (Leb128.encode_ne_nil _) _
  have hlen : 0 < xs.length := length_pos_iff.mpr hne
  have hfr := (hrange _ hfmem).1
  have hlb := hbound _ rfl _ hlmem
  have hcount : c.count = xs.length := hcount
  rw [C2Hunter.validChunk, decide_eq_true_eq]
  exact ⟨hv, hbytes, by rw [hord]; exact Int.natCast_nonneg i, by omega, by omega, hle, by omega⟩

/-- The counts of the chunks of a term add up to the length of its list. -/
theorem Stored.sum_count (h : Stored n chunks xs) : (chunks.map fun c => c.count.toNat).sum = xs.length := by
  obtain ⟨xss, hoks, rfl⟩ := h
  have hloop : ∀ (l : List PostingChunk) (i : Nat) (xss : List (List Int)),
      List.Forall₂ (ChunkOk n) (l.zipIdx i) xss →
      (l.map fun c => c.count.toNat).sum = xss.flatten.length := by
    intro l
    induction l with
    | nil =>
      intro i xss hoks
      cases hoks
      rfl
    | cons c l ih =>
      intro i xss hoks
      rw [zipIdx_cons] at hoks
      cases hoks with
      | @cons _ xs _ xss hok hoks =>
        have hcount : c.count = xs.length := hok.2.2.1
        rw [map_cons, sum_cons, ih _ _ hoks, flatten_cons, length_append, hcount, Int.toNat_natCast]
  rw [← hloop _ 0 xss hoks]
  exact ((perm_insertionSort _ chunks).map _).sum_eq.symm

end

/-- The counts that a generation declares are those of what it stores. -/
structure Counted (g : PostingGeneration) (P : PostingKey → List Int) : Prop where
  memberships : g.membershipCount =
    (((chunkDirectory g.chunks).keys.map fun k => (P k).length).sum : Nat)
  encodedBytes : g.encodedByteCount = ((g.chunks.map fun c => c.encodedOrdinals.length).sum : Nat)
  distinctKeys : g.distinctKeyCount = (chunkDirectory g.chunks).keys.length
  supported : g.supportedCount = (P (.supported, [])).length
  allPackets : g.packetCount = (P (.allPacket, [])).length

theorem Contains.sum_count (h : Contains py g P) : (g.chunks.map fun c => c.count.toNat).sum =
      ((chunkDirectory g.chunks).keys.map fun k => (P k).length).sum := by
  rw [← InvertedIndex.sum_filter_key (chunkDirectory g.chunks).nodup PostingChunk.key
    (fun c => c.count.toNat) fun c hc => mem_keys_chunkDirectory.mpr ⟨c, hc, rfl⟩]
  congr 1
  exact map_congr_left fun k _ => (h.stored k).sum_count

/-- The variables of the chunk loop after the chunks `pre`. -/
structure Declared (pre : List PostingChunk) (s : DeclaredState) : Prop where
  memberships : s.memberships = ((pre.map fun c => c.count.toNat).sum : Nat)
  encodedBytes : s.encodedBytes = (pre.map fun c => c.encodedOrdinals.length).sum
  nodup : s.keys.Nodup
  mem_keys : ∀ k, k ∈ s.keys ↔ ∃ c ∈ pre, c.key = k

section

variable (h : Contains py g P) (hc : Counted g P)

include h hc

/-- One round of the chunk loop: no partial count exceeds the declared one. -/
theorem Contains.declareChunk_step {pre : List PostingChunk} {c : PostingChunk} {s : DeclaredState}
    (hpre : pre ++ [c] <+: g.chunks) (hs : Declared pre s) :
    ∃ t, declareChunk py g s c = some t ∧ Declared (pre ++ [c]) t := by
  have hcmem : c ∈ g.chunks := hpre.subset (by simp)
  obtain ⟨i, xs, hok⟩ := h.exists_chunkOk hcmem
  have hvalid : validChunk py g.packetCount c = true :=
    hok.validChunk (h.valid_mem (mem_keys_chunkDirectory.mpr ⟨c, hcmem, rfl⟩))
  have hcount : c.count = xs.length := hok.2.2.1
  have hdecl : Declared (pre ++ [c]) ⟨s.memberships + c.count,
      s.encodedBytes + c.encodedOrdinals.length, s.keys.insert c.key⟩ := by
    refine ⟨?_, ?_, hs.nodup.insert, fun k => ?_⟩
    · simp [hs.memberships, hcount]
    · simp [hs.encodedBytes]
    · rw [mem_insert_iff, hs.mem_keys]
      simp only [mem_append, mem_singleton]
      constructor
      · rintro (rfl | ⟨c', hc', rfl⟩)
        · exact ⟨c, .inr rfl, rfl⟩
        · exact ⟨c', .inl hc', rfl⟩
      · rintro ⟨c', hc' | rfl, rfl⟩
        · exact .inr ⟨c', hc', rfl⟩
        · exact .inl rfl
  have hle₁ := (hpre.sublist.map fun c => c.count.toNat).sum_le_sum (by simp)
  have hle₂ := (hpre.sublist.map fun c => c.encodedOrdinals.length).sum_le_sum (by simp)
  have hle₃ : (s.keys.insert c.key).length ≤ (chunkDirectory g.chunks).keys.length := by
    refine hdecl.nodup.length_le_of_subset fun k hk => ?_
    obtain ⟨c', hc', rfl⟩ := (hdecl.mem_keys k).mp hk
    exact mem_keys_chunkDirectory.mpr ⟨c', hpre.subset hc', rfl⟩
  refine ⟨_, ?_, hdecl⟩
  have hmem := hdecl.memberships
  have henc := hdecl.encodedBytes
  rw [declareChunk, if_neg (by simp [hvalid])]
  refine if_neg ?_
  dsimp only at hmem henc ⊢
  rw [hmem, henc, hc.memberships, hc.encodedBytes, hc.distinctKeys, ← h.sum_count]
  omega

/-- The chunk loop of the validation ends with the declared counts. -/
theorem Contains.declareChunks : ∃ s, g.chunks.foldlM (declareChunk py g) ⟨0, 0, []⟩ = some s ∧
      s.memberships = g.membershipCount ∧ s.encodedBytes = g.encodedByteCount ∧
      s.keys.length = g.distinctKeyCount := by
  have h0 : Declared [] ⟨0, 0, []⟩ := ⟨rfl, rfl, nodup_nil, by simp⟩
  obtain ⟨s, hrun, hs⟩ := List.foldlM_eq_pure_of_step (m := Option) Declared h0
    fun pre c s hpre hs => h.declareChunk_step hc hpre hs
  refine ⟨s, hrun, ?_, ?_, ?_⟩
  · rw [hs.memberships, hc.memberships, h.sum_count]
  · rw [hs.encodedBytes, hc.encodedBytes]
  · have hperm : s.keys.Perm (chunkDirectory g.chunks).keys := by
      refine (perm_ext_iff_of_nodup hs.nodup (chunkDirectory g.chunks).nodup).mpr fun k => ?_
      rw [hs.mem_keys k, ← mem_keys_chunkDirectory]
      rfl
    rw [hc.distinctKeys, hperm.length_eq]

/-- A counted generation with the digest of its document passes the validation when its
header does. -/
theorem Contains.validate_eq (hdigest : generationDigest py g = .ok g.digest)
    (limits : PostingBuildLimits) : validatePostingGeneration py g limits = validHeader g limits := by
  obtain ⟨s, hrun, hmem, henc, hkeys⟩ := h.declareChunks hc
  rw [validatePostingGeneration]
  cases hheader : validHeader g limits with
  | false => simp
  | true =>
    rw [generationDigest, h.stream_eq] at hdigest
    simp only [hrun, hmem, henc, hkeys, h.stream_eq, hc.memberships, hc.encodedBytes,
      hc.distinctKeys, hc.supported, hc.allPackets, Except.ok.inj hdigest]
    simp

end

end Validation

end C2Hunter
