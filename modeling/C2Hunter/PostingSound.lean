import C2Hunter.PostingExact
import C2Hunter.PostingSelect

/-!
# Selection loses no packet

The set operations of `select_posting_candidates` are read as conditions on packets:
`Denotes packets r Q` says that the set `r` holds exactly the positions of the supported
packets that satisfy `Q`. Posting lists denote the condition to have a term, unions and
intersections denote `or` and `and`, and so the candidates of a predicate denote a
condition that every packet matched by the predicate satisfies.

* `Denotes` and its rules — the algebra.
* `ensures_getPosting`, `ensures_endpoints`, `ensures_groupCandidates` — what the inner
  functions denote, where they return.
* `select_sound` — the result on the function as a whole.
-/

namespace C2Hunter

open List

open Attempt

/-! ## Sets and the conditions they denote -/

/-- The supported packet at position `x` has the fields `f`. -/
def FieldsAt (packets : List ExportPacket) (x : Int) (f : PacketFields) : Prop :=
  ∃ (i : Nat) (p : ExportPacket), packets[i]? = some p ∧ p.fields = some f ∧ x = i

variable {packets : List ExportPacket} {x : Int} {f : PacketFields} {Q R : PacketFields → Prop}
    {d : PostingDimension}

section

theorem FieldsAt.unique {f' : PacketFields} (h : FieldsAt packets x f) (h' : FieldsAt packets x f') : f = f' := by
  obtain ⟨i, p, hp, hf, rfl⟩ := h
  obtain ⟨j, q, hq, hf', hij⟩ := h'
  cases Int.ofNat_inj.mp hij
  cases hp.symm.trans hq
  exact Option.some.inj (hf.symm.trans hf')

/-- The set holds exactly the positions of the supported packets that satisfy `Q`. -/
def Denotes (packets : List ExportPacket) (r : List Int) (Q : PacketFields → Prop) : Prop :=
  r.Nodup ∧ ∀ x, x ∈ r ↔ ∃ f, FieldsAt packets x f ∧ Q f

theorem Denotes.congr {r : List Int} (h : Denotes packets r Q) (hQR : ∀ f, Q f ↔ R f) : Denotes packets r R := by
  refine ⟨h.1, fun x => ?_⟩
  rw [h.2 x]
  exact exists_congr fun f => and_congr_right fun _ => hQR f

/-- A term of a supported packet, as a condition on its fields. -/
theorem mem_packetPosting_iff {v : Bytes} (hd : d ≠ .allPacket) :
    x ∈ packetPosting packets (d, v) ↔ ∃ f, FieldsAt packets x f ∧ f.value d = some v := by
  rw [mem_packetPosting]
  constructor
  · rintro ⟨i, p, hp, hterm, rfl⟩
    rcases mem_packetTerms.mp hterm with h | ⟨f, hf, hv⟩
    · exact absurd (congrArg Prod.fst h) hd
    · exact ⟨f, ⟨i, p, hp, hf, rfl⟩, hv⟩
  · rintro ⟨f, ⟨i, p, hp, hf, rfl⟩, hv⟩
    exact ⟨i, p, hp, mem_packetTerms.mpr (.inr ⟨f, hf, hv⟩), rfl⟩

end

variable {α : Type}

section Sets

variable [DecidableEq α]

theorem nodup_setAdd {r : List α} (h : r.Nodup) (a : α) : (setAdd r a).Nodup := by
  rw [setAdd]
  split
  · exact h
  · next hout =>
    refine nodup_append.mpr ⟨h, nodup_singleton a, ?_⟩
    rintro b hb c hc rfl
    exact hout (mem_singleton.mp hc ▸ hb)

theorem mem_setAdd {r : List α} {a b : α} : b ∈ setAdd r a ↔ b ∈ r ∨ b = a := by
  rw [setAdd]
  split
  · next hin =>
    constructor
    · exact .inl
    · rintro (h | rfl)
      · exact h
      · exact hin
  · rw [mem_append, mem_singleton]

end Sets

/-! ## The invariant and the budget -/

/-- Every list of the cache is the posting list of its term. -/
def CacheOk (packets : List ExportPacket) (q : QueryState) : Prop :=
  ∀ k e, q.cache.get? k = some e → e.2.Nodup ∧ ∀ x, x ∈ e.2 ↔ x ∈ packetPosting packets k

variable {py : Python} {limits : PostingQueryLimits} {result : List Int}

section Select

variable {ctx : QueryContext}

/-- A computation that returns the set that a condition denotes. -/
abbrev Selects (packets : List ExportPacket) (m : Query (List Int)) (Q : PacketFields → Prop) : Prop :=
  Ensures (CacheOk packets) m fun r => Denotes packets r Q

theorem ensures_operation (count : Nat) : Ensures (CacheOk packets) (operation limits count) fun _ => True := by
  intro s a s' hs hrun
  rw [operation] at hrun
  split at hrun
  · cases hrun
  · cases hrun
    exact ⟨hs, trivial⟩

theorem ensures_decoded : Ensures (CacheOk packets) (decoded limits) fun _ => True := by
  intro s a s' hs hrun
  rw [decoded] at hrun
  split at hrun
  · cases hrun
  · refine ensures_operation 1 _ a s' ?_ hrun
    exact hs

theorem ensures_orGiveUp (o : Option α) : Ensures (CacheOk packets) (orGiveUp o) fun a => o = some a := by
  cases o with
  | none => exact ensures_giveUp
  | some => exact ensures_pure rfl

/-! ## Set operations -/

theorem ensures_unionValues (values : List (List Int)) : Ensures (CacheOk packets) (unionValues ctx values) fun r =>
      r.Nodup ∧ ∀ x, x ∈ r ↔ ∃ v ∈ values, x ∈ v := by
  refine ensures_mono (ensures_foldlM (fun pre r => r.Nodup ∧ ∀ x, x ∈ r ↔ x ∈ pre) ⟨nodup_nil, by simp⟩ ?_) ?_
  · rintro pre a r - ⟨hnd, hmem⟩
    refine ensures_bind (ensures_operation 1) fun _ _ =>
      ensures_bind (ensures_operation 1) fun _ _ => ensures_pure ⟨nodup_setAdd hnd a, fun x => ?_⟩
    rw [mem_setAdd, hmem, mem_append, mem_singleton]
  · rintro r ⟨hnd, hmem⟩
    refine ⟨hnd, fun x => ?_⟩
    rw [hmem, mem_flatten]

theorem ensures_keepValues (keep : Int → Bool) (left : List Int) :
    Ensures (CacheOk packets) (keepValues ctx keep left) fun r =>
      r.Nodup ∧ ∀ x, x ∈ r ↔ x ∈ left ∧ keep x = true := by
  refine ensures_foldlM (fun pre (r : List Int) => r.Nodup ∧ ∀ x, x ∈ r ↔ x ∈ pre ∧ keep x = true)
    ⟨nodup_nil, by simp⟩ ?_
  rintro pre a r - ⟨hnd, hmem⟩
  refine ensures_bind (ensures_operation 1) fun _ _ => ensures_ite (fun ha => ?_) (fun ha => ?_)
  · refine ensures_bind (ensures_operation 1) fun _ _ =>
      ensures_pure ⟨nodup_setAdd hnd a, fun x => ?_⟩
    rw [mem_setAdd, hmem, mem_append, mem_singleton]
    constructor
    · rintro (⟨hx, hr⟩ | rfl)
      · exact ⟨.inl hx, hr⟩
      · exact ⟨.inr rfl, ha⟩
    · rintro ⟨hx | rfl, hr⟩
      · exact .inl ⟨hx, hr⟩
      · exact .inr rfl
  · refine ensures_pure ⟨hnd, fun x => ?_⟩
    rw [hmem, mem_append, mem_singleton]
    constructor
    · rintro ⟨hx, hr⟩
      exact ⟨.inl hx, hr⟩
    · rintro ⟨hx | rfl, hr⟩
      · exact ⟨hx, hr⟩
      · exact absurd hr ha

variable {l r : List Int}

theorem Denotes.mem_iff (h : Denotes packets r R) (hf : FieldsAt packets x f) : x ∈ r ↔ R f := by
  rw [h.2]
  constructor
  · rintro ⟨f', hf', hr⟩
    rwa [hf.unique hf']
  · exact fun hr => ⟨f, hf, hr⟩

/-- Those of a set that a condition keeps. -/
theorem Denotes.keep {keep : Int → Bool} (h : Denotes packets l Q)
    (hkeep : ∀ x f, FieldsAt packets x f → (keep x = true ↔ R f)) :
    Selects packets (keepValues ctx keep l) fun f => Q f ∧ R f := by
  refine ensures_mono (ensures_keepValues _ l) ?_
  rintro s ⟨hnd, hmem⟩
  refine ⟨hnd, fun x => ?_⟩
  rw [hmem, h.2, ← exists_and_right]
  refine exists_congr fun f => ?_
  rw [and_assoc]
  exact and_congr_right fun hf => and_congr_right fun _ => hkeep x f hf

section

variable (hl : Denotes packets l Q) (hr : Denotes packets r R)

include hl hr

/-- Unions denote `or`. -/
theorem Denotes.union : Selects packets (unionValues ctx [l, r]) fun f => Q f ∨ R f := by
  refine ensures_mono (ensures_unionValues [l, r]) ?_
  rintro s ⟨hnd, hmem⟩
  refine ⟨hnd, fun x => ?_⟩
  simp only [hmem, mem_cons, not_mem_nil, or_false, exists_eq_or_imp, exists_eq_left,
    hl.2, hr.2, ← exists_or, and_or_left]

/-- Intersections denote `and`. -/
theorem Denotes.intersect : Selects packets (intersectValues ctx l r) fun f => Q f ∧ R f := by
  refine hl.keep fun x f hf => ?_
  rw [decide_eq_true_eq, hr.mem_iff hf]

/-- Differences denote `and not`. -/
theorem Denotes.subtract : Selects packets (subtractValues ctx l r) fun f => Q f ∧ ¬R f := by
  refine hl.keep fun x f hf => ?_
  rw [decide_eq_true_eq, hr.mem_iff hf]

end

/-! ## Posting lists -/

/-- The context of a query on a generation that contains the posting lists of `packets`. -/
structure ContextOk (py : Python) (packets : List ExportPacket) (ctx : QueryContext) : Prop where
  contains : Contains py ctx.generation (packetPosting packets)
  directory : ctx.directory = (chunkDirectory ctx.generation.chunks).mapValues sortChunks

theorem ContextOk.getD_directory (h : ContextOk py packets ctx) (key : PostingKey) :
    ctx.directory.getD key [] = sortChunks (ctx.generation.chunks.filter fun c => c.key = key) := by
  rw [← getD_chunkDirectory, h.directory, Dict.getD, Dict.get?_mapValues, Dict.getD]
  cases (chunkDirectory ctx.generation.chunks).get? key with
  | none | some => rfl

/-- The loop over the ordinals of a chunk adds them all. -/
theorem ensures_getOrdinals (xs : List Int) (s : GetState) (hs : s.result.Nodup) :
    Ensures (CacheOk packets) (xs.foldlM (getOrdinal ctx) s) fun t =>
      t.result.Nodup ∧ ∀ x, x ∈ t.result ↔ x ∈ s.result ∨ x ∈ xs := by
  refine ensures_foldlM (fun pre (t : GetState) =>
    t.result.Nodup ∧ ∀ x, x ∈ t.result ↔ x ∈ s.result ∨ x ∈ pre) ⟨hs, by simp⟩ ?_
  rintro pre a t - ⟨hnd, hmem⟩
  refine ensures_bind ensures_decoded fun _ _ => ensures_guard fun _ =>
    ensures_bind (ensures_operation 1) fun _ _ => ensures_pure ⟨nodup_setAdd hnd a, fun x => ?_⟩
  rw [mem_setAdd, hmem, mem_append, mem_singleton, or_assoc]

/-- The ordinal is one of those the chunk decodes to. -/
def ChunkHolds (packetCount : Int) (item : PostingChunk × Nat) (x : Int) : Prop :=
  ∃ xs, decodeOrdinals item.1.encodedOrdinals (some (packetCount - 1)) = .ok xs ∧ x ∈ xs

theorem chunkHolds_iff {n : Int} {item : PostingChunk × Nat} {xs : List Int}
    (h : decodeOrdinals item.1.encodedOrdinals (some (n - 1)) = .ok xs) :
    ChunkHolds n item x ↔ x ∈ xs := by
  constructor
  · rintro ⟨ys, hys, hx⟩
    cases h.symm.trans hys
    exact hx
  · exact fun hx => ⟨xs, h, hx⟩

/-- The loop over the chunks adds what each of them decodes to. -/
theorem ensures_getChunks (items : List (PostingChunk × Nat)) :
    Ensures (CacheOk packets) (items.foldlM (getChunk ctx) ⟨[], -1, none, none, 0⟩) fun t =>
      t.result.Nodup ∧ ∀ x, x ∈ t.result ↔ ∃ item ∈ items, ChunkHolds ctx.generation.packetCount item x := by
  refine ensures_foldlM (fun pre (t : GetState) => t.result.Nodup ∧ ∀ x, x ∈ t.result ↔
    ∃ item ∈ pre, ChunkHolds ctx.generation.packetCount item x) ⟨nodup_nil, by simp⟩ ?_
  rintro pre item s - ⟨hnd, hmem⟩
  have hloop : Ensures (CacheOk packets) (Gen.consume (fun _ => giveUp) (getOrdinal ctx)
      { s with first := none, last := none, count := 0 }
      (iterDecodedOrdinals item.1.encodedOrdinals (some (ctx.generation.packetCount - 1))))
      fun t => t.result.Nodup ∧ ∀ x, x ∈ t.result ↔
        ∃ item' ∈ pre ++ [item], ChunkHolds ctx.generation.packetCount item' x := by
    refine ensures_consume fun xs hxs => ensures_mono (ensures_getOrdinals xs _ hnd) ?_
    rintro t ⟨hnd', hmem'⟩
    refine ⟨hnd', fun x => ?_⟩
    rw [hmem', hmem, ← chunkHolds_iff hxs]
    simp only [mem_append, mem_singleton, or_and_right, exists_or, exists_eq_left]
  exact ensures_bind hloop fun t ht => ensures_guard fun _ => ensures_pure ht

/-- What the chunks of a term hold together is the list they store. -/
theorem mem_stored {n : Int} {chunks : List PostingChunk} {xs : List Int} (h : Stored n chunks xs) : x ∈ xs ↔ ∃ item ∈ (sortChunks chunks).zipIdx, ChunkHolds n item x := by
  obtain ⟨xss, hoks, rfl⟩ := h
  generalize (sortChunks chunks).zipIdx = items at hoks ⊢
  induction hoks with
  | nil => simp
  | @cons item ys items xss hok _ ih =>
    rw [flatten_cons, mem_append, ih, exists_mem_cons_iff, chunkHolds_iff hok.1]

section

variable (h : ContextOk py packets ctx)

include h

/-- `get` returns the posting list of the term. -/
theorem ensures_getPosting (key : PostingKey) : Ensures (CacheOk packets) (getPosting ctx key) fun r =>
      r.Nodup ∧ ∀ x, x ∈ r ↔ x ∈ packetPosting packets key := by
  intro q r q' hq hrun
  rw [getPosting] at hrun
  split at hrun
  · next e he =>
    cases hrun
    exact ⟨hq, hq key e he⟩
  have hun : Ensures (CacheOk packets) (getUncached ctx key) fun r =>
      r.Nodup ∧ ∀ x, x ∈ r ↔ x ∈ packetPosting packets key := by
    refine ensures_guard fun _ => ensures_bind (ensures_getChunks _) ?_
    rintro t ⟨hnd, hmem⟩
    have hlist : ∀ x, x ∈ t.result ↔ x ∈ packetPosting packets key := by
      intro x
      rw [hmem, h.getD_directory, mem_stored (h.contains.stored key)]
    have hmodify : Ensures (CacheOk packets)
        (modify fun q => { q with cache := q.cache.put (key, t.result) } : Query Unit)
        fun _ => True := by
      intro s a s' hs hrun
      cases hrun
      refine ⟨fun k e he => ?_, trivial⟩
      rw [Table.get?_put] at he
      split at he
      · next hk =>
        cases he
        cases hk
        exact ⟨hnd, hlist⟩
      · exact hs k e he
    exact ensures_bind hmodify fun _ _ => ensures_pure ⟨hnd, hlist⟩
  exact hun q r q' hq hrun

/-- Posting lists denote the condition to have the term. -/
theorem ensures_getPosting_denotes (hd : d ≠ .allPacket) (v : Bytes) :
    Selects packets (getPosting ctx (d, v)) fun f => f.value d = some v := by
  refine ensures_mono (ensures_getPosting h (d, v)) ?_
  rintro r ⟨hnd, hmem⟩
  exact ⟨hnd, fun x => (hmem x).trans (mem_packetPosting_iff hd)⟩

theorem ensures_eitherSide {source destination : PostingDimension} (hs : source ≠ .allPacket)
    (hd : destination ≠ .allPacket) (v : Bytes) :
    Selects packets (eitherSide ctx source destination v) fun f => f.value source = some v ∨ f.value destination = some v :=
  ensures_bind (ensures_getPosting_denotes h hs v) fun _ hl =>
    ensures_bind (ensures_getPosting_denotes h hd v) fun _ hr => hl.union hr

end

/-! ## Addresses -/

variable {supported : List Int}

section

variable {v : Bytes}

theorem value_address_iff {a : IPAddress} : (f.value .srcAddress = some (addressValue a) ↔ f.sourceIp = a) ∧
    (f.value .dstAddress = some (addressValue a) ↔ f.destinationIp = a) := by
  refine ⟨⟨fun h => addressValue_inj (Option.some.inj h), ?_⟩, ⟨fun h => addressValue_inj (Option.some.inj h), ?_⟩⟩
  · rintro rfl
    rfl
  · rintro rfl
    rfl

theorem ensures_addressTerms : Ensures (CacheOk packets) (addressTerms ctx) fun terms =>
      ∀ v, v ∈ terms ↔ (.srcAddress, v) ∈ ctx.directory.keys ∨ (.dstAddress, v) ∈ ctx.directory.keys := by
  refine ensures_foldlM (fun (pre : List PostingKey) (terms : List Bytes) =>
    ∀ v, v ∈ terms ↔ (.srcAddress, v) ∈ pre ∨ (.dstAddress, v) ∈ pre) ?_ ?_
  · simp
  rintro pre ⟨d, w⟩ terms - hmem
  have hnext : ∀ {terms' : List Bytes}, (d = .srcAddress ∨ d = .dstAddress) →
      (∀ v, v ∈ terms' ↔ v ∈ terms ∨ v = w) →
      ∀ v, v ∈ terms' ↔ (.srcAddress, v) ∈ pre ++ [(d, w)] ∨ (.dstAddress, v) ∈ pre ++ [(d, w)] := by
    intro terms' hd hterms v
    rw [hterms, hmem]
    rcases hd with rfl | rfl
    · simp
      tauto
    · simp
      tauto
  refine ensures_ite (fun hd => ensures_pure fun v => ?_) fun hd => ?_
  · rw [hmem]
    simp [Ne.symm hd.1, Ne.symm hd.2]
  · rw [not_and_or, not_not, not_not] at hd
    refine ensures_bind (ensures_operation 1) fun _ _ => ensures_ite (fun _ => ?_) fun hin => ?_
    · exact ensures_bind (ensures_operation 1) fun _ _ =>
        ensures_pure (hnext hd fun v => mem_setAdd)
    · refine ensures_pure (hnext hd fun v => ?_)
      rw [not_not] at hin
      constructor
      · exact .inl
      · rintro (hv | rfl)
        · exact hv
        · exact hin

/-- The value stands for an address of the network. -/
def InNetwork (network : IPNetwork) (v : Bytes) : Prop :=
  ∃ a, IPAddress.ofBytes (v.drop 1) = some a ∧ network.contains a = true

theorem inNetwork_addressValue {network : IPNetwork} {a : IPAddress} :
    InNetwork network (addressValue a) ↔ network.contains a = true := by
  have hofBytes : IPAddress.ofBytes ((addressValue a).drop 1) = some a :=
    IPAddress.ofBytes_packed a
  constructor
  · rintro ⟨b, hb, hc⟩
    cases hofBytes.symm.trans hb
    exact hc
  · exact fun hc => ⟨a, hofBytes, hc⟩

section

variable (h : ContextOk py packets ctx)

include h

/-- The directory has every term of a packet. -/
theorem ContextOk.mem_keys (hf : FieldsAt packets x f)
    (hd : d ≠ .allPacket) (hv : f.value d = some v) : (d, v) ∈ ctx.directory.keys := by
  rw [h.directory, Dict.keys_mapValues, h.contains.mem_keys]
  exact ne_nil_of_mem ((mem_packetPosting_iff hd).mpr ⟨f, hf, hv⟩)

theorem ensures_addNetworkTerm (network : IPNetwork) (hres : Denotes packets result Q) (v : Bytes) :
    Selects packets (addNetworkTerm ctx network result v) fun f => Q f ∨ InNetwork network v ∧
        (f.value .srcAddress = some v ∨ f.value .dstAddress = some v) := by
  refine ensures_guard fun _ => ensures_bind (ensures_orGiveUp _) fun a ha => ?_
  refine ensures_ite (fun hin => ?_) fun hout => ?_
  · refine ensures_bind (ensures_getPosting_denotes h (by decide) v) fun left hleft =>
      ensures_bind (ensures_getPosting_denotes h (by decide) v) fun right hright => ?_
    refine ensures_mono (ensures_unionValues [result, left, right]) ?_
    rintro r ⟨hnd, hmem⟩
    have hnet : InNetwork network v := ⟨a, ha, hin.2⟩
    refine ⟨hnd, fun x => ?_⟩
    simp only [hmem, mem_cons, not_mem_nil, or_false, exists_eq_or_imp, exists_eq_left,
      hres.2, hleft.2, hright.2, ← exists_or, and_or_left, hnet, true_and]
  · refine ensures_pure (hres.congr fun f => ?_)
    have hnot : ¬InNetwork network v := by
      rintro ⟨a', ha', hc⟩
      cases ha.symm.trans ha'
      refine hout ⟨?_, hc⟩
      rw [IPNetwork.contains, decide_eq_true_eq] at hc
      exact hc.1
    simp [hnot]

/-- `endpoints` denotes the condition that one of the addresses lies in the network. -/
theorem ensures_endpoints (network : IPNetwork) : Selects packets (endpoints py ctx network) fun f =>
        network.contains f.sourceIp = true ∨ network.contains f.destinationIp = true := by
  refine ensures_ite (fun hfull => ?_) fun _ => ?_
  · refine ensures_bind (ensures_orGiveUp _) fun key hkey => ?_
    rw [canonicalAddress_ipText] at hkey
    cases hkey
    refine ensures_mono (ensures_eitherSide h (by decide) (by decide) _) fun r hr => ?_
    refine hr.congr fun f => ?_
    rw [value_address_iff.1, value_address_iff.2, IPNetwork.contains_of_full hfull,
      IPNetwork.contains_of_full hfull]
  · refine ensures_bind ensures_addressTerms fun terms hterms => ?_
    -- the terms visited so far, in whatever order the set gives them
    refine ensures_mono (ensures_foldlM (fun pre r => Denotes packets r fun f =>
      ∃ v ∈ pre, InNetwork network v ∧ (f.value .srcAddress = some v ∨ f.value .dstAddress = some v))
      ⟨nodup_nil, by simp⟩ ?_) ?_
    · rintro pre v r - hr
      refine ensures_mono (ensures_addNetworkTerm h network hr v) fun r' hr' => ?_
      refine hr'.congr fun f => ?_
      simp only [mem_append, mem_singleton, or_and_right, exists_or, exists_eq_left]
    · intro r hr
      refine ⟨hr.1, fun x => ?_⟩
      rw [hr.2]
      refine exists_congr fun f => and_congr_right fun hf => ?_
      constructor
      · rintro ⟨v, -, hnet, hv | hv⟩
        · cases hv
          exact .inl (inNetwork_addressValue.mp hnet)
        · cases hv
          exact .inr (inNetwork_addressValue.mp hnet)
      · have hvisit : ∀ {d v}, d = .srcAddress ∨ d = .dstAddress → f.value d = some v → v ∈ py.setOrder terms := by
          intro d v hd hv
          have hin : (d, v) ∈ ctx.directory.keys := h.mem_keys hf (by rintro rfl; simp at hd) hv
          rw [(py.setOrder_perm terms).mem_iff, hterms]
          rcases hd with rfl | rfl
          · exact .inl hin
          · exact .inr hin
        rintro (hc | hc)
        · exact ⟨_, hvisit (.inl rfl) rfl, inNetwork_addressValue.mpr hc, .inl rfl⟩
        · exact ⟨_, hvisit (.inr rfl) rfl, inNetwork_addressValue.mpr hc, .inr rfl⟩

end

/-! ## Groups -/

/-- The condition that the posting of an item stands for. -/
def atomSelects (py : Python) (forExclude : Bool) : GroupAtom → PacketFields → Prop
  | .endpointNetwork network, f =>
    network.contains f.sourceIp = true ∨ network.contains f.destinationIp = true
  | .protocol text, f => py.upper (protocolText f.protocol) = py.upper text
  | .sourcePort number, f => portMatches (some number) f.sourcePort = true
  | .destinationPort number, f => portMatches (some number) f.destinationPort = true
  | .hasPayload value, f => f.hasPayload = value
  | .port number, f =>
    forExclude = true ∨ portMatches (some number) f.sourcePort = true ∨
      portMatches (some number) f.destinationPort = true
  | .direction _, _ => True

theorem value_protocol_iff {text : String} (h : canonicalProtocol py text = .ok v) :
    f.value .protocol = some v ↔ py.upper (protocolText f.protocol) = py.upper text := by
  obtain ⟨hascii, rfl⟩ := canonicalProtocol_eq_ok h
  have hword := protocolWord_protocolText f.protocol
  rw [upper_of_word hword, PacketFields.value, Option.some.injEq]
  constructor
  · exact encodeAscii_inj (ascii_of_word hword) hascii
  · intro heq
    rw [heq]

theorem portValue_iff {port : Option Port} {number : Int} (h : canonicalPort number = .ok v) :
    port.map portValue = some v ↔ portMatches (some number) port = true := by
  rw [canonicalPort, Except.guard_eq_ok, not_not] at h
  obtain ⟨hrange, h⟩ := h
  cases h
  rw [portMatches, decide_eq_true_eq]
  cases port with
  | none => simp
  | some p =>
    have hp : p.toNat < 65536 := p.toNat_lt
    simp only [Option.map_some, Option.some.injEq, portValue]
    constructor
    · intro heq
      have := Bytes.ofBE_toBE_of_lt (w := 2) (n := p.toNat) (by omega)
      rw [heq, Bytes.ofBE_toBE_of_lt (by omega)] at this
      omega
    · intro heq
      rw [← heq, Int.toNat_natCast]

theorem value_payload_iff {b : Bool} : f.value .hasPayload = some (canonicalPayload b) ↔ f.hasPayload = b := by
  rw [PacketFields.value, Option.some.injEq]
  cases f.hasPayload <;> cases b <;> decide

theorem ensures_map {β : Type} {m : Query α} {g : α → β} {post : β → Prop}
    (h : Ensures (CacheOk packets) m fun a => post (g a)) :
    Ensures (CacheOk packets) (g <$> m) post := by
  rw [map_eq_pure_bind]
  exact ensures_bind h fun a ha => ensures_pure ha

/-- What the posting of an item denotes; without a posting every packet qualifies. -/
def PostingMeans (packets : List ExportPacket) (Q : PacketFields → Prop) :
    Option (List Int) → Prop
  | none => ∀ f, Q f
  | some r => Denotes packets r Q

theorem toOption_eq_some {ε : Type} {x : Except ε α} {a : α} (h : x.toOption = some a) : x = .ok a := by
  cases x with
  | error => cases h
  | ok =>
    cases h
    rfl

theorem ensures_atomPosting (h : ContextOk py packets ctx) (forExclude : Bool) (atom : GroupAtom) :
    Ensures (CacheOk packets) (atomPosting py ctx forExclude atom)
      (PostingMeans packets (atomSelects py forExclude atom)) := by
  cases atom with
  | endpointNetwork network => exact ensures_map (ensures_endpoints h network)
  | protocol =>
    refine ensures_bind (ensures_orGiveUp _) fun v hv => ensures_map ?_
    refine ensures_mono (ensures_getPosting_denotes h (by decide) v) fun r hr => ?_
    exact hr.congr fun f => value_protocol_iff (toOption_eq_some hv)
  | sourcePort | destinationPort =>
    refine ensures_bind (ensures_orGiveUp _) fun v hv => ensures_map ?_
    refine ensures_mono (ensures_getPosting_denotes h (by decide) v) fun r hr => ?_
    exact hr.congr fun f => portValue_iff (toOption_eq_some hv)
  | hasPayload =>
    refine ensures_map (ensures_mono (ensures_getPosting_denotes h (by decide) _) fun r hr => ?_)
    exact hr.congr fun f => value_payload_iff
  | port =>
    refine ensures_ite (fun hinc => ?_) fun hexc => ?_
    · refine ensures_bind (ensures_orGiveUp _) fun v hv => ensures_map ?_
      refine ensures_mono (ensures_eitherSide h (by decide) (by decide) v) fun r hr => ?_
      refine hr.congr fun f => ?_
      have hport := toOption_eq_some hv
      rw [atomSelects, or_iff_right hinc]
      exact or_congr (portValue_iff hport) (portValue_iff hport)
    · exact ensures_pure fun f => .inl (not_not.mp hexc)
  | direction => exact ensures_pure fun f => trivial

/-- The candidates of a group denote the conjunction of its items. -/
theorem ensures_groupCandidates (h : ContextOk py packets ctx)
    (hsup : Denotes packets supported fun _ => True) (g : PacketGroup) (forExclude : Bool) :
    Ensures (CacheOk packets) (groupCandidates py ctx supported g forExclude) fun res =>
      (Denotes packets res.1 fun f => ∀ a ∈ g.atoms, atomSelects py forExclude a f) ∧
      res.2 = (g.atoms.all GroupAtom.exact && !g.atoms.isEmpty) := by
  refine ensures_bind (ensures_foldlM (fun pre res =>
    PostingMeans packets (fun f => ∀ a ∈ pre, atomSelects py forExclude a f) res) ?_ ?_) ?_
  · intro f a ha
    cases ha
  · intro pre a res _ hres
    refine ensures_bind (ensures_atomPosting h forExclude a) fun posting hposting => ?_
    have hboth : ∀ f, (∀ a' ∈ pre ++ [a], atomSelects py forExclude a' f) ↔
        (∀ a' ∈ pre, atomSelects py forExclude a' f) ∧ atomSelects py forExclude a f := by
      intro f
      simp [or_imp, forall_and]
    cases posting with
    | none =>
      refine ensures_pure ?_
      cases res with
      | none => exact fun f => (hboth f).mpr ⟨hres f, hposting f⟩
      | some r =>
        refine Denotes.congr hres fun f => ?_
        rw [hboth]
        exact (and_iff_left (hposting f)).symm
    | some =>
      cases res with
      | none =>
        refine ensures_pure (Denotes.congr hposting fun f => ?_)
        rw [hboth]
        exact (and_iff_right (hres f)).symm
      | some r =>
        refine ensures_map (ensures_mono (Denotes.intersect hres hposting) fun s hs => ?_)
        exact Denotes.congr hs fun f => (hboth f).symm
  · intro res hres
    refine ensures_pure ⟨?_, rfl⟩
    cases res with
    | none => exact hsup.congr fun f => iff_of_true trivial (hres f)
    | some => exact hres

end

/-! ## The predicate -/

/-- The condition that the candidates of a predicate stand for. -/
structure CandidateFor (py : Python) (p : CompiledPacketPredicate) (f : PacketFields) : Prop where
  candidate : ∀ text ∈ p.candidateIp, ∃ network, py.ipNetwork text = some network ∧
    (network.contains f.sourceIp = true ∨ network.contains f.destinationIp = true)
  internalHost : ∀ text ∈ p.internalHostIp, ∃ network, py.ipNetwork text = some network ∧
    (network.contains f.sourceIp = true ∨ network.contains f.destinationIp = true)
  port : ∀ number ∈ p.port, portMatches (some number) f.sourcePort = true ∨
    portMatches (some number) f.destinationPort = true
  protocol : ∀ text ∈ p.protocol, text ≠ "" → py.upper (protocolText f.protocol) = py.upper text
  includes : p.includeFilters = [] ∨
    ∃ g ∈ p.includeFilters, ∀ a ∈ g.atoms, atomSelects py false a f
  excludes : ∀ g ∈ p.excludeFilters, g.atoms.all GroupAtom.exact = true → g.atoms ≠ [] →
    ¬∀ a ∈ g.atoms, atomSelects py true a f

section

variable (h : ContextOk py packets ctx)

include h

theorem ensures_intersectEndpoints (hl : Denotes packets l Q) (value : Option String) :
    Selects packets (intersectEndpoints py ctx l value) fun f => Q f ∧ ∀ text ∈ value, ∃ network,
        py.ipNetwork text = some network ∧
          (network.contains f.sourceIp = true ∨ network.contains f.destinationIp = true) := by
  cases value with
  | none => exact ensures_pure (hl.congr fun f => by simp)
  | some =>
    refine ensures_bind (ensures_bind (ensures_orGiveUp _) fun network hnet =>
      ensures_mono (ensures_endpoints h network) fun r hr => hr.congr fun f => ?_) fun r hr =>
        hl.intersect hr
    simp [hnet]

theorem ensures_intersectPort (hl : Denotes packets l Q) (port : Option Int) :
    Selects packets (intersectPort ctx l port) fun f => Q f ∧ ∀ number ∈ port,
        portMatches (some number) f.sourcePort = true ∨ portMatches (some number) f.destinationPort = true := by
  cases port with
  | none => exact ensures_pure (hl.congr fun f => by simp)
  | some =>
    refine ensures_bind (ensures_orGiveUp _) fun v hv =>
      ensures_bind (ensures_eitherSide h (by decide) (by decide) v) fun r hr =>
        hl.intersect (hr.congr fun f => ?_)
    have hport := toOption_eq_some hv
    simp only [Option.mem_some_iff, forall_eq']
    exact or_congr (portValue_iff hport) (portValue_iff hport)

theorem ensures_intersectProtocol (hl : Denotes packets l Q) (protocol : Option String) :
    Selects packets (intersectProtocol py ctx l protocol) fun f => Q f ∧ ∀ text ∈ protocol, text ≠ "" →
        py.upper (protocolText f.protocol) = py.upper text := by
  cases protocol with
  | none => exact ensures_pure (hl.congr fun f => by simp)
  | some =>
    refine ensures_ite (fun hempty => ensures_pure (hl.congr fun f => by simp [hempty])) fun hne => ?_
    refine ensures_bind (ensures_orGiveUp _) fun v hv =>
      ensures_bind (ensures_getPosting_denotes h (by decide) v) fun r hr =>
        hl.intersect (hr.congr fun f => ?_)
    rw [value_protocol_iff (toOption_eq_some hv)]
    simp [hne]

theorem ensures_intersectIncludes (hsup : Denotes packets supported fun _ => True) (hl : Denotes packets l Q)
    (groups : List PacketGroup) :
    Selects packets (intersectIncludes py ctx supported l groups) fun f => Q f ∧
        (groups = [] ∨ ∃ g ∈ groups, ∀ a ∈ g.atoms, atomSelects py false a f) := by
  refine ensures_ite (fun hempty => ensures_pure (hl.congr fun f => ?_)) fun hne => ?_
  · simp [List.isEmpty_iff.mp hempty]
  · refine ensures_bind (ensures_foldlM (fun (pre : List PacketGroup) r =>
      Denotes packets r fun f => ∃ g ∈ pre, ∀ a ∈ g.atoms, atomSelects py false a f) ⟨nodup_nil, by simp⟩ ?_)
      fun r hr => hl.intersect (hr.congr fun f => ?_)
    · intro pre g r _ hr
      refine ensures_bind (ensures_groupCandidates h hsup g false) fun res hres => ?_
      refine ensures_mono (hr.union hres.1) fun s hs => hs.congr fun f => ?_
      simp only [mem_append, mem_singleton, or_and_right, exists_or, exists_eq_left]
    · rw [List.isEmpty_iff] at hne
      simp [hne]

theorem ensures_subtractExcludes (hsup : Denotes packets supported fun _ => True) (hl : Denotes packets l Q)
    (groups : List PacketGroup) :
    Selects packets (subtractExcludes py ctx supported l groups) fun f => Q f ∧
        ∀ g ∈ groups, g.atoms.all GroupAtom.exact = true → g.atoms ≠ [] →
          ¬∀ a ∈ g.atoms, atomSelects py true a f := by
  refine ensures_foldlM (fun (pre : List PacketGroup) r => Denotes packets r fun f => Q f ∧
    ∀ g ∈ pre, g.atoms.all GroupAtom.exact = true → g.atoms ≠ [] →
      ¬∀ a ∈ g.atoms, atomSelects py true a f) (hl.congr fun f => by simp) ?_
  intro pre g r _ hr
  refine ensures_bind (ensures_groupCandidates h hsup g true) fun res hres => ?_
  have hboth : ∀ f (C : PacketGroup → Prop), (Q f ∧ ∀ g' ∈ pre ++ [g], C g') ↔ (Q f ∧ ∀ g' ∈ pre, C g') ∧ C g := by
    intro f C
    simp [or_imp, forall_and, and_assoc]
  have hexact : res.2 = true ↔ g.atoms.all GroupAtom.exact = true ∧ g.atoms ≠ [] := by
    rw [hres.2, Bool.and_eq_true, Bool.not_eq_true', ← Bool.not_eq_true, List.isEmpty_iff]
  refine ensures_ite (fun hex => ?_) fun hex => ensures_pure (hr.congr fun f => ?_)
  · obtain ⟨hall, hne⟩ := hexact.mp hex
    refine ensures_mono (hr.subtract hres.1) fun s hs => hs.congr fun f => ?_
    rw [hboth f]
    simp only [hall, hne, ne_eq, not_false_eq_true, true_implies]
  · rw [hboth f]
    refine (and_iff_left fun hall hne => ?_).symm
    exact absurd (hexact.mpr ⟨hall, hne⟩) hex

/-- The candidates of a predicate, where they are computed. -/
theorem ensures_selectCandidates (p : CompiledPacketPredicate) :
    Ensures (CacheOk packets) (selectCandidates py ctx p) fun result =>
      result.Pairwise (· < ·) ∧ ∀ x, x ∈ result ↔ ∃ f, FieldsAt packets x f ∧ CandidateFor py p f := by
  refine ensures_bind (ensures_getPosting_denotes h (by decide) []) fun supported hsup => ?_
  have hsup : Denotes packets supported fun _ => True :=
    hsup.congr fun f => iff_of_true rfl trivial
  refine ensures_bind (ensures_intersectEndpoints h hsup p.candidateIp) fun r1 h1 => ?_
  refine ensures_bind (ensures_intersectEndpoints h h1 p.internalHostIp) fun r2 h2 => ?_
  refine ensures_bind (ensures_intersectPort h h2 p.port) fun r3 h3 => ?_
  refine ensures_bind (ensures_intersectProtocol h h3 p.protocol) fun r4 h4 => ?_
  refine ensures_bind (ensures_intersectIncludes h hsup h4 p.includeFilters) fun r5 h5 => ?_
  refine ensures_bind (ensures_subtractExcludes h hsup h5 p.excludeFilters) fun r6 h6 => ?_
  refine ensures_guard fun _ => ensures_bind (ensures_operation _) fun _ _ => ensures_pure ⟨?_, ?_⟩
  · have hperm := perm_insertionSort (· ≤ ·) r6
    have hsorted := pairwise_insertionSort (· ≤ ·) r6
    exact (hsorted.and (hperm.nodup_iff.mpr h6.1)).imp fun ⟨hle, hne⟩ => lt_of_le_of_ne hle hne
  · intro x
    rw [mem_insertionSort, h6.2]
    refine exists_congr fun f => and_congr_right fun _ => ?_
    constructor
    · rintro ⟨⟨⟨⟨⟨⟨-, hc⟩, hi⟩, hp⟩, hpr⟩, hin⟩, hex⟩
      exact ⟨hc, hi, hp, hpr, hin, hex⟩
    · rintro ⟨hc, hi, hp, hpr, hin, hex⟩
      exact ⟨⟨⟨⟨⟨⟨trivial, hc⟩, hi⟩, hp⟩, hpr⟩, hin⟩, hex⟩

end

end Select

/-! ## Packets that match are candidates -/

variable {p : CompiledPacketPredicate}

section Matching

variable {g : PacketGroup}

theorem mem_atoms {a : GroupAtom} : a ∈ g.atoms ↔ (∃ n ∈ g.endpointNetwork, a = .endpointNetwork n) ∨
      (∃ d ∈ g.direction, a = .direction d) ∨ (∃ p ∈ g.protocol, a = .protocol p) ∨
      (∃ n ∈ g.port, a = .port n) ∨ (∃ n ∈ g.sourcePort, a = .sourcePort n) ∨
      (∃ n ∈ g.destinationPort, a = .destinationPort n) ∨
      ∃ b ∈ g.hasPayload, a = .hasPayload b := by
  simp only [PacketGroup.atoms, mem_append, Option.mem_toList, Option.mem_def,
    Option.map_eq_some_iff, eq_comm (a := a), or_assoc]

/-- The service port is one of the two ports of the packet, so the index may look for
the condition on it in both. -/
theorem GroupHolds.atomSelects {sp : Option Port} (h : GroupHolds py f sp g)
    (hsp : sp = none ∨ sp = f.sourcePort ∨ sp = f.destinationPort) :
    ∀ a ∈ g.atoms, atomSelects py false a f := by
  intro a ha
  have hport := h.port
  have hsource := h.sourcePort
  have hdestination := h.destinationPort
  rcases mem_atoms.mp ha with ⟨n, hn, rfl⟩ | ⟨d, hd, rfl⟩ | ⟨p, hp, rfl⟩ | ⟨n, hn, rfl⟩ |
    ⟨n, hn, rfl⟩ | ⟨n, hn, rfl⟩ | ⟨b, hb, rfl⟩
  · exact h.endpoint n hn
  · trivial
  · exact h.protocol p hp
  · rw [Option.mem_def.mp hn] at hport
    rcases hsp with rfl | rfl | rfl
    · cases hport
    · exact .inr (.inl hport)
    · exact .inr (.inr hport)
  · rwa [Option.mem_def.mp hn] at hsource
  · rwa [Option.mem_def.mp hn] at hdestination
  · exact h.hasPayload b hb

/-- A group whose items are all exact is decided by the index. -/
theorem groupHolds_of_exact (hexact : g.atoms.all GroupAtom.exact = true)
    (h : ∀ a ∈ g.atoms, atomSelects py true a f) (sp : Option Port) : GroupHolds py f sp g := by
  have hall := all_eq_true.mp hexact
  refine ⟨fun n hn => ?_, fun d hd => ?_, fun p hp => ?_, ?_, ?_, ?_, fun b hb => ?_⟩
  · exact h _ (mem_atoms.mpr (.inl ⟨n, hn, rfl⟩))
  · exact absurd (hall _ (mem_atoms.mpr (.inr (.inl ⟨d, hd, rfl⟩)))) Bool.false_ne_true
  · exact h _ (mem_atoms.mpr (.inr (.inr (.inl ⟨p, hp, rfl⟩))))
  · cases hport : g.port with
    | none => rfl
    | some n =>
      have hmem : GroupAtom.port n ∈ g.atoms :=
        mem_atoms.mpr (.inr (.inr (.inr (.inl ⟨n, hport, rfl⟩))))
      exact absurd (hall _ hmem) Bool.false_ne_true
  · cases hport : g.sourcePort with
    | none => rfl
    | some n => exact h _ (mem_atoms.mpr (.inr (.inr (.inr (.inr (.inl ⟨n, hport, rfl⟩))))))
  · cases hport : g.destinationPort with
    | none => rfl
    | some n => exact h _ (mem_atoms.mpr (.inr (.inr (.inr (.inr (.inr (.inl ⟨n, hport, rfl⟩)))))))
  · exact h _ (mem_atoms.mpr (.inr (.inr (.inr (.inr (.inr (.inr ⟨b, hb, rfl⟩)))))))

/-- A text that is a printed address of the packet selects the packet. -/
theorem network_of_mem {value : Option String}
    (h : value ∈ [none, some (py.ipText f.sourceIp), some (py.ipText f.destinationIp)]) :
    ∀ text ∈ value, ∃ network, py.ipNetwork text = some network ∧
      (network.contains f.sourceIp = true ∨ network.contains f.destinationIp = true) := by
  intro text ht
  have hself : ∀ a, (IPNetwork.host a).contains a = true := fun a =>
    (IPNetwork.contains_of_full (IPNetwork.host_full a) a).mpr rfl
  rw [Option.mem_def.mp ht] at h
  simp only [mem_cons, reduceCtorEq, Option.some.injEq, not_mem_nil, or_false, false_or] at h
  rcases h with rfl | rfl
  · exact ⟨_, py.ipNetwork_text _, .inl (hself _)⟩
  · exact ⟨_, py.ipNetwork_text _, .inr (hself _)⟩

theorem portMatches_of_mem {port : Option Int} (h : port ∈ [none, f.sourcePort.map (fun q => (q.toNat : Int)),
      f.destinationPort.map (fun q => (q.toNat : Int))]) :
    ∀ number ∈ port, portMatches (some number) f.sourcePort = true ∨
      portMatches (some number) f.destinationPort = true := by
  intro number hn
  rw [Option.mem_def.mp hn] at h
  simp only [mem_cons, reduceCtorEq, not_mem_nil, or_false, false_or] at h
  rcases h with h | h
  · exact .inl (decide_eq_true h.symm)
  · exact .inr (decide_eq_true h.symm)

/-- The index keeps every packet that passes the test. -/
theorem candidateFor_of_matches {timestamp : DateTime}
    {sensorId : String} (h : p.matches py timestamp f sensorId = .ok true) :
    CandidateFor py p f := by
  obtain ⟨hcandidate, hhost, -, hport, hprotocol, -, -, sp, hsp, hinclude, hexclude⟩ :=
    matches_eq_ok_true.mp h
  refine ⟨network_of_mem hcandidate, network_of_mem hhost, portMatches_of_mem hport, ?_, ?_, ?_⟩
  · intro text ht hne
    have hupper : py.upper (protocolText f.protocol) = protocolText f.protocol :=
      upper_of_word (protocolWord_protocolText f.protocol)
    rw [← hprotocol text ht hne, hupper, hupper]
  · refine hinclude.imp_right ?_
    rintro ⟨g, hg, hholds⟩
    exact ⟨g, hg, hholds.atomSelects (servicePort_cases hsp)⟩
  · intro g hg hexact _ hatoms
    exact hexclude g hg (groupHolds_of_exact hexact hatoms sp)

end Matching

/-! ## The whole function -/

/-- The values of a request print as empty text only if they are false. -/
theorem RequestValue.str_ne_empty {v : RequestValue} (h : v.truthy = true) : v.str ≠ "" := by
  cases v with
  | none => cases h
  | bool =>
    cases h
    decide
  | int n =>
    show n.repr ≠ ""
    rw [Int.repr_eq_if]
    split
    · exact Nat.repr_ne_empty
    · simp
  | text => exact of_decide_eq_true h
  | other s hne => exact hne

variable {g : PostingGeneration}

theorem compilePacketPredicate_sensor {filters : PacketRequest} {networks : List String} (h : compilePacketPredicate py filters networks = .ok p) :
    ∀ s ∈ p.sensor, s ≠ "" := by
  simp only [compilePacketPredicate, Except.bind_eq_ok, Except.pure_eq_ok, Except.ok.injEq] at h
  obtain ⟨_, -, _, -, _, -, _, -, _, -, rfl⟩ := h
  intro s hs
  simp only [Option.mem_def, Option.ite_none_right_eq_some, Option.some.injEq] at hs
  obtain ⟨htruthy, rfl⟩ := hs
  exact RequestValue.str_ne_empty htruthy

/-- The directory, where the generation passes its checks. -/
theorem queryGenerationDirectory_eq_some {directory : Dict PostingKey (List PostingChunk)}
    (h : queryGenerationDirectory py g limits = some directory) :
    directory = (chunkDirectory g.chunks).mapValues sortChunks := by
  rw [queryGenerationDirectory] at h
  split at h
  · cases h
  split at h
  · cases h
  dsimp only at h
  split at h
  · cases h
  · split at h
    · cases h
    · exact (Option.some.inj h).symm

/-- Where candidates are returned for a predicate without a sensor conflict, they were
computed by `selectCandidates`. -/
theorem selectPostingCandidates_eq_some {sensorId : Option String}
    {limits : Option PostingQueryLimits} {maxQueryWork : Option Int}
    (h : selectPostingCandidates py g p sensorId limits maxQueryWork = .ok (some result)) :
    ((∃ requested ∈ p.sensor, ∃ actual ∈ sensorId, requested ≠ actual) ∧ result = []) ∨
      ∃ limits directory s, directory = (chunkDirectory g.chunks).mapValues sortChunks ∧
        selectCandidates py ⟨g, directory, limits⟩ p ⟨0, 0, Table.empty⟩ = some (result, s) := by
  rw [selectPostingCandidates] at h
  split at h
  · next hsensor =>
    cases h
    exact .inl ⟨hsensor, rfl⟩
  rw [Except.bind_eq_ok] at h
  obtain ⟨limits', -, h⟩ := h
  cases limits' with
  | none => cases h
  | some limits' =>
    simp only [Except.pure_eq_ok] at h
    split at h
    · cases h
    split at h
    · cases h
    split at h
    · cases h
    · next directory hdir =>
      obtain ⟨⟨r, s⟩, hr, rfl⟩ := Option.map_eq_some_iff.mp (Except.ok.inj h)
      exact .inr ⟨limits', directory, s, queryGenerationDirectory_eq_some hdir, hr⟩

/-- Selection by the index loses no packet: where it returns candidates for a generation
that was built and a request that compiles, these are strictly increasing and hold the
index of every supported packet that the predicate matches. -/
theorem select_sound (py : Python) (decoder : Gen PcapParseError ExportPacket)
    (snapshot : StructuralSnapshot) (buildLimits : PostingBuildLimits) (binding : Bytes)
    (filters : PacketRequest) (internalNetworks : List String) (sensorId : String)
    (limits : Option PostingQueryLimits) (maxQueryWork : Option Int)
    {packets : List ExportPacket} {g : PostingGeneration} {predicate : CompiledPacketPredicate}
    {result : List Int} (hcollect : decoder.collect = .ok packets)
    (hbuild : buildPacketPostings py decoder snapshot buildLimits binding = .ok g)
    (hcompile : compilePacketPredicate py filters internalNetworks = .ok predicate)
    (hselect : selectPostingCandidates py g predicate (some sensorId) limits maxQueryWork = .ok (some result)) :
    result.Pairwise (· < ·) ∧
      ∀ p ∈ packets, ∀ f ∈ p.fields, predicate.matches py p.timestamp f sensorId = .ok true →
        (p.locator.packetIndex : Int) ∈ result := by
  obtain ⟨packets', s, digest, hcollect', hne, hinv, hb, -, rfl⟩ := buildPacketPostings_eq_ok hbuild
  cases hcollect.symm.trans hcollect'
  rcases selectPostingCandidates_eq_some hselect with
    ⟨⟨requested, hrequested, actual, hactual, hdiff⟩, rfl⟩ | ⟨limits', directory, q, hdir, hrun⟩
  · cases hactual
    refine ⟨List.Pairwise.nil, fun p _ f _ hmatch => ?_⟩
    obtain ⟨-, -, -, -, -, -, hsensor, -⟩ := matches_eq_ok_true.mp hmatch
    have hempty := compilePacketPredicate_sensor hcompile requested hrequested
    exact absurd (hsensor requested hrequested hempty).symm hdiff
  · have hctx : ContextOk py packets ⟨_, directory, limits'⟩ :=
      ⟨(hinv.assembled py hb hne binding digest).1, hdir⟩
    have hcache : CacheOk packets ⟨0, 0, Table.empty⟩ := fun key entry hentry => by cases hentry
    obtain ⟨-, hsorted, hmem⟩ := ensures_selectCandidates hctx predicate _ _ _ hcache hrun
    refine ⟨hsorted, fun p hp f hf hmatch => (hmem _).mpr ⟨f, ?_, candidateFor_of_matches hmatch⟩⟩
    obtain ⟨i, hi⟩ := mem_iff_getElem?.mp hp
    exact ⟨i, p, hi, hf, congrArg Nat.cast (hinv.index i p hi)⟩

/-! ### A sample request -/

/-- A request for the packets on port 53 over UDP that carry a payload. -/
def sampleRequest : PacketRequest where
  protocol := .text "UDP"
  port := .int 53
  excludeFilters := [Table.empty.put ("has_payload", .bool false)]

/-- Its predicate. -/
def samplePredicate : CompiledPacketPredicate where
  candidateIp := none
  internalHostIp := none
  start := none
  stop := none
  port := some 53
  protocol := some "UDP"
  direction := none
  sensor := none
  internalNetworks := []
  includeFilters := []
  excludeFilters := [⟨none, none, none, none, none, none, some false⟩]

theorem sample_compile : compilePacketPredicate .latin sampleRequest [] = .ok samplePredicate :=
  toOption_eq_some (by decide +kernel)

/-- The sample generation before its digest is known: what the selection reads of it. -/
theorem sample_query : (collectPostings .latin (.ofList samplePackets) sampleSnapshot
      (sampleLimits 2 (by decide))).toOption.all (fun s =>
        let g := (assembleGeneration s []).withDigest (hex (List.replicate 32 0))
        let directory := (chunkDirectory g.chunks).mapValues sortChunks
        decide (g.packetCount = 3 ∧ g.supportedCount = 2 ∧ g.membershipCount = 17 ∧
          g.distinctKeyCount = 8 ∧ g.encodedByteCount = 17 ∧ g.chunks.length = 16 ∧
          g.chunks.foldlM (queryChunk .latin g) (0, 0) = some (17, 17) ∧
          (chunkDirectory g.chunks).keys.length = 8 ∧
          (∀ entry ∈ (chunkDirectory g.chunks).rows, chunksInOrder (sortChunks entry.2) ≠ false) ∧
          (selectCandidates .latin ⟨g, directory, .default⟩ samplePredicate
            ⟨0, 0, Table.empty⟩).map Prod.fst = some [0, 2])) = true := by
  decide +kernel

theorem sample_select (h : buildPacketPostings .latin (.ofList samplePackets) sampleSnapshot
      (sampleLimits 2 (by decide)) [] = .ok g) :
    selectPostingCandidates .latin g samplePredicate (some "sensor") none none = .ok (some [0, 2]) := by
  rw [buildPacketPostings, Except.bind_eq_ok] at h
  obtain ⟨s, hs, h⟩ := h
  simp only [sealGeneration, Except.bind_eq_ok, Except.mapError_eq_ok, Except.guard_eq_ok, Except.ok.injEq] at h
  obtain ⟨digest, hdigest, -, rfl⟩ := h
  have hpattern := digestPattern_generationDigest hdigest
  obtain rfl : digest = hex (List.replicate 32 0) := by
    rw [generationDigest, Except.bind_eq_ok] at hdigest
    obtain ⟨document, -, hdigest⟩ := hdigest
    exact (Except.ok.inj hdigest).symm
  have hquery := sample_query
  rw [hs] at hquery
  obtain ⟨h1, h2, h3, h4, h5, h6, h7, h8, h9, h10⟩ := of_decide_eq_true hquery
  have hheader : queryableHeader ((assembleGeneration s []).withDigest
      (hex (List.replicate 32 0))) .default = true := by
    rw [queryableHeader, decide_eq_true_eq, h1, h2, h3, h4, h5, h6]
    refine ⟨by decide, by decide, by decide, by decide, by decide, by decide, by decide, rfl, rfl,
      rfl, rfl, hpattern, by decide, by decide, by decide⟩
  generalize (assembleGeneration s []).withDigest (hex (List.replicate 32 0)) = g at *
  have hdirectory : queryGenerationDirectory .latin g .default =
      some ((chunkDirectory g.chunks).mapValues sortChunks) := by
    rw [queryGenerationDirectory, if_neg (not_not.mpr hheader), h7]
    dsimp only
    rw [h3, h4, h5, h8, if_neg (by decide), if_neg (by simpa using h9)]
  rw [selectPostingCandidates, if_neg (by simp [samplePredicate])]
  refine Except.bind_eq_ok.mpr ⟨some .default, rfl, ?_⟩
  dsimp only
  rw [h1, h2, if_neg (by decide), if_neg (by decide), hdirectory]
  dsimp only
  rw [h10]
  rfl

theorem select_sound_sample : ∃ g, buildPacketPostings .latin (.ofList samplePackets) sampleSnapshot
        (sampleLimits 2 (by decide)) [] = .ok g ∧
      compilePacketPredicate .latin sampleRequest [] = .ok samplePredicate ∧
      selectPostingCandidates .latin g samplePredicate (some "sensor") none none = .ok (some [0, 2]) ∧
      samplePredicate.matches .latin ⟨0, true, by decide⟩ sampleFields "sensor" = .ok true ∧
      (2 : Int) ∈ ([0, 2] : List Int) := by
  obtain ⟨g, hg, -⟩ := sample_build sample_chunks.2
  have hmatch : samplePredicate.matches .latin ⟨0, true, by decide⟩ sampleFields "sensor" = .ok true := by
    decide +kernel
  obtain ⟨-, hmem⟩ := select_sound .latin (.ofList samplePackets) sampleSnapshot _ [] sampleRequest
    [] "sensor" none none (Gen.collect_ofList _) hg sample_compile (sample_select hg)
  exact ⟨g, hg, sample_compile, sample_select hg, hmatch,
    hmem (samplePacket 2 (some sampleFields)) (by simp [samplePackets]) sampleFields rfl hmatch⟩

end C2Hunter
