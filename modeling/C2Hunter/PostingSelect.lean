import C2Hunter.Attempt
import C2Hunter.PacketFilter
import C2Hunter.PostingContents

/-!
# Selecting candidates from a posting generation

`select_posting_candidates` evaluates a packet predicate on the posting lists instead of
on the packets: set operations over ordinals, under a budget. It returns `None` where the
budget is exceeded or the generation looks wrong, and the caller then scans the capture.

* `PostingQueryLimits`, `QueryState`, `operation`, `decoded` — the budget.
* `queryGenerationDirectory` — the checks on the generation, and its chunks by term.
* `getPosting`, `unionValues`, `intersectValues`, `subtractValues`, `endpoints` — the inner
  functions. Sets are duplicate-free lists; the one place where the order of a set
  matters to the budget goes through `Python.setOrder`.
* `groupCandidates`, `selectPostingCandidates` — the evaluation of a predicate.
-/

namespace C2Hunter

open Attempt

/-! ## The budget -/

/-- `PostingQueryLimits`; its `__post_init__` rejects limits that are not positive. -/
structure PostingQueryLimits where
  maxOperations : Nat := 100000
  maxResultOrdinals : Nat := 100000
  maxDecodedMemberships : Nat := 100000
  maxDirectoryChunks : Nat := 100000
  maxDictionaryTerms : Nat := 100000
  positive : 0 < maxOperations ∧ 0 < maxResultOrdinals ∧ 0 < maxDecodedMemberships ∧
    0 < maxDirectoryChunks ∧ 0 < maxDictionaryTerms

/-- `PostingQueryLimits()`. -/
def PostingQueryLimits.default : PostingQueryLimits where
  positive := by decide

/-- `_QueryBudget`, with the cache of `select_posting_candidates`. -/
structure QueryState where
  operations : Nat
  decodedMemberships : Nat
  cache : Dict PostingKey (List Int)

/-- A computation inside the `try` of `select_posting_candidates`; all exceptions that it
catches have the same effect. -/
abbrev Query (α : Type) : Type := Attempt QueryState α

/-- `budget.operation(count)`. -/
def operation (limits : PostingQueryLimits) (count : Nat) : Query Unit := fun s =>
  if s.operations + count > limits.maxOperations then none
  else some ((), { s with operations := s.operations + count })

/-- `budget.decoded()`. -/
def decoded (limits : PostingQueryLimits) : Query Unit := fun s =>
  if s.decodedMemberships ≥ limits.maxDecodedMemberships then none
  else operation limits 1 { s with decodedMemberships := s.decodedMemberships + 1 }

/-- A value that an inner call returns, or the exception it raises. -/
def orGiveUp {α : Type} : Option α → Query α
  | some a => pure a
  | none => giveUp

/-! ## The directory -/

/-- The first condition of `_query_generation_directory`. -/
def queryableHeader (g : PostingGeneration) (limits : PostingQueryLimits) : Bool :=
  (0 ≤ g.packetCount ∧ 0 ≤ g.supportedCount ∧ 0 ≤ g.membershipCount ∧ 0 ≤ g.distinctKeyCount ∧
    0 ≤ g.encodedByteCount) ∧
  1 ≤ g.packetCount ∧ g.packetCount ≤ PostingBuildLimits.default.maxPackets ∧
  g.supportedCount ≤ g.packetCount ∧
  g.membershipCount ≤ PostingBuildLimits.default.maxMemberships ∧
  g.distinctKeyCount ≤ PostingBuildLimits.default.maxDistinctKeys ∧
  g.encodedByteCount ≤ PostingBuildLimits.default.maxEncodedBytes ∧
  g.schemaVersion = postingSchemaVersion ∧
  g.parserContractVersion = postingParserContractVersion ∧
  g.filterContractVersion = postingFilterContractVersion ∧
  g.completeDimensions = allDimensions ∧ digestPattern g.digest ∧
  g.chunks.length ≤ limits.maxDirectoryChunks ∧
  g.distinctKeyCount ≤ limits.maxDictionaryTerms ∧
  g.chunks.length ≤ g.membershipCount

/-- The body of the first loop of `_query_generation_directory`, on the two counters. -/
def queryChunk (py : Python) (g : PostingGeneration) (s : Int × Nat) (chunk : PostingChunk) :
    Option (Int × Nat) :=
  if ¬validPostingValue py chunk.dimension chunk.value ∨ chunk.chunkOrdinal < 0 ∨
      chunk.count < 1 ∨ chunk.firstPacketIndex < 0 ∨
      chunk.lastPacketIndex < chunk.firstPacketIndex ∨ chunk.lastPacketIndex ≥ g.packetCount ∨
      chunk.encodedOrdinals = [] then none
  else
    let memberships := s.1 + chunk.count
    let encodedBytes := s.2 + chunk.encodedOrdinals.length
    if memberships > g.membershipCount ∨ encodedBytes > g.encodedByteCount then none
    else some (memberships, encodedBytes)

/-- The condition on the sorted chunks of a term. -/
def chunksInOrder (ordered : List PostingChunk) : Bool :=
  ordered.zipIdx.all fun item =>
    decide (item.1.chunkOrdinal = item.2) &&
      (item.2 = 0 || match ordered[item.2 - 1]? with
        | none => true
        | some previous => decide (previous.lastPacketIndex < item.1.firstPacketIndex))

/-- `_query_generation_directory`. -/
def queryGenerationDirectory (py : Python) (g : PostingGeneration) (limits : PostingQueryLimits) :
    Option (Dict PostingKey (List PostingChunk)) :=
  if ¬queryableHeader g limits then none
  else
    match g.chunks.foldlM (queryChunk py g) (0, 0) with
    | none => none
    | some (memberships, encodedBytes) =>
      let pending := chunkDirectory g.chunks
      if memberships ≠ g.membershipCount ∨ encodedBytes ≠ g.encodedByteCount ∨
          pending.keys.length ≠ g.distinctKeyCount then none
      else if ∃ entry ∈ pending.rows, chunksInOrder (sortChunks entry.2) = false then none
      else some (pending.mapValues sortChunks)

/-! ## Sets of ordinals -/

/-- `result.add(ordinal)`. -/
def setAdd {α : Type} [DecidableEq α] (result : List α) (a : α) : List α :=
  if a ∈ result then result else result ++ [a]

/-- The names that the inner functions of `select_posting_candidates` share. -/
structure QueryContext where
  generation : PostingGeneration
  directory : Dict PostingKey (List PostingChunk)
  limits : PostingQueryLimits

section Operations

variable (py : Python) (ctx : QueryContext)

/-- The variables of the loops of `get`. -/
structure GetState where
  result : List Int
  previous : Int
  first : Option Int
  last : Option Int
  count : Nat

/-- The body of the inner loop of `get`. -/
def getOrdinal (s : GetState) (ordinal : Int) : Query GetState := do
  decoded ctx.limits
  if ordinal ≤ s.previous then giveUp
  else do
    operation ctx.limits 1
    return {
      result := setAdd s.result ordinal
      previous := ordinal
      first := some (s.first.getD ordinal)
      last := some ordinal
      count := s.count + 1 }

/-- The body of the outer loop of `get`. -/
def getChunk (s : GetState) (item : PostingChunk × Nat) : Query GetState := do
  let chunk := item.1
  let s ← Gen.consume (fun _ => giveUp) (getOrdinal ctx)
    { s with first := none, last := none, count := 0 }
    (iterDecodedOrdinals chunk.encodedOrdinals (some (ctx.generation.packetCount - 1)))
  if chunk.chunkOrdinal ≠ item.2 ∨ s.count ≠ chunk.count ∨
      s.first ≠ some chunk.firstPacketIndex ∨ s.last ≠ some chunk.lastPacketIndex then giveUp
  else return s

/-- `get` where the term is not in the cache. -/
def getUncached (key : PostingKey) : Query (List Int) :=
  if key.1 ∉ ctx.generation.completeDimensions then giveUp
  else do
    let chunks := ctx.directory.getD key []
    let s ← chunks.zipIdx.foldlM (getChunk ctx) ⟨[], -1, none, none, 0⟩
    modify fun q => { q with cache := q.cache.put (key, s.result) }
    return s.result

/-- `get`. -/
def getPosting (key : PostingKey) : Query (List Int) := fun q =>
  match q.cache.get? key with
  | some entry => some (entry.2, q)
  | none => getUncached ctx key q

/-- `union_values`. -/
def unionValues (values : List (List Int)) : Query (List Int) :=
  values.flatten.foldlM (fun result ordinal => do
    operation ctx.limits 1
    operation ctx.limits 1
    return setAdd result ordinal) []

/-- The common loop of `intersect_values` and `subtract_values`: examine every member, and
insert those to keep. -/
def keepValues (keep : Int → Bool) (left : List Int) : Query (List Int) :=
  left.foldlM (fun result ordinal => do
    operation ctx.limits 1
    if keep ordinal then do
      operation ctx.limits 1
      return setAdd result ordinal
    else return result) []

/-- `intersect_values`. -/
def intersectValues (left right : List Int) : Query (List Int) :=
  keepValues ctx (fun ordinal => ordinal ∈ right) left

/-- `subtract_values`. -/
def subtractValues (left right : List Int) : Query (List Int) :=
  keepValues ctx (fun ordinal => ordinal ∉ right) left

/-! ## Addresses -/

/-- The union of the lists of a value as source and as destination. -/
def eitherSide (source destination : PostingDimension) (value : Bytes) : Query (List Int) := do
  let left ← getPosting ctx (source, value)
  let right ← getPosting ctx (destination, value)
  unionValues ctx [left, right]

/-- The address values of the directory. -/
def addressTerms : Query (List Bytes) :=
  ctx.directory.keys.foldlM (fun terms key =>
    if key.1 ≠ .srcAddress ∧ key.1 ≠ .dstAddress then return terms
    else do
      operation ctx.limits 1
      if key.2 ∉ terms then do
        operation ctx.limits 1
        return setAdd terms key.2
      else return terms) []

/-- The body of the loop over the address values. -/
def addNetworkTerm (network : IPNetwork) (result : List Int) (value : Bytes) :
    Query (List Int) :=
  if (value.length ≠ 5 ∧ value.length ≠ 17) ∨ (value.take 1 ≠ [4] ∧ value.take 1 ≠ [6]) then giveUp
  else do
    let address ← orGiveUp (IPAddress.ofBytes (value.drop 1))
    if address.version = network.address.version ∧ network.contains address then do
      let left ← getPosting ctx (.srcAddress, value)
      let right ← getPosting ctx (.dstAddress, value)
      unionValues ctx [result, left, right]
    else return result

/-- `endpoints`, on a network. -/
def endpoints (network : IPNetwork) : Query (List Int) :=
  if network.prefixlen = network.maxPrefixlen then do
    let key ← orGiveUp (canonicalAddress py (py.ipText network.address)).toOption
    eitherSide ctx .srcAddress .dstAddress key
  else do
    let terms ← addressTerms ctx
    (py.setOrder terms).foldlM (addNetworkTerm ctx network) []

/-- `endpoints(str(value))`. -/
def endpointsOfText (text : String) : Query (List Int) := do
  let network ← orGiveUp (py.ipNetwork text)
  endpoints py ctx network

/-! ## Groups -/

/-- An item of a normalized group whose value is not `None`. -/
inductive GroupAtom where
  | endpointNetwork (network : IPNetwork)
  | direction (text : String)
  | protocol (text : String)
  | port (number : Int)
  | sourcePort (number : Int)
  | destinationPort (number : Int)
  | hasPayload (value : Bool)

/-- The items of a group, in the order of the mapping. -/
def PacketGroup.atoms (g : PacketGroup) : List GroupAtom :=
  (g.endpointNetwork.map .endpointNetwork).toList ++ (g.direction.map .direction).toList ++
  (g.protocol.map .protocol).toList ++ (g.port.map .port).toList ++
  (g.sourcePort.map .sourcePort).toList ++ (g.destinationPort.map .destinationPort).toList ++
  (g.hasPayload.map .hasPayload).toList

/-- The posting of an item, if it narrows the candidates. -/
def atomPosting (forExclude : Bool) : GroupAtom → Query (Option (List Int))
  | .endpointNetwork network => some <$> endpoints py ctx network
  | .protocol text => do
    let value ← orGiveUp (canonicalProtocol py text).toOption
    some <$> getPosting ctx (.protocol, value)
  | .sourcePort number => do
    let value ← orGiveUp (canonicalPort number).toOption
    some <$> getPosting ctx (.srcPort, value)
  | .destinationPort number => do
    let value ← orGiveUp (canonicalPort number).toOption
    some <$> getPosting ctx (.dstPort, value)
  | .hasPayload value => some <$> getPosting ctx (.hasPayload, canonicalPayload value)
  | .port number =>
    if ¬forExclude then do
      let value ← orGiveUp (canonicalPort number).toOption
      some <$> eitherSide ctx .srcPort .dstPort value
    else return none
  | .direction _ => return none

/-- Whether the posting of an item says exactly which packets satisfy it. -/
def GroupAtom.exact : GroupAtom → Bool
  | .port _ | .direction _ => false
  | _ => true

/-- `group_candidates`. -/
def groupCandidates (supported : List Int) (g : PacketGroup) (forExclude : Bool) :
    Query (List Int × Bool) := do
  let result ← g.atoms.foldlM (fun result atom => do
    match ← atomPosting py ctx forExclude atom with
    | none => return result
    | some posting =>
      match result with
      | none => return some posting
      | some left => some <$> intersectValues ctx left posting) none
  return (result.getD supported, g.atoms.all GroupAtom.exact && !g.atoms.isEmpty)

/-! ## The predicate -/

/-- `result = intersect_values(result, endpoints(str(value)))` for a value that is given. -/
def intersectEndpoints (result : List Int) : Option String → Query (List Int)
  | none => return result
  | some text => do
    let posting ← endpointsOfText py ctx text
    intersectValues ctx result posting

/-- The step of the port. -/
def intersectPort (result : List Int) : Option Int → Query (List Int)
  | none => return result
  | some number => do
    let value ← orGiveUp (canonicalPort number).toOption
    let posting ← eitherSide ctx .srcPort .dstPort value
    intersectValues ctx result posting

/-- The step of the protocol. -/
def intersectProtocol (result : List Int) : Option String → Query (List Int)
  | none => return result
  | some text =>
    if text = "" then return result
    else do
      let value ← orGiveUp (canonicalProtocol py text).toOption
      let posting ← getPosting ctx (.protocol, value)
      intersectValues ctx result posting

section

variable (supported result : List Int) (groups : List PacketGroup)

/-- The step of the include groups. -/
def intersectIncludes : Query (List Int) :=
  if groups.isEmpty then return result
  else do
    let included ← groups.foldlM (fun included g => do
      let (candidates, _) ← groupCandidates py ctx supported g false
      unionValues ctx [included, candidates]) []
    intersectValues ctx result included

/-- The step of the exclude groups. -/
def subtractExcludes : Query (List Int) :=
  groups.foldlM (fun result g => do
    let (excluded, exact) ← groupCandidates py ctx supported g true
    if exact then subtractValues ctx result excluded else return result) result

end

/-- The body of the `try` of `select_posting_candidates`, after the directory. -/
def selectCandidates (predicate : CompiledPacketPredicate) : Query (List Int) := do
  let supported ← getPosting ctx (.supported, [])
  let result ← intersectEndpoints py ctx supported predicate.candidateIp
  let result ← intersectEndpoints py ctx result predicate.internalHostIp
  let result ← intersectPort ctx result predicate.port
  let result ← intersectProtocol py ctx result predicate.protocol
  let result ← intersectIncludes py ctx supported result predicate.includeFilters
  let result ← subtractExcludes py ctx supported result predicate.excludeFilters
  if result.length > ctx.limits.maxResultOrdinals then giveUp
  else do
    operation ctx.limits result.length
    return result.insertionSort (· ≤ ·)

end Operations

/-- The limits of a call: `limits`, or the default with `max_query_work` operations. -/
def queryLimits (limits : Option PostingQueryLimits) (maxQueryWork : Option Int) :
    Except ValueError (Option PostingQueryLimits) :=
  match limits, maxQueryWork with
  | some _, some _ => .error ⟨"provide either limits or max_query_work, not both"⟩
  | some limits, none => .ok (some limits)
  | none, none => .ok (some .default)
  | none, some work =>
    if h : work ≤ 0 then .ok none
    else .ok (some {
      maxOperations := work.toNat
      positive := ⟨by omega, by decide, by decide, by decide, by decide⟩ })

/-- `select_posting_candidates`; `none` is the answer that requires a sequential scan. -/
def selectPostingCandidates (py : Python) (g : PostingGeneration)
    (predicate : CompiledPacketPredicate) (sensorId : Option String)
    (limits : Option PostingQueryLimits) (maxQueryWork : Option Int) :
    Except ValueError (Option (List Int)) :=
  if ∃ requested ∈ predicate.sensor, ∃ actual ∈ sensorId, requested ≠ actual then .ok (some [])
  else do
    let some limits ← queryLimits limits maxQueryWork | return none
    if ¬(0 ≤ g.packetCount ∧ 0 ≤ g.supportedCount) then return none
    else if g.packetCount > limits.maxResultOrdinals ∨ g.packetCount > limits.maxOperations ∨
        g.supportedCount > limits.maxResultOrdinals ∨
        g.supportedCount > limits.maxDecodedMemberships then return none
    else
      match queryGenerationDirectory py g limits with
      | none => return none
      | some directory =>
        return (selectCandidates py ⟨g, directory, limits⟩ predicate ⟨0, 0, Table.empty⟩).map
          Prod.fst

end C2Hunter
