import C2Hunter.Json
import C2Hunter.PostingDigest
import C2Hunter.ExportQueue

/-!
# Index generations and what they are bound to

The records of `pcap_offset_index.py` and `pcap_posting_index.py` that the index
lifecycle passes around: the version of a capture source, the structural index of a
source (its "parent" for the postings), the posting index built over it, and the two
validations that a stored generation has to pass.

* `CaptureSourceVersion`, `SourceIndexBinding`, `StructuralIndexSnapshot`,
  `validateStructuralIndex`.
* `PostingIndexBinding`, `PostingIndexSnapshot`, `postingBinding`, `validatePostingIndex`.
-/

namespace C2Hunter

/-- `source_kind`. -/
inductive PostingSourceKind where
  | pcapUpload
  | liveSegment
  deriving DecidableEq, Repr

/-- The text of a source kind. -/
def PostingSourceKind.text : PostingSourceKind → String
  | pcapUpload => "PCAP_UPLOAD"
  | liveSegment => "LIVE_SEGMENT"

/-- The text of a capture format. -/
def CaptureFormat.text : CaptureFormat → String
  | pcap => "PCAP"
  | pcapng => "PCAPNG"

/-- A source: its kind and its id. -/
abbrev SourceKey : Type := PostingSourceKind × String

/-- `CaptureSourceVersion`. -/
structure CaptureSourceVersion where
  sourceKind : PostingSourceKind
  sourceId : String
  objectKey : String
  sourceVersionId : String
  sourceSizeBytes : Int
  sourceSha256 : String
  deriving DecidableEq

/-- The source a version is of. -/
def CaptureSourceVersion.key (v : CaptureSourceVersion) : SourceKey := (v.sourceKind, v.sourceId)

/-- `SourceIndexBinding`. -/
structure SourceIndexBinding where
  sourceKind : PostingSourceKind
  sourceId : String
  sourceVersionId : String
  sourceSizeBytes : Int
  sourceSha256 : String
  captureFormat : CaptureFormat
  schemaVersion : Int
  parserContractVersion : Int
  deriving DecidableEq

/-- The source a structural index is of. -/
def SourceIndexBinding.key (b : SourceIndexBinding) : SourceKey := (b.sourceKind, b.sourceId)

/-- `StructuralIndexSnapshot`. -/
structure StructuralIndexSnapshot where
  buildId : String
  binding : SourceIndexBinding
  createdAt : Time
  indexSha256 : String
  interfaces : List StructuralInterfaceEntry
  packets : List StructuralPacketEntry

/-! ## The structural index -/

/-- `_MAX_I64`. -/
def maxI64 : Nat := 2 ^ 63 - 1

/-- `binding_document`. -/
def SourceIndexBinding.document (b : SourceIndexBinding) : Json :=
  .obj
    [("source_kind", .str b.sourceKind.text), ("source_id", .str b.sourceId),
      ("source_version_id", .str b.sourceVersionId), ("source_size_bytes", .int b.sourceSizeBytes),
      ("source_sha256", .str b.sourceSha256), ("capture_format", .str b.captureFormat.text),
      ("schema_version", .int b.schemaVersion),
      ("parser_contract_version", .int b.parserContractVersion)]

/-- `asdict(interface)`. -/
def interfaceDocument (i : StructuralInterfaceEntry) : Json :=
  .obj
    [("section_index", .int i.sectionIndex), ("interface_id", .int i.interfaceId),
      ("interface_ordinal", .int i.interfaceOrdinal), ("link_type", .int i.linkType),
      ("snaplen", .int i.snaplen),
      ("timestamp_resolution_numerator", .int i.timestampResolutionNumerator),
      ("timestamp_resolution_denominator", .int i.timestampResolutionDenominator),
      ("timestamp_offset_seconds", .int i.timestampOffsetSeconds)]

/-- `asdict(packet)`. -/
def packetDocument (p : StructuralPacketEntry) : Json :=
  .obj
    [("packet_index", .int p.packetIndex), ("record_offset", .int p.recordOffset),
      ("data_offset", .int p.dataOffset), ("captured_length", .int p.capturedLength),
      ("original_length", .int p.originalLength), ("framed_length", .int p.framedLength),
      ("section_index", .int p.sectionIndex), ("interface_id", .int p.interfaceId),
      ("interface_ordinal", .int p.interfaceOrdinal),
      ("raw_timestamp_ticks", .int p.rawTimestampTicks)]

/-- `structural_index_digest`. -/
def structuralIndexDigest (py : Python) (binding : SourceIndexBinding)
    (interfaces : List StructuralInterfaceEntry) (packets : List StructuralPacketEntry) : String :=
  let lines := binding.document :: interfaces.map interfaceDocument ++ packets.map packetDocument
  let document := "c2hunter-pcap-offset-index-v1\n" ++
    String.join (lines.map fun line => line.text true ++ "\n")
  hex (py.sha256 (encodeAscii document))

/-- The checks of one interface; all numbers are integers here, and all but the offset are
not negative. -/
def validInterface (i : StructuralInterfaceEntry) : Bool :=
  i.sectionIndex ≤ maxI64 ∧ i.interfaceId ≤ maxI64 ∧ i.interfaceOrdinal ≤ maxI64 ∧
  i.linkType ≤ 65535 ∧ (1 ≤ i.snaplen ∧ i.snaplen ≤ 16 * 1024 * 1024) ∧
  (1 ≤ i.timestampResolutionNumerator ∧ i.timestampResolutionNumerator ≤ maxI64) ∧
  (1 ≤ i.timestampResolutionDenominator ∧ i.timestampResolutionDenominator ≤ maxI64) ∧
  (-(2 ^ 63 : Int) ≤ i.timestampOffsetSeconds ∧ i.timestampOffsetSeconds ≤ maxI64)

/-- The key of `interface_map`. -/
def interfaceKey (i : StructuralInterfaceEntry) : Nat × Nat × Nat :=
  (i.sectionIndex, i.interfaceId, i.interfaceOrdinal)

/-- The checks of one packet after the records up to `previousEnd`; the next end, or `none`
where the packet is refused. -/
def checkPacket (binding : SourceIndexBinding) (interfaces : List StructuralInterfaceEntry)
    (previousEnd : Nat) (item : StructuralPacketEntry × Nat) : Option Nat :=
  let (packet, expectedIndex) := item
  match interfaces.find? fun i =>
    interfaceKey i = (packet.sectionIndex, packet.interfaceId, packet.interfaceOrdinal) with
  | none => none
  | some interface =>
    let recordEnd := packet.recordOffset + packet.framedLength
    let dataEnd := packet.dataOffset + packet.capturedLength
    if packet.packetIndex ≠ expectedIndex then none
    else if packet.recordOffset > maxI64 ∨ packet.dataOffset > maxI64 ∨
        packet.capturedLength > maxI64 ∨ packet.originalLength > maxI64 ∨
        packet.framedLength > maxI64 ∨ packet.sectionIndex > maxI64 ∨ packet.interfaceId > maxI64 ∨
        packet.interfaceOrdinal > maxI64 ∨ packet.rawTimestampTicks > 2 ^ 64 - 1 then none
    else if (recordEnd : Int) > binding.sourceSizeBytes ∨ dataEnd > recordEnd ∨
        packet.recordOffset < previousEnd ∨ packet.capturedLength > packet.originalLength ∨
        packet.capturedLength > interface.snaplen then none
    else
      match binding.captureFormat with
      | .pcap =>
        if packet.dataOffset ≠ packet.recordOffset + 16 ∨
            packet.framedLength ≠ 16 + packet.capturedLength then none
        else some recordEnd
      | .pcapng =>
        if packet.dataOffset ≠ packet.recordOffset + 28 ∨ packet.framedLength < 32 ∨
            packet.framedLength % 4 ≠ 0 ∨ (dataEnd : Int) > recordEnd - 4 then none
        else some recordEnd

/-- `validate_structural_index`. -/
def validateStructuralIndex (py : Python) (snapshot : StructuralIndexSnapshot) : Bool :=
  let binding := snapshot.binding
  binding.schemaVersion = 1 ∧ binding.parserContractVersion = 1 ∧
  digestPattern snapshot.indexSha256 ∧
  snapshot.interfaces ≠ [] ∧
  snapshot.interfaces.map CaptureInterface.interfaceOrdinal =
    List.range snapshot.interfaces.length ∧
  snapshot.interfaces.all validInterface ∧
  (snapshot.interfaces.map interfaceKey).Nodup ∧
  (snapshot.packets.zipIdx.foldlM (checkPacket binding snapshot.interfaces) 0).isSome ∧
  snapshot.indexSha256 =
    structuralIndexDigest py binding snapshot.interfaces snapshot.packets

/-! ## The posting index -/

/-- `PostingIndexBinding`; `PostingIndexTaskSpec` has the same fields. -/
structure PostingIndexBinding where
  sourceKind : PostingSourceKind
  sourceId : String
  sourceVersionId : String
  sourceSizeBytes : Int
  sourceSha256 : String
  captureFormat : CaptureFormat
  parentStructuralBuildId : String
  parentStructuralIndexSha256 : String
  structuralSchemaVersion : Int
  structuralParserContractVersion : Int
  postingSchemaVersion : Int
  postingParserContractVersion : Int
  filterContractVersion : Int
  deriving DecidableEq

namespace PostingIndexBinding

section

variable (b : PostingIndexBinding)

/-- The source a posting index is of. -/
def key : SourceKey := (b.sourceKind, b.sourceId)

/-- `__post_init__` of `PostingIndexBinding`. -/
def valid : Bool :=
  b.sourceId ≠ "" ∧ b.sourceVersionId ≠ "" ∧ 0 ≤ b.sourceSizeBytes ∧
  b.parentStructuralBuildId ≠ "" ∧ digestPattern b.sourceSha256 ∧
  digestPattern b.parentStructuralIndexSha256

/-- `PostingIndexBinding.document`. -/
def document : Bytes :=
  encodeAscii <| Json.text true <| .obj
    [("source_kind", .str b.sourceKind.text), ("source_id", .str b.sourceId),
      ("source_version_id", .str b.sourceVersionId), ("source_size_bytes", .int b.sourceSizeBytes),
      ("source_sha256", .str b.sourceSha256), ("capture_format", .str b.captureFormat.text),
      ("parent_structural_build_id", .str b.parentStructuralBuildId),
      ("parent_structural_index_sha256", .str b.parentStructuralIndexSha256),
      ("structural_schema_version", .int b.structuralSchemaVersion),
      ("structural_parser_contract_version", .int b.structuralParserContractVersion),
      ("posting_schema_version", .int b.postingSchemaVersion),
      ("posting_parser_contract_version", .int b.postingParserContractVersion),
      ("filter_contract_version", .int b.filterContractVersion)]

end

end PostingIndexBinding

section

variable (source : CaptureSourceVersion) (parent : StructuralIndexSnapshot)

/-- The binding of postings of a source version under a structural parent, before it is
checked. -/
def bindingFields : PostingIndexBinding where
  sourceKind := source.sourceKind
  sourceId := source.sourceId
  sourceVersionId := source.sourceVersionId
  sourceSizeBytes := source.sourceSizeBytes
  sourceSha256 := source.sourceSha256
  captureFormat := parent.binding.captureFormat
  parentStructuralBuildId := parent.buildId
  parentStructuralIndexSha256 := parent.indexSha256
  structuralSchemaVersion := parent.binding.schemaVersion
  structuralParserContractVersion := parent.binding.parserContractVersion
  postingSchemaVersion := C2Hunter.postingSchemaVersion
  postingParserContractVersion := C2Hunter.postingParserContractVersion
  filterContractVersion := C2Hunter.postingFilterContractVersion

/-- `_binding`; `none` where the constructor raises `ValueError`. -/
def postingBinding : Option PostingIndexBinding :=
  some (bindingFields source parent) |>.filter PostingIndexBinding.valid

end

/-- `PostingIndexSnapshot`. -/
structure PostingIndexSnapshot where
  buildId : String
  binding : PostingIndexBinding
  createdAt : Time
  generation : PostingGeneration

/-- `validate_posting_index`. -/
def validatePostingIndex (py : Python) (snapshot : PostingIndexSnapshot)
    (source : CaptureSourceVersion) (parent : StructuralIndexSnapshot) : Bool :=
  match postingBinding source parent with
  | none => false
  | some expected =>
    snapshot.buildId ≠ "" ∧ validateStructuralIndex py parent ∧ snapshot.binding = expected ∧
    snapshot.generation.bindingDocument = expected.document ∧
    validatePostingGeneration py snapshot.generation .default

variable {py : Python} {snapshot : PostingIndexSnapshot} {source : CaptureSourceVersion}
    {parent : StructuralIndexSnapshot}

/-- A generation that passes is bound to the source version and to its parent. -/
theorem binding_of_validatePostingIndex (h : validatePostingIndex py snapshot source parent = true) :
    snapshot.binding = bindingFields source parent := by
  rw [validatePostingIndex] at h
  split at h
  · cases h
  · next expected hexpected =>
    rw [decide_eq_true_eq] at h
    rw [postingBinding, Option.filter_eq_some_iff] at hexpected
    exact h.2.2.1.trans (Option.some.inj hexpected.1).symm

/-- The validation reads the contents of the parent, not when it was created. -/
theorem validatePostingIndex_congr {parent' : StructuralIndexSnapshot}
    (hbuild : parent.buildId = parent'.buildId) (hbinding : parent.binding = parent'.binding)
    (hsha : parent.indexSha256 = parent'.indexSha256)
    (hinterfaces : parent.interfaces = parent'.interfaces)
    (hpackets : parent.packets = parent'.packets) :
    validatePostingIndex py snapshot source parent = validatePostingIndex py snapshot source parent' := by
  have hfields : bindingFields source parent = bindingFields source parent' := by
    rw [bindingFields, bindingFields, hbuild, hbinding, hsha]
  have hvalid : validateStructuralIndex py parent = validateStructuralIndex py parent' := by
    rw [validateStructuralIndex, validateStructuralIndex, hbinding, hsha, hinterfaces, hpackets]
  rw [validatePostingIndex, validatePostingIndex, postingBinding, postingBinding, hfields, hvalid]

end C2Hunter
