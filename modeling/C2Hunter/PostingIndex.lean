import C2Hunter.OrdinalCodec
import C2Hunter.Packet

/-!
# The posting index: terms, chunks, generations

The data of `pcap_postings.py`. A packet has a *membership* for each of its terms: every
packet the term `ALL_PACKET`, a supported one also its addresses, ports, protocol and
payload flag. A posting generation stores, for each term, the increasing packet indexes
of its members, cut into chunks.

* `canonicalAddress`, `canonicalPort`, `canonicalProtocol`, `canonicalPayload` — the
  byte strings that stand for values in the index, and `validPostingValue`, the check
  that a stored one has this form.
* `projection`, `projectionMemberships` — the terms of a packet.
* `PostingChunk`, `PostingGeneration` — what is stored.
* `projection_terms` — the projection never fails, and its memberships are `packetTerms`:
  each passes the check (`valid_of_mem_packetTerms`) and none occurs twice
  (`nodup_packetTerms`).
-/

namespace C2Hunter

open List

/-! ## Terms -/

/-- `PostingDimension`. -/
inductive PostingDimension where
  | allPacket
  | supported
  | srcAddress
  | dstAddress
  | srcPort
  | dstPort
  | protocol
  | hasPayload
  deriving DecidableEq, Repr

/-- The string value of a dimension. -/
def PostingDimension.value : PostingDimension → String
  | allPacket => "ALL_PACKET"
  | supported => "SUPPORTED"
  | srcAddress => "SRC_ADDRESS"
  | dstAddress => "DST_ADDRESS"
  | srcPort => "SRC_PORT"
  | dstPort => "DST_PORT"
  | protocol => "PROTOCOL"
  | hasPayload => "HAS_PAYLOAD"

/-- The dimensions in the order of their declaration. -/
def PostingDimension.all : List PostingDimension :=
  [.allPacket, .supported, .srcAddress, .dstAddress, .srcPort, .dstPort, .protocol, .hasPayload]

/-- A term of the index. -/
abbrev PostingKey : Type := PostingDimension × Bytes

/-- The sort order of terms: `(dimension.value, value)`. -/
def keyLe (a b : PostingKey) : Bool :=
  a.1.value < b.1.value ∨ a.1.value = b.1.value ∧ a.2 ≤ b.2

/-- `sorted(keys, key=lambda item: (item[0].value, item[1]))`. -/
def sortKeys (keys : List PostingKey) : List PostingKey :=
  keys.insertionSort fun a b => keyLe a b = true

/-- A `ValueError`. -/
structure ValueError where
  message : String
  deriving DecidableEq, Repr

section Canonical

variable (py : Python)

/-- `text.encode("ascii")` of ASCII text. -/
def encodeAscii (text : String) : Bytes := text.toList.map fun c => UInt8.ofNat c.toNat

/-- `value.decode("ascii")`. -/
def decodeAscii (value : Bytes) : Option String :=
  if ∀ b ∈ value, b.toNat < 128 then some (String.ofList (value.map fun b => Char.ofNat b.toNat))
  else none

/-- `canonical_address`. -/
def canonicalAddress (text : String) : Except ValueError Bytes :=
  match py.ipAddress text with
  | none => .error ⟨"value does not appear to be an IPv4 or IPv6 address"⟩
  | some a => .ok (UInt8.ofNat a.version.number :: a.packed)

/-- `canonical_port`. -/
def canonicalPort (value : Int) : Except ValueError Bytes :=
  if ¬(0 ≤ value ∧ value ≤ 65535) then .error ⟨"port must be an unsigned 16-bit integer"⟩
  else .ok (Bytes.toBE 2 value.toNat)

/-- The pattern `[A-Z][A-Z0-9_]*`. -/
def protocolWord : List Char → Bool
  | [] => false
  | c :: cs => c.isUpper && cs.all fun c => c.isUpper || c.isDigit || c = '_'

/-- The pattern `IP_(?:0|[1-9][0-9]{0,2})`. -/
def protocolNumber : List Char → Bool
  | 'I' :: 'P' :: '_' :: ['0'] => true
  | 'I' :: 'P' :: '_' :: d :: ds => d.isDigit && d ≠ '0' && ds.all Char.isDigit && ds.length ≤ 2
  | _ => false

/-- `_PROTOCOL.fullmatch(text)`. -/
def protocolPattern (text : String) : Bool :=
  protocolWord text.toList || protocolNumber text.toList

/-- `canonical_protocol`. -/
def canonicalProtocol (value : String) : Except ValueError Bytes :=
  let normalized := py.upper value
  if ¬protocolPattern normalized then .error ⟨"protocol is not canonicalizable"⟩
  else if normalized.startsWith "IP_" then
    match py.intOfText (String.ofList (normalized.toList.drop 3)) with
    | none => .error ⟨"invalid literal for int() with base 10"⟩
    | some n =>
      if n > 255 then .error ⟨"IP protocol number must be at most 255"⟩
      else .ok (encodeAscii normalized)
  else .ok (encodeAscii normalized)

/-- `canonical_payload`. -/
def canonicalPayload (value : Bool) : Bytes := if value then [1] else [0]

/-- `_valid_posting_value`. -/
def validPostingValue (dimension : PostingDimension) (value : Bytes) : Bool :=
  match dimension with
  | .allPacket | .supported => value = []
  | .srcAddress | .dstAddress =>
    (value.length = 5 ∧ value.take 1 = [4]) ∨ (value.length = 17 ∧ value.take 1 = [6])
  | .srcPort | .dstPort => value.length = 2
  | .hasPayload => value = [0] ∨ value = [1]
  | .protocol =>
    match decodeAscii value with
    | none => false
    | some decoded =>
      match canonicalProtocol py decoded with
      | .error _ => false
      | .ok canonical => canonical = value

end Canonical

/-! ## Chunks and generations -/

/-- `PostingChunk`. -/
structure PostingChunk where
  dimension : PostingDimension
  value : Bytes
  chunkOrdinal : Int
  firstPacketIndex : Int
  lastPacketIndex : Int
  count : Int
  encodedOrdinals : Bytes
  deriving DecidableEq

/-- The term a chunk belongs to. -/
def PostingChunk.key (c : PostingChunk) : PostingKey := (c.dimension, c.value)

/-- `PostingGeneration`. -/
structure PostingGeneration where
  schemaVersion : Int
  parserContractVersion : Int
  filterContractVersion : Int
  packetCount : Int
  supportedCount : Int
  membershipCount : Int
  distinctKeyCount : Int
  encodedByteCount : Int
  completeDimensions : Finset PostingDimension
  chunks : List PostingChunk
  digest : String
  bindingDocument : Bytes

/-- `PCAP_POSTING_INDEX_SCHEMA_VERSION`. -/
def postingSchemaVersion : Int := 1

/-- `PCAP_POSTING_INDEX_PARSER_CONTRACT_VERSION`. -/
def postingParserContractVersion : Int := 1

/-- `PCAP_FILTER_CONTRACT_VERSION`. -/
def postingFilterContractVersion : Int := 1

/-- `PostingBuildLimits`; its `__post_init__` rejects limits that are not positive. -/
structure PostingBuildLimits where
  maxPackets : Nat := 10000000
  maxMemberships : Nat := 20000000
  maxDistinctKeys : Nat := 1000000
  maxEncodedBytes : Nat := 512 * 1024 * 1024
  maxChunks : Nat := 1000000
  batchSize : Nat := 1000
  positive : 0 < maxPackets ∧ 0 < maxMemberships ∧ 0 < maxDistinctKeys ∧ 0 < maxEncodedBytes ∧
    0 < maxChunks ∧ 0 < batchSize

/-- `PostingBuildLimits()`. -/
def PostingBuildLimits.default : PostingBuildLimits where
  positive := by decide

/-- `_ALL_DIMENSIONS`. -/
def allDimensions : Finset PostingDimension := PostingDimension.all.toFinset

/-! ## The terms of a packet -/

/-- `PacketPostingProjection`. -/
structure PacketPostingProjection where
  packetIndex : Nat
  sourceAddress : Option Bytes
  destinationAddress : Option Bytes
  sourcePort : Option Bytes
  destinationPort : Option Bytes
  protocol : Option Bytes
  hasPayload : Option Bytes
  supported : Bool

/-- `f(text) if text else None`. -/
def unlessEmpty (f : String → Except ValueError Bytes) (text : String) :
    Except ValueError (Option Bytes) :=
  if text = "" then .ok none else some <$> f text

/-- `f(port) if port is not None else None`. -/
def canonicalPort? : Option Port → Except ValueError (Option Bytes)
  | none => .ok none
  | some port => some <$> canonicalPort port.toNat

/-- `_projection`. -/
def projection (py : Python) (packet : ExportPacket) : Except ValueError PacketPostingProjection :=
  match packet.fields with
  | none => .ok ⟨packet.locator.packetIndex, none, none, none, none, none, none, false⟩
  | some f => do
    let source ← unlessEmpty (canonicalAddress py) (py.ipText f.sourceIp)
    let destination ← unlessEmpty (canonicalAddress py) (py.ipText f.destinationIp)
    let sourcePort ← canonicalPort? f.sourcePort
    let destinationPort ← canonicalPort? f.destinationPort
    let protocol ← unlessEmpty (canonicalProtocol py) (protocolText f.protocol)
    return ⟨packet.locator.packetIndex, source, destination, sourcePort, destinationPort, protocol,
      some (canonicalPayload f.hasPayload), true⟩

/-- `_projection_memberships`. -/
def projectionMemberships (item : PacketPostingProjection) : List PostingKey :=
  if ¬item.supported then [(.allPacket, [])]
  else
    (.allPacket, []) :: (.supported, []) ::
      [(PostingDimension.srcAddress, item.sourceAddress),
        (.dstAddress, item.destinationAddress),
        (.srcPort, item.sourcePort),
        (.dstPort, item.destinationPort),
        (.protocol, item.protocol),
        (.hasPayload, item.hasPayload)].filterMap fun e => e.2.map fun value => (e.1, value)

/-! ## Protocol names -/

section Protocol

variable {py : Python} {text : String}

/-- A character of a protocol name. -/
def protocolChar (c : Char) : Bool := c.isUpper || c.isDigit || c = '_'

theorem protocolChar_of_word {cs : List Char} (h : protocolWord cs = true) : ∀ c ∈ cs, protocolChar c = true := by
  cases cs with
  | nil => intro c hc; cases hc
  | cons =>
    rw [protocolWord, Bool.and_eq_true, all_eq_true] at h
    intro c hc
    rcases mem_cons.mp hc with rfl | hc
    · rw [protocolChar, h.1, Bool.true_or, Bool.true_or]
    · exact h.2 c hc

theorem toNat_lt_of_protocolChar {c : Char} (h : protocolChar c = true) : c.toNat < 128 := by
  rw [protocolChar, Bool.or_eq_true, Bool.or_eq_true, decide_eq_true_eq] at h
  rcases h with (h | h) | rfl
  · rw [Char.isUpper, decide_eq_true_eq] at h
    exact Nat.lt_of_le_of_lt (UInt32.le_iff_toNat_le.mp h.2) (by decide)
  · rw [Char.isDigit_iff_toNat] at h
    exact Nat.lt_of_le_of_lt h.2 (by decide)
  · decide

theorem toUpper_of_protocolChar {c : Char} (h : protocolChar c = true) : c.toUpper = c := by
  refine Char.toUpper_eq_of_not_isLower fun hl => ?_
  rw [Char.isLower, Bool.and_eq_true, decide_eq_true_eq, decide_eq_true_eq] at hl
  have hlow : 97 ≤ c.toNat := UInt32.le_iff_toNat_le.mp hl.1
  rw [protocolChar, Bool.or_eq_true, Bool.or_eq_true, decide_eq_true_eq] at h
  rcases h with (h | h) | rfl
  · rw [Char.isUpper, decide_eq_true_eq] at h
    have hup : c.toNat ≤ 90 := UInt32.le_iff_toNat_le.mp h.2
    omega
  · have hdig : c.toNat ≤ 57 := (Char.isDigit_iff_toNat.mp h).2
    omega
  · exact absurd hlow (by decide)

theorem ascii_of_word (h : protocolWord text.toList = true) : Ascii text := fun c hc =>
  toNat_lt_of_protocolChar (protocolChar_of_word h c hc)

/-- Protocol names are in upper case. -/
theorem upper_of_word (h : protocolWord text.toList = true) : py.upper text = text := by
  rw [py.upper_ascii text (ascii_of_word h), ← String.toList_inj, String.toUpper, String.toList_map]
  conv_rhs => rw [← map_id text.toList]
  refine map_congr_left fun c hc => ?_
  exact toUpper_of_protocolChar (protocolChar_of_word h c hc)

theorem decodeAscii_encodeAscii (h : Ascii text) : decodeAscii (encodeAscii text) = some text := by
  have hb : ∀ c ∈ text.toList, (UInt8.ofNat c.toNat).toNat = c.toNat := by
    intro c hc
    exact UInt8.toNat_ofNat_of_lt' (Nat.lt_trans (h c hc) (by decide))
  have hall : ∀ b ∈ encodeAscii text, b.toNat < 128 := by
    intro b hmem
    obtain ⟨c, hc, rfl⟩ := mem_map.mp hmem
    rw [hb c hc]
    exact h c hc
  rw [decodeAscii, if_pos hall, encodeAscii, map_map]
  conv_rhs => rw [← String.ofList_toList (s := text), ← map_id text.toList]
  congr 2
  refine map_congr_left fun c hc => ?_
  rw [Function.comp_apply, hb c hc, Char.ofNat_toNat, id]

theorem word_of_number {cs : List Char} (h : protocolNumber cs = true) : protocolWord cs = true := by
  unfold protocolNumber at h
  split at h
  · decide
  · next d ds _ =>
    simp only [Bool.and_eq_true, decide_eq_true_eq, all_eq_true] at h
    obtain ⟨⟨⟨hd, -⟩, hds⟩, -⟩ := h
    simp only [protocolWord, all_cons, Bool.and_eq_true, all_eq_true]
    refine ⟨by decide, by decide, by decide, by simp [hd], fun c hc => ?_⟩
    simp [hds c hc]
  · cases h

/-- What is canonical is the text in upper case. -/
theorem canonicalProtocol_eq_ok {value : Bytes} (h : canonicalProtocol py text = .ok value) :
    Ascii (py.upper text) ∧ value = encodeAscii (py.upper text) := by
  rw [canonicalProtocol, Except.guard_eq_ok, not_not, protocolPattern, Bool.or_eq_true] at h
  obtain ⟨hpat, h⟩ := h
  have hword : protocolWord (py.upper text).toList = true := hpat.elim id word_of_number
  refine ⟨ascii_of_word hword, ?_⟩
  split at h
  · split at h
    · cases h
    · rw [Except.guard_eq_ok] at h
      exact (Except.ok.inj h.2).symm
  · exact (Except.ok.inj h).symm

theorem encodeAscii_inj {text' : String} (h : Ascii text) (h' : Ascii text')
    (heq : encodeAscii text = encodeAscii text') : text = text' := by
  have hdec := decodeAscii_encodeAscii h
  rw [heq, decodeAscii_encodeAscii h'] at hdec
  exact (Option.some.inj hdec).symm

theorem toList_numbered (n : Nat) : ("IP_" ++ toString n).toList = 'I' :: 'P' :: '_' :: (toString n).toList := by
  rw [String.toList_append]
  rfl

theorem protocolWord_protocolText (n : UInt8) : protocolWord (protocolText n).toList = true := by
  unfold protocolText
  split_ifs
  · decide
  · decide
  · decide
  · decide
  · have hdigit : ∀ c ∈ (toString n.toNat).toList, c.isDigit = true := by
      intro c hc
      rw [show toString n.toNat = n.toNat.repr from rfl, Nat.repr_eq_ofList_toDigits, String.toList_ofList] at hc
      exact Nat.isDigit_of_mem_toDigits (by decide) (by decide) hc
    rw [toList_numbered, protocolWord, Bool.and_eq_true, all_eq_true]
    refine ⟨by decide, fun c hc => ?_⟩
    rcases mem_cons.mp hc with rfl | hc
    · decide
    · rcases mem_cons.mp hc with rfl | hc
      · decide
      · rw [hdigit c hc, Bool.or_true, Bool.true_or]

/-- The names that the decoder gives to protocols are canonical. -/
theorem canonicalProtocol_protocolText (n : UInt8) :
    canonicalProtocol py (protocolText n) = .ok (encodeAscii (protocolText n)) := by
  have hword := protocolWord_protocolText n
  have hpat : protocolPattern (protocolText n) = true := by
    rw [protocolPattern, hword, Bool.true_or]
  rw [canonicalProtocol, upper_of_word hword]
  simp only [hpat, not_true, if_false]
  split
  · next hip =>
    rw [String.startsWith_string_iff] at hip
    have hnum : String.ofList ((protocolText n).toList.drop 3) = toString n.toNat := by
      unfold protocolText at hip ⊢
      split_ifs at hip ⊢
      · exact absurd hip (by decide)
      · exact absurd hip (by decide)
      · exact absurd hip (by decide)
      · exact absurd hip (by decide)
      · rw [toList_numbered]
        exact String.ofList_toList
    have hlt : n.toNat < 256 := n.toNat_lt
    rw [hnum, py.intOfText_nat n.toNat (by omega)]
    simp only [gt_iff_lt]
    rw [if_neg (by omega)]
  · rfl

end Protocol

/-! ## The terms of a packet are canonical -/

section Terms

variable {py : Python}

/-- The value that stands for an address. -/
def addressValue (a : IPAddress) : Bytes := UInt8.ofNat a.version.number :: a.packed

theorem canonicalAddress_ipText (a : IPAddress) : canonicalAddress py (py.ipText a) = .ok (addressValue a) := by
  rw [canonicalAddress, py.ipAddress_text a]
  rfl

theorem addressValue_inj {a b : IPAddress} (h : addressValue a = addressValue b) : a = b := by
  have hp : a.packed = b.packed := (List.cons.inj h).2
  have ha := IPAddress.ofBytes_packed a
  rw [hp, IPAddress.ofBytes_packed b] at ha
  exact (Option.some.inj ha).symm

/-- The value that stands for a port. -/
def portValue (port : Port) : Bytes := Bytes.toBE 2 port.toNat

theorem canonicalPort_toNat (port : Port) : canonicalPort port.toNat = .ok (portValue port) := by
  have hlt : port.toNat < 65536 := port.toNat_lt
  rw [canonicalPort, if_neg (by omega)]
  rfl

theorem canonicalPort?_eq (port : Option Port) : canonicalPort? port = .ok (port.map portValue) := by
  cases port with
  | none => rfl
  | some =>
    rw [canonicalPort?, canonicalPort_toNat]
    rfl

/-- The value of a supported packet in a dimension. -/
def PacketFields.value (f : PacketFields) : PostingDimension → Option Bytes
  | .allPacket | .supported => some []
  | .srcAddress => some (addressValue f.sourceIp)
  | .dstAddress => some (addressValue f.destinationIp)
  | .srcPort => f.sourcePort.map portValue
  | .dstPort => f.destinationPort.map portValue
  | .protocol => some (encodeAscii (protocolText f.protocol))
  | .hasPayload => some (canonicalPayload f.hasPayload)

/-- The terms of a packet, read off its fields. -/
def packetTerms (packet : ExportPacket) : List PostingKey :=
  match packet.fields with
  | none => [(.allPacket, [])]
  | some f => PostingDimension.all.filterMap fun d => (f.value d).map fun v => (d, v)

theorem unlessEmpty_of_ne {f : String → Except ValueError Bytes} {text : String} {b : Bytes}
    (hne : text ≠ "") (h : f text = .ok b) : unlessEmpty f text = .ok (some b) := by
  rw [unlessEmpty, if_neg hne, h]
  rfl

theorem protocolText_ne (n : UInt8) : protocolText n ≠ "" := by
  intro h
  have hword := protocolWord_protocolText n
  rw [h] at hword
  exact absurd hword (by decide)

/-- Every packet has a projection, whose memberships are the packet's terms. -/
theorem projection_terms (py : Python) (packet : ExportPacket) :
    ∃ item, projection py packet = .ok item ∧ item.supported = packet.supported ∧
      projectionMemberships item = packetTerms packet := by
  rw [projection, ExportPacket.supported, packetTerms]
  cases packet.fields with
  | none => exact ⟨_, rfl, rfl, rfl⟩
  | some f =>
    simp only [unlessEmpty_of_ne (py.ipText_ne f.sourceIp) (canonicalAddress_ipText f.sourceIp),
      unlessEmpty_of_ne (py.ipText_ne f.destinationIp) (canonicalAddress_ipText f.destinationIp),
      unlessEmpty_of_ne (protocolText_ne f.protocol) (canonicalProtocol_protocolText f.protocol),
      canonicalPort?_eq]
    exact ⟨_, rfl, rfl, rfl⟩

theorem mem_packetTerms {packet : ExportPacket} {d : PostingDimension} {v : Bytes} : (d, v) ∈ packetTerms packet ↔
      (d, v) = (.allPacket, []) ∨ ∃ f, packet.fields = some f ∧ f.value d = some v := by
  rw [packetTerms]
  cases packet.fields with
  | none => simp
  | some =>
    have hall : d ∈ PostingDimension.all := by cases d <;> decide
    simp only [mem_filterMap, Option.map_eq_some_iff, Prod.mk.injEq, Option.some.injEq, exists_eq_left']
    constructor
    · rintro ⟨d', -, v', hv', rfl, rfl⟩
      exact .inr hv'
    · rintro (⟨rfl, rfl⟩ | hv)
      · exact ⟨_, hall, [], rfl, rfl, rfl⟩
      · exact ⟨d, hall, v, hv, rfl, rfl⟩

/-- No packet has a term twice. -/
theorem nodup_packetTerms (packet : ExportPacket) : (packetTerms packet).Nodup := by
  rw [packetTerms]
  cases packet.fields with
  | none => exact nodup_singleton _
  | some =>
    refine List.Nodup.filterMap (fun d d' k hk hk' => ?_) (by decide)
    obtain ⟨v, -, rfl⟩ := Option.map_eq_some_iff.mp hk
    obtain ⟨v', -, h⟩ := Option.map_eq_some_iff.mp hk'
    exact (congrArg Prod.fst h).symm

theorem validPostingValue_address (a : IPAddress) : ((addressValue a).length = 5 ∧ (addressValue a).take 1 = [4]) ∨
      ((addressValue a).length = 17 ∧ (addressValue a).take 1 = [6]) := by
  obtain ⟨version, packed, hlen⟩ := a
  cases version with
  | v4 => exact .inl ⟨by rw [addressValue, length_cons, hlen]; rfl, rfl⟩
  | v6 => exact .inr ⟨by rw [addressValue, length_cons, hlen]; rfl, rfl⟩

/-- The terms of a packet pass the check on stored terms. -/
theorem valid_of_mem_packetTerms {packet : ExportPacket} {k : PostingKey}
    (h : k ∈ packetTerms packet) : validPostingValue py k.1 k.2 = true := by
  obtain ⟨d, v⟩ := k
  rcases mem_packetTerms.mp h with hk | ⟨f, -, hv⟩
  · cases hk
    rfl
  cases d with
  | allPacket | supported => cases hv; rfl
  | srcAddress =>
    cases hv
    exact decide_eq_true (validPostingValue_address f.sourceIp)
  | dstAddress =>
    cases hv
    exact decide_eq_true (validPostingValue_address f.destinationIp)
  | srcPort | dstPort =>
    obtain ⟨port, -, rfl⟩ := Option.map_eq_some_iff.mp hv
    exact decide_eq_true (Bytes.length_toBE 2 port.toNat)
  | hasPayload =>
    cases hv
    cases hp : f.hasPayload <;> rfl
  | protocol =>
    cases hv
    simp only [validPostingValue, decodeAscii_encodeAscii (ascii_of_word (protocolWord_protocolText f.protocol)),
      canonicalProtocol_protocolText, decide_true]

end Terms

end C2Hunter
