import C2Hunter.Python

/-!
# Captured packets

The records that pass between the capture parsers, the packet index and the exporter:
`PacketLocator`, `CaptureInterface`, `ExportPacket` of `pcap_export.py` and the entries of
`pcap_index.py`.

An export packet is either unsupported, and then has none of the decoded fields, or
supported, and then has all of them but possibly the ports. The source keeps this in
eight nullable attributes; here it is one optional `PacketFields`.
-/

namespace C2Hunter

/-- `PcapParseError`. -/
structure PcapParseError where
  message : String
  code : String := "INVALID_PCAP"
  deriving DecidableEq, Repr

/-- `CaptureFormat`. -/
inductive CaptureFormat where
  | pcap
  | pcapng
  deriving DecidableEq, Repr

/-- `Direction`. -/
inductive Direction where
  | inbound
  | outbound
  | unknown
  deriving DecidableEq, Repr

/-- The text of a direction. -/
def Direction.text : Direction → String
  | inbound => "INBOUND"
  | outbound => "OUTBOUND"
  | unknown => "UNKNOWN"

/-- The text that names an IP protocol number. -/
def protocolText (number : UInt8) : String :=
  if number = 1 then "ICMP"
  else if number = 6 then "TCP"
  else if number = 17 then "UDP"
  else if number = 58 then "ICMPV6"
  else "IP_" ++ toString number.toNat

/-- A 16-bit port number. -/
abbrev Port : Type := UInt16

/-- What the network and transport headers of a supported packet say. -/
structure PacketFields where
  sourceIp : IPAddress
  destinationIp : IPAddress
  sourcePort : Option Port
  destinationPort : Option Port
  /-- the protocol number; the source stores its text -/
  protocol : UInt8
  direction : Direction
  hasPayload : Bool
  deriving DecidableEq

/-- `CaptureInterface`; `StructuralInterfaceEntry` has the same fields. -/
structure CaptureInterface where
  sectionIndex : Nat
  interfaceId : Nat
  interfaceOrdinal : Nat
  linkType : Nat
  snaplen : Nat
  timestampResolutionNumerator : Nat
  timestampResolutionDenominator : Nat
  timestampOffsetSeconds : Int
  deriving DecidableEq, Repr

/-- `PacketLocator`. -/
structure PacketLocator where
  sourceId : String
  sourceOrder : Nat
  packetIndex : Nat
  recordOffset : Nat
  dataOffset : Nat
  capturedLength : Nat
  framedLength : Nat
  deriving DecidableEq, Repr

/-- `ExportPacket`. -/
structure ExportPacket where
  timestamp : DateTime
  /-- `none` for an unsupported packet -/
  fields : Option PacketFields
  rawPacketBytes : Bytes
  locator : PacketLocator
  interface : CaptureInterface
  originalLength : Nat
  deriving DecidableEq

/-- `packet.supported`. -/
def ExportPacket.supported (p : ExportPacket) : Bool := p.fields.isSome

/-- `StructuralPacketEntry`. -/
structure StructuralPacketEntry where
  packetIndex : Nat
  recordOffset : Nat
  dataOffset : Nat
  capturedLength : Nat
  originalLength : Nat
  framedLength : Nat
  sectionIndex : Nat
  interfaceId : Nat
  interfaceOrdinal : Nat
  rawTimestampTicks : Nat
  deriving DecidableEq, Repr

/-- `StructuralInterfaceEntry`. -/
abbrev StructuralInterfaceEntry : Type := CaptureInterface

end C2Hunter
