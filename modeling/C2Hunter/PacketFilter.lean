import C2Hunter.Outcome
import C2Hunter.Packet
import C2Hunter.Table

/-!
# Packet predicates

The filter of an export request: `compile_packet_predicate` of `pcap.py` with the group
filters of `flow_review.py`, and the per-packet test `CompiledPacketPredicate.matches`.

* `RequestValue` — the values of a request, as far as the code looks at them.
* `PacketGroup`, `normalizeFilter` — one include or exclude group; all its conditions
  must hold.
* `CompiledPacketPredicate`, `compilePacketPredicate` — the compiled request.
* `CompiledPacketPredicate.matches` — the test. It is applied to supported packets only,
  so it takes their decoded fields. It raises when a naive and an aware time are compared
  and when an internal network does not parse.
* `matches_eq_ok_true` — what a packet that passes the test satisfies.
-/

namespace C2Hunter

/-! ## Values of a request -/

/-- A value of a request. -/
inductive RequestValue where
  | none
  | bool (value : Bool)
  | int (value : Int)
  | text (value : String)
  /-- a float, list or mapping: it prints as some text, and `int` of it may be defined -/
  | other (text : String) (nonempty : text ≠ "") (truthy : Bool) (asInt : Option Int)

/-- What compiling or matching raises. -/
inductive FilterError where
  | value (message : String)
  | type
  deriving DecidableEq, Repr

namespace RequestValue

/-- `str(value)`. -/
def str : RequestValue → String
  | none => "None"
  | bool true => "True"
  | bool false => "False"
  | int n => toString n
  | text s => s
  | other s _ _ _ => s

/-- The truth value. -/
def truthy : RequestValue → Bool
  | none => false
  | bool b => b
  | int n => n ≠ 0
  | text s => s ≠ ""
  | other _ _ t _ => t

/-- `int(value)`. -/
def toInt (py : Python) : RequestValue → Except FilterError Int
  | none => .error .type
  | bool b => .ok (if b then 1 else 0)
  | int n => .ok n
  | text s =>
    match py.intOfText s with
    | some n => .ok n
    | Option.none => .error (.value "invalid literal for int() with base 10")
  | other _ _ _ (some n) => .ok n
  | other _ _ _ Option.none => .error .type

/-- `value is not None`. -/
def isNotNone : RequestValue → Bool
  | none => false
  | _ => true

end RequestValue

/-- The mapping of a filter group, as it arrives. -/
abbrev RequestGroup : Type := Dict String RequestValue

/-- The mapping of a request; a field that is absent is `none`, as `get` returns it. -/
structure PacketRequest where
  candidateIp : RequestValue := .none
  internalHostIp : RequestValue := .none
  startTime : RequestValue := .none
  endTime : RequestValue := .none
  port : RequestValue := .none
  protocol : RequestValue := .none
  direction : RequestValue := .none
  sensorId : RequestValue := .none
  includeFilters : List RequestGroup := []
  excludeFilters : List RequestGroup := []

/-! ## Filter groups -/

/-- The result of `_normalize_filter`. -/
structure PacketGroup where
  endpointNetwork : Option IPNetwork
  direction : Option String
  protocol : Option String
  port : Option Int
  sourcePort : Option Int
  destinationPort : Option Int
  hasPayload : Option Bool
  deriving DecidableEq

/-- The keys that a group may have. -/
def allowedConditions : List String :=
  ["candidate_ip", "direction", "protocol", "port", "source_port", "destination_port",
    "has_payload"]

section Normalize

variable (py : Python)

/-- `str(flow_filter.get(key, "")).strip() or None`. -/
def groupText (g : RequestGroup) (key : String) : Option String :=
  let text := py.strip (match g.get? key with
    | some entry => entry.2.str
    | none => "")
  if text = "" then none else some text

/-- The port condition under a key; the check that `_normalize_filter` makes for all three
keys before it uses them. -/
def groupPort (g : RequestGroup) (key : String) : Except FilterError (Option Int) :=
  match (g.get? key).map Prod.snd with
  | none | some .none => .ok none
  | some (.int n) =>
    if 0 ≤ n ∧ n ≤ 65535 then .ok (some n)
    else .error (.value "flow port must be between 0 and 65535")
  | some _ => .error (.value "flow port must be between 0 and 65535")

/-- The payload condition. -/
def groupPayload (g : RequestGroup) : Except FilterError (Option Bool) :=
  match (g.get? "has_payload").map Prod.snd with
  | none | some .none => .ok none
  | some (.bool b) => .ok (some b)
  | some _ => .error (.value "has_payload must be boolean")

/-- `ip_network(candidate_ip, strict=False) if candidate_ip else None`. -/
def optionalNetwork (text : Option String) : Except FilterError (Option IPNetwork) :=
  match text with
  | none => .ok none
  | some text =>
    match py.ipNetwork text with
    | some network => .ok (some network)
    | none => .error (.value "value does not appear to be an IPv4 or IPv6 network")

/-- `_normalize_filter`. -/
def normalizeFilter (g : RequestGroup) : Except FilterError PacketGroup := do
  if g.keys = [] ∨ ∃ key ∈ g.keys, key ∉ allowedConditions then
    .error (.value "flow filter must contain supported conditions")
  let candidateIp := groupText py g "candidate_ip"
  let direction := groupText py g "direction"
  let protocol := groupText py g "protocol"
  if ∃ d ∈ direction, py.upper d ∉ ["INBOUND", "OUTBOUND", "BIDIRECTIONAL", "UNKNOWN"] then
    .error (.value "unsupported flow direction")
  if ∃ p ∈ protocol, p.length > 32 then .error (.value "flow protocol is too long")
  let port ← groupPort g "port"
  let sourcePort ← groupPort g "source_port"
  let destinationPort ← groupPort g "destination_port"
  let hasPayload ← groupPayload g
  let endpointNetwork ← optionalNetwork py candidateIp
  if endpointNetwork = none ∧ direction = none ∧ protocol = none ∧ port = none ∧
      sourcePort = none ∧ destinationPort = none ∧ hasPayload = none then
    .error (.value "flow filter must contain an active condition")
  return ⟨endpointNetwork, direction, protocol, port, sourcePort, destinationPort, hasPayload⟩

end Normalize

/-! ## The predicate -/

/-- `CompiledPacketPredicate`. -/
structure CompiledPacketPredicate where
  candidateIp : Option String
  internalHostIp : Option String
  start : Option DateTime
  stop : Option DateTime
  port : Option Int
  protocol : Option String
  direction : Option String
  sensor : Option String
  internalNetworks : List String
  includeFilters : List PacketGroup
  excludeFilters : List PacketGroup
  deriving DecidableEq

section Compile

variable (py : Python)

/-- `str(v) if v is not None else None`. -/
def optionalText (v : RequestValue) : Option String := if v.isNotNone then some v.str else none

/-- `datetime.fromisoformat(str(v)) if v else None`. -/
def optionalTime (v : RequestValue) : Except FilterError (Option DateTime) :=
  if ¬v.truthy then .ok none
  else
    match py.fromisoformat v.str with
    | some t => .ok (some t)
    | none => .error (.value "Invalid isoformat string")

/-- `int(v) if v is not None else None`. -/
def optionalInt (v : RequestValue) : Except FilterError (Option Int) :=
  if v.isNotNone then some <$> v.toInt py else .ok none

/-- `compile_packet_predicate`. -/
def compilePacketPredicate (filters : PacketRequest) (internalNetworks : List String) :
    Except FilterError CompiledPacketPredicate := do
  let includes ← filters.includeFilters.mapM (normalizeFilter py)
  let excludes ← filters.excludeFilters.mapM (normalizeFilter py)
  let start ← optionalTime py filters.startTime
  let stop ← optionalTime py filters.endTime
  let port ← optionalInt py filters.port
  return {
    candidateIp := optionalText filters.candidateIp
    internalHostIp := optionalText filters.internalHostIp
    start := start
    stop := stop
    port := port
    protocol := if filters.protocol.truthy then some (py.upper filters.protocol.str) else none
    direction := if filters.direction.truthy then some filters.direction.str else none
    sensor := if filters.sensorId.truthy then some filters.sensorId.str else none
    internalNetworks := internalNetworks
    includeFilters := includes
    excludeFilters := excludes }

end Compile

/-! ## The test -/

section Matches

variable (py : Python)

/-- `any(address in ip_network(network, strict=False) for network in networks)`. -/
def anyNetworkContains (address : IPAddress) : List String → Except FilterError Bool
  | [] => .ok false
  | text :: networks =>
    match py.ipNetwork text with
    | none => .error (.value "value does not appear to be an IPv4 or IPv6 network")
    | some network =>
      if network.contains address then .ok true else anyNetworkContains address networks

/-- `_is_internal`. -/
def isInternal (value : String) (networks : List String) : Except FilterError Bool :=
  match py.ipAddress value with
  | none => .error (.value "value does not appear to be an IPv4 or IPv6 address")
  | some address => anyNetworkContains py address networks

/-- The view of a packet that the groups are matched against. -/
structure PacketView where
  sourceIp : String
  destinationIp : String
  sourcePort : Option Port
  destinationPort : Option Port
  protocol : String
  direction : String
  servicePort : Option Port
  hasPayload : Bool

/-- `port is not None and flow.get(..) != port`, negated. -/
def portMatches (condition : Option Int) (port : Option Port) : Bool :=
  match condition with
  | none => true
  | some n => port.map (fun p => (p.toNat : Int)) = some n

/-- `any(ip_address(str(flow[field])) in endpoint_network for field in ..)`. -/
def endpointMatches (network : IPNetwork) : List String → Except FilterError Bool
  | [] => .ok false
  | text :: rest =>
    match py.ipAddress text with
    | none => .error (.value "value does not appear to be an IPv4 or IPv6 address")
    | some address => if network.contains address then .ok true else endpointMatches network rest

/-- The condition of a group on the addresses. -/
def networkMatches (network : Option IPNetwork) (flow : PacketView) : Except FilterError Bool :=
  match network with
  | none => .ok true
  | some network => endpointMatches py network [flow.sourceIp, flow.destinationIp]

/-- `_matches_filter`. -/
def matchesFilter (flow : PacketView) (g : PacketGroup) : Except FilterError Bool := do
  let endpoint ← networkMatches py g.endpointNetwork flow
  if ¬endpoint then return false
  if ∃ d ∈ g.direction, py.upper flow.direction ≠ py.upper d then return false
  if ∃ p ∈ g.protocol, py.upper flow.protocol ≠ py.upper p then return false
  if ¬portMatches g.port flow.servicePort then return false
  if ¬portMatches g.sourcePort flow.sourcePort then return false
  if ¬portMatches g.destinationPort flow.destinationPort then return false
  return ∀ b ∈ g.hasPayload, flow.hasPayload = b

/-- `any(_matches_filter(view, **packet_filter) for packet_filter in groups)`. -/
def anyGroupMatches (flow : PacketView) : List PacketGroup → Except FilterError Bool
  | [] => .ok false
  | g :: groups => do
    if ← matchesFilter py flow g then return true
    anyGroupMatches flow groups

/-- `not include_filters or any(..)`. -/
def includeMatches (flow : PacketView) (groups : List PacketGroup) : Except FilterError Bool :=
  if groups.isEmpty then .ok true else anyGroupMatches py flow groups

/-- The service port of `matches_compiled_packet_groups`. -/
def servicePort (f : PacketFields) (internalNetworks : List String) :
    Except FilterError (Option Port) := do
  let direction := py.upper f.direction.text
  if direction = "OUTBOUND" then return f.destinationPort
  if direction = "INBOUND" then return f.sourcePort
  let sourceInternal ← isInternal py (py.ipText f.sourceIp) internalNetworks
  let destinationInternal ← isInternal py (py.ipText f.destinationIp) internalNetworks
  if sourceInternal ≠ destinationInternal then
    return if sourceInternal then f.destinationPort else f.sourcePort
  return none

/-- The `view` of `matches_compiled_packet_groups`. -/
def packetView (f : PacketFields) (servicePort : Option Port) : PacketView where
  sourceIp := py.ipText f.sourceIp
  destinationIp := py.ipText f.destinationIp
  sourcePort := f.sourcePort
  destinationPort := f.destinationPort
  protocol := protocolText f.protocol
  direction := py.upper f.direction.text
  servicePort := servicePort
  hasPayload := f.hasPayload

/-- `matches_compiled_packet_groups`. -/
def matchesCompiledPacketGroups (f : PacketFields) (internalNetworks : List String)
    (includeFilters excludeFilters : List PacketGroup) : Except FilterError Bool := do
  let servicePort ← servicePort py f internalNetworks
  let view := packetView py f servicePort
  let includeMatch ← includeMatches py view includeFilters
  let excludeMatch ← anyGroupMatches py view excludeFilters
  return includeMatch && !excludeMatch

/-- `a < b` of instants. -/
def timeLt (a b : DateTime) : Except FilterError Bool :=
  match a.lt? b with
  | some r => .ok r
  | none => .error .type

/-- `(self.start and timestamp < self.start) or (self.end and timestamp > self.end)`. -/
def outsideWindow (start stop : Option DateTime) (timestamp : DateTime) :
    Except FilterError Bool := do
  let early ← match start with
    | none => .ok false
    | some start => timeLt timestamp start
  if early then return true
  match stop with
  | none => return false
  | some stop => timeLt stop timestamp

/-- `CompiledPacketPredicate.matches`, on a supported packet. -/
def CompiledPacketPredicate.matches (p : CompiledPacketPredicate) (timestamp : DateTime)
    (f : PacketFields) (sensorId : String) : Except FilterError Bool := do
  let sourceIp := py.ipText f.sourceIp
  let destinationIp := py.ipText f.destinationIp
  if p.candidateIp ∉ [none, some sourceIp, some destinationIp] then return false
  if p.internalHostIp ∉ [none, some sourceIp, some destinationIp] then return false
  if ← outsideWindow p.start p.stop timestamp then return false
  if p.port ∉ [none, f.sourcePort.map (fun q => (q.toNat : Int)),
      f.destinationPort.map (fun q => (q.toNat : Int))] then return false
  if ∃ q ∈ p.protocol, q ≠ "" ∧ py.upper (protocolText f.protocol) ≠ q then return false
  if ∃ d ∈ p.direction, d ≠ "" ∧ f.direction.text ≠ d then return false
  if ∃ s ∈ p.sensor, s ≠ "" ∧ sensorId ≠ s then return false
  matchesCompiledPacketGroups py f p.internalNetworks p.includeFilters p.excludeFilters

end Matches

/-! ## What a packet that matches satisfies -/

section Meaning

variable {py : Python} {f : PacketFields}

/-- The conditions of a group on a packet. -/
structure GroupHolds (py : Python) (f : PacketFields) (servicePort : Option Port)
    (g : PacketGroup) : Prop where
  endpoint : ∀ n ∈ g.endpointNetwork, n.contains f.sourceIp = true ∨ n.contains f.destinationIp = true
  direction : ∀ d ∈ g.direction, py.upper (py.upper f.direction.text) = py.upper d
  protocol : ∀ p ∈ g.protocol, py.upper (protocolText f.protocol) = py.upper p
  port : portMatches g.port servicePort = true
  sourcePort : portMatches g.sourcePort f.sourcePort = true
  destinationPort : portMatches g.destinationPort f.destinationPort = true
  hasPayload : ∀ b ∈ g.hasPayload, f.hasPayload = b

theorem networkMatches_eq (network : Option IPNetwork) (sp : Option Port) :
    networkMatches py network (packetView py f sp) =
      .ok (decide (∀ n ∈ network, n.contains f.sourceIp = true ∨ n.contains f.destinationIp = true)) := by
  cases network with
  | none => simp [networkMatches]
  | some n =>
    simp only [networkMatches, endpointMatches, packetView, py.ipAddress_text]
    by_cases hs : n.contains f.sourceIp = true
    · simp [hs]
    · by_cases hd : n.contains f.destinationIp = true
      · simp [hs, hd]
      · simp [hs, hd]

variable {sp : Option Port}

theorem matchesFilter_eq_ok_true {g : PacketGroup} :
    matchesFilter py (packetView py f sp) g = .ok true ↔ GroupHolds py f sp g := by
  simp only [matchesFilter, networkMatches_eq, Except.bind_eq_ok, Except.ok.injEq,
    exists_eq_left', Except.exit_eq_ok_true, Except.pure_eq_ok, decide_eq_true_eq, not_not,
    not_exists, not_and]
  constructor
  · rintro ⟨h1, h2, h3, h4, h5, h6, h7⟩
    exact ⟨h1, h2, h3, h4, h5, h6, h7⟩
  · rintro ⟨h1, h2, h3, h4, h5, h6, h7⟩
    exact ⟨h1, h2, h3, h4, h5, h6, h7⟩

/-- Matching a group never raises: the addresses of a packet parse. -/
theorem matchesFilter_eq_ok {g : PacketGroup} {b : Bool} :
    matchesFilter py (packetView py f sp) g = .ok b ↔ (b = true ↔ GroupHolds py f sp g) := by
  obtain ⟨c, hc⟩ : ∃ c, matchesFilter py (packetView py f sp) g = .ok c := by
    simp only [matchesFilter, networkMatches_eq, Except.bind_eq_ok, Except.ok.injEq,
      exists_eq_left', Except.pure_eq_ok]
    split_ifs
    all_goals exact ⟨_, rfl⟩
  rw [← matchesFilter_eq_ok_true, hc]
  cases b <;> cases c <;> simp

theorem anyGroupMatches_eq_ok {groups : List PacketGroup} {b : Bool} :
    anyGroupMatches py (packetView py f sp) groups = .ok b ↔ (b = true ↔ ∃ g ∈ groups, GroupHolds py f sp g) := by
  induction groups with
  | nil => cases b <;> simp [anyGroupMatches]
  | cons g groups ih =>
    rw [anyGroupMatches, Except.bind_eq_ok]
    simp only [matchesFilter_eq_ok, List.exists_mem_cons_iff]
    by_cases hg : GroupHolds py f sp g
    · cases b <;> simp [hg, Except.pure_eq_ok]
    · simpa [hg] using ih

theorem servicePort_cases {networks : List String} (h : servicePort py f networks = .ok sp) :
    sp = none ∨ sp = f.sourcePort ∨ sp = f.destinationPort := by
  simp only [servicePort, Except.pure_eq_ok] at h
  split at h
  · cases h
    exact .inr (.inr rfl)
  split at h
  · cases h
    exact .inr (.inl rfl)
  simp only [Except.bind_eq_ok] at h
  obtain ⟨si, -, di, -, h⟩ := h
  split at h
  · cases h
    cases si
    · exact .inr (.inl rfl)
    · exact .inr (.inr rfl)
  · cases h
    exact .inl rfl

theorem matchesCompiledPacketGroups_eq_ok_true {networks : List String}
    {includes excludes : List PacketGroup} :
    matchesCompiledPacketGroups py f networks includes excludes = .ok true ↔
      ∃ sp, servicePort py f networks = .ok sp ∧ (includes = [] ∨ ∃ g ∈ includes, GroupHolds py f sp g) ∧
        ∀ g ∈ excludes, ¬GroupHolds py f sp g := by
  have hinclude : ∀ {sp : Option Port} {b : Bool}, includeMatches py (packetView py f sp) includes = .ok b ↔
        (b = true ↔ includes = [] ∨ ∃ g ∈ includes, GroupHolds py f sp g) := by
    intro sp b
    cases includes with
    | nil => cases b <;> simp [includeMatches]
    | cons =>
      simp only [includeMatches, List.isEmpty_cons, Bool.false_eq_true, if_false,
        anyGroupMatches_eq_ok, reduceCtorEq, false_or]
  rw [matchesCompiledPacketGroups, Except.bind_eq_ok]
  refine exists_congr fun sp => and_congr_right fun _ => ?_
  simp only [Except.bind_eq_ok, hinclude, anyGroupMatches_eq_ok, Except.pure_eq_ok,
    Except.ok.injEq, Bool.and_eq_true, Bool.not_eq_true']
  constructor
  · rintro ⟨b, hb, c, hc, rfl, rfl⟩
    refine ⟨hb.mp rfl, fun g hg hholds => ?_⟩
    exact absurd (hc.mpr ⟨g, hg, hholds⟩) Bool.false_ne_true
  · rintro ⟨hin, hex⟩
    refine ⟨true, iff_of_true rfl hin, false, iff_of_false Bool.false_ne_true ?_, rfl, rfl⟩
    rintro ⟨g, hg, hholds⟩
    exact hex g hg hholds

/-- What the test says about a packet. -/
theorem matches_eq_ok_true {p : CompiledPacketPredicate} {timestamp : DateTime}
    {sensorId : String} :
    p.matches py timestamp f sensorId = .ok true ↔
      p.candidateIp ∈ [none, some (py.ipText f.sourceIp), some (py.ipText f.destinationIp)] ∧
      p.internalHostIp ∈ [none, some (py.ipText f.sourceIp), some (py.ipText f.destinationIp)] ∧
      outsideWindow p.start p.stop timestamp = .ok false ∧
      p.port ∈ [none, f.sourcePort.map (fun q => (q.toNat : Int)),
        f.destinationPort.map (fun q => (q.toNat : Int))] ∧
      (∀ q ∈ p.protocol, q ≠ "" → py.upper (protocolText f.protocol) = q) ∧
      (∀ d ∈ p.direction, d ≠ "" → f.direction.text = d) ∧
      (∀ s ∈ p.sensor, s ≠ "" → sensorId = s) ∧
      ∃ sp, servicePort py f p.internalNetworks = .ok sp ∧
        (p.includeFilters = [] ∨ ∃ g ∈ p.includeFilters, GroupHolds py f sp g) ∧
        ∀ g ∈ p.excludeFilters, ¬GroupHolds py f sp g := by
  simp only [CompiledPacketPredicate.matches, Except.pure_eq_ok, Except.exit_eq_ok_true,
    Except.bind_eq_ok, not_not, not_exists, not_and, matchesCompiledPacketGroups_eq_ok_true]
  refine and_congr_right fun _ => and_congr_right fun _ => ?_
  constructor
  · rintro ⟨b, hb, hfalse, hrest⟩
    rw [Bool.eq_false_of_not_eq_true hfalse] at hb
    exact ⟨hb, hrest⟩
  · rintro ⟨hb, hrest⟩
    exact ⟨false, hb, Bool.false_ne_true, hrest⟩

end Meaning

end C2Hunter
