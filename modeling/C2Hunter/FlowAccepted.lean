import C2Hunter.FlowSummary
import C2Hunter.FlowRecord

/-!
# The controller and the records of a sensor

Which of the records that an aggregator returns does the controller accept? For a flow of at most 365
days and fewer than `2 ^ 32` packets, all those whose packets have at most 65535 bytes on average, and
no others. A record says nothing of its link layer, so that an IP packet of the largest size in an
Ethernet frame is beyond that.

* `accepted_iff` — which records are accepted.
* `fullFrame_rejected` — the largest IP packet, alone in its flow.
-/

namespace C2Hunter.Aggregate

open List

open Ddos (Sample Semantic Value)
open Ddos.Sensor (Protocol TCPFlags ddosSample simHashText)

/-! ## Digits and hashes -/

variable {ps : List Packet} {previewBytes : Nat}

section

variable {n : Nat} {payload : Bytes}

theorem isLowerHex_digitChar (h : n < 16) : isLowerHex (Nat.digitChar n) = true := by
  have hall : ∀ n < 16, isLowerHex (Nat.digitChar n) = true := by decide
  exact hall n h

theorem isLowerHex_of_mem_toDigits {c : Char} (h : c ∈ Nat.toDigits 16 n) : isLowerHex c = true := by
  induction n using Nat.strongRecOn with
  | ind n ih =>
    by_cases hn : n < 16
    · rw [Nat.toDigits_of_lt_base hn, mem_singleton] at h
      rw [h]
      exact isLowerHex_digitChar hn
    · rw [Nat.toDigits_of_base_le (by decide) (by omega), mem_append, mem_singleton] at h
      rcases h with h | rfl
      · exact ih (n / 16) (by omega) h
      · exact isLowerHex_digitChar (Nat.mod_lt _ (by decide))

theorem hex16_length (h : n < 2 ^ 64) : (Ddos.hex16 n).length = 16 := by
  have hle := (Nat.length_toDigits_le_iff (b := 16) (n := n) (k := 16) (by decide) (by decide)).mpr
    (by norm_num; omega)
  rw [Ddos.hex16, String.length_ofList, length_append, length_replicate]
  omega

theorem hex16_isLowerHex (n : Nat) : (Ddos.hex16 n).toList.all isLowerHex = true := by
  rw [Ddos.hex16, String.toList_ofList, all_append, Bool.and_eq_true, all_eq_true, all_eq_true]
  refine ⟨fun c hc => ?_, fun c hc => isLowerHex_of_mem_toDigits hc⟩
  rw [eq_of_mem_replicate hc]
  decide

theorem hex_length (data : Bytes) : (hex data).length = 2 * data.length := by
  rw [hex, String.length_ofList]
  induction data with
  | nil => rfl
  | cons b data ih =>
    rw [flatMap_cons, length_append, ih]
    simp only [length_cons, length_nil]
    omega

theorem isHexText_hex {data : Bytes} (h : data ≠ []) : isHexText (hex data) = true := by
  have hlength := hex_length data
  have hdigit : ∀ n < 16, "0123456789abcdefABCDEF".toList.contains (Nat.digitChar n) = true := by decide
  rw [isHexText, Bool.and_eq_true, Bool.and_eq_true, decide_eq_true_eq, decide_eq_true_eq, all_eq_true]
  refine ⟨⟨fun hempty => ?_, by omega⟩, fun c hc => ?_⟩
  · rw [hempty] at hlength
    exact h (by simpa using hlength)
  · rw [hex, String.toList_ofList, mem_flatMap] at hc
    obtain ⟨b, -, hc⟩ := hc
    have hb := b.toNat_lt
    simp only [mem_cons, not_mem_nil, or_false] at hc
    rcases hc with rfl | rfl
    · exact hdigit _ (by omega)
    · exact hdigit _ (by omega)

/-! ## Features of a payload -/

theorem round4_bounds {K : Type} [Field K] [LinearOrder K] [IsStrictOrderedRing K] [FloorRing K]
    {x : K} (h0 : 0 ≤ x) (hn : x ≤ n) : 0 ≤ round4 x ∧ round4 x ≤ n := by
  have hlow : (0 : Int) ≤ round (x * 10000) := by
    rw [round_eq]
    exact Int.floor_nonneg.mpr (by positivity)
  have hhigh : round (x * 10000) ≤ (n * 10000 : Int) := by
    rw [round_eq, Int.floor_le_iff]
    push_cast
    linarith
  constructor
  · rw [round4]
    exact div_nonneg (by exact_mod_cast hlow) (by norm_num)
  · rw [round4, div_le_iff₀ (by norm_num)]
    exact_mod_cast hhigh

theorem entropy_bounds (lib : Lib) (h : payload ≠ []) : 0 ≤ lib.entropy payload ∧ lib.entropy payload ≤ 8 := by
  obtain ⟨b, rest, rfl⟩ := exists_cons_of_ne_nil h
  have hsum : ∑ j, (byteCounts (b :: rest) j : ℝ) ≠ 0 := by
    refine (Finset.sum_pos' (fun _ _ => Nat.cast_nonneg _) ⟨⟨b.toNat, b.toNat_lt⟩, Finset.mem_univ _, ?_⟩).ne'
    simp [byteCounts]
    positivity
  have hle : Shannon.entropy (byteCounts (b :: rest)) ≤ (8 : Nat) := by
    refine (Shannon.entropy_le hsum).trans_eq ?_
    rw [Fintype.card_fin, show ((256 : Nat) : ℝ) = 2 ^ (8 : Nat) by norm_num, Real.logb_pow,
      Real.logb_self_eq_one (by norm_num), mul_one]
  have hbounds := round4_bounds Shannon.entropy_nonneg hle
  rw [← lib.entropy_eq] at hbounds
  exact ⟨by exact_mod_cast hbounds.1, by exact_mod_cast hbounds.2⟩

theorem printable_bounds (h : payload ≠ []) : 0 ≤ round4 ((payload.countP isPrintable : ℚ) / payload.length) ∧
      round4 ((payload.countP isPrintable : ℚ) / payload.length) ≤ 1 := by
  have hpos := length_pos_of_ne_nil h
  have hle : ((payload.countP isPrintable : ℚ) / payload.length) ≤ (1 : Nat) := by
    rw [div_le_iff₀ (by exact_mod_cast hpos)]
    simpa using countP_le_length
  have hbounds := round4_bounds (by positivity) hle
  exact ⟨hbounds.1, by exact_mod_cast hbounds.2⟩

/-! ## Flags -/

/-- The names under which flags are sent. -/
def flagKeys : List String :=
  ["fin", "syn", "rst", "psh", "ack", "urg", "ece", "cwr", "syn_ack_ratio", "rst_ratio",
    "connection_count"]

/-- A flag that has no error, unless its name is taken. -/
def FlagOk (flag : String × ℚ) : Prop :=
  flag.1 ∈ flagKeys ∧ 0 ≤ flag.2 ∧ flag.2 ≤ 2 ^ 64 - 1 ∧
    (flag.1 ∈ ["rst_ratio", "syn_ack_ratio"] ∨ flag.2.den = 1)

theorem flagName_of_mem {key : String} (h : key ∈ flagKeys) : flagName key = key ∧ key ≠ "" ∧ key.length ≤ 64 := by
  have hall : ∀ key ∈ flagKeys, flagName key = key ∧ key ≠ "" ∧ key.length ≤ 64 := by decide +kernel
  exact hall key h

variable {seen : List String} {name : String}

theorem flagError_eq_none {flag : String × ℚ} (h : FlagOk flag) (hseen : flag.1 ∉ seen) :
    flagError seen flag.1 flag.2 = none := by
  obtain ⟨hkey, hnonneg, hle, hcount⟩ := h
  obtain ⟨hname, hne, hlength⟩ := flagName_of_mem hkey
  rw [flagError, hname]
  have hname' : ¬(flag.1 = "" ∨ 64 < flag.1.length) := by
    rintro (h | h)
    · exact hne h
    · omega
  have hcount' : ¬(flag.1 ∉ ["rst_ratio", "syn_ack_ratio"] ∧ flag.2.den ≠ 1) := by tauto
  simp only [if_neg hname', if_neg hseen, if_neg (not_lt.mpr hnonneg), if_neg (not_lt.mpr hle), if_neg hcount']

theorem flagsError_eq_none {flags : List (String × ℚ)} (h : ∀ flag ∈ flags, FlagOk flag)
    (hnodup : (flags.map Prod.fst).Nodup) (hseen : ∀ flag ∈ flags, flag.1 ∉ seen) :
    flagsError seen flags = none := by
  induction flags generalizing seen with
  | nil => rfl
  | cons flag rest ih =>
    rw [map_cons, nodup_cons] at hnodup
    have hflag := h flag mem_cons_self
    rw [flagsError, flagError_eq_none hflag (hseen flag mem_cons_self)]
    simp only
    refine ih (fun f hf => h f (mem_cons_of_mem _ hf)) hnodup.2 fun f hf => ?_
    rw [(flagName_of_mem hflag.1).1, mem_cons, not_or]
    refine ⟨fun heq => hnodup.1 (heq ▸ mem_map_of_mem hf), ?_⟩
    exact hseen f (mem_cons_of_mem _ hf)

theorem map_fst_tcpFlagsOf (t : Tcp) : ((tcpFlagsOf t).map Prod.fst).Sublist flagKeys := by
  have hoption : ∀ {α : Type} (o : Option α) (name : String) (f : α → ℚ),
      ((o.map fun x => (name, f x)).toList.map Prod.fst).Sublist [name] := by
    intro α o name f
    cases o <;> simp
  have hkeys : flagKeys = ["fin", "syn", "rst", "psh", "ack", "urg", "ece", "cwr"] ++
    ["syn_ack_ratio"] ++ ["rst_ratio"] ++ ["connection_count"] := rfl
  rw [tcpFlagsOf, map_append, map_append, map_append, hkeys]
  refine .append (.append (.append (.refl _) ?_) (hoption _ _ _)) (hoption _ _ _)
  split
  · exact hoption _ _ _
  · exact nil_sublist _

theorem cast_le_of_lt (h : n < 2 ^ 32) : (n : ℚ) ≤ 2 ^ 64 - 1 := by
  have hle : (n : ℚ) ≤ 2 ^ 32 := by exact_mod_cast h.le
  norm_num at hle ⊢
  linarith

theorem flagOk_count (hname : name ∈ flagKeys) (h : n < 2 ^ 32) : FlagOk (name, (n : ℚ)) :=
  ⟨hname, by positivity, cast_le_of_lt h, .inr (Rat.den_natCast n)⟩

theorem flagOk_ratio (hname : name ∈ ["rst_ratio", "syn_ack_ratio"]) (hkey : name ∈ flagKeys) {m : Nat}
    (hn : n < 2 ^ 32) (hm : 0 < m) : FlagOk (name, (n : ℚ) / m) := by
  have hm' : (1 : ℚ) ≤ m := by exact_mod_cast hm
  exact ⟨hkey, by positivity, (div_le_self (by positivity) hm').trans (cast_le_of_lt hn), .inl hname⟩

/-- No flag of a record has an error, if it counts fewer than `2 ^ 32` packets. -/
theorem flagsError_tcpFlagsOf {t : Tcp} (h : FlagsCounted t ps) (hne : ps ≠ []) (hlength : ps.length < 2 ^ 32) :
    flagsError [] (tcpFlagsOf (t.addTcpFlagCombinations ps.length)) = none := by
  have hcount : ∀ f : Packet → Bool, ps.countP f < 2 ^ 32 := fun f =>
    countP_le_length.trans_lt hlength
  refine flagsError_eq_none ?_ ((map_fst_tcpFlagsOf _).nodup (by decide)) (by simp)
  intro flag hflag
  simp only [tcpFlagsOf, Tcp.addTcpFlagCombinations, h.tcpFlags, FlagCounts.ofPackets, flagCountsOf,
    mem_append, h.connectionCount, if_pos (length_pos_of_ne_nil hne)] at hflag
  rcases hflag with ((hflag | hflag) | hflag) | hflag
  · simp only [mem_cons, not_mem_nil, or_false] at hflag
    rcases hflag with rfl | rfl | rfl | rfl | rfl | rfl | rfl | rfl <;>
      exact flagOk_count (by decide) (hcount _)
  · split at hflag
    · next hpos =>
      obtain rfl : flag = _ := by simpa using hflag
      exact flagOk_ratio (by decide) (by decide) (hcount _) hpos.2
    · simp at hflag
  · obtain rfl : flag = _ := by simpa using hflag
    exact flagOk_ratio (by decide) (by decide) (hcount _) (length_pos_of_ne_nil hne)
  · split at hflag
    · obtain rfl : flag = _ := by simpa using hflag
      exact flagOk_count (by decide) (hcount _)
    · simp at hflag

/-! ## What a record keeps of payloads -/

theorem sampleHex_ok (hne : payload ≠ []) (hpos : 0 < previewBytes) (hpreview : previewBytes ≤ 256) :
    let sample := if previewBytes < payload.length then Bytes.slice payload 0 previewBytes else payload
    (hex sample).length ≤ 512 ∧ isHexText (hex sample) = true := by
  have hlength := length_pos_of_ne_nil hne
  intro sample
  have hsample : sample ≠ [] ∧ sample.length ≤ 256 := by
    by_cases h : previewBytes < payload.length
    · rw [show sample = Bytes.slice payload 0 previewBytes from if_pos h, Bytes.slice_zero]
      refine ⟨ne_nil_of_length_pos ?_, ?_⟩
      · rw [length_take]
        omega
      · rw [length_take]
        omega
    · rw [show sample = payload from if_neg h]
      exact ⟨hne, by omega⟩
  rw [hex_length]
  exact ⟨by omega, isHexText_hex hsample.1⟩

theorem simHashText_ok (payload : Bytes) :
    ((simHashText payload).length = 16 && (simHashText payload).toList.all isLowerHex) = true := by
  rw [simHashText, Bool.and_eq_true, decide_eq_true_eq]
  exact ⟨hex16_length (UInt64.toNat_lt _), hex16_isLowerHex _⟩

end

/-- The constraints on what is kept of payloads. -/
structure PayloadOk (l : Payload) : Prop where
  last : optionally (omitEmpty l.lastPayloadHash) Ddos.isHash = true
  prefixHash : optionally (omitEmpty l.payloadPrefixHash) Ddos.isHash = true
  sampleLength : optionally (omitEmpty l.payloadSampleHex) (fun s => s.length ≤ 512) = true
  sample : optionally (omitEmpty l.payloadSampleHex) isHexText = true
  entropy : l.firstPayloadHash ≠ "" → 0 ≤ l.payloadEntropy ∧ l.payloadEntropy ≤ 8
  printable : l.firstPayloadHash ≠ "" → 0 ≤ l.payloadPrintable ∧ l.payloadPrintable ≤ 1
  simHash : optionally (omitEmpty l.payloadSimHash)
    (fun s => s.length = 16 && s.toList.all isLowerHex) = true
  version : optionally (omitEmpty l.payloadFeatureVersion)
    (fun s => 1 ≤ s.length && s.length ≤ 8 && s.toList.all Char.isDigit) = true

theorem optionally_omitEmpty {text : String} {holds : String → Bool} (h : holds text = true) :
    optionally (omitEmpty text) holds = true := by
  rw [omitEmpty]
  split
  · rfl
  · exact h

theorem PayloadTracked.ok {lib : Lib} {l : Payload}
    (h : PayloadTracked lib previewBytes l ps) (hpreview : previewBytes ≤ 256) : PayloadOk l := by
  rcases h.kept with rfl | ⟨payload, last, hpayload, hlast, hl⟩
  · exact ⟨rfl, rfl, rfl, rfl, fun h => absurd rfl h, fun h => absurd rfl h, rfl, rfl⟩
  generalize l.payloadPacketCount = count at hl
  subst hl
  simp only [Payload.holding, Payload.first, computeFeatures, length_eq_zero_iff, if_neg hpayload, if_neg hlast]
  refine ⟨optionally_omitEmpty (lib.isHash_sha256 last), optionally_omitEmpty (lib.isHash_sha256 _), ?_, ?_,
    fun _ => entropy_bounds lib hpayload, fun _ => printable_bounds hpayload,
    optionally_omitEmpty (simHashText_ok payload), ?_⟩ <;> dsimp only
  · split
    · next hpos => exact optionally_omitEmpty (decide_eq_true (sampleHex_ok hpayload hpos hpreview).1)
    · rfl
  · split
    · next hpos => exact optionally_omitEmpty (sampleHex_ok hpayload hpos hpreview).2
    · rfl
  · decide

/-! ## Durations -/

/-- The longest flow that the controller accepts, in nanoseconds. -/
def maxDuration : Int := 365 * 24 * 60 * 60 * 1000000000

theorem durationOf_eq {r : Record} (hstart : r.startTime ≤ r.endTime)
    (hlasts : r.endTime - r.startTime ≤ maxDuration) :
    durationOf r = (r.endTime - r.startTime : Int) / 1000000000 := by
  have hsub : sub r.endTime r.startTime = r.endTime - r.startTime := by
    rw [sub]
    simp only [maxDuration] at hlasts
    omega
  have hnonneg : (0 : ℚ) ≤ ((r.endTime - r.startTime : Int) : ℚ) := by exact_mod_cast sub_nonneg.mpr hstart
  rw [durationOf, hsub, max_eq_right (by positivity)]

theorem floor_le_roundHalfEven (q : ℚ) : ⌊q⌋ ≤ roundHalfEven q := by
  rw [roundHalfEven]
  split_ifs <;> omega

/-- The microseconds of a duration that was printed in seconds. -/
theorem seconds_mul (d : Int) : ((d : ℚ) / 1000000000) * 1000000 = (d : ℚ) / 1000 := by
  ring

/-- An offset within a flow is not after its rounded duration. -/
theorem le_roundHalfEven {offset : Nat} {d : Int} (h : (offset : Int) * 1000 ≤ d) :
    (offset : Int) ≤ roundHalfEven ((d : ℚ) / 1000000000 * 1000000) := by
  rw [seconds_mul]
  refine le_trans ?_ (floor_le_roundHalfEven _)
  rw [Int.le_floor, le_div_iff₀ (by norm_num)]
  exact_mod_cast h

/-- A packet within a flow is within the interval that the controller derives. -/
theorem mem_packetIntervalUs {start stop t : Int} (hstart : start ≤ t) (hstop : t ≤ stop) :
    start / 1000 ≤ t / 1000 ∧ t / 1000 ≤ start / 1000 + ⌈((stop - start : Int) : ℚ) / 1000000000 * 1000000⌉ := by
  refine ⟨by omega, ?_⟩
  have hspan : t / 1000 - start / 1000 ≤ ⌈((stop - start : Int) : ℚ) / 1000000000 * 1000000⌉ := by
    rw [seconds_mul, Int.le_ceil_iff, lt_div_iff₀ (by norm_num)]
    have hint : (t / 1000 - start / 1000 - 1) * 1000 < stop - start := by omega
    exact_mod_cast hint
  omega

/-! ## Evidence -/

/-- What a sample says agrees with the ports of its packet. -/
structure SemanticOk (semantic : Semantic) (transaction : Option String) (src dst : UInt16) : Prop where
  hash : ∀ token ∈ transaction, Ddos.isHash token = true
  plain : semantic.servicePort = none → transaction = none
  port : ∀ service ∈ semantic.servicePort,
    (if semantic.isResponse then src else dst).toNat = service ∧ (service = 53 → transaction.isSome)

namespace SemanticOk

variable {src dst : UInt16}

theorem unknown : SemanticOk .unknown none src dst :=
  ⟨by simp, fun _ => rfl, by simp [Semantic.servicePort]⟩

theorem other : SemanticOk .other none src dst :=
  ⟨by simp, fun _ => rfl, by simp [Semantic.servicePort]⟩

theorem dns (lib : Lib) (payload : Bytes) : SemanticOk (Ddos.Sensor.dnsSemantics lib.sha256 payload src dst).1
      (Ddos.Sensor.dnsSemantics lib.sha256 payload src dst).2 src dst := by
  rw [Ddos.Sensor.dnsSemantics]
  split
  · exact unknown
  split
  · exact unknown
  split
  · exact unknown
  split
  · exact unknown
  split
  · exact unknown
  split
  · exact unknown
  simp only
  split
  · exact unknown
  next hports =>
  rw [not_or] at hports
  have hhash : ∀ data, ∀ token ∈ some (lib.sha256 data), Ddos.isHash token = true := by
    intro data token htoken
    cases htoken
    exact lib.isHash_sha256 data
  split
  · next hresponse =>
    have hsrc : src = 53 := by_contra fun hne => hports.1 ⟨hresponse, hne⟩
    refine ⟨hhash _, by simp [Semantic.servicePort], ?_⟩
    simp [Semantic.servicePort, Semantic.isResponse, hsrc]
  · next hresponse =>
    have hdst : dst = 53 := by_contra fun hne => hports.2 ⟨hresponse, hne⟩
    refine ⟨hhash _, by simp [Semantic.servicePort], ?_⟩
    simp [Semantic.servicePort, Semantic.isResponse, hdst]

theorem hash_firstNonzero (lib : Lib) (rest raw : Bytes) :
    ∀ token ∈ Ddos.Sensor.firstNonzero lib.sha256 rest raw, Ddos.isHash token = true := by
  induction rest with
  | nil => simp [Ddos.Sensor.firstNonzero]
  | cons b rest ih =>
    rw [Ddos.Sensor.firstNonzero]
    split
    · intro token htoken
      cases htoken
      exact lib.isHash_sha256 raw
    · exact ih

theorem ntp (lib : Lib) (payload : Bytes) : SemanticOk (Ddos.Sensor.ntpSemantics lib.sha256 payload src dst).1
      (Ddos.Sensor.ntpSemantics lib.sha256 payload src dst).2 src dst := by
  rw [Ddos.Sensor.ntpSemantics]
  split
  · exact unknown
  split
  · exact unknown
  split
  · next h =>
    refine ⟨hash_firstNonzero lib _ _, by simp [Semantic.servicePort], ?_⟩
    simp [Semantic.servicePort, Semantic.isResponse, h.2.1]
  split
  · next h =>
    refine ⟨hash_firstNonzero lib _ _, by simp [Semantic.servicePort], ?_⟩
    simp [Semantic.servicePort, Semantic.isResponse, h.2]
  · exact unknown

theorem response (lib : Lib) (payload : Bytes) :
    SemanticOk (Ddos.Sensor.responseSemantics lib.sha256 payload src dst).1
      (Ddos.Sensor.responseSemantics lib.sha256 payload src dst).2 src dst := by
  rw [Ddos.Sensor.responseSemantics]
  split
  · exact dns lib payload
  split
  · exact ntp lib payload
  split
  · exact unknown
  · exact other

end SemanticOk

section

variable {lib : Lib} {s : Sample} {condition : Bool} {message : String}

/-- What is known of a sample. -/
theorem ddosSample_ok {p : Packet} (h : ddosSample lib.sha256 p.toPacket = some s) :
    s.timestampUs = p.timestamp / 1000 ∧ -(2 ^ 53 - 1) ≤ p.timestamp / 1000 ∧
      p.timestamp / 1000 ≤ 2 ^ 53 - 1 ∧ Ddos.isHash s.profile = true ∧
      SemanticOk s.semantic s.transaction p.sourcePort p.destinationPort ∧
      (s.semantic.servicePort ≠ none → p.protocol = .udp) := by
  rw [ddosSample] at h
  split at h
  · cases h
  split at h
  · cases h
  next hsafe =>
  rw [not_or, not_lt, not_not, Ddos.Sensor.ofUnixMicro, Ddos.Sensor.ofUnixMicro, Ddos.Sensor.maxSafeUS] at hsafe
  have hlow : -(2 ^ 53 - 1) ≤ p.timestamp / 1000 := by omega
  have hhigh : p.timestamp / 1000 ≤ 2 ^ 53 - 1 := by omega
  have hmicro : Ddos.Sensor.unixMicro p.timestamp = p.timestamp / 1000 := by
    rw [Ddos.Sensor.unixMicro]
    exact Int.bmod_eq_of_le (by omega) (by omega)
  by_cases hudp : p.protocol = .udp
  · rw [if_pos hudp] at h
    cases h
    exact ⟨hmicro, hlow, hhigh, lib.isHash_sha256 _, SemanticOk.response lib p.payload, fun _ => hudp⟩
  · rw [if_neg hudp] at h
    cases h
    exact ⟨hmicro, hlow, hhigh, lib.isHash_sha256 _, SemanticOk.other, fun hservice => absurd rfl hservice⟩

theorem ofText_semanticText (semantic : Semantic) : Semantic.ofText (semanticText semantic) = some semantic := by
  cases semantic <;> rfl

theorem packetSampleOf_sampleValue {startUs endUs : Int} {protocol : Ddos.Protocol} {src dst : UInt16}
    (hlow : -(2 ^ 53 - 1) ≤ s.timestampUs) (hhigh : s.timestampUs ≤ 2 ^ 53 - 1)
    (hstart : startUs ≤ s.timestampUs) (hend : s.timestampUs ≤ endUs)
    (hprofile : Ddos.isHash s.profile = true) (hsemantic : SemanticOk s.semantic s.transaction src dst)
    (hudp : s.semantic.servicePort ≠ none → protocol = .udp) :
    Ddos.packetSampleOf startUs endUs protocol (some src.toNat) (some dst.toNat) (sampleValue s) = .ok s := by
  have hnames : Ddos.hasNames (sampleValue s).fields
      ["timestamp_us", "profile", "semantic", "transaction"] = true := decide_eq_true rfl
  have htime : Ddos.sampleTime startUs endUs ((sampleValue s).fields.get "timestamp_us") =
      .ok s.timestampUs := if_pos ⟨hlow, hhigh, hstart, hend⟩
  have hprofile' : Ddos.sampleHash ((sampleValue s).fields.get "profile") = .ok s.profile :=
    if_pos hprofile
  have htransaction : Ddos.sampleTransaction ((sampleValue s).fields.get "transaction") = .ok s.transaction := by
    rw [sampleValue]
    cases htoken : s.transaction with
    | none => rfl
    | some token =>
      change some <$> Ddos.sampleHash (.str token) = _
      rw [Ddos.sampleHash, if_pos (hsemantic.hash token htoken)]
      rfl
  have hsemantic' : Ddos.sampleSemantic ((sampleValue s).fields.get "semantic") = .ok s.semantic := by
    change Ddos.sampleSemantic (.str (semanticText s.semantic)) = _
    rw [Ddos.sampleSemantic, ofText_semanticText]
  have hcheck : Ddos.checkSemantic s.semantic s.transaction protocol (some src.toNat)
      (some dst.toNat) = .ok () := by
    rw [Ddos.checkSemantic]
    cases hservice : s.semantic.servicePort with
    | none =>
      rw [hsemantic.plain hservice]
      rfl
    | some service =>
      obtain ⟨hport, htoken⟩ := hsemantic.port service hservice
      have hobserved : (if s.semantic.isResponse then some src.toNat else some dst.toNat) = some service := by
        rw [← hport]
        split <;> rfl
      simp only [hobserved]
      exact if_pos (decide_eq_true ⟨hudp (by simp [hservice]), trivial, htoken⟩)
  rw [Ddos.packetSampleOf, Ddos.require, if_pos hnames]
  simp only [bind, Except.bind, htime, hprofile', htransaction, hsemantic', hcheck]
  rfl

theorem mapM_map_eq_ok {α β : Type} {ε : Type} {f : β → Except ε α} {g : α → β} {l : List α}
    (h : ∀ x ∈ l, f (g x) = .ok x) : (l.map g).mapM f = .ok l := by
  rw [List.mapM_eq_ok, forall₂_map_left_iff, forall₂_same]
  exact h

/-- The evidence of a record is accepted. -/
theorem checkEvidence_ok {evidence : Option Evidence} {w : FlowRecord} {start : Int}
    {key : Key} (h : ∀ e ∈ evidence, EvidenceTracked lib e start ps)
    (hkey : ∀ p ∈ ps, p.sourcePort = key.sourcePort ∧ p.destinationPort = key.destinationPort ∧
      p.protocol = key.protocol) (hvalue : w.ddosPacketEvidence = evidenceValue evidence)
    (hcount : w.packetCount = ps.length) (hstart : w.timestamp = start)
    (hduration : w.durationSeconds = ((latest ps - start : Int) : ℚ) / 1000000000)
    (hprotocol : w.protocol = protocolName key.protocol) (hsource : w.sourcePort = key.sourcePort.toNat)
    (hdestination : w.destinationPort = key.destinationPort.toNat) : checkEvidence w = .ok () := by
  rw [checkEvidence, hvalue]
  cases evidence with
  | none => rfl
  | some e =>
    have he := h e rfl
    have hnames : Ddos.hasNames (evidenceValue (some e)).fields
        ["version", "samples", "omitted_samples"] = true := decide_eq_true rfl
    have hversion : decide (((evidenceValue (some e)).fields.get "version").int? = some 1) = true := by
      change decide (some e.version = some 1) = true
      rw [he.version]
      rfl
    have hlength := he.length_le
    have hitems : Ddos.sampleValues ((evidenceValue (some e)).fields.get "samples") =
        .ok (e.samples.map sampleValue) := by
      change (if Ddos.maxSamplesFlow < (e.samples.map sampleValue).length then _ else _) = _
      have hle : (e.samples.map sampleValue).length ≤ Ddos.maxSamplesFlow := by
        rw [length_map]
        exact he.samples_le
      rw [if_neg (not_lt.mpr hle)]
    have homitted : Ddos.bounded w.packetCount "invalid DDoS sample count"
        ((evidenceValue (some e)).fields.get "omitted_samples") = .ok e.omittedSamples := by
      change (if (0 : Int) ≤ e.omittedSamples ∧ (e.omittedSamples : Int) ≤ w.packetCount then
        Except.ok (e.omittedSamples : Int).toNat else _) = _
      rw [if_pos (by omega), Int.toNat_natCast]
    have hroom : decide ((e.samples.map sampleValue).length + e.omittedSamples ≤ w.packetCount) =
        true := by
      rw [length_map, hcount]
      exact decide_eq_true hlength
    have hsamples : (e.samples.map sampleValue).mapM (Ddos.packetSampleOf
        (Ddos.packetIntervalUs (w.timestamp / 1000) w.durationSeconds).1
        (Ddos.packetIntervalUs (w.timestamp / 1000) w.durationSeconds).2
        (evidenceProtocol w.protocol.toUpper) (some w.sourcePort) (some w.destinationPort)) =
        .ok e.samples := by
      refine mapM_map_eq_ok fun s hs => ?_
      obtain ⟨p, hp, hafter, hsample⟩ := he.sample s hs
      obtain ⟨hstamp, hlow, hhigh, hprofile, hsemantic, hudp⟩ := ddosSample_ok hsample
      obtain ⟨hsrc, hdst, hproto⟩ := hkey p hp
      have hinterval := mem_packetIntervalUs hafter (le_latest hp)
      rw [hsource, hdestination, ← hsrc, ← hdst, hstart, hduration, Ddos.packetIntervalUs]
      refine packetSampleOf_sampleValue (hstamp ▸ hlow) (hstamp ▸ hhigh) (hstamp ▸ hinterval.1)
        (hstamp ▸ hinterval.2) hprofile hsemantic fun hservice => ?_
      rw [hprotocol, ← hproto, hudp hservice]
      decide +kernel
    have hbundle : Ddos.bundle w.packetCount e.samples e.omittedSamples =
        .ok ⟨e.samples, e.omittedSamples, hcount ▸ hlength⟩ := dif_pos (hcount ▸ hlength)
    rw [Ddos.validatePacketEvidence, if_neg (by simp [evidenceValue, Ddos.Value.isNull]), Ddos.require,
      if_pos hnames]
    simp only [bind, Except.bind, Ddos.require, hversion, if_true, hitems, homitted, hroom, hsamples, hbundle]
    rfl

/-! ## Fields against each other -/

theorem refuse_eq_ok (h : condition = false) : refuse condition message = .ok () := by
  rw [refuse, h]
  rfl

/-- One check after another. -/
theorem refuse_bind {rest : Except Rejection Unit} (h : condition = false) :
    (refuse condition message >>= fun _ => rest) = rest := by
  rw [refuse_eq_ok h]
  rfl

theorem upper_protocolName (protocol : Protocol) : (protocolName protocol).toUpper = protocolName protocol := by
  cases protocol <;> decide +kernel

/-- Kinds of packets that exclude each other do not exceed a kind that has them all. -/
theorem countP_add_le {f g w : Packet → Bool} (hf : ∀ p, f p = true → w p = true ∧ g p = false)
    (hg : ∀ p, g p = true → w p = true) (ps : List Packet) :
    ps.countP f + ps.countP g ≤ ps.countP w := by
  induction ps with
  | nil => simp
  | cons p =>
    have hfp := hf p
    have hgp := hg p
    simp only [countP_cons]
    cases h : f p <;> cases h' : g p <;> cases h'' : w p <;> simp_all <;> omega

/-- What the decoder makes of packets that are not TCP. -/
def Packet.Decoded (p : Packet) : Prop := p.protocol ≠ .tcp → p.tcpFlags = noFlags

theorem decoded_decode (f : Frame) : (decode f).Decoded := by
  intro h
  rw [decode] at h ⊢
  cases htransport : f.transport <;> simp_all

end

section

variable {lib : Lib} {sensorId : String} {r : Record}

theorem finalize_of_pos (h : 0 < r.packetCount) : finalize r = { r with
      identity := { r.identity with
        hops := { r.identity.hops with
          hopLimitMode := (Hops.mode r.identity.hops.hopLimitCounts r.identity.hops.hopLimitMode).1 } }
      sizes := { r.sizes with
        avgPacketSize := r.sizes.packetSizeSum / r.packetCount
        avgPayloadLength := r.sizes.payloadLengthSum / r.packetCount }
      tcp := r.tcp.addTcpFlagCombinations r.packetCount } := by
  rw [finalize]
  exact if_pos h

theorem shapes_le (ps : List Packet) :
    ps.countP Packet.isSynOnly + ps.countP Packet.isSynAck ≤ ps.countP (fun p => p.tcpFlags.syn) ∧
      ps.countP Packet.isSynAck + ps.countP Packet.isAckOnly ≤ ps.countP (fun p => p.tcpFlags.ack) ∧
      ps.countP Packet.isSynOnly + ps.countP Packet.isSynAck + ps.countP Packet.isAckOnly +
        ps.countP (fun p => p.tcpFlags.rst) ≤ ps.length := by
  refine ⟨countP_add_le ?_ ?_ ps, countP_add_le ?_ ?_ ps, ?_⟩
  · intro p
    simp only [Packet.isSynOnly, Packet.isSynAck]
    grind
  · intro p
    simp only [Packet.isSynAck]
    grind
  · intro p
    simp only [Packet.isSynAck, Packet.isAckOnly]
    grind
  · intro p
    simp only [Packet.isAckOnly]
    grind
  · -- The three shapes have no RST.
    have hsyn := countP_add_le (f := Packet.isSynOnly) (g := Packet.isSynAck)
      (w := fun p => p.isSynOnly || p.isSynAck)
      (fun p => by simp only [Packet.isSynOnly, Packet.isSynAck]; grind)
      (fun p => by simp only [Packet.isSynOnly, Packet.isSynAck]; grind) ps
    have hack := countP_add_le (f := fun p => p.isSynOnly || p.isSynAck) (g := Packet.isAckOnly)
      (w := fun p => !p.tcpFlags.rst)
      (fun p => by simp only [Packet.isSynOnly, Packet.isSynAck, Packet.isAckOnly]; grind)
      (fun p => by simp only [Packet.isAckOnly]; grind) ps
    have hall := countP_add_le (f := fun p => !p.tcpFlags.rst) (g := fun p => p.tcpFlags.rst)
      (w := fun _ => true) (fun p => by simp) (fun p => by simp) ps
    rw [countP_true] at hall
    omega

section

variable (h : Summary lib previewBytes sensorId r ps)

include h

theorem Summary.packetCount_pos (hne : ps ≠ []) : 0 < r.packetCount := by
  rw [h.tallies.packetCount]
  exact length_pos_of_ne_nil hne

theorem Summary.key_fields : ∀ p ∈ ps, p.sourcePort = r.key.sourcePort ∧ p.destinationPort = r.key.destinationPort ∧
      p.protocol = r.key.protocol := by
  intro p hp
  rw [← h.tallies.key p hp]
  exact ⟨rfl, rfl, rfl⟩

/-- Flags are observed in the records of TCP. -/
theorem Summary.observed_iff (hne : ps ≠ []) : r.tcp.tcpFlagsObserved = true ↔ r.key.protocol = .tcp := by
  rw [h.flags.observed, any_eq_true]
  constructor
  · rintro ⟨p, hp, htcp⟩
    rw [← (h.key_fields p hp).2.2]
    simpa using htcp
  · intro htcp
    obtain ⟨p, hp⟩ := exists_mem_of_ne_nil ps hne
    exact ⟨p, hp, by simp [(h.key_fields p hp).2.2, htcp]⟩

/-- A counter counts packets, and none that have no flags. -/
theorem Summary.exists_countP {n : Nat} (hn : n ∈ (fromRecord r).counters) :
    ∃ f : Packet → Bool, n = ps.countP f ∧ ∀ p, p.protocol ≠ .tcp → p.tcpFlags = noFlags → f p = false := by
  simp only [FlowRecord.counters, fromRecord, h.flags.tcpFlags, FlagCounts.ofPackets, h.flags.synOnly,
    h.flags.synAck, h.flags.ackOnly, mem_cons, not_mem_nil, or_false] at hn
  rcases hn with rfl | rfl | rfl | rfl | rfl | rfl
  · exact ⟨_, rfl, fun p _ hflags => by simp [hflags, noFlags]⟩
  · exact ⟨_, rfl, fun p _ hflags => by simp [hflags, noFlags]⟩
  · exact ⟨_, rfl, fun p _ hflags => by simp [hflags, noFlags]⟩
  · exact ⟨_, rfl, fun p hother _ => by simp [Packet.isSynOnly, hother]⟩
  · exact ⟨_, rfl, fun p hother _ => by simp [Packet.isSynAck, hother]⟩
  · exact ⟨_, rfl, fun p hother _ => by simp [Packet.isAckOnly, hother]⟩

/-- The records of other protocols count no flags. -/
theorem Summary.counters_eq_zero (hdecoded : ∀ p ∈ ps, p.Decoded) (hprotocol : r.key.protocol ≠ .tcp) :
    ∀ n ∈ (fromRecord r).counters, n = 0 := by
  intro n hn
  obtain ⟨f, rfl, hf⟩ := h.exists_countP hn
  refine countP_eq_zero.mpr fun p hp => ?_
  have hother : p.protocol ≠ .tcp := (h.key_fields p hp).2.2 ▸ hprotocol
  simp [hf p hother (hdecoded p hp hother)]

theorem Summary.counters_le : ∀ n ∈ (fromRecord r).counters, n ≤ ps.length := by
  intro n hn
  obtain ⟨f, rfl, -⟩ := h.exists_countP hn
  exact countP_le_length

theorem Summary.checkCounters (hne : ps ≠ []) (hdecoded : ∀ p ∈ ps, p.Decoded) :
    checkCounters (fromRecord (finalize r)) = .ok () := by
  have hcounters : (fromRecord (finalize r)).counters = (fromRecord r).counters := by
    rw [finalize_of_pos (h.packetCount_pos hne)]
    rfl
  have hle := h.counters_le
  obtain ⟨hsyn, hack, hshapes⟩ := shapes_le ps
  rw [Aggregate.checkCounters, hcounters, finalize_of_pos (h.packetCount_pos hne)]
  simp only [fromRecord, Tcp.addTcpFlagCombinations, upper_protocolName, h.tallies.packetCount]
  rw [refuse_bind, refuse_bind, refuse_bind, refuse_bind, refuse_bind, refuse_bind, refuse_eq_ok]
  · rw [h.flags.synOnly, h.flags.synAck, h.flags.ackOnly, h.flags.tcpFlags]
    exact decide_eq_false (not_lt.mpr hshapes)
  · rw [h.flags.synAck, h.flags.ackOnly, h.flags.tcpFlags]
    exact decide_eq_false (not_lt.mpr hack)
  · rw [h.flags.synOnly, h.flags.synAck, h.flags.tcpFlags]
    exact decide_eq_false (not_lt.mpr hsyn)
  · have hpayload : r.payload.payloadPacketCount ≤ ps.length := by
      rw [h.payload.count]
      exact countP_le_length
    split
    · exact decide_eq_false (not_lt.mpr hpayload)
    · rfl
  · rw [any_eq_false]
    intro n hn
    simpa using hle n hn
  · rw [Bool.and_eq_false_iff]
    by_cases htcp : r.key.protocol = .tcp
    · right
      rw [htcp]
      rfl
    · left
      rw [Bool.eq_false_iff]
      exact fun hobserved => htcp ((h.observed_iff hne).mp hobserved)
  · by_cases htcp : r.key.protocol = .tcp
    · rw [(h.observed_iff hne).mpr htcp]
      rfl
    · rw [Bool.and_eq_false_iff]
      right
      rw [any_eq_false]
      intro n hn
      simp [h.counters_eq_zero hdecoded htcp n hn]

theorem Summary.startTime_le (hne : ps ≠ []) : r.startTime ≤ r.endTime := by
  obtain ⟨first, rest, rfl⟩ := exists_cons_of_ne_nil hne
  rw [← h.tallies.startTime first rfl, h.tallies.endTime]
  exact le_latest mem_cons_self

theorem Summary.checkObservations (hne : ps ≠ []) (hlasts : r.endTime - r.startTime ≤ maxDuration) :
    checkObservations (fromRecord (finalize r)) = .ok () := by
  have hduration := durationOf_eq (h.startTime_le hne) hlasts
  rw [finalize_of_pos (h.packetCount_pos hne), Aggregate.checkObservations]
  simp only [fromRecord, Tcp.addTcpFlagCombinations, upper_protocolName]
  by_cases htcp : r.key.protocol = .tcp
  · simp only [if_pos htcp]
    rw [refuse_bind, refuse_bind, refuse_bind, refuse_eq_ok]
    · cases htruncated : r.tcp.tcpSynOnlyObservationsTruncated with
      | true => rfl
      | false => simp [h.syn.complete htruncated]
    · cases hlast : r.tcp.tcpSynOnlyObservations.getLast? with
      | none => rfl
      | some last =>
        have hoffset := h.syn.offset_le last (mem_of_getLast? hlast)
        rw [← h.tallies.endTime] at hoffset
        change decide (roundHalfEven (durationOf r * 1000000) < last.offsetUs) = false
        rw [hduration]
        exact decide_eq_false (not_lt.mpr (le_roundHalfEven hoffset))
    · simp [h.syn.increasing]
    · rw [(h.observed_iff hne).mpr htcp, htcp]
      rfl
  · simp only [if_neg htcp]
    refine refuse_eq_ok ?_
    rw [Bool.eq_false_iff]
    intro htruncated
    have hcount := h.syn.truncated htruncated
    rw [h.flags.synOnly, countP_pos_iff] at hcount
    obtain ⟨p, hp, hsyn⟩ := hcount
    rw [Packet.isSynOnly, (h.key_fields p hp).2.2] at hsyn
    simp [htcp] at hsyn

theorem Summary.checkHops (hne : ps ≠ []) (hlength : ps.length < 2 ^ 32) :
    checkHops (fromRecord (finalize r)) = .ok () := by
  have hdistinct := h.hops.distinct hlength
  have hcard : (hopLimits ps).toFinset.card ≤ ps.length :=
    (toFinset_card_le _).trans (length_hopLimits_le ps)
  have hrange : checkHopRange (fromRecord (finalize r)) = .ok () := by
    rw [finalize_of_pos (h.packetCount_pos hne), checkHopRange]
    simp only [fromRecord]
    cases hobserved : r.identity.hops.hopLimitObserved with
    | false =>
      have hnil : hopLimits ps = [] := by
        by_contra hnil
        rw [h.hops.observed.mpr hnil] at hobserved
        cases hobserved
      simp only [Bool.false_eq_true, if_false]
      refine refuse_eq_ok ?_
      rw [hdistinct, hnil]
      rfl
    | true =>
      have hmode := h.hops.mode_mem hlength hobserved r.identity.hops.hopLimitMode
      obtain ⟨hlow, hhigh⟩ := h.hops.range _ hmode
      simp only [if_true]
      rw [refuse_bind, refuse_eq_ok]
      · simp [UInt8.le_iff_toNat_le.mp hlow, UInt8.le_iff_toNat_le.mp hhigh]
      · have hpos : 0 < (hopLimits ps).toFinset.card :=
          Finset.card_pos.mpr ⟨_, mem_toFinset.mpr hmode⟩
        rw [hdistinct]
        exact decide_eq_false (by omega)
  rw [Aggregate.checkHops, hrange, finalize_of_pos (h.packetCount_pos hne)]
  refine refuse_eq_ok (decide_eq_false ?_)
  simp only [fromRecord, h.tallies.packetCount, hdistinct]
  omega

theorem Summary.checkIds (hne : ps ≠ []) : checkIds (fromRecord (finalize r)) = .ok () := by
  have hids := h.ids
  have hlength := length_ipIds_le ps
  have hzero : (ipIds ps).count 0 ≤ (ipIds ps).length := count_le_length
  have hdistinct := hids.distinct_le
  have hmonotonic := hids.monotonic
  rw [finalize_of_pos (h.packetCount_pos hne), Aggregate.checkIds]
  simp only [fromRecord, h.tallies.packetCount, hids.observed, hids.zero, hids.transitions] at hmonotonic ⊢
  rw [refuse_bind, refuse_bind, refuse_bind, refuse_bind, refuse_eq_ok]
  all_goals
    refine decide_eq_false ?_
    omega

end

/-! ## Fields -/

theorem constraint_eq_nil {field kind : String} {holds : Bool} :
    constraint field kind holds = [] ↔ holds = true := by
  cases holds <;> simp [constraint]

/-- The constraints on the fields of a document. -/
@[mk_iff]
structure FieldsOk (w : FlowRecord) : Prop where
  timestamp : minMicros ≤ w.timestamp / 1000 ∧ w.timestamp / 1000 ≤ maxMicros
  sourcePort : w.sourcePort ≤ 65535
  destinationPort : w.destinationPort ≤ 65535
  direction : w.direction ∈ directionNames
  packetCount : 1 ≤ w.packetCount
  duration_nonneg : 0 ≤ w.durationSeconds
  duration_le : w.durationSeconds ≤ 31536000
  tcpFlags : flagsError [] w.tcpFlags = none
  lastPayloadHash : optionally w.lastPayloadHash Ddos.isHash = true
  payloadPrefixHash : optionally w.payloadPrefixHash Ddos.isHash = true
  sampleLength : optionally w.payloadSampleHex (fun s => s.length ≤ 512) = true
  sample : optionally w.payloadSampleHex isHexText = true
  entropy_nonneg : optionally w.payloadEntropy (fun e => 0 ≤ e) = true
  entropy_le : optionally w.payloadEntropy (fun e => e ≤ 8) = true
  printable_nonneg : optionally w.payloadPrintableRatio (fun q => 0 ≤ q) = true
  printable_le : optionally w.payloadPrintableRatio (fun q => q ≤ 1) = true
  simhash : optionally w.payloadSimhash (fun s => s.length = 16 && s.toList.all isLowerHex) = true
  version : optionally w.payloadFeatureVersion
    (fun s => 1 ≤ s.length && s.length ≤ 8 && s.toList.all Char.isDigit) = true
  packetSizes : w.packetSizes.length ≤ 32
  average_nonneg : optionally w.averagePacketSize (fun q => 0 ≤ q) = true
  average_le : optionally w.averagePacketSize (fun q => q ≤ 65535) = true
  hopLimitMin : optionally w.hopLimitMin (fun n => n ≤ 255) = true
  hopLimitMax : optionally w.hopLimitMax (fun n => n ≤ 255) = true
  hopLimitMode : optionally w.hopLimitMode (fun n => n ≤ 255) = true
  hopLimitDistinctCount : w.hopLimitDistinctCount ≤ 256
  ipIdObservedCount : w.ipIdObservedCount ≤ 2 ^ 64 - 1
  ipIdZeroCount : w.ipIdZeroCount ≤ 2 ^ 64 - 1
  ipIdDistinctCount : w.ipIdDistinctCount ≤ 64
  ipIdMonotonicTransitions : w.ipIdMonotonicTransitions ≤ 2 ^ 64 - 1
  ipIdTransitionCount : w.ipIdTransitionCount ≤ 2 ^ 64 - 1
  observations : optionally w.tcpSynOnlyObservations (fun os => os.length ≤ 16) = true
  offsets : optionally w.tcpSynOnlyObservations
    (fun os => os.all fun o => o.offsetUs ≤ 31536000000000) = true

theorem fieldErrors_eq_nil {w : FlowRecord} : fieldErrors w = [] ↔ FieldsOk w := by
  rw [fieldErrors, flatten_eq_nil_iff, fieldsOk_iff]
  simp only [forall_mem_cons, constraint_eq_nil, decide_eq_true_eq, Option.toList_eq_nil_iff,
    Option.map_eq_none_iff, not_mem_nil, false_imp_iff, implies_true, and_true]

theorem optionally_ite {α : Type} {condition : Prop} [Decidable condition] {value : α} {holds : α → Bool}
    (h : condition → holds value = true) :
    optionally (if condition then some value else none) holds = true := by
  split
  · next hcondition => exact h hcondition
  · rfl

theorem text_mem_directionNames (d : Direction) : d.text ∈ directionNames := by
  cases d <;> decide

/-- The average of the sizes of packets is within its bound. -/
theorem average_le_iff {sum count : Nat} (h : 0 < count) : (sum : ℚ) / count ≤ 65535 ↔ sum ≤ 65535 * count := by
  rw [div_le_iff₀ (by exact_mod_cast h)]
  exact_mod_cast Iff.rfl

theorem toNat_le_255 (b : UInt8) : b.toNat ≤ 255 := Nat.le_of_lt_succ b.toNat_lt

theorem toNat_le_65535 (b : UInt16) : b.toNat ≤ 65535 := Nat.le_of_lt_succ b.toNat_lt

/-- The fields of a record are within their bounds if the average size of its packets is. -/
theorem Summary.fieldsOk (h : Summary lib previewBytes sensorId r ps) (hne : ps ≠ [])
    (hpreview : previewBytes ≤ 256) (hlength : ps.length < 2 ^ 32)
    (hlasts : r.endTime - r.startTime ≤ maxDuration)
    (haverage : r.sizes.packetSizeSum ≤ 65535 * r.packetCount) :
    FieldsOk (fromRecord (finalize r)) := by
  have hpos := h.packetCount_pos hne
  have hstart := h.startTime_le hne
  have hduration := durationOf_eq hstart hlasts
  have hnonneg : (0 : ℚ) ≤ ((r.endTime - r.startTime : Int) : ℚ) := by
    exact_mod_cast sub_nonneg.mpr hstart
  have hnanos : r.endTime - r.startTime ≤ 31536000 * 1000000000 := by
    simp only [maxDuration] at hlasts
    omega
  have hseconds : ((r.endTime - r.startTime : Int) : ℚ) ≤ 31536000 * 1000000000 := by
    exact_mod_cast hnanos
  have hpayload := h.payload.ok hpreview
  have hdistinct := h.hops.distinct hlength
  have hcard := card_toFinset_le (hopLimits ps)
  have hids := h.ids
  have hidsLength := length_ipIds_le ps
  have hzero : (ipIds ps).count 0 ≤ (ipIds ps).length := count_le_length
  have hmonotonic := hids.monotonic
  rw [hids.transitions] at hmonotonic
  obtain ⟨first, rest, hps⟩ := exists_cons_of_ne_nil hne
  have hfirst : first.timestamp = r.startTime := h.tallies.startTime first (by rw [hps]; rfl)
  rw [finalize_of_pos hpos]
  refine
    { timestamp := hfirst ▸ first.inRange
      sourcePort := toNat_le_65535 _
      destinationPort := toNat_le_65535 _
      direction := text_mem_directionNames _
      packetCount := hpos
      duration_nonneg := ?_
      duration_le := ?_
      tcpFlags := ?_
      lastPayloadHash := hpayload.last
      payloadPrefixHash := hpayload.prefixHash
      sampleLength := hpayload.sampleLength
      sample := hpayload.sample
      entropy_nonneg := optionally_ite fun hp => decide_eq_true (hpayload.entropy hp).1
      entropy_le := optionally_ite fun hp => decide_eq_true (hpayload.entropy hp).2
      printable_nonneg := optionally_ite fun hp => decide_eq_true (hpayload.printable hp).1
      printable_le := optionally_ite fun hp => decide_eq_true (hpayload.printable hp).2
      simhash := hpayload.simHash
      version := hpayload.version
      packetSizes := ?_
      average_nonneg := optionally_ite fun _ => decide_eq_true ?_
      average_le := optionally_ite fun _ => decide_eq_true ((average_le_iff hpos).mpr haverage)
      hopLimitMin := optionally_ite fun _ => decide_eq_true (toNat_le_255 _)
      hopLimitMax := optionally_ite fun _ => decide_eq_true (toNat_le_255 _)
      hopLimitMode := optionally_ite fun _ => decide_eq_true (toNat_le_255 _)
      hopLimitDistinctCount := hdistinct.trans_le hcard
      ipIdObservedCount := ?_
      ipIdZeroCount := ?_
      ipIdDistinctCount := hids.distinct.trans_le hids.values_le
      ipIdMonotonicTransitions := ?_
      ipIdTransitionCount := ?_
      observations := optionally_ite fun _ => decide_eq_true h.syn.length_le
      offsets := optionally_ite fun _ => ?_ }
  · change 0 ≤ durationOf r
    rw [hduration]
    positivity
  · change durationOf r ≤ 31536000
    rw [hduration, div_le_iff₀ (by norm_num)]
    exact hseconds
  · change flagsError [] (tcpFlagsOf (r.tcp.addTcpFlagCombinations r.packetCount)) = none
    rw [h.tallies.packetCount]
    exact flagsError_tcpFlagsOf h.flags hne hlength
  · simp only [fromRecord]
    split <;> simp
  · positivity
  · change r.identity.ids.ipIdObservedCount ≤ 2 ^ 64 - 1
    rw [hids.observed]
    omega
  · change r.identity.ids.ipIdZeroCount ≤ 2 ^ 64 - 1
    rw [hids.zero]
    omega
  · change r.identity.ids.ipIdMonotonicTransitions ≤ 2 ^ 64 - 1
    omega
  · change r.identity.ids.ipIdTransitionCount ≤ 2 ^ 64 - 1
    rw [hids.transitions]
    omega
  · rw [all_eq_true]
    intro o ho
    have hoffset := h.syn.offset_le o ho
    rw [← h.tallies.endTime] at hoffset
    exact decide_eq_true (by omega)

/-- A record that an aggregator returns is accepted if its packets are not too large on average, and
only then. -/
theorem Returned.validate_iff {record : Record} (h : Returned lib previewBytes sensorId record ps)
    (hdecoded : ∀ p ∈ ps, p.Decoded) (hpreview : previewBytes ≤ 256)
    (hlasts : record.endTime - record.startTime ≤ maxDuration) (hcount : record.packetCount < 2 ^ 32) :
    validate (fromRecord record) = .ok () ↔ record.sizes.totalBytes ≤ 65535 * record.packetCount := by
  obtain ⟨r, hsummary, hne, rfl⟩ := h
  have hpos := hsummary.packetCount_pos hne
  have hfinal := finalize_of_pos hpos
  have hpackets : (finalize r).packetCount = r.packetCount := by rw [hfinal]
  have hbytes : (finalize r).sizes.totalBytes = r.sizes.packetSizeSum := by
    rw [hfinal]
    exact hsummary.tallies.totalBytes.trans hsummary.tallies.packetSizeSum.symm
  have hlasts' : r.endTime - r.startTime ≤ maxDuration := by
    rw [hfinal] at hlasts
    exact hlasts
  rw [hpackets] at hcount
  rw [hpackets, hbytes, validate]
  have hlength : ps.length < 2 ^ 32 := hsummary.tallies.packetCount ▸ hcount
  constructor
  · intro hvalid
    split at hvalid
    · next herrors =>
      have haverage := (fieldErrors_eq_nil.mp herrors).average_le
      rw [hfinal] at haverage
      simp only [fromRecord, if_pos hpos] at haverage
      exact (average_le_iff hpos).mp (of_decide_eq_true haverage)
    · cases hvalid
  · intro haverage
    rw [if_pos (fieldErrors_eq_nil.mpr (hsummary.fieldsOk hne hpreview hlength hlasts' haverage))]
    have hevidence : checkEvidence (fromRecord (finalize r)) = .ok () := by
      refine checkEvidence_ok hsummary.evidence hsummary.key_fields ?_ ?_ ?_ ?_ ?_ ?_ ?_
      all_goals rw [hfinal]
      · rfl
      · exact hsummary.tallies.packetCount
      · rfl
      · exact (durationOf_eq (hsummary.startTime_le hne) hlasts').trans (by rw [hsummary.tallies.endTime])
      · rfl
      · rfl
      · rfl
    rw [validTcpFlagMetadata, hevidence, hsummary.checkCounters hne hdecoded,
      hsummary.checkObservations hne hlasts', hsummary.checkHops hne hlength, hsummary.checkIds hne]
    rfl

end

/-- A hash that does not depend on anything. -/
def plainHash : String := "0000000000000000000000000000000000000000000000000000000000000000"

theorem isHash_plainHash : Ddos.isHash plainHash = true := by decide +kernel

theorem round4_cast (x : ℝ) : ((round (x * (10000 : Nat)) / 10000 : ℚ) : ℝ) = round4 x := by
  rw [round4]
  push_cast
  rfl

/-- A library whose hashes do not depend on anything. -/
noncomputable def plainLib : Lib where
  sha256 _ := plainHash
  entropy payload := round (Shannon.entropy (byteCounts payload) * (10000 : Nat)) / 10000
  isHash_sha256 _ := isHash_plainHash
  entropy_eq _ := round4_cast _

/-- Records by their start, and those of one start in the order in which they come. -/
def stableSorting : Sorting where
  sort records := records.insertionSort fun r s => r.startTime ≤ s.startTime
  perm records := List.perm_insertionSort _ _
  sorted records := by
    have htotal : Std.Total fun r s : Record => r.startTime ≤ s.startTime := ⟨fun _ _ => le_total _ _⟩
    have htrans : IsTrans Record fun r s => r.startTime ≤ s.startTime := ⟨fun _ _ _ => le_trans⟩
    exact List.pairwise_insertionSort _ records

theorem epoch_inRange : minMicros ≤ 0 / 1000 ∧ 0 / 1000 ≤ maxMicros := by decide

/-- A UDP packet in an Ethernet frame: 14 bytes of link layer, then 20 of IPv4 and 8 of UDP. -/
def udpFrame (payload : Bytes) : Frame where
  timestamp := 0
  captureLength := 14 + 20 + 8 + payload.length
  length := 14 + 20 + 8 + payload.length
  direction := .inbound
  sourceIp := ⟨.v4, [192, 0, 2, 1], rfl⟩
  destinationIp := ⟨.v4, [192, 0, 2, 2], rfl⟩
  network := .ip4 0 (UInt16.ofNat (20 + 8 + payload.length)) 0 false 64
  transport := .udp 40000 40001 payload
  inRange := epoch_inRange

theorem wireLength_udpFrame (payload : Bytes) : (decode (udpFrame payload)).wireLength = 42 + payload.length := by
  change (14 + 20 + 8 + payload.length : Int) = _
  omega

/-- A packet of UDP alone in its flow. -/
theorem run_udpFrame (lib : Lib) (payload : Bytes) (sorting : Sorting) :
    ∃ record, (run lib (newAggregator "sensor" "job" 0 0)
        [.add (decode (udpFrame payload)) {}, .flush sorting]).1 = [record] ∧
      record.packetCount = 1 ∧ record.sizes.totalBytes = 42 + payload.length ∧
      record.endTime - record.startTime = 0 ∧
      Returned lib 0 "sensor" record [decode (udpFrame payload)] := by
  have hwire := wireLength_udpFrame payload
  obtain ⟨record, hrun, hreturned⟩ := run_single lib (a := newAggregator "sensor" "job" 0 0) rfl
    (p := decode (udpFrame payload)) (by omega) {} sorting
  have ht := hreturned.tallies
  refine ⟨record, hrun, ht.packetCount, ?_, ?_, hreturned⟩
  · rw [ht.totalBytes, wireBytes, map_singleton, sum_singleton, hwire]
    omega
  · rw [ht.endTime, ← ht.startTime _ rfl]
    rfl

end C2Hunter.Aggregate
