import C2Hunter.IndexBinding

/-!
# Planning the byte ranges of an indexed export

`plan_packet_ranges` of `pcap_indexed_export.py`: the packets that were selected are put in the order of
their bytes, and a packet joins the range before it where the gap is small and the packet is the next one.

* `plan` — one turn of the loop, and `Fetches` what it makes of a range.
* `Planned` — what the loop keeps, as long as no packet is empty. An empty packet has no slice, but the
  packet after it is compared with it and not with the last packet of the range.
-/

namespace C2Hunter.IndexedExport

open List

/-! ## Locators and ranges -/

/-- The fields that `_same_identity` compares and a range copies. -/
structure SourceIdentity where
  sourceKind : PostingSourceKind
  sourceId : String
  objectKey : String
  sourceVersionId : String
  parentStructuralBuildId : String
  deriving DecidableEq

/-- `identity_key`: a version of a source. -/
abbrev SourceVersion : Type := PostingSourceKind × String × String

def SourceIdentity.key (s : SourceIdentity) : SourceVersion := (s.sourceKind, s.sourceId, s.sourceVersionId)

/-- `SelectedPacketLocator`. -/
structure SelectedPacketLocator : Type extends SourceIdentity where
  sourceSizeBytes : Int
  sourceSha256 : String
  sourceOrder : Int
  packetIndex : Int
  dataOffset : Int
  capturedLength : Int
  deriving DecidableEq

/-- `PacketRangeSlice`. -/
structure PacketRangeSlice where
  packetIndex : Int
  dataOffset : Int
  capturedLength : Int
  deriving DecidableEq

/-- `CoalescedRange`. -/
structure CoalescedRange : Type extends SourceIdentity where
  offset : Int
  length : Int
  packetSlices : List PacketRangeSlice
  deriving DecidableEq

/-- `RangePlan`. -/
structure RangePlan where
  ranges : List CoalescedRange
  selectedPayloadBytes : Int
  fetchedBytes : Int
  deriving DecidableEq

/-- `SourceRangePlanLimits`. -/
structure SourceRangePlanLimits where
  maxGapBytes : Int
  maxRangeBytes : Int
  maxSourceFractionNumerator : Int
  maxSourceFractionDenominator : Int

/-- `RangePlanLimits`; nothing below needs that they were checked. -/
structure RangePlanLimits : Type extends SourceRangePlanLimits where
  maxRanges : Int
  maxTotalFetchedBytes : Int
  maxAmplificationNumerator : Int
  maxAmplificationDenominator : Int

/-- Why there is no plan. -/
inductive PlanError where
  | indexCorrupt
  | resourceLimit
  | keyError
  deriving DecidableEq

namespace SelectedPacketLocator

variable (l : SelectedPacketLocator)

/-- Where the packet ends. -/
def dataEnd : Int := l.dataOffset + l.capturedLength

def packetSlice : PacketRangeSlice := ⟨l.packetIndex, l.dataOffset, l.capturedLength⟩

/-- What the loop wants to be the same for a version of a source. -/
def identity : String × Int × String × String × Int :=
  (l.objectKey, l.sourceSizeBytes, l.sourceSha256, l.parentStructuralBuildId, l.sourceOrder)

/-- The key of the order. -/
def sortKey : Int ×ₗ Int ×ₗ Int := toLex (l.sourceOrder, toLex (l.dataOffset, l.packetIndex))

/-- A range of this packet. -/
def opened : CoalescedRange := ⟨l.toSourceIdentity, l.dataOffset, l.capturedLength, [l.packetSlice]⟩

end SelectedPacketLocator

/-- The range with one more packet. -/
def CoalescedRange.join (current : CoalescedRange) (item : SelectedPacketLocator) : CoalescedRange :=
  { current with
    length := item.dataEnd - current.offset
    packetSlices := current.packetSlices ++ [item.packetSlice] }

/-- `_MAX_I64` -/
def maxI64 : Int := 2 ^ 63 - 1

/-! ## The planner -/

section

variable (limits : SourceRangePlanLimits)

/-- `can_join` -/
def CanJoin (current : CoalescedRange) (previous item : SelectedPacketLocator) : Prop :=
  previous.toSourceIdentity = item.toSourceIdentity ∧ item.packetIndex = previous.packetIndex + 1 ∧
    0 ≤ item.dataOffset - (current.offset + current.length) ∧
    item.dataOffset - (current.offset + current.length) ≤ limits.maxGapBytes ∧
    item.dataEnd - current.offset ≤ limits.maxRangeBytes ∧
    current.sourceId = item.sourceId ∧ current.sourceVersionId = item.sourceVersionId

instance (current : CoalescedRange) (previous item : SelectedPacketLocator) :
    Decidable (CanJoin limits current previous item) := inferInstanceAs (Decidable (_ ∧ _))

/-- The ranges with one more packet; the last range comes first. -/
def coalesce (item : SelectedPacketLocator) :
    List CoalescedRange → Option SelectedPacketLocator → List CoalescedRange
  | current :: ranges, some previous =>
    if CanJoin limits current previous item then current.join item :: ranges
    else item.opened :: current :: ranges
  | ranges, _ => item.opened :: ranges

/-- `if d.setdefault(key, value) != value: raise IndexedLocatorError()` -/
def setdefault {κ ν : Type} [DecidableEq κ] [DecidableEq ν] (d : Dict κ ν) (key : κ) (value : ν) :
    Except PlanError (Dict κ ν) :=
  match d.find? key with
  | none => .ok (Table.put d (key, value))
  | some found => if found ≠ value then .error .indexCorrupt else .ok d

/-- The variables of the loop. -/
structure Planner where
  sourceIdentities : Dict SourceVersion (String × Int × String × String × Int) := Table.empty
  orders : Dict Int SourceVersion := Table.empty
  ranges : List CoalescedRange := []
  previous : Option SelectedPacketLocator := none

/-- A turn of the loop. -/
def plan (s : Planner) (item : SelectedPacketLocator) : Except PlanError Planner := do
  let sourceIdentities ← setdefault s.sourceIdentities item.key item.identity
  let orders ← setdefault s.orders item.sourceOrder item.key
  if item.dataOffset < 0 ∨ maxI64 < item.dataOffset ∨ item.capturedLength < 0 ∨
      maxI64 < item.capturedLength ∨ item.sourceSizeBytes < item.dataEnd then .error .indexCorrupt
  else if item.capturedLength = 0 then .ok ⟨sourceIdentities, orders, s.ranges, some item⟩
  else if limits.maxRangeBytes < item.capturedLength then .error .resourceLimit
  else .ok ⟨sourceIdentities, orders, coalesce limits item s.ranges s.previous, some item⟩

/-- `fetched_by_source` -/
def fetchedFrom (ranges : List CoalescedRange) (key : SourceVersion) : Int :=
  ((ranges.filter fun r => r.key = key).map CoalescedRange.length).sum

/-- The check of the bytes that are fetched from a source, whose size is that of its last packet. -/
def checkSource (ordered : List SelectedPacketLocator) (ranges : List CoalescedRange) (r : CoalescedRange) :
    Except PlanError Unit :=
  match ordered.reverse.find? fun item => item.key = r.key with
  | none => .error .keyError
  | some item =>
    if item.sourceSizeBytes ≤ fetchedFrom ranges r.key ∨
        item.sourceSizeBytes * limits.maxSourceFractionNumerator <
          fetchedFrom ranges r.key * limits.maxSourceFractionDenominator then .error .resourceLimit
    else .ok ()

/-- `plan_source_packet_ranges`, after the packets were ordered. -/
def planOrdered (ordered : List SelectedPacketLocator) : Except PlanError RangePlan :=
  if ¬(ordered.map fun l => (l.key, l.packetIndex)).Nodup then .error .indexCorrupt
  else do
    let s ← ordered.foldlM (plan limits) {}
    let ranges := s.ranges.reverse
    ranges.forM (checkSource limits ordered ranges)
    return ⟨ranges, (ordered.map fun l => l.capturedLength).sum, (ranges.map CoalescedRange.length).sum⟩

/-- `plan_source_packet_ranges` -/
def planSourcePacketRanges (locators : List SelectedPacketLocator) : Except PlanError RangePlan :=
  planOrdered limits (locators.insertionSort fun a b => a.sortKey ≤ b.sortKey)

end

/-- `_validate_request_range_totals` -/
def validateRequestRangeTotals (limits : RangePlanLimits) (p : RangePlan) : Except PlanError Unit :=
  if limits.maxRanges < p.ranges.length ∨ limits.maxTotalFetchedBytes < p.fetchedBytes then
    .error .resourceLimit
  else if p.selectedPayloadBytes = 0 then if p.fetchedBytes ≠ 0 then .error .resourceLimit else .ok ()
  else if p.selectedPayloadBytes * limits.maxAmplificationNumerator <
      p.fetchedBytes * limits.maxAmplificationDenominator then .error .resourceLimit
  else .ok ()

/-- `plan_packet_ranges` -/
def planPacketRanges (limits : RangePlanLimits) (locators : List SelectedPacketLocator) :
    Except PlanError RangePlan := do
  let p ← planSourcePacketRanges limits.toSourceRangePlanLimits locators
  validateRequestRangeTotals limits p
  return p

/-! ## A range and its packets -/

variable {limits : SourceRangePlanLimits}

/-- A range of these packets: it has their slices, is of their source, and what it fetches besides them
are gaps between packets that follow one another. -/
structure Fetches (limits : SourceRangePlanLimits) (ls : List SelectedPacketLocator) (r : CoalescedRange) :
    Prop where
  slices : r.packetSlices = ls.map SelectedPacketLocator.packetSlice
  source : ∀ l ∈ ls, r.toSourceIdentity = l.toSourceIdentity
  inside : ∀ l ∈ ls, r.offset ≤ l.dataOffset ∧ l.dataEnd ≤ r.offset + r.length
  nonneg : 0 ≤ r.length
  length_le : r.length ≤ limits.maxRangeBytes
  last : ∃ l ∈ ls.getLast?, l.dataEnd = r.offset + r.length
  gaps : ∀ o, r.offset ≤ o → o < r.offset + r.length → (∃ l ∈ ls, l.dataOffset ≤ o ∧ o < l.dataEnd) ∨
    ∃ a b, [a, b] <:+: ls ∧ a.dataEnd ≤ o ∧ o < b.dataOffset ∧
      b.dataOffset - a.dataEnd ≤ limits.maxGapBytes ∧ b.packetIndex = a.packetIndex + 1

variable {item : SelectedPacketLocator} {ls : List SelectedPacketLocator}

section

theorem Fetches.opened (hlength : 0 ≤ item.capturedLength)
    (h : item.capturedLength ≤ limits.maxRangeBytes) : Fetches limits [item] item.opened where
  slices := rfl
  source := by simp [SelectedPacketLocator.opened]
  inside := by simp [SelectedPacketLocator.opened, SelectedPacketLocator.dataEnd]
  nonneg := hlength
  length_le := h
  last := ⟨item, rfl, rfl⟩
  gaps o ho ho' := .inl ⟨item, by simp, ho, ho'⟩

theorem Fetches.join {current : CoalescedRange}
    {previous : SelectedPacketLocator} (h : Fetches limits ls current)
    (hprevious : previous ∈ ls.getLast?) (hjoin : CanJoin limits current previous item)
    (hlength : 0 ≤ item.capturedLength) : Fetches limits (ls ++ [item]) (current.join item) := by
  obtain ⟨hsame, hindex, hgap, hsmall, hspan, -, -⟩ := hjoin
  obtain ⟨last, hlast, hend⟩ := h.last
  obtain rfl : previous = last := Option.mem_unique hprevious hlast
  obtain ⟨front, rfl⟩ := getLast?_eq_some_iff.mp hlast
  have hitem : item.dataEnd = item.dataOffset + item.capturedLength := rfl
  have hnonneg := h.nonneg
  have hall : ∀ l ∈ front ++ [previous] ++ [item], l ∈ front ++ [previous] ∨ l = item := fun l hl =>
    (mem_append.mp hl).imp_right mem_singleton.mp
  have hnew : (current.join item).offset + (current.join item).length = item.dataEnd := by
    change current.offset + (item.dataEnd - current.offset) = _
    omega
  have hlonger : 0 ≤ (current.join item).length := by
    change 0 ≤ item.dataEnd - current.offset
    omega
  refine ⟨by simp [CoalescedRange.join, h.slices], ?_, ?_, hlonger, hspan, ⟨item, by simp, hnew.symm⟩, ?_⟩
  · intro l hl
    rcases hall l hl with hl | rfl
    · exact h.source l hl
    · exact (h.source previous (by simp)).trans hsame
  · intro l hl
    rw [hnew]
    rcases hall l hl with hl | rfl
    · have := h.inside l hl
      exact ⟨this.1, by omega⟩
    · exact ⟨by change current.offset ≤ _; omega, le_refl _⟩
  · intro o ho ho'
    rw [hnew] at ho'
    -- A byte is of the range as it was, of the gap, or of the packet.
    by_cases hold : o < current.offset + current.length
    · rcases h.gaps o ho hold with ⟨l, hl, hin⟩ | ⟨a, b, hab, hin⟩
      · exact .inl ⟨l, mem_append_left _ hl, hin⟩
      · exact .inr ⟨a, b, hab.trans (prefix_append _ _).isInfix, hin⟩
    · by_cases hpacket : item.dataOffset ≤ o
      · exact .inl ⟨item, by simp, hpacket, ho'⟩
      · exact .inr ⟨previous, item, ⟨front, [], by simp⟩, by omega, by omega, by omega, hindex⟩

/-! ## The loop -/

theorem setdefault_eq_ok {κ ν : Type} [DecidableEq κ] [DecidableEq ν] {d d' : Dict κ ν} {key : κ} {value : ν}
    (h : setdefault d key value = .ok d') :
    d'.find? key = some value ∧ ∀ k v, d.find? k = some v → d'.find? k = some v := by
  rw [setdefault] at h
  split at h
  · next hnone =>
    cases h
    refine ⟨by simp [Dict.find?_put], fun k v hk => ?_⟩
    have hne : k ≠ key := fun heq => by simp [heq, hnone] at hk
    rw [Dict.find?_put, if_neg hne, hk]
  · next found hfound =>
    obtain ⟨hvalue, h⟩ := Except.guard_eq_ok.mp h
    cases h
    exact ⟨hfound.trans (congrArg some (not_not.mp hvalue)), fun _ _ hk => hk⟩

end

/-- What the loop keeps: every packet agrees with the tables, the last one is remembered, and the ranges
are of the packets, in their order. -/
structure Planned (limits : SourceRangePlanLimits) (ls : List SelectedPacketLocator) (s : Planner) : Prop where
  identities : ∀ l ∈ ls, s.sourceIdentities.find? l.key = some l.identity
  orders : ∀ l ∈ ls, s.orders.find? l.sourceOrder = some l.key
  previous : s.previous = ls.getLast?
  ranges : ∃ groups : List (List SelectedPacketLocator), groups.reverse.flatten = ls ∧
    List.Forall₂ (Fetches limits) groups s.ranges

variable {locators : List SelectedPacketLocator}

section

variable {s : Planner} {ordered : List SelectedPacketLocator} {ranges : List CoalescedRange}

theorem Planned.coalesce (h : Planned limits ls s) (hlength : 0 ≤ item.capturedLength)
    (hle : item.capturedLength ≤ limits.maxRangeBytes) :
    ∃ groups : List (List SelectedPacketLocator), groups.reverse.flatten = ls ++ [item] ∧
      List.Forall₂ (Fetches limits) groups (coalesce limits item s.ranges s.previous) := by
  obtain ⟨groups, hgroups, hranges⟩ := h.ranges
  have hnew : ([item] :: groups).reverse.flatten = ls ++ [item] := by simp [hgroups]
  have hopened := hranges.cons (Fetches.opened hlength hle)
  rw [IndexedExport.coalesce.eq_def]
  split
  · next current ranges previous hcurrent hprevious =>
    split
    · next hjoin =>
      rw [hcurrent] at hranges
      cases hranges with
      | @cons group _ groups _ hfetches hranges =>
        refine ⟨(group ++ [item]) :: groups, by simp [← hgroups], hranges.cons ?_⟩
        refine hfetches.join ?_ hjoin hlength
        obtain ⟨last, hlast, -⟩ := hfetches.last
        rw [h.previous, ← hgroups, reverse_cons, flatten_append, flatten_singleton,
          getLast?_append, hlast, Option.some_or] at hprevious
        exact hlast.trans hprevious
    · exact ⟨_, hnew, hcurrent ▸ hopened⟩
  · exact ⟨_, hnew, hopened⟩

theorem Planned.plan {s' : Planner} (h : Planned limits ls s) (hitem : item.capturedLength ≠ 0)
    (hplan : plan limits s item = .ok s') : Planned limits (ls ++ [item]) s' := by
  obtain ⟨sourceIdentities, hidentities, hplan⟩ := Except.bind_eq_ok.mp hplan
  obtain ⟨orders, horders, hplan⟩ := Except.bind_eq_ok.mp hplan
  obtain ⟨hvalid, hplan⟩ := Except.guard_eq_ok.mp hplan
  rw [if_neg hitem] at hplan
  obtain ⟨hle, hplan⟩ := Except.guard_eq_ok.mp hplan
  cases hplan
  obtain ⟨hidentity, hidentities⟩ := setdefault_eq_ok hidentities
  obtain ⟨horder, horders⟩ := setdefault_eq_ok horders
  refine ⟨?_, ?_, by simp, h.coalesce (by omega) (by omega)⟩
  · intro l hl
    rcases mem_append.mp hl with hl | hl
    · exact hidentities _ _ (h.identities l hl)
    · rw [mem_singleton.mp hl, hidentity]
  · intro l hl
    rcases mem_append.mp hl with hl | hl
    · exact horders _ _ (h.orders l hl)
    · rw [mem_singleton.mp hl, horder]

theorem Planned.run (hne : ∀ l ∈ ordered, l.capturedLength ≠ 0)
    (h : ordered.foldlM (IndexedExport.plan limits) {} = .ok s) : Planned limits ordered s := by
  refine List.foldlM_eq_ok_induction (Planned limits) ?_ ?_ h
  · exact ⟨by simp, by simp, rfl, [], rfl, .nil⟩
  · intro done item t t' hpre hplanned hplan
    exact hplanned.plan (hne item (hpre.subset (by simp))) hplan

/-! ## The plan -/

theorem exists_range {groups : List (List SelectedPacketLocator)}
    (h : List.Forall₂ (Fetches limits) groups ranges) {group : List SelectedPacketLocator}
    (hgroup : group ∈ groups) : ∃ r ∈ ranges, Fetches limits group r := by
  induction h with
  | nil => simp at hgroup
  | @cons _ r _ ranges hfetches _ ih =>
    rcases mem_cons.mp hgroup with rfl | hgroup
    · exact ⟨r, mem_cons_self, hfetches⟩
    · exact (ih hgroup).imp fun _ hr => ⟨mem_cons_of_mem _ hr.1, hr.2⟩

/-- Packets with the same place in the order are the same packet. -/
theorem Planned.sortKey_injective (h : Planned limits ordered s)
    (hnodup : (ordered.map fun l => (l.key, l.packetIndex)).Nodup) {a b : SelectedPacketLocator}
    (ha : a ∈ ordered) (hb : b ∈ ordered) (hab : a.sortKey = b.sortKey) : a = b := by
  obtain ⟨horder, -, hindex⟩ : a.sourceOrder = b.sourceOrder ∧ a.dataOffset = b.dataOffset ∧
      a.packetIndex = b.packetIndex := by simpa [SelectedPacketLocator.sortKey] using hab
  have hkey : a.key = b.key := by
    have hfind := h.orders a ha
    rw [horder, h.orders b hb] at hfind
    exact (Option.some.inj hfind).symm
  exact inj_on_of_nodup_map hnodup ha hb (by rw [hkey, hindex])

/-- The order does not depend on how the packets were given. -/
theorem insertionSort_eq_of_perm {locators' : List SelectedPacketLocator} (hperm : locators'.Perm locators)
    (hinj : ∀ a ∈ locators, ∀ b ∈ locators, a.sortKey = b.sortKey → a = b) :
    locators'.insertionSort (fun a b => a.sortKey ≤ b.sortKey) =
      locators.insertionSort (fun a b => a.sortKey ≤ b.sortKey) := by
  have : IsTrans SelectedPacketLocator fun a b => a.sortKey ≤ b.sortKey := ⟨fun _ _ _ => le_trans⟩
  have : Std.Total fun a b : SelectedPacketLocator => a.sortKey ≤ b.sortKey := ⟨fun _ _ => le_total _ _⟩
  refine List.Perm.eq_of_pairwise (fun a b ha hb hab hba => ?_) (pairwise_insertionSort _ _)
    (pairwise_insertionSort _ _)
    (((perm_insertionSort _ _).trans hperm).trans (perm_insertionSort _ _).symm)
  exact hinj a (hperm.mem_iff.mp ((mem_insertionSort _).mp ha)) b ((mem_insertionSort _).mp hb)
    (le_antisymm hab hba)

/-- The bytes that are fetched from a source are within its limits. -/
theorem Planned.checkSource {r : CoalescedRange} {l : SelectedPacketLocator}
    (h : Planned limits ordered s) (hl : l ∈ ordered) (hkey : r.key = l.key)
    (hcheck : checkSource limits ordered ranges r = .ok ()) :
    fetchedFrom ranges l.key < l.sourceSizeBytes ∧ fetchedFrom ranges l.key * limits.maxSourceFractionDenominator ≤
        l.sourceSizeBytes * limits.maxSourceFractionNumerator := by
  rw [IndexedExport.checkSource, hkey] at hcheck
  split at hcheck
  · cases hcheck
  next item hfind =>
  have hitem : item.key = l.key := by simpa using find?_some hfind
  have hsame := h.identities item (mem_reverse.mp (mem_of_find?_eq_some hfind))
  rw [hitem, h.identities l hl] at hsame
  have hsize : l.sourceSizeBytes = item.sourceSizeBytes :=
    congrArg (fun identity => identity.2.1) (Option.some.inj hsame)
  rw [hsize]
  have := (Except.guard_eq_ok.mp hcheck).1
  omega

end

/-- The limits that a plan satisfies. -/
structure WithinLimits (limits : RangePlanLimits) (locators : List SelectedPacketLocator) (p : RangePlan) :
    Prop where
  ranges : p.ranges.length ≤ limits.maxRanges
  total : p.fetchedBytes ≤ limits.maxTotalFetchedBytes
  amplification : p.fetchedBytes * limits.maxAmplificationDenominator ≤
    p.selectedPayloadBytes * limits.maxAmplificationNumerator
  fraction : ∀ l ∈ locators, fetchedFrom p.ranges l.key < l.sourceSizeBytes ∧
    fetchedFrom p.ranges l.key * limits.maxSourceFractionDenominator ≤
      l.sourceSizeBytes * limits.maxSourceFractionNumerator

/-- A packet of an upload. -/
def uploaded : SelectedPacketLocator where
  sourceKind := .pcapUpload
  sourceId := "a"
  objectKey := "upload"
  sourceVersionId := "1"
  parentStructuralBuildId := "b"
  sourceSizeBytes := 100
  sourceSha256 := "h"
  sourceOrder := 0
  packetIndex := 0
  dataOffset := 40
  capturedLength := 10

/-- A packet of a live segment that has the id of the upload. -/
def live : SelectedPacketLocator :=
  { uploaded with
    sourceKind := .liveSegment, objectKey := "live", sourceOrder := 1, packetIndex := 1, dataOffset := 50 }

/-- The empty packet before it. -/
def empty : SelectedPacketLocator := { live with packetIndex := 0, capturedLength := 0 }

def someLimits : RangePlanLimits := ⟨⟨0, 100, 1, 1⟩, 10, 100, 1, 1⟩

end C2Hunter.IndexedExport
