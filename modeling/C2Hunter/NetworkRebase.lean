import C2Hunter.NetworkTally

/-!
# Flows under another origin

What `_scan_tcp` keeps of a flow, compared with what it keeps of the same flow when each side
started to count elsewhere. Numbers of the circle are moved by `rebase`, coordinates by a constant
that agrees with it modulo `2^32`, and everything else is the same. Samples, facts and
measurements are not compared.

* `TCPDirection.Moved` — one direction; acknowledgments and data keep it.
* `Flow.Moved`, `Tracker.Moved` — the flow, and the flow with its budget.
* `Tracker.Moved.scanTcp`, `Tracker.Moved.scanUdp` — what a record does to it.

With no move at all, this compares a flow with itself under another budget.
-/

namespace C2Hunter.Network

open List HeapEntry

/-! ## Lists -/

section Lists

variable {α β : Type}

/-- What a downward closed predicate takes from the front of a sorted list. -/
theorem takeWhile_eq_filter {p : α → Bool} {l : List α} (h : l.Pairwise fun x y => p y = true → p x = true) :
    l.takeWhile p = l.filter p ∧ l.dropWhile p = l.filter fun x => !p x := by
  induction l with
  | nil => exact ⟨rfl, rfl⟩
  | cons x l ih =>
    rw [pairwise_cons] at h
    obtain ⟨htake, hdrop⟩ := ih h.2
    by_cases hx : p x = true
    · rw [takeWhile_cons_of_pos hx, dropWhile_cons_of_pos hx, filter_cons_of_pos hx,
        filter_cons_of_neg (by simp [hx]), htake, hdrop]
      exact ⟨rfl, rfl⟩
    have hnone : ∀ y ∈ l, ¬p y = true := fun y hy hpy => hx (h.1 y hy hpy)
    rw [takeWhile_cons_of_neg hx, dropWhile_cons_of_neg hx, filter_cons_of_neg hx,
      filter_cons_of_pos (by simp [hx]), filter_eq_nil_iff.mpr hnone,
      filter_eq_self.mpr fun y hy => by simp [hnone y hy]]
    exact ⟨rfl, rfl⟩

theorem map_insert_of_injective [DecidableEq α] [DecidableEq β] {f : α → β}
    (hf : Function.Injective f) (x : α) (l : List α) :
    (l.insert x).map f = (l.map f).insert (f x) := by
  by_cases hx : x ∈ l
  · rw [insert_of_mem hx, insert_of_mem ((mem_map_of_injective hf).mpr hx)]
  · rw [insert_of_not_mem hx, insert_of_not_mem (mt (mem_map_of_injective hf).mp hx), map_cons]

end Lists

/-! ## One direction -/

/-- A piece of data under another origin. -/
def DataKey.rebase (δ : Int) (key : DataKey) : DataKey := { key with seq := Network.rebase δ key.seq }

theorem DataKey.rebase_injective (δ : Int) : Function.Injective (DataKey.rebase δ) := by
  rintro ⟨seq, length, digest⟩ ⟨seq', length', digest'⟩ h
  simp only [rebase, DataKey.mk.injEq] at h ⊢
  exact ⟨Network.rebase_injective δ h.1, h.2⟩

namespace HeapEntry

/-- An entry under another origin. -/
def move (δ c : Int) (entry : HeapEntry) : HeapEntry := ⟨entry.rank + c, entry.key.rebase δ⟩

/-- The tuple that an entry is in the source. -/
def tuple (entry : HeapEntry) : ℤ ×ₗ ℤ ×ₗ ℤ ×ₗ String :=
  toLex (entry.rank, toLex (entry.key.seq, toLex (entry.key.length, entry.key.digest)))

variable {x y : HeapEntry}

theorem le_iff : x.le y = true ↔ x.tuple ≤ y.tuple := by
  simp only [le, tuple, Prod.Lex.toLex_le_toLex, decide_eq_true_eq]

theorem rank_le (h : x.le y = true) : x.rank ≤ y.rank := by
  rw [le, decide_eq_true_eq] at h
  obtain h | h := h
  · exact h.le
  · exact h.1.le

/-- Entries of the same rank are of the same number, so moving keeps their order. -/
theorem move_le {δ c : Int} (h : x.rank = y.rank → x.key.seq = y.key.seq) :
    (x.move δ c).le (y.move δ c) = x.le y := by
  simp only [le, move, DataKey.rebase, add_lt_add_iff_right, add_left_inj, decide_eq_decide]
  refine or_congr_right (and_congr_right fun hrank => ?_)
  simp only [h hrank, lt_irrefl]

end HeapEntry

theorem pairwise_heappush {heap : List HeapEntry} (h : heap.Pairwise fun x y => x.le y = true) (entry : HeapEntry) :
    (heappush heap entry).Pairwise fun x y => x.le y = true := by
  have : Std.Total fun x y : HeapEntry => x.le y = true :=
    ⟨fun x y => by simpa only [le_iff] using le_total x.tuple y.tuple⟩
  have : IsTrans HeapEntry fun x y => x.le y = true :=
    ⟨fun x y z => by simpa only [le_iff] using le_trans⟩
  exact h.orderedInsert entry heap

namespace TCPDirection

/-- One direction of a flow and the same direction under another origin: `own` moves the numbers of
its sender, `peer` those of the other side, and `c` the coordinates. -/
structure Moved (own peer c : Int) (d e : TCPDirection) : Prop where
  sequence : e.sequence = d.sequence.shift c
  seen : e.seen = d.seen.map (DataKey.rebase own)
  outstanding : e.outstanding = d.outstanding.map (DataKey.rebase own)
  starts : e.starts = d.starts.map (HeapEntry.move own (-c))
  /-- pieces of data with the same end may be in another order -/
  ends : e.ends.Perm (d.ends.map (HeapEntry.move own c))
  lastAck : e.lastAck = d.lastAck.map fun ack => (rebase own ack.1, rebase peer ack.2.1, ack.2.2)
  fresh : d.sequence.upper = none → d.sequence = {} ∧ d.starts = [] ∧ d.ends = []
  /-- pieces of data with the same start have the same number -/
  placed : ∀ entry ∈ d.starts, (0 ≤ entry.key.seq ∧ entry.key.seq < modulus) ∧
    entry.key.seq ≡ -entry.rank [ZMOD modulus]
  sorted : d.ends.Pairwise fun x y => x.le y = true
  sorted' : e.ends.Pairwise fun x y => x.le y = true

theorem Moved.empty (own peer c : Int) : Moved own peer c {} {} where
  sequence := rfl
  seen := rfl
  outstanding := rfl
  starts := rfl
  ends := .nil
  lastAck := rfl
  fresh _ := ⟨rfl, rfl, rfl⟩
  placed _ h := by cases h
  sorted := .nil
  sorted' := .nil

section Moved

variable {own peer c : Int} {d e : TCPDirection} {ack seq seq' : Int} {ends : List HeapEntry}

section

variable (h : Moved own peer c d e) (hc : c ≡ own [ZMOD modulus])
  (hseq : seq' ≡ seq + own [ZMOD modulus]) (length : Int)

include h hc hseq

/-- A direction and its moved copy see a number and its moved copy. -/
theorem Moved.observe : ∃ c', c' ≡ own [ZMOD modulus] ∧ Moved own peer c' d e ∧ e.sequence.observe seq' length =
      ((d.sequence.observe seq length).1.map (· + c'), (d.sequence.observe seq length).2.shift c') := by
  obtain ⟨c', hc', heq, hobserve⟩ := TCPSequenceSpace.observe_moved length hc
    (fun hupper => (h.fresh hupper).1) hseq
  refine ⟨c', hc', ?_, h.sequence ▸ hobserve⟩
  by_cases hupper : d.sequence.upper = none
  · -- nothing has a coordinate yet
    obtain ⟨hsequence, hstarts, hends⟩ := h.fresh hupper
    have hstarts' := h.starts
    have hends' := h.ends
    rw [hstarts] at hstarts'
    rw [hends] at hends'
    refine { h with sequence := ?_, starts := ?_, ends := ?_ }
    · rw [h.sequence, hsequence]
      rfl
    · rw [hstarts', hstarts]
      rfl
    · rw [hends]
      exact hends'
  · rw [heq hupper]
    exact h

/-- The place of a number in both. -/
theorem Moved.place : ∃ c', c' ≡ own [ZMOD modulus] ∧ Moved own peer c'
      { d with sequence := (d.sequence.observe seq length).2 }
      { e with sequence := (e.sequence.observe seq' length).2 } := by
  obtain ⟨c', hc', hmoved, hobserve⟩ := h.observe hc hseq length
  refine ⟨c', hc', { hmoved with sequence := ?_, fresh := fun hupper => ?_ }⟩
  · rw [hobserve]
  · have hself := TCPSequenceSpace.observe_eq_self hupper
    simp only [hself] at hupper ⊢
    exact h.fresh hupper

end

/-- What the loop over `ends` leaves, where it does not raise. -/
theorem retire_ok {r r' : Retiring} (h : retire ack ends r = .ok r') :
    r'.ends = ends.dropWhile (fun entry => entry.rank ≤ ack) ∧ r'.outstanding =
        r.outstanding.diff ((ends.takeWhile fun entry => entry.rank ≤ ack).map key) := by
  induction ends generalizing r with
  | nil =>
    cases h
    exact ⟨rfl, rfl⟩
  | cons entry ends ih =>
    rw [retire] at h
    split at h
    · next hcovered =>
      split at h
      · cases h
      · rw [dropWhile_cons_of_pos (by simpa using hcovered),
          takeWhile_cons_of_pos (by simpa using hcovered), map_cons, diff_cons]
        exact ih h
    · next hcovered =>
      cases h
      rw [dropWhile_cons_of_neg (by simpa using hcovered), takeWhile_cons_of_neg (by simpa using hcovered)]
      exact ⟨rfl, rfl⟩

/-- Data that an acknowledgment covers, by the order of the heap. -/
theorem covered_eq_filter (h : ends.Pairwise fun x y => x.le y = true) (ack : Int) :
    (ends.takeWhile fun entry => entry.rank ≤ ack) = (ends.filter fun entry => entry.rank ≤ ack) ∧
      (ends.dropWhile fun entry => entry.rank ≤ ack) = ends.filter fun entry => !decide (entry.rank ≤ ack) := by
  refine takeWhile_eq_filter (h.imp fun {x y} hle hy => ?_)
  rw [decide_eq_true_eq] at hy ⊢
  exact (rank_le hle).trans hy

section

variable (h : Moved own peer c d e)

include h

/-- An acknowledgment covers the moved copies of what it covered. -/
theorem Moved.covered (ack : Int) : (e.ends.takeWhile fun entry => entry.rank ≤ ack + c).Perm
        ((d.ends.takeWhile fun entry => entry.rank ≤ ack).map (move own c)) ∧
      (e.ends.dropWhile fun entry => entry.rank ≤ ack + c).Perm
        ((d.ends.dropWhile fun entry => entry.rank ≤ ack).map (move own c)) := by
  obtain ⟨htake, hdrop⟩ := covered_eq_filter h.sorted ack
  obtain ⟨htake', hdrop'⟩ := covered_eq_filter h.sorted' (ack + c)
  have hrank : (fun entry : HeapEntry => decide (entry.rank ≤ ack + c)) ∘ move own c =
      fun entry => decide (entry.rank ≤ ack) := by
    funext entry
    simp only [Function.comp_apply, move, add_le_add_iff_right]
  have hrank' : (fun entry : HeapEntry => !decide (entry.rank ≤ ack + c)) ∘ move own c =
      fun entry => !decide (entry.rank ≤ ack) := by
    funext entry
    simp only [Function.comp_apply, move, add_le_add_iff_right]
  rw [htake, hdrop, htake', hdrop', ← hrank, ← hrank', ← filter_map, ← filter_map]
  exact ⟨h.ends.filter _, h.ends.filter _⟩

/-- An acknowledgment and its moved copy. -/
theorem Moved.acknowledge (hc : c ≡ own [ZMOD modulus]) {ack' time time' : Int}
    (hack : ack' ≡ ack + own [ZMOD modulus]) {m m' n n' : SupportingMeasurements} {sample : Bool}
    {o o' : Bool} {d' e' : TCPDirection} (hd : d.acknowledge ack time m sample = .ok (o, d', n))
    (he : e.acknowledge ack' time' m' sample = .ok (o', e', n')) : o' = o ∧ Moved own peer c d' e' := by
  have hposition := TCPSequenceSpace.acknowledge_shift (s := d.sequence) (hack.trans (hc.symm.add_left ack))
  rw [TCPDirection.acknowledge] at hd he
  rw [h.sequence, hposition] at he
  cases hseq : d.sequence.acknowledge ack with
  | mk position sequence =>
    rw [hseq] at hd he
    cases position with
    | none =>
      simp only [Option.map_none, Except.ok.injEq, Prod.mk.injEq] at hd he
      obtain ⟨rfl, rfl, -⟩ := hd
      obtain ⟨rfl, rfl, -⟩ := he
      exact ⟨rfl, h⟩
    | some position =>
      simp only [Option.map_some, Except.bind_eq_ok, Except.pure_eq_ok, Except.ok.injEq, Prod.mk.injEq] at hd he
      obtain ⟨r, hr, rfl, rfl, -⟩ := hd
      obtain ⟨r', hr', rfl, rfl, -⟩ := he
      obtain ⟨hends, houtstanding⟩ := retire_ok hr
      obtain ⟨hends', houtstanding'⟩ := retire_ok hr'
      obtain ⟨htake, hdrop⟩ := h.covered position
      have hkeys : (d.ends.takeWhile fun entry => entry.rank ≤ position).map (key ∘ move own c) =
          ((d.ends.takeWhile fun entry => entry.rank ≤ position).map key).map (DataKey.rebase own) := by
        rw [map_map]
        rfl
      have hout : r'.outstanding = r.outstanding.map (DataKey.rebase own) := by
        have hperm := htake.map key
        rw [map_map, hkeys] at hperm
        rw [houtstanding', houtstanding, h.outstanding, map_diff (DataKey.rebase_injective own)]
        exact hperm.diff_left _
      have hstarts : (e.starts.dropWhile fun entry => entry.key ∉ r'.outstanding) =
          (d.starts.dropWhile fun entry => entry.key ∉ r.outstanding).map (move own (-c)) := by
        rw [h.starts, hout, dropWhile_map]
        congr 2
        funext entry
        simp only [Function.comp_apply, move, mem_map_of_injective (DataKey.rebase_injective own)]
      -- the direction has seen something, or nothing could be acknowledged
      have hupper : sequence.upper ≠ none := TCPSequenceSpace.acknowledge_upper hseq
      refine ⟨?_, rfl, h.seen, hout, hstarts, ?_, h.lastAck, fun hnone => absurd hnone hupper, ?_, ?_, ?_⟩
      · rw [hstarts, head?_map]
        cases (d.starts.dropWhile fun entry => entry.key ∉ r.outstanding).head? with
        | none => rfl
        | some entry =>
          simp only [Option.map_some, Option.any_some, move, decide_eq_decide]
          omega
      · rw [hends', hends]
        exact hdrop
      · exact fun entry hentry => h.placed entry ((dropWhile_sublist _).subset hentry)
      · rw [hends]
        exact h.sorted.sublist (dropWhile_sublist _)
      · rw [hends']
        exact h.sorted'.sublist (dropWhile_sublist _)

theorem Moved.mark (key : DataKey) (position position' : Option Int) {sequence : TCPSequenceSpace}
    (hsequence : sequence.upper = none → sequence = d.sequence) :
    Moved own peer c (d.mark key position sequence) (e.mark (key.rebase own) position' (sequence.shift c)) := by
  refine { h with sequence := rfl, seen := ?_, fresh := fun hupper => ?_ }
  · rw [TCPDirection.mark, TCPDirection.mark, h.seen]
    exact (map_insert_of_injective (DataKey.rebase_injective own) key d.seen).symm
  · obtain rfl := hsequence hupper
    exact h.fresh hupper

/-- A piece of data waits in both. -/
theorem Moved.enqueue (hupper : d.sequence.upper ≠ none) {key : DataKey}
    (hkey : 0 ≤ key.seq ∧ key.seq < modulus) {position : Int}
    (hposition : position ≡ key.seq [ZMOD modulus]) (time time' : Int) :
    Moved own peer c (d.enqueue key position time) (e.enqueue (key.rebase own) (position + c) time') where
  sequence := h.sequence
  seen := h.seen
  outstanding := by
    rw [TCPDirection.enqueue, TCPDirection.enqueue, h.outstanding]
    exact (map_insert_of_injective (DataKey.rebase_injective own) key d.outstanding).symm
  starts := by
    have hentry : (⟨-(position + c), key.rebase own⟩ : HeapEntry) = move own (-c) ⟨-position, key⟩ := by
      rw [move, neg_add]
    have hsame : ∀ entry ∈ d.starts, entry.rank = -position → entry.key.seq = key.seq := by
      intro entry hentry hrank
      obtain ⟨hrange, hplaced⟩ := h.placed entry hentry
      rw [hrank, neg_neg] at hplaced
      exact eq_of_modEq hrange hkey (hplaced.trans hposition)
    simp only [TCPDirection.enqueue, h.starts, hentry, heappush]
    refine (map_orderedInsert _ _ _ d.starts _ (fun entry hentry => ?_) fun entry hentry => ?_).symm
    · rw [move_le (hsame entry hentry)]
    · rw [move_le fun hrank => (hsame entry hentry hrank.symm).symm]
  ends := by
    have hentry : (⟨position + c + key.length, key.rebase own⟩ : HeapEntry) =
        move own c ⟨position + key.length, key⟩ := by
      rw [move, add_right_comm]
    calc heappush e.ends ⟨position + c + key.length, key.rebase own⟩
        |>.Perm (move own c ⟨position + key.length, key⟩ :: e.ends) := by
          rw [hentry]
          exact perm_orderedInsert _ _ _
      _ |>.Perm ((⟨position + key.length, key⟩ :: d.ends).map (move own c)) :=
          h.ends.cons _
      _ |>.Perm ((heappush d.ends ⟨position + key.length, key⟩).map (move own c)) :=
          (perm_orderedInsert _ _ _).symm.map _
  lastAck := h.lastAck
  fresh hnone := absurd hnone hupper
  placed entry hentry := by
    obtain rfl | hentry := mem_orderedInsert _ |>.mp hentry
    · refine ⟨hkey, ?_⟩
      rw [neg_neg]
      exact hposition.symm
    · exact h.placed entry hentry
  sorted := pairwise_heappush h.sorted _
  sorted' := pairwise_heappush h.sorted' _

end

end Moved

end TCPDirection

/-! ## Flows -/

/-- The values of a record under another origin. -/
def Obj.rebase (δ : Int) : Obj → Obj
  | .int n => .int (Network.rebase δ n)
  | value => value

/-- A segment under another origin: its number belongs to its sender, its acknowledgment to the
other side. -/
def TcpSegment.rebase (δ : Bool → Int) (direction : Bool) (seg : TcpSegment) : TcpSegment :=
  { seg with
    seq := Network.rebase (δ direction) seg.seq
    ackNumber := Network.rebase (δ !direction) seg.ackNumber }

/-- A flow and the same flow under another origin of each direction. -/
structure Flow.Moved (δ : Bool → Int) (f g : Flow) : Prop where
  limited : g.limited = f.limited
  directions : g.directions = f.directions
  tcp : ∀ d, ∃ c, c ≡ δ d [ZMOD modulus] ∧ (f.tcp.get d).Moved (δ d) (δ !d) c (g.tcp.get d)
  udp : g.udp = f.udp
  syn : ∀ d n, (g.syn.find? (d, rebase (δ d) n)).isSome = (f.syn.find? (d, n)).isSome
  epochSyn : ∀ d, g.epochSyn.get d = (f.epochSyn.get d).map (rebase (δ d))
  closed : ∀ d, g.closure.ends.get d = (f.closure.ends.get d).map (rebase (δ d))
  acknowledged : g.closure.acknowledged = f.closure.acknowledged
  lastTime : g.lastTime = f.lastTime
  clockInvalid : g.clockInvalid = f.clockInvalid
  tallies : g.tallies = f.tallies

/-- A flow with its budget. Where `shared` holds, both runs have used as much of it. -/
structure Tracker.Moved (shared : Prop) (δ : Bool → Int) (t u : Tracker) : Prop where
  flow : t.flow.Moved δ u.flow
  budget : shared → u.budget.correlations = t.budget.correlations

/-- A record and the same record under another origin. -/
structure Arrival.Moved (δ : Bool → Int) (p q : Arrival) : Prop where
  key : q.key = p.key
  direction : q.direction = p.direction
  time : q.time = p.time
  others : ∀ name, name ≠ "tcp_sequence" → name ≠ "tcp_acknowledgment" →
    ∀ default, q.record.getD name default = p.record.getD name default
  sequence : p.key.protocol = "TCP" →
    q.record.get "tcp_sequence" = (p.record.get "tcp_sequence").rebase (δ p.direction)
  acknowledgment : p.key.protocol = "TCP" →
    q.record.get "tcp_acknowledgment" = (p.record.get "tcp_acknowledgment").rebase (δ !p.direction)
  same : p.key.protocol ≠ "TCP" → q.record = p.record

section

variable {δ : Bool → Int} {p q : Arrival} (h : p.Moved δ q)

include h

theorem Arrival.Moved.dest : q.dest = p.dest := by
  rw [Arrival.dest, Arrival.dest, h.direction, h.key]

theorem Arrival.Moved.get (name : String) (hseq : name ≠ "tcp_sequence")
    (hack : name ≠ "tcp_acknowledgment") : q.record.get name = p.record.get name :=
  h.others name hseq hack _

theorem Arrival.Moved.source : q.source = p.source := by
  rw [Arrival.source, Arrival.source, h.direction, h.key]

end

theorem Flow.Moved.fresh (δ : Bool → Int) : Flow.Moved δ {} {} where
  limited := rfl
  directions := rfl
  tcp d := by
    refine ⟨δ d, Int.ModEq.refl _, ?_⟩
    rw [Pair.get_both]
    exact .empty _ _ _
  udp := rfl
  syn _ _ := rfl
  epochSyn d := by rw [Pair.get_both, Option.map_none]
  closed d := by rw [Pair.get_both, Option.map_none]
  acknowledged := rfl
  lastTime := rfl
  clockInvalid := rfl
  tallies := rfl

namespace Tracker

section Moved

variable {shared : Prop} {δ : Bool → Int} {t u : Tracker}

section

variable (h : Moved shared δ t u)

include h

theorem Moved.seen : u.flow.tcp.zero.seen.length = t.flow.tcp.zero.seen.length ∧
    u.flow.tcp.one.seen.length = t.flow.tcp.one.seen.length := by
  have hseen (d : Bool) : (u.flow.tcp.get d).seen.length = (t.flow.tcp.get d).seen.length := by
    obtain ⟨c, -, hmoved⟩ := h.flow.tcp d
    rw [hmoved.seen, length_map]
  exact ⟨hseen false, hseen true⟩

theorem Moved.size : u.flow.size = t.flow.size := by
  rw [Flow.size, Flow.size, h.flow.udp, h.seen.1, h.seen.2]

theorem Moved.clearTcp : Moved shared δ t.clearTcp u.clearTcp where
  flow :=
    { h.flow with
      tcp := (Flow.Moved.fresh δ).tcp
      syn := fun _ _ => rfl
      closed := (Flow.Moved.fresh δ).closed
      acknowledged := rfl }
  budget hshared := by
    rw [Tracker.clearTcp, Tracker.clearTcp]
    simp only [h.budget hshared, h.seen]

theorem Moved.clearCorrelations : Moved shared δ t.clearCorrelations u.clearCorrelations where
  flow := { h.clearTcp.flow with udp := rfl }
  budget hshared := by
    have hudp : u.clearTcp.flow.udp = t.clearTcp.flow.udp := h.clearTcp.flow.udp
    rw [Tracker.clearCorrelations, Tracker.clearCorrelations]
    simp only [h.clearTcp.budget hshared, hudp]

theorem Moved.forgetEpoch : Moved shared δ t.forgetEpoch u.forgetEpoch where
  flow := { h.flow with epochSyn := (Flow.Moved.fresh δ).epochSyn }
  budget := h.budget

theorem Moved.measure (f g : SupportingMeasurements → SupportingMeasurements) :
    Moved shared δ (t.measure f) (u.measure g) where
  flow := { h.flow with }
  budget := h.budget

theorem Moved.modifyTcp {d : Bool} {f g : TCPDirection → TCPDirection} (hmoved : ∃ c, c ≡ δ d [ZMOD modulus] ∧
      (f (t.flow.tcp.get d)).Moved (δ d) (δ !d) c (g (u.flow.tcp.get d))) :
    Moved shared δ (t.modifyTcp d f) (u.modifyTcp d g) where
  flow :=
    { h.flow with
      tcp := Pair.forall_get_set
        (P := fun d f g => ∃ c, c ≡ δ d [ZMOD modulus] ∧ TCPDirection.Moved (δ d) (δ !d) c f g) h.flow.tcp hmoved }
  budget := h.budget

end

theorem Moved.ite {P Q : Prop} [Decidable P] [Decidable Q] {t₁ u₁ t₂ u₂ : Tracker} (hiff : Q ↔ P)
    (h₁ : Moved shared δ t₁ u₁) (h₂ : Moved shared δ t₂ u₂) :
    Moved shared δ (if P then t₁ else t₂) (if Q then u₁ else u₂) := by
  by_cases hP : P
  · rw [if_pos hP, if_pos (hiff.mpr hP)]
    exact h₁
  · rw [if_neg hP, if_neg (mt hiff.mp hP)]
    exact h₂

variable {py : Python} (text : ReportText py)

theorem Moved.observe (h : Moved shared δ t u) (pattern : Pattern) (peer : Endpoint) (time : Int)
    (record record' : Record) :
    Moved shared δ (t.observe text pattern peer time record) (u.observe text pattern peer time record') := by
  have htallies : (u.observe text pattern peer time record').flow.tallies =
      (t.observe text pattern peer time record).flow.tallies := by
    rw [tallies_observe, tallies_observe, Flow.tallyWith, Flow.tallyWith, h.flow.tallies]
  rw [Tracker.observe, Tracker.observe] at htallies ⊢
  by_cases hicmp : pattern = .icmpErrors
  · simp only [if_pos hicmp] at htallies ⊢
    exact ⟨{ h.flow with tallies := htallies }, h.budget⟩
  · simp only [if_neg hicmp] at htallies ⊢
    exact ⟨{ h.flow with tallies := htallies }, h.budget⟩

/-- The keys of SYNs move apart from each other. -/
theorem rebase_key (δ : Bool → Int) (d d' : Bool) (n n' : Int) :
    (d', rebase (δ d') n') = (d, rebase (δ d) n) ↔ (d', n') = (d, n) := by
  rw [Prod.mk.injEq, Prod.mk.injEq]
  refine and_congr_right fun hd => ?_
  rw [hd, (rebase_injective (δ d)).eq_iff]

theorem Moved.putSyn (h : Moved shared δ t u) (d : Bool) (n : Int) (row row' : Int × Bool) :
    Moved shared δ { t with flow := { t.flow with syn := t.flow.syn.put ((d, n), row) } }
      { u with flow := { u.flow with syn := u.flow.syn.put ((d, rebase (δ d) n), row') } } where
  flow :=
    { h.flow with
      syn := fun d' n' => by
        have hkey := rebase_key δ d d' n n'
        rw [Dict.find?_put, Dict.find?_put]
        by_cases heq : (d', n') = (d, n)
        · rw [if_pos heq, if_pos (hkey.mpr heq)]
          rfl
        · rw [if_neg heq, if_neg (mt hkey.mp heq)]
          exact h.flow.syn d' n' }
  budget := h.budget

theorem Moved.eraseSyn (h : Moved shared δ t u) (d : Bool) (n : Int) :
    Moved shared δ { t with flow := { t.flow with syn := t.flow.syn.erase (d, n) } }
      { u with flow := { u.flow with syn := u.flow.syn.erase (d, rebase (δ d) n) } } where
  flow :=
    { h.flow with
      syn := fun d' n' => by
        have hkey := rebase_key δ d d' n n'
        rw [Dict.find?_erase, Dict.find?_erase]
        by_cases heq : (d', n') = (d, n)
        · rw [if_pos heq, if_pos (hkey.mpr heq)]
        · rw [if_neg heq, if_neg (mt hkey.mp heq)]
          exact h.flow.syn d' n' }
  budget := h.budget

section

variable (t : Tracker) (p : Arrival) (seg : TcpSegment)

/-- A SYN is a repeat, or the start of another epoch. -/
def knowSyn : Tracker :=
  match t.flow.syn.find? (p.direction, seg.seq) with
  | some (time, _) =>
    let t := t.observe text .synRetransmissions p.dest p.time p.record
    { t with flow := { t.flow with syn := t.flow.syn.put ((p.direction, seg.seq), (time, true)) } }
  | none =>
    let t := t.clearTcp.forgetEpoch
    { t with flow := { t.flow with
        syn := t.flow.syn.put ((p.direction, seg.seq), (p.time, false)) } }

/-- The SYN that the epoch of a direction starts with. -/
def anchorSyn : Tracker :=
  if synOnly p.record then
    { t with flow := { t.flow with epochSyn := t.flow.epochSyn.set p.direction (some seg.seq) } }
  else t

theorem scanSyn_eq : t.scanSyn text p seg =
    if seg.syn ∧ !seg.ack ∧ !seg.rst then (t.knowSyn text p seg).anchorSyn p seg else t := rfl

end

variable {p q : Arrival} {seg : TcpSegment}

section

variable (h : Moved shared δ t u) (hp : p.Moved δ q)

include h hp

theorem Moved.knowSyn : Moved shared δ (t.knowSyn text p seg) (u.knowSyn text q (seg.rebase δ p.direction)) := by
  have hfound := h.flow.syn p.direction seg.seq
  rw [Tracker.knowSyn, Tracker.knowSyn, hp.direction, hp.time, hp.dest]
  simp only [TcpSegment.rebase]
  cases ht : t.flow.syn.find? (p.direction, seg.seq) with
  | none =>
    rw [ht, Option.isSome_none, Option.isSome_eq_false_iff, Option.isNone_iff_eq_none] at hfound
    rw [hfound]
    exact h.clearTcp.forgetEpoch.putSyn _ _ _ _
  | some =>
    rw [ht, Option.isSome_some, Option.isSome_iff_exists] at hfound
    obtain ⟨row', hfound⟩ := hfound
    rw [hfound]
    exact (h.observe text .synRetransmissions p.dest p.time p.record q.record).putSyn _ _ _ _

theorem Moved.anchorSyn (hsyn : synOnly q.record = synOnly p.record) :
    Moved shared δ (t.anchorSyn p seg) (u.anchorSyn q (seg.rebase δ p.direction)) := by
  rw [Tracker.anchorSyn, Tracker.anchorSyn, hsyn, hp.direction]
  split
  · refine ⟨{ h.flow with epochSyn := ?_ }, h.budget⟩
    exact Pair.forall_get_set (P := fun d f g => g = Option.map (rebase (δ d)) f) h.flow.epochSyn rfl
  · exact h

theorem Moved.scanSyn (hsyn : synOnly q.record = synOnly p.record) :
    Moved shared δ (t.scanSyn text p seg) (u.scanSyn text q (seg.rebase δ p.direction)) := by
  rw [scanSyn_eq, scanSyn_eq]
  exact .ite Iff.rfl ((h.knowSyn text hp).anchorSyn hp hsyn) h

end

/-- The numbers of a complete segment. -/
structure TcpSegment.InRange (seg : TcpSegment) : Prop where
  seq : 0 ≤ seg.seq ∧ seg.seq < modulus
  ackNumber : 0 ≤ seg.ackNumber ∧ seg.ackNumber < modulus

theorem answered_rebase (hp : p.Moved δ q) (hseg : TcpSegment.InRange seg) : answered q (seg.rebase δ p.direction) =
      ((answered p seg).1, rebase (δ (answered p seg).1) (answered p seg).2) := by
  have hmove := rebase_add_emod (δ !p.direction) (-1) hseg.ackNumber
  rw [answered, answered, hp.direction]
  exact congrArg (Prod.mk _) hmove

section

variable (h : Moved shared δ t u) (hp : p.Moved δ q) (hseg : TcpSegment.InRange seg)

include h hp hseg

theorem Moved.matchSyn (row row' : Int × Bool) : Moved shared δ (t.matchSyn text p seg row)
      (u.matchSyn text q (seg.rebase δ p.direction) row') := by
  have herase := h.eraseSyn (answered p seg).1 (answered p seg).2
  rw [Tracker.matchSyn, Tracker.matchSyn, answered_rebase hp hseg, hp.source, hp.time]
  exact .ite Iff.rfl (herase.observe text _ _ _ _ _) (herase.measure _ _)

theorem Moved.scanResponse : Moved shared δ (t.scanResponse text p seg)
      (u.scanResponse text q (seg.rebase δ p.direction)) := by
  have hfound := h.flow.syn (answered p seg).1 (answered p seg).2
  rw [← answered_rebase hp hseg] at hfound
  rw [Tracker.scanResponse, Tracker.scanResponse]
  by_cases hresponse : seg.ack ∧ (seg.syn ∨ seg.rst)
  · rw [if_pos hresponse, if_pos (by exact hresponse)]
    cases ht : t.flow.syn.find? (answered p seg) with
    | none =>
      rw [ht, Option.isSome_none, Option.isSome_eq_false_iff, Option.isNone_iff_eq_none] at hfound
      rw [hfound]
      exact h
    | some row =>
      rw [ht, Option.isSome_some, Option.isSome_iff_exists] at hfound
      obtain ⟨row', hfound⟩ := hfound
      rw [hfound]
      exact h.matchSyn text hp hseg row row'
  · rw [if_neg hresponse, if_neg (by exact hresponse)]
    exact h

theorem Moved.placeSyn (length : Int) :
    Moved shared δ (t.placeSyn p seg length) (u.placeSyn q (seg.rebase δ p.direction) length) := by
  have hpos : (0 : Int) < modulus := by decide
  have hnext : ((seg.rebase δ p.direction).seq + 1) % modulus ≡
      (seg.seq + 1) % modulus + δ p.direction [ZMOD modulus] := by
    simp only [TcpSegment.rebase]
    rw [rebase_add_emod _ _ hseg.seq]
    exact rebase_modEq _ ⟨Int.emod_nonneg _ hpos.ne', Int.emod_lt_of_pos _ hpos⟩
  rw [Tracker.placeSyn, Tracker.placeSyn, hp.direction]
  obtain ⟨c, hc, hmoved⟩ := h.flow.tcp p.direction
  exact .ite Iff.rfl (h.modifyTcp (hmoved.place hc hnext length)) h

theorem Moved.placeFin (length : Int) :
    Moved shared δ (t.placeFin p seg length) (u.placeFin q (seg.rebase δ p.direction) length) := by
  have hseq : (seg.rebase δ p.direction).seq ≡ seg.seq + δ p.direction [ZMOD modulus] :=
    rebase_modEq _ hseg.seq
  rw [Tracker.placeFin, Tracker.placeFin, hp.direction]
  obtain ⟨c, hc, hmoved⟩ := h.flow.tcp p.direction
  exact .ite Iff.rfl (h.modifyTcp (hmoved.place hc hseq (length + 1))) h

end

/-- The signature of an acknowledgment under another origin is equal only to the moved copies of
equal ones. -/
theorem signature_rebase (a b : Int) (own peer window : Int) (last : Option (Int × Int × Int)) :
    last.map (fun ack => (rebase own ack.1, rebase peer ack.2.1, ack.2.2)) =
        some (rebase own a, rebase peer b, window) ↔ last = some (a, b, window) := by
  cases last with
  | none => simp
  | some ack =>
    obtain ⟨a', b', window'⟩ := ack
    simp only [Option.map_some, Option.some.injEq, Prod.mk.injEq, (rebase_injective own).eq_iff,
      (rebase_injective peer).eq_iff]

/-- Another signature for a direction. -/
theorem Moved.sign (h : Moved shared δ t u) {d : Bool} {last last' : Option (Int × Int × Int)}
    (hlast : last' = last.map fun ack => (rebase (δ d) ack.1, rebase (δ !d) ack.2.1, ack.2.2)) :
    Moved shared δ (t.modifyTcp d fun own => { own with lastAck := last })
      (u.modifyTcp d fun own => { own with lastAck := last' }) := by
  obtain ⟨c, hc, hmoved⟩ := h.flow.tcp d
  exact h.modifyTcp ⟨c, hc, { hmoved with lastAck := hlast }⟩

variable {length : Int} {key : DataKey}

section

variable (h : Moved shared δ t u)

include h

theorem Moved.scanAck (hp : p.Moved δ q) (hseg : TcpSegment.InRange seg) {window : Int}
    {t' u' : Tracker} (ht : t.scanAck text p seg length window = .ok t')
    (hu : u.scanAck text q (seg.rebase δ p.direction) length window = .ok u') :
    Moved shared δ t' u' := by
  have hack : (seg.rebase δ p.direction).ackNumber ≡ seg.ackNumber + δ (!p.direction)
      [ZMOD modulus] := rebase_modEq _ hseg.ackNumber
  rw [Tracker.scanAck] at ht hu
  rw [hp.direction, hp.time, hp.source] at hu
  by_cases hcond : seg.ack ∧ !(seg.rst ∨ seg.urg)
  · rw [if_pos hcond] at ht
    rw [if_pos (by exact hcond)] at hu
    simp only [Except.bind_eq_ok, Except.pure_eq_ok, Except.ok.injEq, Prod.exists] at ht hu
    obtain ⟨outstanding, reverse, m, hd, rfl⟩ := ht
    obtain ⟨outstanding', reverse', m', he, rfl⟩ := hu
    obtain ⟨c, hc, hmoved⟩ := h.flow.tcp !p.direction
    obtain ⟨rfl, hreverse⟩ := hmoved.acknowledge hc hack hd he
    have hacked := (h.modifyTcp (f := fun _ => reverse) (g := fun _ => reverse')
      ⟨c, hc, hreverse⟩).measure (fun _ => m) fun _ => m'
    obtain ⟨c', -, hown⟩ := hacked.flow.tcp p.direction
    have hlast := signature_rebase seg.seq seg.ackNumber (δ p.direction) (δ !p.direction) window
      (((t.modifyTcp (!p.direction) fun _ => reverse).measure fun _ => m).flow.tcp.get p.direction).lastAck
    rw [← hown.lastAck] at hlast
    refine Moved.sign (Moved.ite ?_ (hacked.observe text _ _ _ _ _) hacked) ?_
    · exact and_congr_right fun _ => and_congr_right fun _ => and_congr_right fun _ =>
        and_congr_right fun _ => hlast
    · rw [apply_ite (Option.map _)]
      rfl
  · rw [if_neg hcond] at ht
    rw [if_neg (by exact hcond)] at hu
    cases ht
    cases hu
    exact h.sign rfl

/-- A place is reserved in both, or in neither; without a shared budget it may be reserved in one
of them only. -/
theorem Moved.reserve : (t.reserve = none ∧ u.reserve = none) ∨
      (∃ t' u', t.reserve = some t' ∧ u.reserve = some u' ∧ Moved shared δ t' u') ∨
      ¬shared ∧ (t.reserve = none ∨ u.reserve = none) := by
  by_cases hshared : shared
  · have hiff : (maxFlowCorrelations ≤ u.flow.size ∨ maxTotalCorrelations ≤ u.budget.correlations) ↔
        (maxFlowCorrelations ≤ t.flow.size ∨ maxTotalCorrelations ≤ t.budget.correlations) := by
      rw [h.size, h.budget hshared]
    rw [Tracker.reserve, Tracker.reserve]
    by_cases hfull : maxFlowCorrelations ≤ t.flow.size ∨ maxTotalCorrelations ≤ t.budget.correlations
    · rw [if_pos hfull, if_pos (hiff.mpr hfull)]
      exact .inl ⟨rfl, rfl⟩
    · rw [if_neg hfull, if_neg (mt hiff.mp hfull)]
      exact .inr (.inl ⟨_, _, rfl, rfl, h.flow, fun _ => congrArg (· + 1) (h.budget hshared)⟩)
  · cases ht : t.reserve with
    | none => exact .inr (.inr ⟨hshared, .inl rfl⟩)
    | some t' =>
      cases hu : u.reserve with
      | none => exact .inr (.inr ⟨hshared, .inr rfl⟩)
      | some u' =>
        refine .inr (.inl ⟨t', u', rfl, rfl, ?_, fun hs => absurd hs hshared⟩)
        rw [Tracker.reserve, Option.ite_none_left_eq_some, Option.some.injEq] at ht hu
        rw [← ht.2, ← hu.2]
        exact h.flow

theorem Moved.sendData (hp : p.Moved δ q) (hkey : 0 ≤ key.seq ∧ key.seq < modulus) :
    (u.sendData q (key.rebase (δ p.direction))).2 = (t.sendData p key).2 ∧
      Moved shared δ (t.sendData p key).1 (u.sendData q (key.rebase (δ p.direction))).1 := by
  obtain ⟨c, hc, hmoved⟩ := h.flow.tcp p.direction
  obtain ⟨c', hc', hmoved', hobserve⟩ := hmoved.observe hc (rebase_modEq (δ p.direction) hkey) key.length
  have hfresh : ((t.flow.tcp.get p.direction).sequence.observe key.seq key.length).2.upper = none →
      ((t.flow.tcp.get p.direction).sequence.observe key.seq key.length).2 =
        (t.flow.tcp.get p.direction).sequence := TCPSequenceSpace.observe_eq_self
  rw [Tracker.sendData, Tracker.sendData, hp.direction, hp.time]
  cases hplace : (t.flow.tcp.get p.direction).sequence.observe key.seq key.length with
  | mk position sequence =>
    rw [hplace] at hobserve hfresh
    have hu : (u.flow.tcp.get p.direction).sequence.observe (key.rebase (δ p.direction)).seq
        (key.rebase (δ p.direction)).length = (position.map (· + c'), sequence.shift c') := hobserve
    rw [hu]
    cases position with
    | none =>
      refine ⟨rfl, h.modifyTcp (f := fun own => own.mark key none sequence)
        (g := fun own => own.mark _ none (sequence.shift c')) ⟨c', hc', ?_⟩⟩
      exact hmoved'.mark key none none hfresh
    | some position =>
      have hupper : sequence.upper ≠ none := by
        have := TCPSequenceSpace.observe_upper (congrArg Prod.fst hplace)
        rwa [hplace] at this
      have hposition := TCPSequenceSpace.observe_modEq (congrArg Prod.fst hplace)
      refine ⟨rfl, h.modifyTcp (f := fun own => (own.mark key (some position) sequence).enqueue key position p.time)
        (g := fun own => (own.mark _ (some (position + c')) (sequence.shift c')).enqueue _
          (position + c') p.time) ⟨c', hc', ?_⟩⟩
      exact (hmoved'.mark key (some position) (some (position + c')) hfresh).enqueue hupper hkey
        hposition p.time p.time

theorem Moved.ambiguous (d : Bool) : Moved shared δ (t.modifyTcp d fun own => { own with rttAmbiguous := true })
      (u.modifyTcp d fun own => { own with rttAmbiguous := true }) := by
  obtain ⟨c, hc, hmoved⟩ := h.flow.tcp d
  exact h.modifyTcp ⟨c, hc, { hmoved with }⟩

section

variable (hp : p.Moved δ q)

include hp

theorem Moved.scanKey (hkey : 0 ≤ key.seq ∧ key.seq < modulus) (hfree : shared ∨ (t.scanKey text p key).2 ≠ .limit ∧
      (u.scanKey text q (key.rebase (δ p.direction))).2 ≠ .limit) :
    (u.scanKey text q (key.rebase (δ p.direction))).2 = (t.scanKey text p key).2 ∧
      Moved shared δ (t.scanKey text p key).1 (u.scanKey text q (key.rebase (δ p.direction))).1 := by
  obtain ⟨c, hc, hmoved⟩ := h.flow.tcp p.direction
  have hseen : key.rebase (δ p.direction) ∈ (u.flow.tcp.get p.direction).seen ↔
      key ∈ (t.flow.tcp.get p.direction).seen := by
    rw [hmoved.seen]
    exact mem_map_of_injective (DataKey.rebase_injective _)
  rw [Tracker.scanKey, Tracker.scanKey, hp.direction, hp.time, hp.dest] at hfree ⊢
  by_cases hold : key ∈ (t.flow.tcp.get p.direction).seen
  · rw [if_pos hold, if_pos (hseen.mpr hold)]
    exact ⟨rfl, (h.ambiguous p.direction).observe text .dataRetransmissions p.dest p.time p.record q.record⟩
  rw [if_neg hold, if_neg (mt hseen.mp hold)] at hfree ⊢
  obtain ⟨ht, hu⟩ | ⟨t', u', ht, hu, hmoved'⟩ | ⟨hshared, hnone⟩ := h.reserve
  · rw [ht, hu]
    exact ⟨rfl, h⟩
  · rw [ht, hu]
    exact hmoved'.sendData hp hkey
  · obtain ⟨hlimit, hlimit'⟩ := hfree.resolve_left hshared
    obtain ht | hu := hnone
    · rw [ht] at hlimit
      exact absurd rfl hlimit
    · rw [hu] at hlimit'
      exact absurd rfl hlimit'

theorem Moved.scanData (hseg : TcpSegment.InRange seg) (hfree : shared ∨ (t.scanData text p seg length).2 ≠ .limit ∧
      (u.scanData text q (seg.rebase δ p.direction) length).2 ≠ .limit) :
    (u.scanData text q (seg.rebase δ p.direction) length).2 = (t.scanData text p seg length).2 ∧
      Moved shared δ (t.scanData text p seg length).1 (u.scanData text q (seg.rebase δ p.direction) length).1 := by
  have hdigest : (seg.rebase δ p.direction).digest = seg.digest := rfl
  rw [Tracker.scanData, Tracker.scanData, hdigest] at hfree ⊢
  cases hdata : seg.digest with
  | none => exact ⟨rfl, h⟩
  | some digest =>
    simp only [hdata] at hfree ⊢
    by_cases hpayload : 0 < length ∧ !seg.control
    · rw [if_pos hpayload, if_pos (by exact hpayload)] at hfree ⊢
      have hkey : 0 ≤ (DataKey.mk seg.seq length digest).seq ∧
          (DataKey.mk seg.seq length digest).seq < modulus := hseg.seq
      exact h.scanKey text hp hkey hfree
    · rw [if_neg hpayload, if_neg (by exact hpayload)]
      exact ⟨rfl, h⟩

/-- The outcomes of the rules for payload. -/
theorem Moved.scanPayload (hseg : TcpSegment.InRange seg) {r r' : Tracker × DataOutcome}
    (ht : t.scanPayload text p seg = .ok r)
    (hu : u.scanPayload text q (seg.rebase δ p.direction) = .ok r')
    (hfree : shared ∨ r.2 ≠ .limit ∧ r'.2 ≠ .limit) : r'.2 = r.2 ∧ Moved shared δ r.1 r'.1 := by
  have hlength : (seg.rebase δ p.direction).length = seg.length := rfl
  have hwindow : (seg.rebase δ p.direction).window = seg.window := rfl
  rw [Tracker.scanPayload] at ht hu
  rw [hlength, hwindow] at hu
  cases hl : seg.length with
  | none =>
    rw [hl] at ht hu
    cases ht
    cases hu
    exact ⟨rfl, h⟩
  | some length =>
    cases hw : seg.window with
    | none =>
      rw [hl, hw] at ht hu
      cases ht
      cases hu
      exact ⟨rfl, h⟩
    | some window =>
      rw [hl, hw] at ht hu
      simp only [Except.bind_eq_ok, Except.pure_eq_ok, Except.ok.injEq] at ht hu
      obtain ⟨t', hack, rfl⟩ := ht
      obtain ⟨u', hack', rfl⟩ := hu
      have hcontrol := (h.placeSyn hp hseg length).placeFin hp hseg length
      exact (hcontrol.scanAck text hp hseg hack hack').scanData text hp hseg hfree

theorem Moved.closing (hseg : TcpSegment.InRange seg) :
    (u.closing q (seg.rebase δ p.direction)).1 = (t.closing p seg).1 ∧
      (∀ d, (u.closing q (seg.rebase δ p.direction)).2.ends.get d =
        ((t.closing p seg).2.ends.get d).map (rebase (δ d))) ∧
      (u.closing q (seg.rebase δ p.direction)).2.acknowledged = (t.closing p seg).2.acknowledged := by
  have hlength : (seg.rebase δ p.direction).length = seg.length := rfl
  rw [Tracker.closing, Tracker.closing, hlength]
  cases hl : seg.length with
  | none => exact ⟨rfl, h.flow.closed, h.flow.acknowledged⟩
  | some length =>
    have hanswered : u.flow.closure.ends.get (!p.direction) = some (rebase (δ !p.direction) seg.ackNumber) ↔
        t.flow.closure.ends.get (!p.direction) = some seg.ackNumber := by
      rw [h.flow.closed, Option.map_eq_some_iff]
      constructor
      · rintro ⟨n, hn, heq⟩
        rw [hn, rebase_injective _ heq]
      · intro hn
        exact ⟨_, hn, rfl⟩
    have hopen : u.flow.closure.ends.get p.direction = none ↔ t.flow.closure.ends.get p.direction = none := by
      rw [h.flow.closed, Option.map_eq_none_iff]
    have hend : (rebase (δ p.direction) seg.seq + length + 1) % modulus =
        rebase (δ p.direction) ((seg.seq + length + 1) % modulus) := by
      rw [add_assoc, add_assoc]
      exact rebase_add_emod _ _ hseg.seq
    simp only [TCPClosure.observe, hp.direction, hend, TcpSegment.rebase, hanswered, hopen,
      h.flow.acknowledged, true_and, and_true]
    split
    · exact Pair.forall_get_set (P := fun d f g => g = Option.map (rebase (δ d)) f) h.flow.closed rfl
    · exact h.flow.closed

theorem Moved.scanClose (hseg : TcpSegment.InRange seg) :
    Moved shared δ (t.scanClose p seg) (u.scanClose q (seg.rebase δ p.direction)) := by
  obtain ⟨hclosed, hends, hacknowledged⟩ := h.closing hp hseg
  have hmoved : Moved shared δ { t with flow := { t.flow with closure := (t.closing p seg).2 } }
      { u with flow := { u.flow with closure := (u.closing q (seg.rebase δ p.direction)).2 } } :=
    ⟨{ h.flow with closed := hends, acknowledged := hacknowledged }, h.budget⟩
  rw [Tracker.scanClose, Tracker.scanClose, hclosed]
  exact .ite Iff.rfl hmoved.clearTcp.forgetEpoch hmoved

end

end

/-- The numbers of a complete TCP record are in range. -/
theorem readSegment_inRange {record : Record} (hcomplete : completeTcp record = true)
    (h : readSegment record = some seg) : TcpSegment.InRange seg := by
  rw [completeTcp, decide_eq_true_eq] at hcomplete
  obtain ⟨-, hsequence, hacknowledgment, -⟩ := hcomplete
  obtain ⟨seq, hsequence⟩ := Option.isSome_iff_exists.mp hsequence
  obtain ⟨ack, hacknowledgment⟩ := Option.isSome_iff_exists.mp hacknowledgment
  rw [Obj.intIn, Option.filter_eq_some_iff, decide_eq_true_eq] at hsequence hacknowledgment
  rw [readSegment] at h
  split at h
  · next flags seq' ack' _ hseq hack =>
    rw [hseq] at hsequence
    rw [hack] at hacknowledgment
    obtain rfl : seq' = seq := Option.some.inj hsequence.1
    obtain rfl : ack' = ack := Option.some.inj hacknowledgment.1
    have hmodulus : modulus = 2 ^ 32 := rfl
    have hseq' : seq' < modulus := by omega
    have hack' : ack' < modulus := by omega
    cases h
    exact ⟨⟨hsequence.2.1, hseq'⟩, ⟨hacknowledgment.2.1, hack'⟩⟩
  · cases h

/-- The moved copy of a TCP record has the moved segment. -/
theorem readSegment_moved (hp : p.Moved δ q) (hprotocol : p.key.protocol = "TCP") :
    synOnly q.record = synOnly p.record ∧
      readSegment q.record = (readSegment p.record).map (TcpSegment.rebase δ p.direction) := by
  have hflags := hp.get "tcp_flags" (by decide) (by decide)
  have hlength := hp.get "transport_payload_length" (by decide) (by decide)
  have hwindow := hp.get "tcp_window" (by decide) (by decide)
  have hhash := hp.get "payload_hash" (by decide) (by decide)
  have hsequence := hp.sequence hprotocol
  have hacknowledgment := hp.acknowledgment hprotocol
  refine ⟨by rw [synOnly, synOnly, hflags], ?_⟩
  rw [readSegment, readSegment, hflags, hlength, hwindow, hhash, hsequence, hacknowledgment]
  cases p.record.get "tcp_flags" with
  | dict =>
    cases p.record.get "tcp_sequence" with
    | int seq => cases p.record.get "tcp_acknowledgment" <;> rfl
    | _ => rfl
  | _ => rfl

/-- What `_scan_tcp` does to a flow and to its moved copy. -/
theorem Moved.scanTcp (h : Moved shared δ t u) (hp : p.Moved δ q)
    (hprotocol : p.key.protocol = "TCP") (hcomplete : completeTcp p.record = true)
    {r r' : Tracker × Bool} (ht : t.scanTcp text p = .ok r) (hu : u.scanTcp text q = .ok r')
    (hfree : shared ∨ r.2 = false ∧ r'.2 = false) : r'.2 = r.2 ∧ Moved shared δ r.1 r'.1 := by
  obtain ⟨hsyn, hsegment⟩ := readSegment_moved hp hprotocol
  rw [Tracker.scanTcp] at ht hu
  rw [hsegment] at hu
  cases hread : readSegment p.record with
  | none =>
    rw [hread] at ht hu
    cases ht
    cases hu
    exact ⟨rfl, h⟩
  | some seg =>
    have hseg := readSegment_inRange hcomplete hread
    rw [hread] at ht hu
    simp only [Option.map_some, Except.bind_eq_ok, Prod.exists] at ht hu
    obtain ⟨t', outcome, hpayload, ht⟩ := ht
    obtain ⟨u', outcome', hpayload', hu⟩ := hu
    -- a limit is what both report as refused
    have hlimit : outcome = .limit → r.2 = true := by
      rintro rfl
      rw [← Except.ok.inj ht]
    have hlimit' : outcome' = .limit → r'.2 = true := by
      rintro rfl
      rw [← Except.ok.inj hu]
    have hfree' : shared ∨ outcome ≠ .limit ∧ outcome' ≠ .limit := by
      refine hfree.imp_right fun ⟨hr, hr'⟩ => ⟨fun hl => ?_, fun hl => ?_⟩
      · rw [hlimit hl] at hr
        cases hr
      · rw [hlimit' hl] at hr'
        cases hr'
    have hanchored : Moved shared δ (t.scanSyn text p seg)
        (u.scanSyn text q (seg.rebase δ p.direction)) := h.scanSyn text hp hsyn
    have hstart := hanchored.scanResponse text hp hseg
    obtain ⟨houtcome, hmoved⟩ := hstart.scanPayload text hp hseg hpayload hpayload' hfree'
    simp only at houtcome hmoved
    subst houtcome
    cases outcome' with
    | next =>
      cases ht
      cases hu
      exact ⟨rfl, hmoved.scanClose hp hseg⟩
    | returned | limit =>
      cases ht
      cases hu
      exact ⟨rfl, hmoved⟩

/-- What the branch of UDP does to a flow and to its moved copy. -/
theorem Moved.scanUdp (h : Moved shared δ t u) (hp : p.Moved δ q)
    (hfree : shared ∨ (t.scanUdp text p).2 = false ∧ (u.scanUdp text q).2 = false) :
    (u.scanUdp text q).2 = (t.scanUdp text p).2 ∧ Moved shared δ (t.scanUdp text p).1 (u.scanUdp text q).1 := by
  have hlength := hp.get "transport_payload_length" (by decide) (by decide)
  have hhash := hp.get "payload_hash" (by decide) (by decide)
  rw [Tracker.scanUdp, Tracker.scanUdp, hlength, hhash, hp.direction, hp.time, hp.dest, h.flow.udp] at hfree ⊢
  split
  · next length digest hl hh =>
    simp only [hl, hh] at hfree
    by_cases hempty : digest = ""
    · rw [if_pos hempty, if_pos hempty]
      exact ⟨rfl, h⟩
    rw [if_neg hempty, if_neg hempty] at hfree ⊢
    by_cases hold : (p.direction, length, digest) ∈ t.flow.udp
    · rw [if_pos hold, if_pos hold]
      exact ⟨rfl, h.observe text .udpDuplicateCandidates p.dest p.time p.record q.record⟩
    rw [if_neg hold, if_neg hold] at hfree ⊢
    obtain ⟨ht, hu⟩ | ⟨t', u', ht, hu, hmoved⟩ | ⟨hshared, hnone⟩ := h.reserve
    · rw [ht, hu]
      exact ⟨rfl, h⟩
    · rw [ht, hu]
      exact ⟨rfl, { hmoved.flow with udp := congrArg (List.insert _) hmoved.flow.udp }, hmoved.budget⟩
    · obtain ⟨hrefused, hrefused'⟩ := hfree.resolve_left hshared
      obtain ht | hu := hnone
      · rw [ht] at hrefused
        cases hrefused
      · rw [hu] at hrefused'
        cases hrefused'
  · exact ⟨rfl, h⟩

end Moved

end Tracker

end C2Hunter.Network
