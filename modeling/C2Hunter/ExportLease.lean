import C2Hunter.ExportLifecycle

/-!
# Leases of the export queue

A worker holds a job under the pair of an attempt number and a lease token. The
ownership test of the queue looks at this pair only, never at the expiry, so what
protects a job from a superseded worker is an argument about whole runs: a token is
drawn once, and when a lease ends its token is gone for good.

* `Store.Leased` — the current lease of a job; `owns_iff_leased` says that the
  source's ownership test decides it on every row a run can store.
* `guardedUpdate_stale` — without the lease, nothing happens.
* `lease_step`, `token_gone` — which operations end a lease, and that it never
  comes back.
* `exports_inv` — every stored export was written under the pair it carries, and a
  published one was published by the completion under that pair.
* `superseded_worker_no_effect` — the three results over every run.
* `only_completed_publish` — no cancelled or failed job publishes.
-/

namespace C2Hunter

open World

/-! ## The current lease -/

/-- Job `k` is running under this attempt and token. -/
def Store.Leased (s : Store) (k : String) (a : Int) (t : LeaseToken) : Prop :=
  ∃ job, s.jobs.get? k = some job ∧ job.status = .running ∧ job.attempt = a ∧
    job.leaseToken = some t

variable {t : LeaseToken} {k : String} {a : Int}

section

variable {s : Store}

theorem LeaseToken.ext_text {t' : LeaseToken} (h : t.text = t'.text) : t = t' := by
  cases t
  cases t'
  cases h
  rfl

/-- On a good row, `_owns` decides the current lease. -/
theorem owns_iff_leased {job : Job} (hjob : s.jobs.get? k = some job) (hinv : JobInv job) (a : Int)
    (t : LeaseToken) : job.owns a t = true ↔ s.Leased k a t := by
  rw [Job.owns_iff]
  constructor
  · rintro ⟨hrun, hattempt, htext⟩
    obtain ⟨t', ht'⟩ := Option.isSome_iff_exists.mp (hinv.token_iff.mpr hrun)
    rw [ht'] at htext
    exact ⟨job, hjob, hrun, hattempt, by rw [ht', LeaseToken.ext_text htext]⟩
  · rintro ⟨job', hjob', hrun, hattempt, htoken⟩
    rw [hjob] at hjob'
    cases hjob'
    exact ⟨hrun, hattempt, by rw [htoken]; rfl⟩

/-- **A guarded update without the lease** answers `False` and changes nothing. -/
theorem guardedUpdate_stale {α : Type} (hinv : ∀ k job, s.jobs.get? k = some job → JobInv job) (hstale : ¬s.Leased k a t) (savedAt : Time)
    (mutate : Store → Job → Except QueueError (Option (α × Job × Store))) :
    guardedUpdate s k a t savedAt mutate = .ok (none, s) := by
  rw [guardedUpdate]
  split
  · rfl
  · next job hjob =>
    rw [if_pos]
    intro howns
    exact hstale ((owns_iff_leased hjob (hinv k job hjob) a t).mp howns)

end

/-! ## How a lease ends -/

/-- The operations that may end the lease of job `k` under this pair. -/
inductive Op.Ends (k : String) (a : Int) (t : LeaseToken) : Op → Prop where
  | complete (artifact : Artifact k) (now savedAt : Time) :
      Op.Ends k a t (.complete k a t artifact now savedAt)
  | retryOrFail (transient : Bool) (code error : String) (base : Int) (now savedAt : Time) :
      Op.Ends k a t (.retryOrFail k a t transient code error base now savedAt)
  | recoverExpired (now : Time) : Op.Ends k a t (.recoverExpired now)

variable {token : LeaseToken}

section

variable {id : String} {op : Op}

/-- A step on a running row keeps the lease, or is a completion or retry under this
very pair or a recovery, and leaves no token. -/
theorem lease_step {job : Job} {y : Option Job} (hstep : JobStep id token op k (some job) y)
    (hid : k ≠ id) (hrun : job.status = .running) (hattempt : job.attempt = a)
    (htoken : job.leaseToken = some t) :
    (∃ job', y = some job' ∧ job'.status = .running ∧ job'.attempt = a ∧ job'.leaseToken = some t) ∨
      (Op.Ends k a t op ∧ ∃ job', y = some job' ∧ job'.leaseToken = none) := by
  have howner : ∀ a' t', job.owns a' t' = true → a' = a ∧ t' = t := by
    intro a' t' howns
    obtain ⟨-, ha, ht⟩ := Job.owns_iff.mp howns
    rw [htoken] at ht
    exact ⟨ha.symm.trans hattempt, (LeaseToken.ext_text ht).symm⟩
  cases hstep with
  | same => exact .inl ⟨job, rfl, hrun, hattempt, htoken⟩
  | enqueued => exact absurd rfl hid
  | claimed hstatus | cancelledQueued hstatus | removed hstatus =>
    rw [hrun] at hstatus; cases hstatus
  | renewed | progressed | cancelledRunning => exact .inl ⟨_, rfl, hrun, hattempt, htoken⟩
  | finished howns | declined howns =>
    obtain ⟨rfl, rfl⟩ := howner _ _ howns
    exact .inr ⟨.complete _ _ _, _, rfl, rfl⟩
  | retried howns =>
    obtain ⟨rfl, rfl⟩ := howner _ _ howns
    exact .inr ⟨.retryOrFail _ _ _ _ _ _, _, rfl, rfl⟩
  | recovered => exact .inr ⟨.recoverExpired _, _, rfl, rfl⟩

/-- A token in a row after a step was in the row before, or the step is the claim
that drew it. -/
theorem token_step {x : Option Job} {job' : Job} (hstep : JobStep id token op k x (some job'))
    (ht : job'.leaseToken = some t) :
    (∃ job, x = some job ∧ job.leaseToken = some t) ∨ (t = token ∧ ∃ now seconds, op = .claim now seconds) := by
  cases hstep with
  | same => exact .inl ⟨job', rfl, ht⟩
  | enqueued | finished | declined | retried | recovered => cases ht
  | claimed => exact .inr ⟨(Option.some.inj ht).symm, _, _, rfl⟩
  | renewed | progressed | cancelledQueued | cancelledRunning => exact .inl ⟨_, rfl, ht⟩

/-- A claim writes its token into one row only. -/
theorem claim_token_unique {s s' : Store} {now : Time} {seconds : Int} {r : Option Job}
    (h : claim s token now seconds = .ok (r, s'))
    (hfresh : ∀ k job, s.jobs.get? k = some job → job.leaseToken ≠ some token) {k₁ k₂ : String}
    {job₁ job₂ : Job} (h₁ : s'.jobs.get? k₁ = some job₁) (h₂ : s'.jobs.get? k₂ = some job₂)
    (ht₁ : job₁.leaseToken = some token) (ht₂ : job₂.leaseToken = some token) : k₁ = k₂ := by
  rcases claim_cases h with ⟨-, rfl⟩ | ⟨job, expires, -, -, -, rfl⟩
  · exact absurd ht₁ (hfresh k₁ job₁ h₁)
  -- every key but the claimed one keeps its row, which has an older token
  have hkey : ∀ k job', (s.save (job.claimed token expires now)).jobs.get? k = some job' →
      job'.leaseToken = some token → k = job.id := by
    intro k job' hget htok
    by_contra hne
    have hne : k ≠ (job.claimed token expires now).id := hne
    rw [Store.get?_save, if_neg hne] at hget
    exact hfresh k job' hget htok
  rw [hkey k₁ job₁ h₁ ht₁, hkey k₂ job₂ h₂ ht₂]

/-! ## Tokens along a run -/

end

section Runs

variable (names : Names)

/-- The tokens in the rows of a run were drawn by it, and no two rows share one. -/
structure LeaseInv (w : World) : Prop where
  drawn : ∀ k job t, w.store.jobs.get? k = some job → job.leaseToken = some t →
    ∃ i < w.drawn, names.tokens i = t
  unique : ∀ k k' job job' t, w.store.jobs.get? k = some job → w.store.jobs.get? k' = some job' →
    job.leaseToken = some t → job'.leaseToken = some t → k = k'

variable {n : Nat} {w : World} {ops : List Op}

/-- The token an operation draws is in no row. -/
theorem LeaseInv.fresh (h : LeaseInv names w) (k : String) (job : Job)
    (hjob : w.store.jobs.get? k = some job) : job.leaseToken ≠ some (names.tokens w.drawn) := by
  intro ht
  obtain ⟨i, hi, heq⟩ := h.drawn k job _ hjob ht
  have := names.tokens_inj heq
  omega

variable {op : Op} {m : Nat}

/-- A token in a row after an operation was in that row before, or was just drawn. -/
theorem exec_token {job' : Job} (hjob' : (w.exec names op).store.jobs.get? k = some job')
    (ht : job'.leaseToken = some t) :
    (∃ job, w.store.jobs.get? k = some job ∧ job.leaseToken = some t) ∨
      (t = names.tokens w.drawn ∧ ∃ now seconds, op = .claim now seconds) := by
  have hstep := exec_job names w op k
  rw [hjob'] at hstep
  exact token_step hstep ht

theorem LeaseInv.exec (h : LeaseInv names w) (op : Op) : LeaseInv names (w.exec names op) where
  drawn k job' t hjob' ht := by
    rcases exec_token names hjob' ht with ⟨job, hjob, ht₀⟩ | ⟨rfl, -⟩
    · obtain ⟨i, hi, heq⟩ := h.drawn k job t hjob ht₀
      exact ⟨i, Nat.lt_succ_of_lt hi, heq⟩
    · exact ⟨w.drawn, Nat.lt_succ_self _, rfl⟩
  unique k k' job job' t hjob hjob' ht ht' := by
    rcases exec_token names hjob ht with ⟨job₀, hjob₀, ht₀⟩ | ⟨rfl, now, seconds, rfl⟩
    · rcases exec_token names hjob' ht' with ⟨job₀', hjob₀', ht₀'⟩ | ⟨rfl, -⟩
      · exact h.unique k k' job₀ job₀' t hjob₀ hjob₀' ht₀ ht₀'
      · exact absurd ht₀ (h.fresh names k job₀ hjob₀)
    simp only [World.exec, Op.effect] at hjob hjob'
    cases hclaim : claim w.store (names.tokens w.drawn) now seconds with
    | error =>
      rw [hclaim] at hjob
      exact absurd ht (h.fresh names k job hjob)
    | ok =>
      rw [hclaim] at hjob hjob'
      exact claim_token_unique hclaim (h.fresh names) hjob hjob' ht ht'

theorem leaseInv_run (ops : List Op) : LeaseInv names (run names ops) := by
  induction ops using List.reverseRecOn with
  | nil => exact ⟨by simp [run, Store.empty], by simp [run, Store.empty]⟩
  | append_singleton ops op ih =>
    rw [run_append]
    exact ih.exec names op

/-- A drawn token that no row holds is never held again. -/
theorem token_gone {i : Nat} (hi : i < w.drawn)
    (hgone : ∀ k job, w.store.jobs.get? k = some job → job.leaseToken ≠ some (names.tokens i))
    (ops : List Op) (k : String) (job : Job)
    (hjob : (ops.foldl (exec names) w).store.jobs.get? k = some job) :
    job.leaseToken ≠ some (names.tokens i) := by
  induction ops generalizing w with
  | nil => exact hgone k job hjob
  | cons op ops ih =>
    refine ih (w := w.exec names op) (Nat.lt_succ_of_lt hi) ?_ hjob
    intro k' job' hjob' ht
    rcases exec_token names hjob' ht with ⟨job₀, hjob₀, ht₀⟩ | ⟨heq, -⟩
    · exact hgone k' job₀ hjob₀ ht₀
    · have := names.tokens_inj heq
      omega

/-! ## Positions of a run -/

/-- The world after the first `n` operations of a run. -/
def World.at (ops : List Op) (n : Nat) : World := World.run names (ops.take n)

theorem World.at_succ (h : ops[n]? = some op) :
    World.at names ops (n + 1) = (World.at names ops n).exec names op := by
  rw [World.at, World.at, List.take_add_one, h, run_append]
  rfl

/-- Past its end a run stays where it is. -/
theorem World.at_of_none (h : ops[n]? = none) : World.at names ops (n + 1) = World.at names ops n := by
  rw [World.at, World.at, List.take_add_one, h]
  simp

/-- The world at a later position, from an earlier one. -/
theorem World.at_le (ops : List Op) (h : n ≤ m) :
    ∃ mid : List Op, World.at names ops m = mid.foldl (exec names) (World.at names ops n) := by
  refine ⟨(ops.take m).drop n, ?_⟩
  rw [World.at, World.at, ← run_append]
  congr 1
  conv_lhs => rw [← List.take_append_drop n (ops.take m)]
  rw [List.take_take, Nat.min_eq_left h]

/-- The operation at position `n` ends the lease of job `k` under this pair. -/
def EndsLease (ops : List Op) (n : Nat) (k : String) (a : Int) (t : LeaseToken) : Prop :=
  (World.at names ops n).store.Leased k a t ∧ ¬(World.at names ops (n + 1)).store.Leased k a t

/-- What ends a lease is a completion or retry under its pair, or a recovery; and
then no row holds the token. -/
theorem endsLease_cases (h : EndsLease names ops n k a t) : ∃ op, ops[n]? = some op ∧ Op.Ends k a t op ∧
      ∀ k' job, (World.at names ops (n + 1)).store.jobs.get? k' = some job → job.leaseToken ≠ some t := by
  obtain ⟨⟨job, hjob, hrun, hattempt, htoken⟩, hnot⟩ := h
  cases hop : ops[n]? with
  | none =>
    rw [at_of_none names hop] at hnot
    exact absurd ⟨job, hjob, hrun, hattempt, htoken⟩ hnot
  | some op =>
    have hinv := worldInv_run names (ops.take n)
    have hlease := leaseInv_run names (ops.take n)
    have hstep := exec_job names (World.at names ops n) op k
    rw [← at_succ names hop, hjob] at hstep
    rcases lease_step hstep (hinv.fresh names hjob) hrun hattempt htoken with
      ⟨job', hjob', hkept⟩ | ⟨hends, job', hjob', hnone⟩
    · exact absurd ⟨job', hjob', hkept⟩ hnot
    refine ⟨op, rfl, hends, ?_⟩
    intro k' job₁ hjob₁ ht
    rw [at_succ names hop] at hjob₁
    rcases exec_token names hjob₁ ht with ⟨job₀, hjob₀, ht₀⟩ | ⟨rfl, -⟩
    · -- the token stood in one row only, and that row has lost it
      have hk := hlease.unique k' k job₀ job t hjob₀ hjob ht₀ htoken
      rw [hk, ← at_succ names hop, hjob'] at hjob₁
      cases hjob₁
      rw [hnone] at ht
      cases ht
    · exact hlease.fresh names k job hjob htoken

/-- **A lease ends at most once.** -/
theorem endsLease_unique (hn : EndsLease names ops n k a t) (hm : EndsLease names ops m k a t) : n = m := by
  -- of two different positions the later one would end a lease whose token is gone
  have hno : ∀ {n m : Nat}, EndsLease names ops n k a t → EndsLease names ops m k a t → ¬n < m := by
    intro n m hn hm hlt
    obtain ⟨op, hop, -, hgone⟩ := endsLease_cases names hn
    obtain ⟨job, hjob, -, -, htoken⟩ := hn.1
    obtain ⟨i, hi, rfl⟩ := (leaseInv_run names (ops.take n)).drawn k job t hjob htoken
    obtain ⟨mid, hmid⟩ := at_le names ops (n := n + 1) (m := m) hlt
    obtain ⟨job', hjob', -, -, htoken'⟩ := hm.1
    rw [hmid] at hjob'
    refine token_gone names ?_ hgone mid k job' hjob' htoken'
    rw [at_succ names hop]
    exact Nat.lt_succ_of_lt hi
  exact Nat.le_antisymm (not_lt.mp (hno hm hn)) (not_lt.mp (hno hn hm))

end Runs

/-! ## Stored exports -/

/-- The row `save_export_stream` stores for a leased job. -/
def savedExport (k : String) (a : Int) (t : LeaseToken) (key : Option String) (created : Time)
    (sha : String) (content : List UInt8) : StoredExport :=
  { id := k, attempt := some a, leaseToken := some t, objectKey := key, published := some false,
    createdAt := created, sha256 := sha, content := content }

section

variable {s : Store} {e : StoredExport} {id : String} {op : Op}

theorem publish_cases {s₁ : Store} {artifact : Artifact k} (h : publish s a t artifact = some s₁) :
    ∃ stored, s.exports.get? k = some stored ∧ stored.attempt = some a ∧ stored.leaseToken = some t ∧
      s₁ = { s with exports := s.exports.put { stored with published := some true } } := by
  rw [publish] at h
  split at h
  · cases h
  next stored hstored =>
  split at h
  · cases h
  · next hmatch =>
    cases h
    simp only [not_or, not_not] at hmatch
    exact ⟨stored, hstored, hmatch.1, hmatch.2.1, rfl⟩

/-- A call of `complete` that publishes: the job is leased under the pair, the
artifact is accepted, and the job ends completed. -/
def Publishes (s : Store) (k : String) (a : Int) (t : LeaseToken) (artifact : Artifact k)
    (now savedAt : Time) (s' : Store) : Prop :=
  complete s k a t artifact now savedAt = .ok (true, s') ∧
    (∃ job, s.jobs.get? k = some job ∧ job.owns a t = true) ∧
    ∃ job', s'.jobs.get? k = some job' ∧ job'.status = .completed

/-- A row left by a loop of deletions was there before. -/
theorem get?_of_foldl_erase {t : Table StoredExport.id} {ks : List String}
    (h : (ks.foldl Table.erase t).get? k = some e) : t.get? k = some e := by
  rw [Table.get?_foldl_erase] at h
  split at h
  · cases h
  · exact h

/-- The operations that write jobs only. -/
def Op.jobsOnly : Op → Bool
  | .complete .. | .saveExport .. | .compensate .. | .retainTerminal .. | .cleanupOrphans .. => false
  | .enqueue .. | .claim .. | .heartbeat .. | .progress .. | .retryOrFail .. | .cancel .. |
    .recoverExpired .. => true

theorem exports_settle {α : Type} {x : Except QueueError (α × Store)}
    (h : ∀ r s', x = .ok (r, s') → s'.exports = s.exports) : (settle s x).exports = s.exports :=
  settle_induction (P := fun s' => s'.exports = s.exports) rfl h

theorem effect_exports_eq (s : Store) (h : op.jobsOnly = true) : (op.effect id token s).exports = s.exports := by
  cases op with
  | enqueue =>
    refine exports_settle fun r s' hr => ?_
    rw [enqueue] at hr
    split at hr
    · rw [Except.guard_eq_ok] at hr
      cases hr.2
      rfl
    split at hr
    · cases hr
      rfl
    · simp only [Except.guard_eq_ok] at hr
      cases hr.2.2.2
      rfl
  | claim =>
    refine exports_settle fun r s' hr => ?_
    rcases claim_cases hr with ⟨-, rfl⟩ | ⟨job, expires, -, -, -, rfl⟩ <;> rfl
  | heartbeat =>
    refine exports_settle fun r s' hr => ?_
    rcases heartbeat_cases hr with rfl | ⟨job, expires, -, -, rfl⟩ <;> rfl
  | progress =>
    refine exports_settle fun r s' hr => ?_
    rcases progress_cases hr with rfl | ⟨job, current, -, -, -, rfl⟩ <;> rfl
  | retryOrFail =>
    refine exports_settle fun r s' hr => ?_
    rcases retryOrFail_cases hr with rfl | ⟨job, next, -, -, rfl, -⟩ <;> rfl
  | cancel =>
    refine exports_settle fun r s' hr => ?_
    rw [cancel] at hr
    split at hr
    · cases hr
    · split at hr <;> cases hr <;> rfl
  | recoverExpired => rfl
  | complete | saveExport
  | compensate | retainTerminal
  | cleanupOrphans => cases h

/-- A completion that changes the exports publishes the row of its own pair. -/
theorem complete_export {s' : Store} {k₀ : String} {artifact : Artifact k₀} {now savedAt : Time}
    {b : Bool} (hb : complete s k₀ a t artifact now savedAt = .ok (b, s'))
    (he : s'.exports.get? k = some e) :
    s.exports.get? k = some e ∨ k = k₀ ∧ ∃ stored, s.exports.get? k = some stored ∧ stored.attempt = some a ∧
        stored.leaseToken = some t ∧ e = { stored with published := some true } ∧
        Publishes s k₀ a t artifact now savedAt s' := by
  rcases complete_cases hb with rfl | ⟨job, hjob, howns,
    ⟨-, -, rfl⟩ | ⟨-, rfl, status, published, s₁, -, rfl, rfl | ⟨rfl, hpub⟩⟩⟩
  · exact .inl he
  · exact .inl he
  · exact .inl he
  obtain ⟨stored, hstored, hattempt, htoken, rfl⟩ := publish_cases hpub
  have hid : stored.id = k₀ := Table.key_of_get? hstored
  have hput : (s.exports.put { stored with published := some true }).get? k = some e := he
  rw [Table.get?_put] at hput
  split at hput
  · next hk =>
    have hk : k = k₀ := hk.trans hid
    cases hput
    subst hk
    refine .inr ⟨rfl, stored, hstored, hattempt, htoken, rfl, hb, ⟨job, hjob, howns⟩,
      (job.finished artifact .completed published now).stamp savedAt, ?_, rfl⟩
    exact (Store.get?_save _ _ _).trans (if_pos artifact.id_eq.symm)
  · exact .inl hput

/-- A row after a call that may raise: it was there, or the call returned. -/
theorem export_settle {α : Type} {P : Prop} {x : Except QueueError (α × Store)}
    (h : ∀ r s', x = .ok (r, s') → s'.exports.get? k = some e → s.exports.get? k = some e ∨ P)
    (he : (settle s x).exports.get? k = some e) : s.exports.get? k = some e ∨ P := by
  revert he
  exact settle_induction (P := fun s' => s'.exports.get? k = some e → _) .inl h

/-- Where the export row of a key after an operation comes from: it was there, it
was just stored, or a completion under its own pair has just published it. -/
theorem effect_export (he : (op.effect id token s).exports.get? k = some e) : s.exports.get? k = some e ∨
      (∃ a t key created sha content, op = .saveExport k a t key created sha content true ∧
        e = savedExport k a t key created sha content) ∨
      (∃ a t artifact now savedAt stored, op = .complete k a t artifact now savedAt ∧
        s.exports.get? k = some stored ∧ stored.attempt = some a ∧ stored.leaseToken = some t ∧
        e = { stored with published := some true } ∧
        Publishes s k a t artifact now savedAt (op.effect id token s)) := by
  cases op with
  | complete k₀ a t artifact now savedAt =>
    refine export_settle (fun b s' hb he => ?_) he
    rcases complete_export hb he with hold | ⟨rfl, stored, hstored, hattempt, htoken, rfl, hpub⟩
    · exact .inl hold
    · rw [Op.effect, hb]
      exact .inr (.inr ⟨a, t, artifact, now, savedAt, stored, rfl, hstored, hattempt, htoken, rfl, hpub⟩)
  | saveExport k₀ a t key created sha content ok =>
    refine export_settle (fun b s' hb he => ?_) he
    rw [saveExport] at hb
    split at hb
    · cases hb
      exact .inl he
    next hok =>
    have hok : ok = true := not_not.mp hok
    subst hok
    split at hb
    · cases hb
    cases hb
    simp only [Table.get?_put] at he
    split at he
    · next hk =>
      cases he
      cases hk
      exact .inr (.inl ⟨a, t, key, created, sha, content, rfl, rfl⟩)
    · exact .inl he
  | compensate =>
    rw [Op.effect, compensate] at he
    split_ifs at he
    · exact .inl he
    split at he
    · exact .inl he
    split_ifs at he
    · simp only [Table.get?_erase] at he
      split at he
      · cases he
      · exact .inl he
    · exact .inl he
  | retainTerminal =>
    refine export_settle (fun r s' hr he => ?_) he
    obtain ⟨cutoff, -, hr⟩ := Except.bind_eq_ok.mp hr
    rw [Except.guard_eq_ok] at hr
    cases hr.2
    exact .inl (get?_of_foldl_erase he)
  | cleanupOrphans =>
    refine export_settle (fun r s' hr he => ?_) he
    obtain ⟨cutoff, -, hr⟩ := Except.bind_eq_ok.mp hr
    cases hr
    exact .inl (get?_of_foldl_erase he)
  | _ =>
    rw [effect_exports_eq s rfl] at he
    exact .inl he

/-! ## Published exports along a run -/

end

section Published

variable (names : Names)

/-- The operation at position `n` is the completion of job `k` under this pair. -/
def CompletedAt (ops : List Op) (n : Nat) (k : String) (a : Int) (t : LeaseToken) : Prop :=
  ∃ artifact now savedAt, ops[n]? = some (.complete k a t artifact now savedAt) ∧
    complete (World.at names ops n).store k a t artifact now savedAt =
      .ok (true, (World.at names ops (n + 1)).store) ∧
    (World.at names ops n).store.Leased k a t ∧
    ∃ job, (World.at names ops (n + 1)).store.jobs.get? k = some job ∧ job.status = .completed

/-- The export was stored before position `n` by an operation that carries its pair. -/
def WrittenBefore (ops : List Op) (n : Nat) (e : StoredExport) (a : Int) (t : LeaseToken) : Prop :=
  e.attempt = some a ∧ e.leaseToken = some t ∧
    ∃ m < n, ops[m]? =
      some (.saveExport e.id a t e.objectKey e.createdAt e.sha256 e.content true)

variable {ops : List Op} {n : Nat}

theorem World.at_append (later : List Op) (h : n ≤ ops.length) :
    World.at names (ops ++ later) n = World.at names ops n := by
  rw [World.at, World.at, List.take_append_of_le_length h]

theorem CompletedAt.append (h : CompletedAt names ops n k a t) (later : List Op) :
    CompletedAt names (ops ++ later) n k a t := by
  obtain ⟨artifact, now, savedAt, hop, hcall, hleased, hjob⟩ := h
  have hn : n < ops.length := (List.getElem?_eq_some_iff.mp hop).1
  refine ⟨artifact, now, savedAt, ?_, ?_⟩
  · rw [List.getElem?_append_left hn]
    exact hop
  · rw [at_append names later hn, at_append names later (by omega : n ≤ ops.length)]
    exact ⟨hcall, hleased, hjob⟩

theorem WrittenBefore.append {e : StoredExport} (h : WrittenBefore ops n e a t) (later : List Op) :
    WrittenBefore (ops ++ later) n e a t := by
  obtain ⟨ha, ht, m, hm, hop⟩ := h
  have hlt : m < ops.length := (List.getElem?_eq_some_iff.mp hop).1
  exact ⟨ha, ht, m, hm, by rw [List.getElem?_append_left hlt]; exact hop⟩

/-- Every stored export was written under the pair it carries; a published one was
published by the completion under that pair, after it was written. -/
theorem exports_inv (ops : List Op) (k : String) (e : StoredExport)
    (he : (run names ops).store.exports.get? k = some e) :
    (∃ a t, WrittenBefore ops ops.length e a t) ∧ (e.published = some true →
        ∃ n a t, CompletedAt names ops n k a t ∧ WrittenBefore ops n e a t) := by
  induction ops using List.reverseRecOn generalizing e with
  | nil => cases he
  | append_singleton ops op ih =>
    have hrun : run names (ops ++ [op]) = (run names ops).exec names op :=
      run_append names ops [op]
    have hat : World.at names (ops ++ [op]) ops.length = run names ops := by
      rw [World.at, List.take_left]
    have hat' : World.at names (ops ++ [op]) (ops.length + 1) = run names (ops ++ [op]) := by
      rw [World.at, List.take_of_length_le (by simp)]
    have hop : (ops ++ [op])[ops.length]? = some op := by simp
    have hweaken : ∀ {e a t}, WrittenBefore ops ops.length e a t →
        WrittenBefore (ops ++ [op]) (ops ++ [op]).length e a t := by
      intro e a t h
      obtain ⟨ha, ht, m, hm, hop⟩ := h.append [op]
      exact ⟨ha, ht, m, by simp; omega, hop⟩
    rw [hrun] at he
    rcases effect_export he with hold | ⟨a, t, key, created, sha, content, rfl, rfl⟩ |
      ⟨a, t, artifact, now, savedAt, stored, rfl, hstored, hattempt, htoken, rfl, hpub⟩
    · obtain ⟨⟨a, t, hw⟩, hpub⟩ := ih e hold
      refine ⟨⟨a, t, hweaken hw⟩, fun hp => ?_⟩
      obtain ⟨n, a, t, hc, hw⟩ := hpub hp
      exact ⟨n, a, t, hc.append names [op], hw.append [op]⟩
    · exact ⟨⟨a, t, rfl, rfl, ops.length, by simp, hop⟩, nofun⟩
    · obtain ⟨⟨a', t', ha', ht', m, hm, hw⟩, -⟩ := ih stored hstored
      -- the pair it was written under is the pair that publishes it
      rw [hattempt] at ha'
      rw [htoken] at ht'
      cases ha'
      cases ht'
      have hwritten : WrittenBefore ops ops.length { stored with published := some true } a t :=
        ⟨hattempt, htoken, m, hm, hw⟩
      refine ⟨⟨a, t, hweaken hwritten⟩, fun _ => ⟨ops.length, a, t, ?_, hwritten.append [_]⟩⟩
      obtain ⟨hcall, ⟨job, hjob, howns⟩, hdone⟩ := hpub
      refine ⟨artifact, now, savedAt, hop, ?_, ?_, ?_⟩
      · rw [hat, hat', hrun]
        exact hcall
      · rw [hat]
        exact (owns_iff_leased hjob ((worldInv_run names ops).jobs k job hjob) a t).mp howns
      · rw [hat', hrun]
        exact hdone

/-- A job is completed at most once. -/
theorem completedAt_unique {m : Nat} {a' : Int} {t' : LeaseToken} (hn : CompletedAt names ops n k a t)
    (hm : CompletedAt names ops m k a' t') : n = m := by
  -- a job completed at `n` is still completed, or gone, at any later position
  have hno : ∀ {n m : Nat} {a a' : Int} {t t' : LeaseToken}, CompletedAt names ops n k a t →
      CompletedAt names ops m k a' t' → ¬n < m := by
    intro n m a a' t t' hn hm hlt
    obtain ⟨_, _, _, -, -, -, job, hjob, hstatus⟩ := hn
    obtain ⟨_, _, _, -, -, ⟨job', hjob', hrun, -⟩, -⟩ := hm
    have hinv := worldInv_run names (ops.take (n + 1))
    obtain ⟨i, hi, rfl⟩ := hinv.drawn k job hjob
    obtain ⟨mid, hmid⟩ := at_le names ops (n := n + 1) (m := m) hlt
    rw [hmid] at hjob'
    obtain ⟨job₀, hjob₀, hev⟩ := evolves_foldl names hinv mid hi hjob'
    rw [World.at] at hjob
    rw [hjob] at hjob₀
    cases hjob₀
    have := hev.terminal (by rw [hstatus]; rfl)
    rw [hrun, hstatus] at this
    cases this
  exact Nat.le_antisymm (not_lt.mp (hno hm hn)) (not_lt.mp (hno hn hm))

/-- **A superseded worker has no effect.** After any operations in any order: a
heartbeat, progress report, completion or retry that carries a pair which is not the
job's current lease answers `False` and leaves the store as it is; a lease is ended
at most once, by a completion or retry under its own pair or by a recovery; and a
published export was written, and the job completed, under one and the same pair,
and by no other completion. -/
theorem superseded_worker_no_effect (ops : List Op) : (∀ k a t, ¬(run names ops).store.Leased k a t →
      (∀ seconds now savedAt, heartbeat (run names ops).store k a t seconds now savedAt =
          .ok (false, (run names ops).store)) ∧
      (∀ items savedAt, progress (run names ops).store k a t items savedAt = .ok (false, (run names ops).store)) ∧
      (∀ artifact now savedAt, complete (run names ops).store k a t artifact now savedAt =
          .ok (false, (run names ops).store)) ∧
      (∀ transient code error base now savedAt,
        retryOrFail (run names ops).store k a t transient code error base now savedAt =
          .ok (false, (run names ops).store))) ∧
    (∀ k a t n, EndsLease names ops n k a t → (∃ op, ops[n]? = some op ∧ Op.Ends k a t op) ∧
      ∀ m, EndsLease names ops m k a t → m = n) ∧
    (∀ k e, (run names ops).store.exports.get? k = some e → e.published = some true →
      ∃ n a t, CompletedAt names ops n k a t ∧ WrittenBefore ops n e a t ∧
        ∀ m a' t', CompletedAt names ops m k a' t' → m = n ∧ a' = a ∧ t' = t) := by
  refine ⟨?_, ?_, ?_⟩
  · intro k a t hstale
    have hinv := (worldInv_run names ops).jobs
    refine ⟨?_, ?_, ?_, ?_⟩
    · intro seconds now savedAt
      rw [heartbeat, guardedUpdate_stale hinv hstale]
      rfl
    · intro items savedAt
      rw [progress, guardedUpdate_stale hinv hstale]
      rfl
    · intro artifact now savedAt
      rw [complete, guardedUpdate_stale hinv hstale]
      rfl
    · intro transient code error base now savedAt
      rw [retryOrFail, guardedUpdate_stale hinv hstale]
      rfl
  · intro k a t n hn
    obtain ⟨op, hop, hends, -⟩ := endsLease_cases names hn
    exact ⟨⟨op, hop, hends⟩, fun m hm => endsLease_unique names hm hn⟩
  · intro k e he hpub
    obtain ⟨n, a, t, hc, hw⟩ := (exports_inv names ops k e he).2 hpub
    refine ⟨n, a, t, hc, hw, fun m a' t' hm => ?_⟩
    obtain rfl := completedAt_unique names hm hc
    -- one position holds one operation
    obtain ⟨_, _, _, hop, _⟩ := hc
    obtain ⟨_, _, _, hop', _⟩ := hm
    rw [hop] at hop'
    cases hop'
    exact ⟨rfl, rfl, rfl⟩

variable {names} in
/-- A job at two times of a run. -/
theorem evolves_at {m : Nat} (hm : n ≤ m) {job job' : Job} (hjob : (World.at names ops n).store.jobs.get? k = some job)
    (hjob' : (World.at names ops m).store.jobs.get? k = some job') : Evolves job job' := by
  have hinv := worldInv_run names (ops.take n)
  obtain ⟨i, hi, rfl⟩ := hinv.drawn k job hjob
  obtain ⟨mid, hmid⟩ := at_le names ops hm
  obtain ⟨job₀, hjob₀, hev⟩ := evolves_foldl names hinv mid hi (hmid ▸ hjob')
  cases hjob.symm.trans hjob₀
  exact hev

/-- **Only completed jobs publish.** Once the cancellation of a job was requested, or it has failed or was
cancelled, no export of it is published, whatever runs later; and the job of a published export is completed. -/
theorem only_completed_publish (ops later : List Op) : (∀ k job, (run names ops).store.jobs.get? k = some job →
      job.cancellationRequested = true ∨ job.status.terminal = true ∧ job.status ≠ .completed →
      ∀ e, (run names (ops ++ later)).store.exports.get? k = some e → e.published ≠ some true) ∧
    ∀ k job e, (run names ops).store.jobs.get? k = some job → (run names ops).store.exports.get? k = some e →
      e.published = some true → job.status = .completed := by
  have hat (later : List Op) : World.at names (ops ++ later) ops.length = run names ops := by
    rw [World.at, List.take_left]
  refine ⟨fun k job hjob hended e he hpub => ?_, fun k job e hjob he hpub => ?_⟩
  · obtain ⟨n, _, _, ⟨_, _, _, -, -, -, done, hdone, hstatus⟩, -⟩ := (exports_inv names _ k e he).2 hpub
    have hgood := (worldInv_run names ((ops ++ later).take (n + 1))).jobs k done hdone
    have hgood' := (worldInv_run names ops).jobs k job hjob
    rw [← hat later] at hjob
    rcases Nat.lt_or_ge n ops.length with hn | hn
    · -- the job was completed before
      have hjob' := ((evolves_at hn hdone hjob).terminal (by rw [hstatus]; rfl)).trans hstatus
      rcases hended with hcancel | hended
      · simpa [hjob'] using hgood'.cancel_status hcancel
      · exact hended.2 hjob'
    · have hev := evolves_at (hn.trans n.le_succ) hjob hdone
      rcases hended with hcancel | hended
      · simpa [hstatus] using hgood.cancel_status (hev.cancel hcancel)
      · exact hended.2 ((hev.terminal hended.1).symm.trans hstatus)
  · obtain ⟨n, _, _, ⟨_, _, _, hop, -, -, done, hdone, hstatus⟩, -⟩ := (exports_inv names ops k e he).2 hpub
    rw [← hat [], List.append_nil] at hjob
    rw [(evolves_at (List.getElem?_eq_some_iff.mp hop).1 hdone hjob).terminal (by rw [hstatus]; rfl), hstatus]

end Published

end C2Hunter
