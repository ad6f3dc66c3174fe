import C2Hunter.ExportQueue

/-!
# The lifecycle of an export job

What any operation of the queue can do to one job, and what therefore holds of
every job along every run.

* `JobStep` — the complete list of changes an operation makes to the row of one
  key; `effect_job` proves that every operation makes only these. All later
  arguments about jobs are case analyses over this list, and no other proof
  unfolds an operation.
* `JobInv` — the invariant of a stored row: a lease exactly while running, the
  attempt bounds, no completed or failed row with a cancellation request, and full
  progress only on completion.
* `Evolves` — how a row relates to a later row of the same key: terminal states
  stay, cancellation requests stay, counters do not decrease.
* `queue_lifecycle` — both, over every run of any operations in any order.
-/

namespace C2Hunter

/-! ## Inversion of the guarded update -/

/-- How a lease that is not completed ends: the cancellation that was asked for, a
new attempt while attempts are left, or failure. -/
def Job.EndsAs (job next : Job) : Prop :=
  (job.cancellationRequested = true ∧ ∃ now, next = job.cancelledAt now) ∨
    (job.cancellationRequested = false ∧ job.attempt < job.maxAttempts ∧
      ∃ at', next = job.requeuedAt at') ∨
    (job.cancellationRequested = false ∧ ∃ code error now, next = job.failedAt code error now)

variable {job : Job}

theorem Job.owns_iff {a : Int} {t : LeaseToken} : job.owns a t = true ↔
      job.status = .running ∧ job.attempt = a ∧ leaseText job.leaseToken = t.text := by
  rw [Job.owns, decide_eq_true_eq]

variable {s : Store} {job' : Job}

section

variable {s' : Store} {t : LeaseToken} {k : String} {a : Int} {now savedAt : Time} {b : Bool}

/-- An operation that answers with a guarded update changes nothing, or the job is leased under
exactly this attempt and token, and the mutated row is saved. -/
theorem guardedUpdate_cases {α β : Type}
    {mutate : Store → Job → Except QueueError (Option (α × Job × Store))}
    {f : Option α × Store → Except QueueError (β × Store)} {g : Option α → β} {b : β}
    (h : guardedUpdate s k a t savedAt mutate >>= f = .ok (b, s')) (hf : ∀ r s, f (r, s) = .ok (g r, s)) :
    s' = s ∨ ∃ job x job' s₁, s.jobs.get? k = some job ∧ job.owns a t = true ∧
        mutate s job = .ok (some (x, job', s₁)) ∧ b = g (some x) ∧
        s' = s₁.save (job'.stamp savedAt) := by
  obtain ⟨⟨r, s₂⟩, hg, h⟩ := Except.bind_eq_ok.mp h
  cases (hf r s₂).symm.trans h
  rw [guardedUpdate] at hg
  split at hg
  · cases hg
    exact .inl rfl
  next job hjob =>
  split at hg
  · cases hg
    exact .inl rfl
  next howns =>
  obtain ⟨m, hm, hg⟩ := Except.bind_eq_ok.mp hg
  cases m with
  | none =>
    cases hg
    exact .inl rfl
  | some m =>
    obtain ⟨x, job', s₁⟩ := m
    cases hg
    exact .inr ⟨job, x, job', s₁, hjob, not_not.mp howns, hm, rfl, rfl⟩

theorem heartbeat_cases {seconds : Int} (h : heartbeat s k a t seconds now savedAt = .ok (b, s')) : s' = s ∨
      ∃ job expires, s.jobs.get? k = some job ∧ job.owns a t = true ∧
        s' = s.save ({ job with leaseExpiresAt := some expires }.stamp savedAt) := by
  rcases guardedUpdate_cases h fun _ _ => rfl with rfl | ⟨job, x, job', s₁, hjob, howns, hm, rfl, rfl⟩
  · exact .inl rfl
  · obtain ⟨expires, -, hm⟩ := Except.bind_eq_ok.mp hm
    cases hm
    exact .inr ⟨job, expires, hjob, howns, rfl⟩

theorem progress_cases {items : List (String × Raw)} (h : progress s k a t items savedAt = .ok (b, s')) :
    s' = s ∨ ∃ job current, s.jobs.get? k = some job ∧ job.owns a t = true ∧
        items.foldlM progressItem job.progress = .ok current ∧
        s' = s.save ({ job with progress := current }.stamp savedAt) := by
  rcases guardedUpdate_cases h fun _ _ => rfl with rfl | ⟨job, x, job', s₁, hjob, howns, hm, rfl, rfl⟩
  · exact .inl rfl
  · obtain ⟨current, hc, hm⟩ := Except.bind_eq_ok.mp hm
    cases hm
    exact .inr ⟨job, current, hjob, howns, hc, rfl⟩

/-- `complete` changes nothing, or ends the lease: a cancelled job without accepting the artifact,
another one with it. -/
theorem complete_cases {artifact : Artifact k} (h : complete s k a t artifact now savedAt = .ok (b, s')) :
    s' = s ∨ ∃ job, s.jobs.get? k = some job ∧ job.owns a t = true ∧
        ((job.cancellationRequested = true ∧ b = false ∧
            s' = s.save ((job.cancelledAt now).released.stamp savedAt)) ∨
          (job.cancellationRequested = false ∧ b = true ∧
            ∃ status published s₁, (status = .completed ∨ status = .failed) ∧
              s' = s₁.save ((job.finished artifact status published now).stamp savedAt) ∧
              (s₁ = s ∨ status = .completed ∧ publish s a t artifact = some s₁))) := by
  rcases guardedUpdate_cases h fun _ _ => rfl with rfl | ⟨job, x, job', s₁, hjob, howns, hm, rfl, rfl⟩
  · exact .inl rfl
  refine .inr ⟨job, hjob, howns, ?_⟩
  have hm : completeMutate a t artifact now s job = some (b, job', s₁) := Except.ok.inj hm
  rw [completeMutate] at hm
  split at hm
  · next hc =>
    cases hm
    exact .inl ⟨hc, rfl, rfl⟩
  next hc =>
  have hc : job.cancellationRequested = false := Bool.eq_false_iff.mpr hc
  dsimp only at hm
  split at hm
  · cases hm
  next hstatus =>
  rw [not_not] at hstatus
  split at hm
  · next hpub =>
    split at hm
    · cases hm
    · next s₂ hs₂ =>
      cases hm
      exact .inr ⟨hc, rfl, _, _, _, hstatus, rfl, .inr ⟨hpub.1, hs₂⟩⟩
  · cases hm
    exact .inr ⟨hc, rfl, _, _, _, hstatus, rfl, .inl rfl⟩

theorem retryOrFail_cases {transient : Bool} {code error : String} {base : Int}
    (h : retryOrFail s k a t transient code error base now savedAt = .ok (b, s')) :
    s' = s ∨ ∃ job job', s.jobs.get? k = some job ∧ job.owns a t = true ∧
        s' = s.save (job'.released.stamp savedAt) ∧ job.EndsAs job' := by
  rcases guardedUpdate_cases h fun _ _ => rfl with rfl | ⟨job, x, job', s₁, hjob, howns, hm, rfl, rfl⟩
  · exact .inl rfl
  split at hm
  · next hc =>
    cases hm
    exact .inr ⟨job, _, hjob, howns, rfl, .inl ⟨hc, now, rfl⟩⟩
  next hc =>
  have hc : job.cancellationRequested = false := Bool.eq_false_iff.mpr hc
  split at hm
  · next hretry =>
    obtain ⟨next, -, hm⟩ := Except.bind_eq_ok.mp hm
    cases hm
    obtain ⟨-, rfl, -⟩ := Job.owns_iff.mp howns
    exact .inr ⟨job, _, hjob, howns, rfl, .inr (.inl ⟨hc, hretry.2, next, rfl⟩)⟩
  · cases hm
    exact .inr ⟨job, _, hjob, howns, rfl, .inr (.inr ⟨hc, _, error, now, rfl⟩)⟩

theorem claim_cases {seconds : Int} {r : Option Job} (h : claim s t now seconds = .ok (r, s')) :
    (r = none ∧ s' = s) ∨ ∃ job expires, job ∈ s.jobs.rows ∧ job.status = .queued ∧
        r = some (job.claimed t expires now) ∧ s' = s.save (job.claimed t expires now) := by
  rw [claim] at h
  split at h
  · cases h
    exact .inl ⟨rfl, rfl⟩
  next job hjob =>
  obtain ⟨expires, -, h⟩ := Except.bind_eq_ok.mp h
  cases h
  have hmem : job ∈ s.jobs.rows := List.mem_mergeSort.mp (List.mem_of_find?_eq_some hjob)
  have hclaimable := List.find?_some hjob
  rw [claimable, decide_eq_true_eq] at hclaimable
  exact .inr ⟨job, expires, hmem, hclaimable.1, rfl, rfl⟩

theorem recovered_cases (h : job.recovered now = some job') :
    job.status = .running ∧ ∃ next, job' = next.released.stamp now ∧ job.EndsAs next := by
  rw [Job.recovered] at h
  split at h
  · cases h
  next hrun =>
  refine ⟨not_not.mp hrun, ?_⟩
  split at h
  · cases h
  split at h
  · cases h
  refine ⟨_, (Option.some.inj h).symm, ?_⟩
  split
  · next hc => exact .inl ⟨hc, now, rfl⟩
  next hc =>
  have hc : job.cancellationRequested = false := Bool.eq_false_iff.mpr hc
  split
  · exact .inr (.inr ⟨hc, _, _, now, rfl⟩)
  · next hlt => exact .inr (.inl ⟨hc, by omega, now, rfl⟩)

/-! ## What an operation does to one job -/

end

/-- The changes an operation that draws `id` and `token` can make to the row of a key. -/
inductive JobStep (id : String) (token : LeaseToken) :
    Op → String → Option Job → Option Job → Prop where
  /-- the row is left alone -/
  | same (op : Op) (k : String) (x : Option Job) : JobStep id token op k x x
  | enqueued {settings request capacity limit valid now} (x : Option Job) :
      JobStep id token (.enqueue settings request capacity limit valid now) id x
        (some (buildAsyncJob settings request id now))
  | claimed {now seconds expires} {job : Job} (hstatus : job.status = .queued) :
      JobStep id token (.claim now seconds) job.id (some job)
        (some (job.claimed token expires now))
  | renewed {k a t seconds now savedAt expires} {job : Job} (howns : job.owns a t = true) :
      JobStep id token (.heartbeat k a t seconds now savedAt) k (some job)
        (some ({ job with leaseExpiresAt := some expires }.stamp savedAt))
  | progressed {k a t items savedAt current} {job : Job} (howns : job.owns a t = true)
      (hitems : items.foldlM progressItem job.progress = .ok current) :
      JobStep id token (.progress k a t items savedAt) k (some job)
        (some ({ job with progress := current }.stamp savedAt))
  /-- `complete` accepts the artifact -/
  | finished {k a t artifact now savedAt status published} {job : Job}
      (howns : job.owns a t = true) (hcancel : job.cancellationRequested = false)
      (hstatus : status = .completed ∨ status = .failed) :
      JobStep id token (.complete k a t artifact now savedAt) k (some job)
        (some ((job.finished artifact status published now).stamp savedAt))
  /-- `complete` meets a cancellation request -/
  | declined {k a t artifact now savedAt} {job : Job} (howns : job.owns a t = true)
      (hcancel : job.cancellationRequested = true) :
      JobStep id token (.complete k a t artifact now savedAt) k (some job)
        (some ((job.cancelledAt now).released.stamp savedAt))
  | retried {k a t transient code error base now savedAt} {job next : Job}
      (howns : job.owns a t = true) (hends : job.EndsAs next) :
      JobStep id token (.retryOrFail k a t transient code error base now savedAt) k (some job)
        (some (next.released.stamp savedAt))
  | recovered {k now} {job next : Job} (hstatus : job.status = .running) (hends : job.EndsAs next) :
      JobStep id token (.recoverExpired now) k (some job) (some (next.released.stamp now))
  | cancelledQueued {k reason now later} {job : Job} (hstatus : job.status = .queued) :
      JobStep id token (.cancel k reason now later) k (some job)
        (some ((job.requestCancellation reason now).cancelledAt later))
  | cancelledRunning {k reason now later} {job : Job} (hstatus : job.status = .running) :
      JobStep id token (.cancel k reason now later) k (some job)
        (some (job.requestCancellation reason now))
  | removed {k now age count bytes} {job : Job} (hstatus : job.status.terminal = true) :
      JobStep id token (.retainTerminal now age count bytes) k (some job) none

/-- Reading a key after a save. -/
theorem Store.get?_save (s : Store) (job : Job) (k : String) :
    (s.save job).jobs.get? k = if k = job.id then some job else s.jobs.get? k :=
  Table.get?_put s.jobs job k

variable {id k₀ : String} {token : LeaseToken} {op : Op}

/-- A save of the row of key `k₀` makes a step at every key, given the step at `k₀`. -/
theorem JobStep.of_save (hid : job'.id = k₀) (hstep : JobStep id token op k₀ (s.jobs.get? k₀) (some job'))
    (k : String) : JobStep id token op k (s.jobs.get? k) ((s.save job').jobs.get? k) := by
  rw [Store.get?_save, hid]
  by_cases hk : k = k₀
  · rw [if_pos hk, hk]
    exact hstep
  · rw [if_neg hk]
    exact .same _ _ _

/-- The next row of a job that was found. -/
theorem JobStep.of_change (hjob : s.jobs.get? k₀ = some job)
    (hstep : JobStep id token op k₀ (some job) (some job')) (hid : job'.id = job.id) (k : String) :
    JobStep id token op k (s.jobs.get? k) ((s.save job').jobs.get? k) :=
  .of_save (hid.trans (Table.key_of_get? hjob)) (hjob ▸ hstep) k

variable {next : Job}

theorem Job.id_of_endsAs (h : job.EndsAs next) : next.id = job.id := by
  rcases h with ⟨-, now, rfl⟩ | ⟨-, -, t, rfl⟩ | ⟨-, c, e, now, rfl⟩ <;> rfl

section Effects

variable {s' : Store} {k : String}

/-- A call that raises is a step that changes nothing. -/
theorem JobStep.of_settle {α : Type} {x : Except QueueError (α × Store)}
    (h : ∀ r s', x = .ok (r, s') → JobStep id token op k (s.jobs.get? k) (s'.jobs.get? k)) :
    JobStep id token op k (s.jobs.get? k) ((settle s x).jobs.get? k) :=
  settle_induction (P := fun s' => JobStep id token op k (s.jobs.get? k) (s'.jobs.get? k)) (.same _ _ _) h

theorem enqueue_job (h : enqueue s (buildAsyncJob settings request id now) capacity limit valid = .ok (r, s')) :
    JobStep id token (.enqueue settings request capacity limit valid now) k (s.jobs.get? k) (s'.jobs.get? k) := by
  rw [enqueue] at h
  split at h
  · rw [Except.guard_eq_ok] at h
    cases h.2
    exact .same _ _ _
  split at h
  · cases h
    exact .same _ _ _
  · simp only [Except.guard_eq_ok] at h
    cases h.2.2.2
    exact .of_save rfl (.enqueued _) k

theorem claim_job (h : claim s token now seconds = .ok (r, s')) :
    JobStep id token (.claim now seconds) k (s.jobs.get? k) (s'.jobs.get? k) := by
  rcases claim_cases h with ⟨-, rfl⟩ | ⟨job, expires, hmem, hstatus, -, rfl⟩
  · exact .same _ _ _
  · exact .of_change (Table.get?_of_mem hmem) (.claimed hstatus) rfl k

theorem heartbeat_job (h : heartbeat s k₀ a t seconds now savedAt = .ok (b, s')) :
    JobStep id token (.heartbeat k₀ a t seconds now savedAt) k (s.jobs.get? k) (s'.jobs.get? k) := by
  rcases heartbeat_cases h with rfl | ⟨job, expires, hjob, howns, rfl⟩
  · exact .same _ _ _
  · exact .of_change hjob (.renewed howns) rfl k

theorem progress_job (h : progress s k₀ a t items savedAt = .ok (b, s')) :
    JobStep id token (.progress k₀ a t items savedAt) k (s.jobs.get? k) (s'.jobs.get? k) := by
  rcases progress_cases h with rfl | ⟨job, current, hjob, howns, hitems, rfl⟩
  · exact .same _ _ _
  · exact .of_change hjob (.progressed howns hitems) rfl k

/-- Publication touches the exports only. -/
theorem publish_jobs {a : Int} {t : LeaseToken} {artifact : Artifact k₀} {s₁ : Store}
    (h : publish s a t artifact = some s₁) : s₁.jobs = s.jobs := by
  rw [publish] at h
  split at h
  · cases h
  · split at h
    · cases h
    · cases h
      rfl

theorem complete_job {artifact : Artifact k₀} (h : complete s k₀ a t artifact now savedAt = .ok (b, s')) :
    JobStep id token (.complete k₀ a t artifact now savedAt) k (s.jobs.get? k) (s'.jobs.get? k) := by
  rcases complete_cases h with rfl | ⟨job, hjob, howns,
    ⟨hcancel, -, rfl⟩ | ⟨hcancel, -, status, published, s₁, hstatus, rfl, hs₁⟩⟩
  · exact .same _ _ _
  · exact .of_change hjob (.declined howns hcancel) rfl k
  · have hjobs : s₁.jobs = s.jobs := by
      rcases hs₁ with rfl | ⟨-, hpub⟩
      · rfl
      · exact publish_jobs hpub
    rw [← hjobs] at hjob ⊢
    exact .of_save artifact.id_eq (hjob ▸ .finished howns hcancel hstatus) k

theorem retryOrFail_job (h : retryOrFail s k₀ a t transient code error base now savedAt = .ok (b, s')) :
    JobStep id token (.retryOrFail k₀ a t transient code error base now savedAt) k
      (s.jobs.get? k) (s'.jobs.get? k) := by
  rcases retryOrFail_cases h with rfl | ⟨job, next, hjob, howns, rfl, hends⟩
  · exact .same _ _ _
  · have hid : next.id = job.id := Job.id_of_endsAs hends
    exact .of_change hjob (.retried howns hends) hid k

theorem cancel_job (h : cancel s k₀ reason now later = .ok (r, s')) :
    JobStep id token (.cancel k₀ reason now later) k (s.jobs.get? k) (s'.jobs.get? k) := by
  rw [cancel] at h
  split at h
  · cases h
  next job hjob =>
  split at h
  · cases h
    exact .same _ _ _
  · cases h
    exact .same _ _ _
  · next hstatus =>
    cases h
    exact .of_change hjob (.cancelledQueued hstatus) rfl k
  · next hstatus =>
    cases h
    exact .of_change hjob (.cancelledRunning hstatus) rfl k
  · cases h
    exact .of_change hjob (.same _ _ _) rfl k

theorem recoverExpired_job (now : Time) : JobStep id token (.recoverExpired now) k
      (s.jobs.get? k) ((recoverExpired s now).2.jobs.get? k) := by
  have hid : ∀ job job' : Job, job.recovered now = some job' → job'.id = job.id := by
    intro job job' h
    obtain ⟨-, next, rfl, hends⟩ := recovered_cases h
    have hid := Job.id_of_endsAs hends
    exact hid
  rw [recoverExpired]
  simp only [Table.get?_writeBack s.jobs hid k]
  cases s.jobs.get? k with
  | none => exact .same _ _ _
  | some job =>
    rw [Option.map_some]
    cases hrec : job.recovered now with
    | none => exact .same _ _ _
    | some job' =>
      obtain ⟨hrun, next, rfl, hends⟩ := recovered_cases hrec
      exact .recovered hrun hends

theorem retainTerminal_job (h : retainTerminal s now age count bytes = .ok (r, s')) :
    JobStep id token (.retainTerminal now age count bytes) k (s.jobs.get? k) (s'.jobs.get? k) := by
  obtain ⟨cutoff, -, h⟩ := Except.bind_eq_ok.mp h
  rw [Except.guard_eq_ok] at h
  cases h.2
  simp only [Table.get?_foldl_erase]
  split
  · next hmem =>
    -- a removed id is the id of a terminal row
    obtain ⟨job, hjob, rfl⟩ := List.mem_map.mp hmem
    have hsorted := List.mem_mergeSort.mp (List.mem_filter.mp hjob).1
    obtain ⟨hrow, hterminal⟩ := List.mem_filter.mp hsorted
    rw [Table.get?_of_mem hrow]
    exact .removed hterminal
  · exact .same _ _ _

/-- **Every operation makes only these changes to a job.** -/
theorem effect_job (s : Store) (k : String) (op : Op) :
    JobStep id token op k (s.jobs.get? k) ((op.effect id token s).jobs.get? k) := by
  cases op with
  | enqueue => exact .of_settle fun _ _ h => enqueue_job h
  | claim => exact .of_settle fun _ _ h => claim_job h
  | heartbeat => exact .of_settle fun _ _ h => heartbeat_job h
  | progress => exact .of_settle fun _ _ h => progress_job h
  | complete => exact .of_settle fun _ _ h => complete_job h
  | retryOrFail => exact .of_settle fun _ _ h => retryOrFail_job h
  | cancel => exact .of_settle fun _ _ h => cancel_job h
  | recoverExpired now => exact recoverExpired_job now
  | retainTerminal => exact .of_settle fun _ _ h => retainTerminal_job h
  | saveExport =>
    refine .of_settle fun r s' h => ?_
    rw [saveExport] at h
    split at h
    · cases h
      exact .same _ _ _
    · split at h
      · cases h
      · cases h
        exact .same _ _ _
  | compensate k₀ a t artifact =>
    have hjobs : (compensate s a t artifact).jobs = s.jobs := by
      rw [compensate]
      split_ifs
      · rfl
      · split
        · rfl
        · split_ifs <;> rfl
    rw [Op.effect, hjobs]
    exact .same _ _ _
  | cleanupOrphans =>
    refine .of_settle fun r s' h => ?_
    obtain ⟨cutoff, -, h⟩ := Except.bind_eq_ok.mp h
    cases h
    exact .same _ _ _

end Effects

/-! ## Progress documents -/

/-- One progress assignment raises counters, and percent not above 99. -/
theorem progressItem_le {current next : Progress} {item : String × Raw} (h : progressItem current item = .ok next) :
    (∀ c, current.counters c ≤ next.counters c) ∧
      (current.counters .percent ≤ 99 → next.counters .percent ≤ 99) := by
  rw [progressItem] at h
  split at h
  · next counter _ =>
    split at h
    · cases h
    next value _ =>
    cases h
    constructor
    · intro c
      simp only [Progress.set]
      split
      · next hc => rw [hc]; exact le_max_left _ _
      · exact le_rfl
    · intro hle
      simp only [Progress.set]
      split
      · next hc =>
        rw [← hc, if_pos rfl]
        exact max_le hle (min_le_left _ _)
      · exact hle
  · split at h
    · cases h
      exact ⟨fun _ => le_rfl, id⟩
    · cases h
      exact ⟨fun _ => le_rfl, id⟩

theorem progressItems_le {items : List (String × Raw)} {current next : Progress}
    (h : items.foldlM progressItem current = .ok next) :
    (∀ c, current.counters c ≤ next.counters c) ∧
      (current.counters .percent ≤ 99 → next.counters .percent ≤ 99) := by
  refine List.foldlM_eq_ok_induction (fun _ p => (∀ c, current.counters c ≤ p.counters c) ∧
      (current.counters .percent ≤ 99 → p.counters .percent ≤ 99)) ⟨fun _ => le_rfl, id⟩ ?_ h
  intro pre item p p' _ hp hstep
  obtain ⟨hmono, hpercent⟩ := progressItem_le hstep
  exact ⟨fun c => (hp.1 c).trans (hmono c), fun h99 => hpercent (hp.2 h99)⟩

/-! ## The invariant of a stored row -/

/-- What holds of every row of `pcap_export_jobs`. -/
structure JobInv (job : Job) : Prop where
  token_iff : job.leaseToken.isSome ↔ job.status = .running
  expires_iff : job.leaseExpiresAt.isSome ↔ job.status = .running
  queued_attempt : job.status = .queued → 0 ≤ job.attempt ∧ job.attempt < job.maxAttempts
  running_attempt : job.status = .running → 1 ≤ job.attempt ∧ job.attempt ≤ job.maxAttempts
  cancel_status : job.cancellationRequested = true →
    job.status = .running ∨ job.status = .cancelled
  percent_le : job.status ≠ .completed → job.progress.counters .percent ≤ 99

theorem jobInv_build (settings : ExportSettings) (request : ExportRequest) (id : String)
    (now : Time) : JobInv (buildAsyncJob settings request id now) where
  token_iff := by simp [buildAsyncJob]
  expires_iff := by simp [buildAsyncJob]
  queued_attempt _ := ⟨le_rfl, settings.one_le⟩
  running_attempt h := nomatch h
  cancel_status h := nomatch h
  percent_le _ := by simp [buildAsyncJob]

namespace JobInv

theorem stamp (h : JobInv job) (savedAt : Time) : JobInv (job.stamp savedAt) :=
  { h with }

theorem claimed (h : JobInv job) (hstatus : job.status = .queued) (token : LeaseToken)
    (expires now : Time) : JobInv (job.claimed token expires now) where
  token_iff := by simp [Job.claimed]
  expires_iff := by simp [Job.claimed]
  queued_attempt h := nomatch h
  running_attempt _ := by
    have := h.queued_attempt hstatus
    simp only [Job.claimed]
    omega
  cancel_status _ := .inl rfl
  percent_le _ := h.percent_le (by simp [hstatus])

theorem renewed (h : JobInv job) (hstatus : job.status = .running) (expires : Time) :
    JobInv { job with leaseExpiresAt := some expires } :=
  { h with expires_iff := by simp [hstatus] }

theorem progressed (h : JobInv job) {current : Progress}
    (hle : job.progress.counters .percent ≤ 99 → current.counters .percent ≤ 99) :
    JobInv { job with progress := current } :=
  { h with percent_le := fun hs => hle (h.percent_le hs) }

theorem finished {k : String} {artifact : Artifact k} {status : Status} {published : Option Bool}
    {now : Time} (hcancel : job.cancellationRequested = false)
    (hstatus : status = .completed ∨ status = .failed) :
    JobInv (job.finished artifact status published now) where
  token_iff := by rcases hstatus with rfl | rfl <;> simp [Job.finished, Job.released]
  expires_iff := by rcases hstatus with rfl | rfl <;> simp [Job.finished, Job.released]
  queued_attempt h := by rcases hstatus with rfl | rfl <;> cases h
  running_attempt h := by rcases hstatus with rfl | rfl <;> cases h
  cancel_status h := by
    simp only [Job.finished, Job.released, Job.merge, hcancel] at h
    cases h
  percent_le h := by
    have hs : status ≠ .completed := h
    simp [Job.finished, Progress.set, hs]

/-- A lease that ends leaves a good row. -/
theorem released (h : JobInv job) (hstatus : job.status = .running)
    (hends : job.EndsAs next) : JobInv next.released := by
  have hattempt := h.running_attempt hstatus
  have hpercent := h.percent_le (by simp [hstatus])
  rcases hends with ⟨hc, now, rfl⟩ | ⟨hc, hlt, at', rfl⟩ | ⟨hc, code, error, now, rfl⟩
  · exact ⟨by simp [Job.released, Job.cancelledAt], by simp [Job.released, Job.cancelledAt],
      nofun, nofun, fun _ => .inr rfl, fun _ => hpercent⟩
  · refine ⟨by simp [Job.released, Job.requeuedAt], by simp [Job.released, Job.requeuedAt],
      fun _ => ⟨?_, hlt⟩, nofun, fun hcancel => ?_, fun _ => hpercent⟩
    · simp only [Job.released, Job.requeuedAt]
      omega
    · simp [Job.released, Job.requeuedAt, hc] at hcancel
  · refine ⟨by simp [Job.released, Job.failedAt], by simp [Job.released, Job.failedAt],
      nofun, nofun, fun hcancel => ?_, fun _ => hpercent⟩
    simp [Job.released, Job.failedAt, hc] at hcancel

theorem cancelledQueued (h : JobInv job) (hstatus : job.status = .queued) (reason : Option String)
    (now later : Time) : JobInv ((job.requestCancellation reason now).cancelledAt later) where
  token_iff := by
    have := h.token_iff
    simpa [Job.cancelledAt, Job.requestCancellation, hstatus] using this
  expires_iff := by
    have := h.expires_iff
    simpa [Job.cancelledAt, Job.requestCancellation, hstatus] using this
  queued_attempt := nofun
  running_attempt := nofun
  cancel_status _ := .inr rfl
  percent_le _ := h.percent_le (by simp [hstatus])

theorem cancelledRunning (h : JobInv job) (hstatus : job.status = .running)
    (reason : Option String) (now : Time) : JobInv (job.requestCancellation reason now) :=
  { h with cancel_status := fun _ => .inl hstatus }

/-- Every step keeps the invariant. -/
theorem step {k : String} {x y : Option Job}
    (hstep : JobStep id token op k x y) (hx : ∀ job, x = some job → JobInv job) :
    ∀ job, y = some job → JobInv job := by
  rintro job' rfl
  cases hstep with
  | same => exact hx job' rfl
  | enqueued => exact jobInv_build _ _ _ _
  | claimed hstatus => exact (hx _ rfl).claimed hstatus _ _ _
  | renewed howns => exact ((hx _ rfl).renewed (Job.owns_iff.mp howns).1 _).stamp _
  | progressed howns hitems => exact ((hx _ rfl).progressed (progressItems_le hitems).2).stamp _
  | finished howns hcancel hstatus => exact (finished hcancel hstatus).stamp _
  | declined howns hcancel =>
    exact ((hx _ rfl).released (Job.owns_iff.mp howns).1 (.inl ⟨hcancel, _, rfl⟩)).stamp _
  | retried howns hends => exact ((hx _ rfl).released (Job.owns_iff.mp howns).1 hends).stamp _
  | recovered hstatus hends => exact ((hx _ rfl).released hstatus hends).stamp _
  | cancelledQueued hstatus => exact (hx _ rfl).cancelledQueued hstatus _ _ _
  | cancelledRunning hstatus => exact (hx _ rfl).cancelledRunning hstatus _ _

end JobInv

/-! ## How a job evolves -/

/-- A row and a later row of the same job. -/
structure Evolves (job later : Job) : Prop where
  terminal : job.status.terminal = true → later.status = job.status
  cancel : job.cancellationRequested = true → later.cancellationRequested = true
  counters : ∀ c, job.progress.counters c ≤ later.progress.counters c

namespace Evolves

theorem refl (job : Job) : Evolves job job := ⟨fun _ => rfl, id, fun _ => le_rfl⟩

theorem trans {a b c : Job} (hab : Evolves a b) (hbc : Evolves b c) : Evolves a c where
  terminal h := by
    have hb := hab.terminal h
    rw [← hb]
    exact hbc.terminal (by rw [hb]; exact h)
  cancel h := hbc.cancel (hab.cancel h)
  counters i := (hab.counters i).trans (hbc.counters i)

/-- A step from a state that is not terminal, and that keeps the progress document. -/
theorem of_active {later : Job} (hactive : job.status.terminal = false)
    (hcancel : job.cancellationRequested = true → later.cancellationRequested = true)
    (hcounters : ∀ c, job.progress.counters c ≤ later.progress.counters c) : Evolves job later where
  terminal h := by
    rw [hactive] at h
    cases h
  cancel := hcancel
  counters := hcounters

theorem of_endsAs (hstatus : job.status = .running) (hends : job.EndsAs next)
    (savedAt : Time) : Evolves job (next.released.stamp savedAt) := by
  refine of_active (by rw [hstatus]; rfl) ?_ ?_
  · rcases hends with ⟨-, now, rfl⟩ | ⟨-, -, t, rfl⟩ | ⟨-, c, e, now, rfl⟩ <;> exact id
  · rcases hends with ⟨-, now, rfl⟩ | ⟨-, -, t, rfl⟩ | ⟨-, c, e, now, rfl⟩ <;>
      exact fun _ => le_rfl

/-- Completion raises percent to 100, failure leaves it below; the other counters
keep their values. -/
theorem of_finished {k : String} {artifact : Artifact k} {status : Status} {published : Option Bool}
    {now : Time} (hinv : JobInv job) (hrun : job.status = .running)
    (hcancel : job.cancellationRequested = false) (savedAt : Time) :
    Evolves job ((job.finished artifact status published now).stamp savedAt) := by
  refine of_active (by rw [hrun]; rfl) (by rw [hcancel]; exact nofun) ?_
  have hle := hinv.percent_le (by simp [hrun])
  intro c
  simp only [Job.stamp, Job.finished, Progress.set, Job.released, Job.merge]
  split
  · next hc =>
    rw [hc]
    split
    · omega
    · exact le_min hle le_rfl
  · exact le_rfl

/-- Every step relates the row before to the row after, unless it enqueues there. -/
theorem step {k : String} {x : Option Job}
    (hstep : JobStep id token op k x (some job')) (hx : ∀ job, x = some job → JobInv job)
    (hid : k ≠ id) : ∃ job, x = some job ∧ Evolves job job' := by
  cases hstep with
  | same => exact ⟨job', rfl, refl job'⟩
  | enqueued => exact absurd rfl hid
  | claimed hstatus => exact ⟨_, rfl, of_active (by rw [hstatus]; rfl) (fun h => h) fun _ => le_rfl⟩
  | renewed howns =>
    exact ⟨_, rfl, of_active (by rw [(Job.owns_iff.mp howns).1]; rfl) (fun h => h) fun _ => le_rfl⟩
  | progressed howns hitems =>
    exact ⟨_, rfl, of_active (by rw [(Job.owns_iff.mp howns).1]; rfl) (fun h => h) (progressItems_le hitems).1⟩
  | finished howns hcancel _ =>
    exact ⟨_, rfl, of_finished (hx _ rfl) (Job.owns_iff.mp howns).1 hcancel _⟩
  | declined howns hcancel =>
    exact ⟨_, rfl, of_endsAs (Job.owns_iff.mp howns).1 (.inl ⟨hcancel, _, rfl⟩) _⟩
  | retried howns hends => exact ⟨_, rfl, of_endsAs (Job.owns_iff.mp howns).1 hends _⟩
  | recovered hstatus hends => exact ⟨_, rfl, of_endsAs hstatus hends _⟩
  | cancelledQueued hstatus | cancelledRunning hstatus =>
    exact ⟨_, rfl, of_active (by rw [hstatus]; rfl) (fun _ => rfl) fun _ => le_rfl⟩

end Evolves

/-! ## Whole runs -/

section Runs

variable (names : Names)

/-- The step of one key, read off `World.exec`. -/
theorem exec_job (w : World) (op : Op) (k : String) :
    JobStep (names.ids w.drawn) (names.tokens w.drawn) op k (w.store.jobs.get? k)
      ((w.exec names op).store.jobs.get? k) :=
  effect_job w.store k op

/-- The invariant of a run: good rows, and only under ids the run has drawn. -/
structure WorldInv (w : World) : Prop where
  jobs : ∀ k job, w.store.jobs.get? k = some job → JobInv job
  drawn : ∀ k job, w.store.jobs.get? k = some job → ∃ i < w.drawn, names.ids i = k

variable {w : World}

/-- The id an operation draws is no id of the store. -/
theorem WorldInv.fresh (h : WorldInv names w) {k : String}
    (hjob : w.store.jobs.get? k = some job) : k ≠ names.ids w.drawn := by
  rintro rfl
  obtain ⟨i, hi, heq⟩ := h.drawn _ job hjob
  have := names.ids_inj heq
  omega

theorem WorldInv.exec (h : WorldInv names w) (op : Op) : WorldInv names (w.exec names op) where
  jobs k := JobInv.step (exec_job names w op k) (h.jobs k)
  drawn k job hjob := by
    by_cases hk : k = names.ids w.drawn
    · exact ⟨w.drawn, Nat.lt_succ_self _, hk.symm⟩
    have hstep := exec_job names w op k
    rw [hjob] at hstep
    obtain ⟨job₀, hjob₀, -⟩ := Evolves.step hstep (h.jobs k) hk
    obtain ⟨i, hi, heq⟩ := h.drawn k job₀ hjob₀
    exact ⟨i, Nat.lt_succ_of_lt hi, heq⟩

theorem worldInv_foldl (h : WorldInv names w) (ops : List Op) :
    WorldInv names (ops.foldl (World.exec names) w) := by
  induction ops generalizing w with
  | nil => exact h
  | cons op ops ih => exact ih (h.exec names op)

theorem worldInv_run (ops : List Op) : WorldInv names (World.run names ops) :=
  worldInv_foldl names ⟨by simp [Store.empty], by simp [Store.empty]⟩ ops

/-- A row at the end of a run evolved from the row the key had before it, if the
key's id was already drawn: ids are never enqueued twice. -/
theorem evolves_foldl (h : WorldInv names w) (ops : List Op) {i : Nat} (hi : i < w.drawn)
    (hjob' : (ops.foldl (World.exec names) w).store.jobs.get? (names.ids i) = some job') :
    ∃ job, w.store.jobs.get? (names.ids i) = some job ∧ Evolves job job' := by
  induction ops generalizing w with
  | nil => exact ⟨job', hjob', Evolves.refl job'⟩
  | cons op ops ih =>
    obtain ⟨mid, hmid, hev⟩ := ih (h.exec names op) (Nat.lt_succ_of_lt hi) hjob'
    have hne : names.ids i ≠ names.ids w.drawn := fun heq => by
      have := names.ids_inj heq
      omega
    have hstep := exec_job names w op (names.ids i)
    rw [hmid] at hstep
    obtain ⟨job, hjob, hev₀⟩ := Evolves.step hstep (h.jobs _) hne
    exact ⟨job, hjob, hev₀.trans hev⟩

/-- **The lifecycle of the export queue.** After any operations in any order, every job
has a lease token and a lease expiry exactly while it is running, its attempts are
within bounds, and only a completed job shows 100 percent. And whatever runs later:
a completed, failed or cancelled job keeps its status, a job whose cancellation was
requested is never completed or failed, and no progress counter decreases. -/
theorem queue_lifecycle (ops later : List Op) : (∀ k job, (World.run names ops).store.jobs.get? k = some job →
      (job.leaseToken.isSome ↔ job.status = .running) ∧
      (job.leaseExpiresAt.isSome ↔ job.status = .running) ∧
      (job.status = .queued → job.attempt < job.maxAttempts) ∧
      (job.status = .running → 1 ≤ job.attempt ∧ job.attempt ≤ job.maxAttempts) ∧
      (job.progress.counters .percent = 100 → job.status = .completed)) ∧
    (∀ k job job', (World.run names ops).store.jobs.get? k = some job →
      (World.run names (ops ++ later)).store.jobs.get? k = some job' →
      (job.status.terminal = true → job'.status = job.status) ∧
      (job.cancellationRequested = true → job'.status ≠ .completed ∧ job'.status ≠ .failed) ∧
      (∀ c, job.progress.counters c ≤ job'.progress.counters c)) := by
  have hinv := worldInv_run names ops
  constructor
  · intro k job hjob
    have hj := hinv.jobs k job hjob
    refine ⟨hj.token_iff, hj.expires_iff, fun h => (hj.queued_attempt h).2, hj.running_attempt, ?_⟩
    intro h100
    by_contra hne
    have := hj.percent_le hne
    omega
  · intro k job job' hjob hjob'
    obtain ⟨i, hi, rfl⟩ := hinv.drawn k job hjob
    have hinv' := worldInv_run names (ops ++ later)
    have hcancel' := (hinv'.jobs _ job' hjob').cancel_status
    rw [World.run_append] at hjob'
    obtain ⟨job₀, hjob₀, hev⟩ := evolves_foldl names hinv later hi hjob'
    rw [hjob] at hjob₀
    cases hjob₀
    refine ⟨hev.terminal, fun hc => ?_, hev.counters⟩
    rcases hcancel' (hev.cancel hc) with hs | hs
    · rw [hs]
      exact ⟨nofun, nofun⟩
    · rw [hs]
      exact ⟨nofun, nofun⟩

end Runs

/-- A job that is enqueued, claimed, cancelled while it runs and then completed ends
cancelled, without a lease. -/
example :
    ((World.run Names.unary
        [.enqueue ⟨3, by decide⟩ ⟨"principal", none, "request", "coalesce"⟩ 10 10 true 0,
          .claim 0 120,
          .cancel "" none 1 1,
          .complete "" 1 (Names.unary.tokens 1)
            ⟨"", rfl, none, none, none, none, "principal", 0, "", none, none⟩ 2 2]).store.jobs.get?
      "").map (fun job => (job.status, job.attempt, job.leaseToken.isSome)) =
      some (.cancelled, 1, false) := by
  decide +kernel

end C2Hunter
