import C2Hunter.PostingLifecycle

/-!
# Leases of posting workers

Staging is keyed by build id, ownership by source and lease. A worker that has lost its
lease may go on calling, in any order with its successor; every call looks up the task of
its source first and compares attempt, token and expiry.

* `LeaseCall.Current` — the call works under the current lease of its source.
* `effect_stale` — a call that does not changes nothing.
* `owner_change` — which operations change a READY owner, and what they have validated.
* `staged_history` — a staging entry holds the chunks of the calls since its `begin`, in
  their order.
* `total_published_le` — a claim is good for one publication: a publication gives the token
  back, and a token is held by as many tasks as claims have drawn it.
* `only_current_lease_publishes` — the three results over whole runs.
-/

namespace C2Hunter

open Relation PostingQueue PostingIndex PostingOp Table

/-! ## Calls under a lease -/

/-- What a worker's call says about its lease, and when it is made. -/
structure LeaseCall where
  key : SourceKey
  attempt : Int
  token : String
  now : Time

/-- The lease that an operation works under. -/
def PostingOp.lease : PostingOp → Option LeaseCall
  | .heartbeat key attempt token _ now => some ⟨key, attempt, token, now⟩
  | .fail key attempt token _ _ _ now => some ⟨key, attempt, token, now⟩
  | .begin snapshot attempt token _ now => some ⟨snapshot.binding.key, attempt, token, now⟩
  | .stage _ _ key attempt token now => some ⟨key, attempt, token, now⟩
  | .publish _ source _ attempt token now => some ⟨source.key, attempt, token, now⟩
  | .abort _ key _ attempt token now => some ⟨key, attempt, token, now⟩
  | _ => none

/-- The task of the source runs under this attempt and token, and has not expired. -/
def LeaseCall.Current (s : PostingStore) (call : LeaseCall) : Prop :=
  ∃ task, s.tasks.get? call.key = some task ∧
    task.ownsUnexpired call.attempt call.token call.now = true

variable {s s' : PostingStore} {issued : Option String} {op : PostingOp}

section

variable {py : Python} {key : SourceKey} {build : String}
    {call : LeaseCall} {parent : String} {binding : SourceIndexBinding}
    {interfaces : List StructuralInterfaceEntry} {count : Int} {answer postings : Bool} {now : Time}

theorem LeaseCall.leased_eq_none (h : ¬call.Current s) :
    leased s call.key call.attempt call.token call.now = none := by
  rw [Option.eq_none_iff_forall_ne_some]
  intro task hleased
  obtain ⟨hget, howns⟩ := Option.filter_eq_some_iff.mp hleased
  exact h ⟨task, hget, howns⟩

/-- **A call that is not under the current lease changes nothing.** -/
theorem effect_stale (hcall : op.lease = some call) (hstale : ¬call.Current s) : op.effect py s = s := by
  have hnone := LeaseCall.leased_eq_none hstale
  cases op with
  | heartbeat =>
    cases hcall
    rw [effect, PostingQueue.heartbeat, hnone]
    split <;> rfl
  | fail =>
    cases hcall
    rw [effect, PostingQueue.fail, hnone]
    split <;> rfl
  | begin =>
    cases hcall
    simp only [effect, PostingIndex.begin, hnone, Option.filter_none]
    split <;> rfl
  | stage build chunks key attempt token now =>
    cases hcall
    have hnot : stageable s build key attempt token now = none := by
      rw [stageable, hnone, Option.filter_eq_none_iff]
      intro staged _ hchecks
      rw [decide_eq_true_eq] at hchecks
      exact Bool.false_ne_true hchecks.2.2.2
    rw [effect, PostingIndex.stage, hnot]
    rfl
  | publish build source parent attempt token now =>
    cases hcall
    have hnot : publishable py s build source parent attempt token now = none := by
      rw [publishable, hnone]
      split
      · next hleased _ _ => cases hleased
      · rfl
    rw [effect, PostingIndex.publish, hnot]
  | abort build key parent attempt token now =>
    cases hcall
    have hnot : abortable s build key parent attempt token now = false := by
      rw [abortable, hnone, Option.any_none]
    rw [effect, PostingIndex.abort, hnot]
    split <;> rfl
  | _ => cases hcall

/-! ## Owners -/

/-- The operation publishes a structural index. -/
def PostingOp.structural : PostingOp → Bool
  | .publishStructural .. | .publishLiveStructural .. => true
  | _ => false

/-- A publication of postings under a source and a parent: what was staged has been
validated, and is what is READY now. -/
def PostingOp.Publishes (py : Python) (s : PostingStore) (key : SourceKey) (parent : String)
    (build : String) (staged : StagedPostings) (op : PostingOp) : Prop :=
  ∃ source structure' attempt token now,
    op = .publish build source structure' attempt token now ∧ source.key = key ∧
    structure'.buildId = parent ∧ s.staging.find? build = some staged ∧
    validatePostingIndex py (assembled staged) source structure' = true ∧
    (op.effect py s).owners.find? (key, parent) = some build ∧
    (op.effect py s).generations.find? build = some (assembled staged)

theorem PostingOp.Publishes.staged {staged : StagedPostings}
    (h : op.Publishes py s key parent build staged) : s.staging.find? build = some staged := by
  obtain ⟨source, structure', attempt, token, now, -, -, -, hstaged, -⟩ := h
  exact hstaged

theorem owners_publish (py : Python) (s : PostingStore) (build : String)
    (source : CaptureSourceVersion) (parent : StructuralIndexSnapshot) (attempt : Int)
    (token : String) (now : Time) (key : SourceKey) (parentId : String)
    (hne : ((PostingOp.publish build source parent attempt token now).effect py s).owners.find?
      (key, parentId) ≠ s.owners.find? (key, parentId)) :
    ∃ staged, (PostingOp.publish build source parent attempt token now).Publishes py s key
      parentId build staged := by
  have heffect : (PostingOp.publish build source parent attempt token now).effect py s =
    (PostingIndex.publish py s build source parent attempt token now).2 := rfl
  rw [heffect, PostingIndex.publish] at hne
  split at hne
  · exact absurd rfl hne
  next found hfound =>
  have hpublishing := publishing_of_publishable hfound
  have hput := Dict.find?_put s.owners (source.key, parent.buildId)
  replace hne : Dict.find? (put s.owners ((source.key, parent.buildId), build))
    (key, parentId) ≠ s.owners.find? (key, parentId) := hne
  rw [hput] at hne
  split at hne
  · next heq =>
    cases heq
    refine ⟨found.staged, source, parent, attempt, token, now, rfl, rfl, rfl,
      hpublishing.staged, hpublishing.valid, ?_, ?_⟩
    · rw [heffect, PostingIndex.publish, hfound]
      exact (hput (source.key, parent.buildId) build).trans (if_pos rfl)
    · rw [heffect, PostingIndex.publish, hfound]
      exact (find?_publishReady s build _ _ build).trans (if_pos rfl)
  · exact absurd rfl hne

/-- A structural publication leaves owners, staging and tasks alone, apart from those of a parent
that it supersedes. -/
theorem structural_frame (py : Python) (s : PostingStore) (h : op.structural = true) :
    ∃ s₁, (s₁ = s ∨ ∃ key old, s₁ = deletePostings s key old ∧
        (op.effect py s).structuralOwners.find? key ≠ some old) ∧
      (op.effect py s).owners = s₁.owners ∧ (op.effect py s).staging = s₁.staging ∧
      (op.effect py s).tasks = s₁.tasks := by
  have hinstall (s₁ : PostingStore) (intent : Option PostingIndexIntent)
      (snapshot : StructuralIndexSnapshot) (previous : Option String) :
      (installStructure (installIntent s₁ intent) snapshot previous).owners = s₁.owners ∧
        (installStructure (installIntent s₁ intent) snapshot previous).staging = s₁.staging ∧
        (installStructure (installIntent s₁ intent) snapshot previous).tasks = s₁.tasks := by
    cases intent <;> exact ⟨rfl, rfl, rfl⟩
  cases op with
  | publishStructural build binding staged interfaces count postings job now =>
    rw [effect]
    cases hok : publishStructural py s build binding staged interfaces count postings job now with
    | error e => exact ⟨s, .inl rfl, rfl, rfl, rfl⟩
    | ok r =>
      rw [PostingStore.settle]
      obtain hsame | ⟨source, entry, intent, -, -, -, -, hsame⟩ := publishStructural_cases hok
      · exact ⟨s, .inl rfl, by rw [hsame], by rw [hsame], by rw [hsame]⟩
      rw [hsame]
      cases hsuperseded : superseded s binding build with
      | none => exact ⟨s, .inl rfl, hinstall ..⟩
      | some old =>
        refine ⟨_, .inr ⟨binding.key, old, rfl, fun howner => ?_⟩, hinstall ..⟩
        have hput := Dict.find?_put (installIntent (deletePostings s binding.key old)
          intent).structuralOwners binding.key binding.key build
        rw [if_pos rfl] at hput
        cases hput.symm.trans howner
        exact of_decide_eq_true (Option.filter_eq_some_iff.mp hsuperseded).2 rfl
  | publishLiveStructural build binding staged interfaces count source postings segment now =>
    rw [effect]
    cases hok : publishLiveStructural py s build binding staged interfaces count source postings segment now with
    | error e => exact ⟨s, .inl rfl, rfl, rfl, rfl⟩
    | ok r =>
      rw [PostingStore.settle]
      obtain hsame | ⟨entry, intent, -, -, -, hsame⟩ := publishLiveStructural_cases hok
      · exact ⟨s, .inl rfl, by rw [hsame], by rw [hsame], by rw [hsame]⟩
      rw [hsame]
      exact ⟨s, .inl rfl, hinstall { s with sources := _ } ..⟩
  | _ => cases h

/-! ## Tokens -/

/-- The lease token that an operation draws. -/
def PostingOp.issues : PostingOp → Option String
  | .claim token _ _ => some token
  | _ => none

/-- Who holds a token held it before, unless the token has just been drawn. -/
def KeepsTokens (issued : Option String) (s s' : PostingStore) : Prop :=
  ∀ key task' token, s'.tasks.get? key = some task' → task'.leaseToken = some token →
    issued ≠ some token → ∃ task, s.tasks.get? key = some task ∧ task.leaseToken = some token

theorem KeepsTokens.of_tasks (h : s'.tasks = s.tasks) : KeepsTokens issued s s' := by
  intro key task' token htask' htoken _
  rw [h] at htask'
  exact ⟨task', htask', htoken⟩

theorem KeepsTokens.of_erase (h : ∀ key, s'.tasks.get? key = none ∨ s'.tasks.get? key = s.tasks.get? key) :
    KeepsTokens issued s s' := by
  intro key task' token htask' htoken _
  rcases h key with hnone | hsame
  · cases hnone.symm.trans htask'
  · exact ⟨task', hsame.symm.trans htask', htoken⟩

theorem PostingStep.token {c c' : PostingCell} (hstep : PostingStep issued s key c c')
    {task' : PostingIndexTask} {token : String} (htask' : c'.2 = some task')
    (htoken : task'.leaseToken = some token) (hissued : issued ≠ some token) :
    ∃ task, c.2 = some task ∧ task.leaseToken = some token := by
  cases hstep with
  | same | backfilled => exact ⟨task', htask', htoken⟩
  | requested | deferred | removed => cases htask'
  | admitted | released =>
    cases htask'
    cases htoken
  | claimed hdrawn =>
    cases htask'
    cases htoken
    exact absurd hdrawn hissued
  | renewed =>
    cases htask'
    exact ⟨_, rfl, htoken⟩

theorem QueueSteps.keepsTokens (h : QueueSteps issued s s') : KeepsTokens issued s s' := by
  intro key task' token htask' htoken hissued
  have hsteps := h.cells key
  have hlast : (s'.cell key).2 = some task' := htask'
  clear htask'
  generalize s'.cell key = c' at hsteps hlast
  induction hsteps generalizing task' with
  | refl => exact ⟨task', hlast, htoken⟩
  | tail _ hstep ih =>
    obtain ⟨mid, hmid, hmidToken⟩ := hstep.token hlast htoken hissued
    exact ih mid hmidToken hmid

/-- The operation is a call of the queue. -/
def PostingOp.queue : PostingOp → Bool
  | .begin .. | .stage .. | .publish .. | .abort .. | .publishStructural ..
  | .publishLiveStructural .. => false
  | _ => true

end

/-- A call of the queue: it leaves the maps around the tasks and hands out no token but the
one it draws. -/
structure QueueCall (issued : Option String) (s s' : PostingStore) : Prop where
  maps : s.SameMaps s'
  tokens : KeepsTokens issued s s'

section

theorem QueueSteps.queueCall (h : QueueSteps issued s s') : QueueCall issued s s' := ⟨h.maps, h.keepsTokens⟩

theorem QueueCall.settle {α : Type} {x : Except PostingError (α × PostingStore)}
    (h : ∀ r s', x = .ok (r, s') → QueueCall issued s s') : QueueCall issued s (s.settle x) := by
  cases x with
  | error => exact ⟨.refl s, .of_tasks rfl⟩
  | ok r => exact h r.1 r.2 rfl

/-- The intents that a backfill writes. -/
theorem backfill_queueCall (now : Time) (specs : List PostingIndexTaskSpec) (s : PostingStore) :
    s.SameMaps (specs.foldl (fun s spec => putIntent s (.pending spec now)) s) ∧
      (specs.foldl (fun s spec => putIntent s (.pending spec now)) s).tasks = s.tasks := by
  induction specs generalizing s with
  | nil => exact ⟨.refl s, rfl⟩
  | cons spec specs ih =>
    obtain ⟨hmaps, htasks⟩ := ih (putIntent s (.pending spec now))
    exact ⟨(sameMaps_putIntent s _).trans hmaps, htasks⟩

theorem PostingOp.queueCall (py : Python) (s : PostingStore)
    (h : op.queue = true) : QueueCall op.issues s (op.effect py s) := by
  cases op with
  | request source parent now => exact (request_steps py s source parent now).queueCall
  | requestBackfill env limit now =>
    refine QueueCall.settle fun count s' hok => ?_
    rw [PostingQueue.requestBackfill, Except.guard_eq_ok] at hok
    cases hok.2
    obtain ⟨hmaps, htasks⟩ := backfill_queueCall now _ s
    exact ⟨hmaps, .of_tasks htasks⟩
  | admitSource => exact .settle fun _ _ hok => (admit_steps hok).queueCall
  | claim => exact .settle fun _ _ hok => (claim_steps hok).queueCall
  | heartbeat =>
    exact .settle fun _ _ hok => (heartbeat_steps hok).queueCall
  | fail =>
    exact .settle fun _ _ hok => (fail_steps hok).queueCall
  | recover now => exact (recover_steps s now).queueCall
  | reconcile capacity attempts limit clock =>
    exact (reconcile_steps s capacity attempts limit clock).queueCall
  | cleanupTerminal =>
    exact .settle fun _ _ hok => (cleanupTerminal_steps hok).queueCall
  | _ => cases h

/-! ## What each operation does to an owner -/

/-- **A READY owner changes only by a publication of what was staged and validated**, or with the
structural parent that it belongs to. -/
theorem owner_change (py : Python) (s : PostingStore) (op : PostingOp) (key : SourceKey) (parent : String)
    (hne : (op.effect py s).owners.find? (key, parent) ≠ s.owners.find? (key, parent)) :
    (∃ build staged, op.Publishes py s key parent build staged) ∨
    (op.structural = true ∧ (op.effect py s).owners.find? (key, parent) = none ∧
      (op.effect py s).structuralOwners.find? key ≠ some parent) := by
  by_cases hqueue : op.queue = true
  · have hsame := (queueCall py s hqueue).maps.owners
    exact absurd (congrArg (fun owners => Dict.find? owners (key, parent)) hsame) hne
  by_cases hstructural : op.structural = true
  · obtain ⟨s₁, hs₁, howners, -⟩ := structural_frame py s hstructural
    rw [howners] at hne ⊢
    obtain rfl | ⟨key', old, rfl, hold⟩ := hs₁
    · exact absurd rfl hne
    have herase := Dict.find?_erase s.owners (key', old) (key, parent)
    split at herase
    · next heq =>
      cases heq
      exact .inr ⟨hstructural, herase, hold⟩
    · exact absurd herase hne
  cases op with
  | begin =>
    refine absurd ?_ hne
    simp only [effect, PostingIndex.begin]
    split
    · rfl
    split <;> rfl
  | stage =>
    refine absurd ?_ hne
    rw [effect, PostingIndex.stage]
    split <;> rfl
  | publish build source structure' attempt token now =>
    exact .inl ⟨build, owners_publish py s build source structure' attempt token now key parent hne⟩
  | abort =>
    refine absurd ?_ hne
    rw [effect, PostingIndex.abort]
    split
    · rfl
    split <;> rfl
  | _ => first | exact absurd rfl hqueue | exact absurd rfl hstructural

/-! ## What is staged -/

/-- The chunks that an operation adds under a build id. -/
def PostingOp.chunksFor (build : String) (s : PostingStore) : PostingOp → List PostingChunk
  | .stage build' chunks key attempt token now =>
    if build' = build ∧ (stageable s build' key attempt token now).isSome then chunks else []
  | _ => []

/-- The chunks that a run stages under a build id, in order. -/
def PostingOp.stagedChunks (py : Python) (build : String) :
    PostingStore → List PostingOp → List PostingChunk
  | _, [] => []
  | s, op :: ops => op.chunksFor build s ++ PostingOp.stagedChunks py build (op.effect py s) ops

theorem PostingOp.run_concat (py : Python) (s : PostingStore) (ops : List PostingOp) (op : PostingOp) :
    run py s (ops ++ [op]) = op.effect py (run py s ops) := by
  rw [run, List.foldl_append]
  rfl

theorem PostingOp.stagedChunks_concat (py : Python) (build : String) (s : PostingStore)
    (ops : List PostingOp) (op : PostingOp) :
    stagedChunks py build s (ops ++ [op]) = stagedChunks py build s ops ++ op.chunksFor build (run py s ops) := by
  induction ops generalizing s with
  | nil => exact List.append_nil _
  | cons first ops ih =>
    rw [List.cons_append, stagedChunks, stagedChunks, ih, List.append_assoc]
    rfl

end

/-- The changes to the staging entry of a build id. -/
inductive StagingStep (build : String) (chunks : List PostingChunk) (op : PostingOp) :
    Option StagedPostings → Option StagedPostings → Prop where
  | same (entry) (hchunks : chunks = []) : StagingStep build chunks op entry entry
  | begun {old entry snapshot attempt token stagedAt now}
      (hop : op = .begin snapshot attempt token stagedAt now) (hbuild : snapshot.buildId = build)
      (hbinding : entry.snapshot.binding = snapshot.binding) (hattempt : entry.attempt = attempt)
      (htoken : entry.leaseToken = token) (hempty : entry.chunks = []) :
      StagingStep build chunks op old (some entry)
  | staged (entry) : StagingStep build chunks op (some entry)
      (some { entry with chunks := entry.chunks ++ chunks })
  | dropped (entry) : StagingStep build chunks op entry none

theorem staging_step (py : Python) (s : PostingStore) (op : PostingOp) (build : String) :
    StagingStep build (op.chunksFor build s) op (s.staging.find? build) ((op.effect py s).staging.find? build) := by
  by_cases hqueue : op.queue = true
  · rw [(queueCall py s hqueue).maps.staging]
    refine .same _ ?_
    cases op with
    | stage => cases hqueue
    | _ => rfl
  by_cases hstructural : op.structural = true
  · have hchunks : op.chunksFor build s = [] := by
      cases op with
      | stage => cases hstructural
      | _ => rfl
    obtain ⟨s₁, hs₁, -, hstaging, -⟩ := structural_frame py s hstructural
    rw [hstaging]
    obtain rfl | ⟨key, old, rfl, -⟩ := hs₁
    · exact .same _ hchunks
    rw [deletePostings]
    simp only [Dict.find?_foldl_erase]
    split
    · exact .dropped _
    · exact .same _ hchunks
  cases op with
  | begin =>
    simp only [effect, PostingIndex.begin]
    split
    · exact .same _ rfl
    split
    · exact .same _ rfl
    · simp only [PostingStore.settleUnit, Dict.find?_put]
      split
      · next heq => exact .begun rfl heq.symm rfl rfl rfl rfl
      · exact .same _ rfl
  | stage build' chunks key attempt token now =>
    rw [effect, PostingIndex.stage, chunksFor]
    cases hstageable : stageable s build' key attempt token now with
    | none => exact .same _ (if_neg fun hc => Bool.false_ne_true hc.2)
    | some entry =>
      obtain ⟨hentry, -⟩ := Option.filter_eq_some_iff.mp hstageable
      simp only [PostingStore.settleUnit, Dict.find?_put]
      by_cases hbuild : build = build'
      · subst hbuild
        rw [if_pos rfl, hentry, if_pos ⟨rfl, rfl⟩]
        exact .staged entry
      · rw [if_neg hbuild, if_neg fun hc => hbuild hc.1.symm]
        exact .same _ rfl
  | publish build' =>
    rw [effect, PostingIndex.publish]
    split
    · exact .same _ rfl
    · have herase := Dict.find?_erase s.staging build' build
      split at herase
      · exact herase ▸ .dropped _
      · exact herase ▸ .same _ rfl
  | abort =>
    rw [effect, PostingIndex.abort]
    split
    · exact .same _ rfl
    split
    · rw [Dict.find?_erase]
      split
      · exact .dropped _
      · exact .same _ rfl
    · exact .same _ rfl
  | _ => first | exact absurd rfl hqueue | exact absurd rfl hstructural

/-- A staging entry as a run made it: a `begin`, and the chunks staged since. -/
def StagedBy (py : Python) (s : PostingStore) (ops : List PostingOp) (build : String)
    (entry : StagedPostings) : Prop :=
  ∃ pre snapshot attempt token stagedAt now post,
    ops = pre ++ .begin snapshot attempt token stagedAt now :: post ∧
    snapshot.buildId = build ∧ entry.snapshot.binding = snapshot.binding ∧
    entry.attempt = attempt ∧ entry.leaseToken = token ∧
    entry.chunks = PostingOp.stagedChunks py build
      (PostingOp.run py s (pre ++ [.begin snapshot attempt token stagedAt now])) post

variable {py : Python}

/-- **The chunks of a staging entry are those of the calls since its `begin`, in order.** -/
theorem staged_history (hstaging : s.staging = .empty) (ops : List PostingOp) {build : String}
    {entry : StagedPostings} (hentry : (run py s ops).staging.find? build = some entry) :
    StagedBy py s ops build entry := by
  induction ops using List.reverseRecOn generalizing entry with
  | nil =>
    rw [run, List.foldl_nil, hstaging] at hentry
    cases hentry
  | append_singleton ops op ih =>
    rw [run_concat] at hentry
    have hstep := staging_step py (run py s ops) op build
    rw [hentry] at hstep
    generalize hold : (run py s ops).staging.find? build = old at hstep
    -- an entry that was there keeps its `begin`, with the chunks of `op` behind the others
    have hkeep : ∀ entry', (run py s ops).staging.find? build = some entry' →
        ∀ entry, entry.snapshot.binding = entry'.snapshot.binding →
        entry.attempt = entry'.attempt → entry.leaseToken = entry'.leaseToken →
        entry.chunks = entry'.chunks ++ op.chunksFor build (run py s ops) →
        StagedBy py s (ops ++ [op]) build entry := by
      intro entry' hentry' entry hbinding hattempt htoken hchunks
      obtain ⟨pre, snapshot, attempt, token, stagedAt, now, post, rfl, hbuild, hbinding', hattempt',
        htoken', hchunks'⟩ := ih hentry'
      refine ⟨pre, snapshot, attempt, token, stagedAt, now, post ++ [op], by simp, hbuild,
        hbinding.trans hbinding', hattempt.trans hattempt', htoken.trans htoken', ?_⟩
      rw [hchunks, hchunks', stagedChunks_concat]
      congr 2
      rw [run, run, run, ← List.foldl_append]
      simp
    cases hstep with
    | same _ hchunks => exact hkeep entry hold entry rfl rfl rfl (by rw [hchunks, List.append_nil])
    | @begun _ _ snapshot attempt token stagedAt now hop hbuild hbinding hattempt htoken hempty =>
      exact ⟨ops, snapshot, attempt, token, stagedAt, now, [], by rw [hop], hbuild, hbinding,
        hattempt, htoken, hempty⟩
    | staged entry' => exact hkeep entry' hold _ rfl rfl rfl rfl

/-! ## One publication for a claim -/

/-- **Every operation hands out no token but the one it draws.** -/
theorem keepsTokens_effect (py : Python) (s : PostingStore) (op : PostingOp) :
    KeepsTokens op.issues s (op.effect py s) := by
  by_cases hqueue : op.queue = true
  · exact (queueCall py s hqueue).tokens
  by_cases hstructural : op.structural = true
  · obtain ⟨s₁, hs₁, -, -, htasks⟩ := structural_frame py s hstructural
    refine .of_erase fun key => ?_
    rw [htasks]
    obtain rfl | ⟨key', old, rfl, -⟩ := hs₁
    · exact .inr rfl
    rw [deletePostings]
    simp only
    split
    · rw [get?_erase]
      split
      · exact .inl rfl
      · exact .inr rfl
    · exact .inr rfl
  cases op with
  | begin =>
    refine .of_tasks ?_
    simp only [effect, PostingIndex.begin]
    split
    · rfl
    split <;> rfl
  | stage =>
    refine .of_tasks ?_
    rw [effect, PostingIndex.stage]
    split <;> rfl
  | publish build source parent attempt token now =>
    rw [effect, PostingIndex.publish]
    split
    · exact .of_tasks rfl
    next found hfound =>
    intro key task' token' htask' htoken' _
    have hput := get?_put s.tasks (publishedTask found.task now) key
    have htask' := hput.symm.trans htask'
    split at htask'
    · cases htask'
      cases htoken'
    · exact ⟨task', htask', htoken'⟩
  | abort =>
    refine .of_tasks ?_
    rw [effect, PostingIndex.abort]
    split
    · rfl
    split <;> rfl
  | _ => first | exact absurd rfl hqueue | exact absurd rfl hstructural

/-- How many tasks hold a token. -/
def PostingStore.holders (s : PostingStore) (token : String) : Nat :=
  (s.tasks.rows.filter fun task => task.leaseToken = some token).length

/-- The operation publishes under the token. -/
def PostingOp.publishes (py : Python) (token : String) (s : PostingStore) : PostingOp → Bool
  | .publish build source parent attempt token' now =>
    token' = token ∧ (PostingIndex.publish py s build source parent attempt token' now).1
  | _ => false

/-- How often a run publishes under the token. -/
def PostingOp.publications (py : Python) (token : String) : PostingStore → List PostingOp → Nat
  | _, [] => 0
  | s, op :: ops =>
    (if op.publishes py token s then 1 else 0) +
      PostingOp.publications py token (op.effect py s) ops

theorem KeepsTokens.holders_le {token : String} (h : KeepsTokens issued s s') (hissued : issued ≠ some token) :
    s'.holders token ≤ s.holders token := by
  refine length_filter_le [] fun task' htask' htoken _ => ?_
  rw [decide_eq_true_eq] at htoken
  obtain ⟨task, htask, htoken⟩ := h _ task' token (get?_of_mem htask') htoken hissued
  exact ⟨task, mem_of_get? htask, key_of_get? htask, decide_eq_true htoken⟩

/-- A claim gives its token to one task. -/
theorem holders_claim (py : Python) (s : PostingStore) (token : String) (seconds : Int)
    (now : Time) (token' : String) :
    ((PostingOp.claim token seconds now).effect py s).holders token' ≤ s.holders token' + 1 := by
  rw [effect]
  cases hok : PostingQueue.claim s token seconds now with
  | error => exact Nat.le_succ _
  | ok r =>
    obtain ⟨answer, s'⟩ := r
    rw [PostingQueue.claim, Except.guard_eq_ok] at hok
    replace hok := hok.2
    simp only at hok
    split at hok
    · cases hok
      exact Nat.le_succ _
    · obtain ⟨expires, -, hok⟩ := Except.bind_eq_ok.mp hok
      cases hok
      exact length_filter_put_le s.tasks _ _

/-- A publication takes the token from the task that held it. -/
theorem holders_publish {token : String} (h : op.publishes py token s = true) :
    (op.effect py s).holders token < s.holders token := by
  cases op with
  | publish build source parent attempt token' now =>
    rw [publishes, decide_eq_true_eq] at h
    obtain ⟨rfl, hanswer⟩ := h
    rw [effect]
    rw [PostingIndex.publish] at hanswer ⊢
    cases hfound : publishable py s build source parent attempt token' now with
    | none =>
      rw [hfound] at hanswer
      cases hanswer
    | some found =>
      have hpublishing := publishing_of_publishable hfound
      have htoken : found.task.leaseToken = some token' := by
        rw [publishable] at hfound
        split at hfound
        · next staged task intent current _ hleased _ _ =>
          split at hfound
          · cases hfound
            obtain ⟨-, howns⟩ := Option.filter_eq_some_iff.mp hleased
            exact (IndexTask.ownsUnexpired_iff.mp howns).2.2.1
          · cases hfound
        · cases hfound
      have hkey : PostingIndexTask.key found.task = source.key := key_of_get? hpublishing.task
      have hput := get?_put s.tasks (publishedTask found.task now)
      refine length_filter_lt (k := source.key)
        ⟨found.task, mem_of_get? hpublishing.task, hkey, decide_eq_true htoken⟩
        fun task' htask' hholds => ?_
      rw [decide_eq_true_eq] at hholds
      have hget := (hput _).symm.trans (get?_of_mem htask')
      split at hget
      · cases hget
        cases hholds
      · next hne =>
        refine ⟨fun heq => hne (heq.trans hkey.symm), task', mem_of_get? hget, rfl, decide_eq_true hholds⟩
  | _ => cases h

/-- The balance of a token: publications and holders against claims. -/
theorem holders_step (py : Python) (s : PostingStore) (op : PostingOp) (token : String) :
    (if op.publishes py token s then 1 else 0) + (op.effect py s).holders token ≤
      s.holders token + (if op.issues = some token then 1 else 0) := by
  by_cases hpublishes : op.publishes py token s = true
  · have hlt := holders_publish hpublishes
    rw [if_pos hpublishes]
    omega
  rw [if_neg hpublishes, Nat.zero_add]
  by_cases hissues : op.issues = some token
  · rw [if_pos hissues]
    cases op with
    | claim token' seconds now => exact holders_claim py s token' seconds now token
    | _ => cases hissues
  · rw [if_neg hissues]
    exact (keepsTokens_effect py s op).holders_le hissues

/-- How often a run draws the token. -/
def PostingOp.draws (token : String) (ops : List PostingOp) : Nat :=
  (ops.filterMap PostingOp.issues).count token

theorem publications_le (py : Python) (token : String) (ops : List PostingOp) (s : PostingStore) :
    publications py token s ops + (run py s ops).holders token ≤ s.holders token + draws token ops := by
  induction ops generalizing s with
  | nil =>
    change 0 + s.holders token ≤ s.holders token + 0
    omega
  | cons op ops ih =>
    have hstep := holders_step py s op token
    have hrest := ih (op.effect py s)
    have hdraws : draws token (op :: ops) = (if op.issues = some token then 1 else 0) + draws token ops := by
      rw [draws, draws, List.filterMap_cons]
      cases op.issues with
      | none => simp
      | some token' =>
        rw [List.count_cons, Nat.add_comm]
        simp
    have hrun : run py s (op :: ops) = run py (op.effect py s) ops := rfl
    rw [publications, hdraws, hrun]
    omega

/-! ## Runs -/

/-- **Only the current lease publishes postings.** In any run, whatever the clock reads: a call
that is not under the current unexpired lease of its source leaves the store as it is; a READY
owner changes only by the publication of a staging entry, whose chunks are those staged since its
`begin`, in that order, and whose snapshot has been validated (or goes with its structural parent);
and a lease token publishes at most as often as claims have drawn it, which is once where tokens
are fresh. -/
theorem only_current_lease_publishes (py : Python) (s : PostingStore) (ops : List PostingOp)
    (hinitial : s.Initial) :
    (∀ pre op post, ops = pre ++ op :: post → (∀ call, op.lease = some call → ¬call.Current (run py s pre) →
        op.effect py (run py s pre) = run py s pre) ∧
      ∀ key parent, (op.effect py (run py s pre)).owners.find? (key, parent) ≠
          (run py s pre).owners.find? (key, parent) →
        (∃ build staged, op.Publishes py (run py s pre) key parent build staged ∧ StagedBy py s pre build staged) ∨
        (op.structural = true ∧ (op.effect py (run py s pre)).owners.find? (key, parent) = none ∧
          (op.effect py (run py s pre)).structuralOwners.find? key ≠ some parent)) ∧
    (∀ token, publications py token s ops ≤ draws token ops) ∧
    ((ops.filterMap issues).Nodup → ∀ token, publications py token s ops ≤ 1) := by
  have hcount : ∀ token, publications py token s ops ≤ draws token ops := by
    intro token
    have hle := publications_le py token ops s
    have hnone : s.holders token = 0 := by
      rw [PostingStore.holders, hinitial.tasks]
      rfl
    omega
  refine ⟨fun pre op post _ => ⟨fun call hcall hstale => effect_stale hcall hstale,
    fun key parent hne => ?_⟩, hcount, fun hfresh token => ?_⟩
  · rcases owner_change py _ op key parent hne with ⟨build, staged, hpublishes⟩ | hstructural
    · have hentry := hpublishes.staged
      exact .inl ⟨build, staged, hpublishes, staged_history hinitial.staging pre hentry⟩
    · exact .inr hstructural
  · exact (hcount token).trans (List.nodup_iff_count_le_one.mp hfresh token)

theorem only_current_lease_publishes_sample : sampleStore.Initial ∧ (sampleOps.filterMap issues).Nodup ∧
      ∀ token, publications .latin token sampleStore sampleOps ≤ 1 := by
  have hfresh : (sampleOps.filterMap issues).Nodup := by decide
  exact ⟨sampleStore_initial, hfresh, (only_current_lease_publishes .latin sampleStore sampleOps
    sampleStore_initial).2.2 hfresh⟩

end C2Hunter
