import C2Hunter.PostingPublish
import Mathlib.Logic.Relation

/-!
# What the posting queue does to one source

The functions of the queue write the intent and the task of a source, and nothing of the
maps around them. `PostingStep` lists the changes they make to that pair.

* `PostingStore.cell` — the intent and the task of a source.
* `PostingStore.SameMaps` — two stores that differ in intents and tasks only.
* `PostingStep` — the changes; `QueueSteps` — those of one call, at every source.
* `PostingQueue.request_steps`, … — one lemma a function.
-/

namespace C2Hunter

open List

open Relation

/-- The intent and the task of a source. -/
abbrev PostingCell : Type := Option PostingIndexIntent × Option PostingIndexTask

/-- The intent and the task of a source in a store. -/
def PostingStore.cell (s : PostingStore) (key : SourceKey) : PostingCell :=
  (s.intents.get? key, s.tasks.get? key)

/-- The stores differ in intents and tasks only. -/
structure PostingStore.SameMaps (s s' : PostingStore) : Prop where
  sources : s'.sources = s.sources
  structuralGenerations : s'.structuralGenerations = s.structuralGenerations
  structuralOwners : s'.structuralOwners = s.structuralOwners
  staging : s'.staging = s.staging
  generations : s'.generations = s.generations
  owners : s'.owners = s.owners

theorem PostingStore.SameMaps.refl (s : PostingStore) : s.SameMaps s :=
  ⟨rfl, rfl, rfl, rfl, rfl, rfl⟩

theorem PostingStore.SameMaps.trans {a b c : PostingStore} (hab : a.SameMaps b)
    (hbc : b.SameMaps c) : a.SameMaps c where
  sources := hbc.sources.trans hab.sources
  structuralGenerations := hbc.structuralGenerations.trans hab.structuralGenerations
  structuralOwners := hbc.structuralOwners.trans hab.structuralOwners
  staging := hbc.staging.trans hab.staging
  generations := hbc.generations.trans hab.generations
  owners := hbc.owners.trans hab.owners

/-- Source versions are stored under their own key. -/
def PostingStore.SourcesKeyed (s : PostingStore) : Prop :=
  ∀ key source, s.sources.find? key = some source → source.key = key

/-- A specification of the current version and the current parent of its source. -/
structure SpecCurrent (s : PostingStore) (spec : PostingIndexTaskSpec) : Prop where
  parent : s.structuralOwners.find? spec.key = some spec.parentStructuralBuildId
  version : ∃ source, s.sources.find? spec.key = some source ∧
    source.sourceVersionId = spec.sourceVersionId
  contracts : spec.postingSchemaVersion = postingSchemaVersion ∧
    spec.postingParserContractVersion = postingParserContractVersion ∧
    spec.filterContractVersion = postingFilterContractVersion

variable {s s' : PostingStore} {spec : PostingIndexTaskSpec}

section

theorem SpecCurrent.of_sameMaps (h : s.SameMaps s') (hspec : SpecCurrent s spec) : SpecCurrent s' spec where
  parent := by rw [h.structuralOwners]; exact hspec.parent
  version := by rw [h.sources]; exact hspec.version
  contracts := hspec.contracts

/-- A source has one current identity. -/
theorem SpecCurrent.identity_eq {other : PostingIndexTaskSpec} (h : SpecCurrent s spec)
    (h' : SpecCurrent s other) (hkey : spec.key = other.key) : spec.identity = other.identity := by
  obtain ⟨source, hsource, hversion⟩ := h.version
  obtain ⟨source', hsource', hversion'⟩ := h'.version
  have hparent := h.parent
  rw [hkey, h'.parent] at hparent
  rw [hkey, hsource'] at hsource
  cases hsource
  obtain ⟨h1, h2, h3⟩ := h.contracts
  obtain ⟨h1', h2', h3'⟩ := h'.contracts
  rw [PostingIndexBinding.identity, PostingIndexBinding.identity, hkey, ← hversion, ← hversion',
    Option.some.inj hparent, h1, h2, h3, h1', h2', h3']

/-- The intent after its task left the lease: touched only if it is for the same identity. -/
def settledIntent (intent : Option PostingIndexIntent) (task : PostingIndexTask)
    (status : IntentState) (now : Time) (code : Option String) : Option PostingIndexIntent :=
  intent.map fun intent =>
    if intent.spec.identity = task.spec.identity then
      { intent with status := status, updatedAt := some now, errorCode := code }
    else intent

end

/-- The changes the queue makes to the intent and the task of a source; `issued` is the lease
token that the call draws, if it draws one. -/
inductive PostingStep (issued : Option String) (s : PostingStore) (key : SourceKey) :
    PostingCell → PostingCell → Prop where
  | same (c) : PostingStep issued s key c c
  /-- a request replaces the intent and drops the task -/
  | requested {c spec now} (hkey : spec.key = key) (hspec : SpecCurrent s spec) :
      PostingStep issued s key c (some (.pending spec now), none)
  /-- a backfill replaces the intent and leaves the task -/
  | backfilled {c spec now} (hkey : spec.key = key) (hspec : SpecCurrent s spec)
      (htask : ∀ task, c.2 = some task → task.spec.identity ≠ spec.identity) :
      PostingStep issued s key c (some (.pending spec now), c.2)
  | admitted {intent : PostingIndexIntent} {maxAttempts now} (hopen : intent.status.eligible = true)
      (hattempts : 0 < maxAttempts) :
      PostingStep issued s key (some intent, none)
        (some { intent with status := .pending, updatedAt := some now },
          some (.admitted intent.spec maxAttempts now))
  | deferred {intent : PostingIndexIntent} {now} (hopen : intent.status.eligible = true) :
      PostingStep issued s key (some intent, none)
        (some { intent with status := .deferred, updatedAt := some now }, none)
  | claimed {intent} {task : PostingIndexTask} {token expires now} (hissued : issued = some token)
      (hstatus : task.status = .queued) :
      PostingStep issued s key (intent, some task) (intent, some (task.claimed token expires now))
  | renewed {intent} {task : PostingIndexTask} {expires now} (hstatus : task.status = .running) :
      PostingStep issued s key (intent, some task) (intent, some (task.renewed expires now))
  /-- the lease ends without a publication -/
  | released {intent} {task : PostingIndexTask} {status state next now code}
      (hstatus : task.status = .running)
      (hends : status = .queued ∧ state = IntentState.pending ∧ task.retries = true ∨
        status = .failed ∧ state = IntentState.failed) :
      PostingStep issued s key (intent, some task)
        (settledIntent intent task state now code, some (task.released status next now code))
  | removed {intent} {task : PostingIndexTask} (hstatus : task.status.terminal = true) :
      PostingStep issued s key (intent, some task) (intent, none)

variable {issued : Option String} {key : SourceKey}

/-- The steps depend on the maps around the cell only. -/
theorem PostingStep.of_sameMaps (h : s.SameMaps s') {c c' : PostingCell}
    (hstep : PostingStep issued s' key c c') : PostingStep issued s key c c' := by
  have h' : s'.SameMaps s :=
    ⟨h.sources.symm, h.structuralGenerations.symm, h.structuralOwners.symm, h.staging.symm,
      h.generations.symm, h.owners.symm⟩
  cases hstep with
  | same => exact .same _
  | requested hkey hspec => exact .requested hkey (hspec.of_sameMaps h')
  | backfilled hkey hspec htask => exact .backfilled hkey (hspec.of_sameMaps h') htask
  | admitted hopen hattempts => exact .admitted hopen hattempts
  | deferred hopen => exact .deferred hopen
  | claimed hissued hstatus => exact .claimed hissued hstatus
  | renewed hstatus => exact .renewed hstatus
  | released hstatus hends => exact .released hstatus hends
  | removed hstatus => exact .removed hstatus

/-- What a call of the queue does: steps at every source, and nothing else. -/
structure QueueSteps (issued : Option String) (s s' : PostingStore) : Prop where
  maps : s.SameMaps s'
  cells : ∀ key, ReflTransGen (PostingStep issued s key) (s.cell key) (s'.cell key)

section

theorem QueueSteps.refl (s : PostingStore) : QueueSteps issued s s :=
  ⟨.refl s, fun _ => .refl⟩

theorem QueueSteps.trans {a b c : PostingStore} (hab : QueueSteps issued a b)
    (hbc : QueueSteps issued b c) : QueueSteps issued a c where
  maps := hab.maps.trans hbc.maps
  cells key := (hab.cells key).trans <|
    ReflTransGen.mono (fun _ _ => PostingStep.of_sameMaps hab.maps) _ _ (hbc.cells key)

/-- A change of one cell is a call of the queue. -/
theorem QueueSteps.of_cell (hmaps : s.SameMaps s') (k₀ : SourceKey)
    {c : PostingCell} (hcell : ∀ key, s'.cell key = if key = k₀ then c else s.cell key)
    (hstep : PostingStep issued s k₀ (s.cell k₀) c) : QueueSteps issued s s' where
  maps := hmaps
  cells key := by
    rw [hcell]
    split
    · next hkey =>
      subst hkey
      exact .single hstep
    · exact .refl

end

namespace PostingQueue

/-! ## Cells after a write -/

variable {task : PostingIndexTask}

section

variable {k₀ : SourceKey}

theorem key_of_intent {intent : PostingIndexIntent} (h : s.intents.get? key = some intent) :
    intent.spec.key = key :=
  (Table.key_of_get? h : PostingIndexIntent.key intent = key)

theorem key_of_task (h : s.tasks.get? key = some task) : task.spec.key = key :=
  (Table.key_of_get? h : PostingIndexTask.key task = key)

section

variable (s : PostingStore)

theorem cell_putIntent (intent : PostingIndexIntent) (hkey : intent.spec.key = k₀) (key : SourceKey) :
    (putIntent s intent).cell key = if key = k₀ then (some intent, s.tasks.get? k₀) else s.cell key := by
  subst hkey
  have hget := Table.get?_put s.intents intent key
  split
  · next hk => exact Prod.ext (hget.trans (if_pos hk)) (congrArg s.tasks.get? hk)
  · next hk => exact Prod.ext (hget.trans (if_neg hk)) rfl

theorem cell_putTask (task : PostingIndexTask) (hkey : task.spec.key = k₀) (key : SourceKey) :
    (putTask s task).cell key = if key = k₀ then (s.intents.get? k₀, some task) else s.cell key := by
  subst hkey
  have hget := Table.get?_put s.tasks task key
  split
  · next hk => exact Prod.ext (congrArg s.intents.get? hk) (hget.trans (if_pos hk))
  · next hk => exact Prod.ext rfl (hget.trans (if_neg hk))

/-- Storing the task and the intent of a source. -/
theorem cell_putBoth (task : PostingIndexTask) (intent : PostingIndexIntent)
    (htask : task.spec.key = k₀) (hintent : intent.spec.key = k₀) (key : SourceKey) :
    (putIntent (putTask s task) intent).cell key = if key = k₀ then (some intent, some task) else s.cell key := by
  have hput := cell_putTask s task htask
  have hget : (putTask s task).tasks.get? k₀ = some task := by
    have hcell := hput k₀
    rw [if_pos rfl] at hcell
    exact congrArg Prod.snd hcell
  rw [cell_putIntent _ _ hintent, hget, hput]
  split <;> rfl

/-- Storing the next task of a source, and settling its intent. -/
theorem cell_settle (task next : PostingIndexTask) (hkey : task.spec.key = k₀)
    (hnext : next.spec.key = k₀) (state : IntentState) (now : Time) (code : Option String)
    (key : SourceKey) :
    (settleIntent (putTask s next) task state now code).cell key =
      if key = k₀ then (settledIntent (s.intents.get? k₀) task state now code, some next)
      else s.cell key := by
  have hintents : (putTask s next).intents.get? task.spec.key = s.intents.get? k₀ := by
    rw [hkey]
    rfl
  have hplain := cell_putTask s next hnext key
  rw [settleIntent, hintents]
  cases hintent : s.intents.get? k₀ with
  | none =>
    rw [hintent] at hplain
    exact hplain
  | some intent =>
    have hspec : intent.spec.key = k₀ := key_of_intent hintent
    rw [hintent] at hplain
    rw [settledIntent, Option.map_some, Option.filter_some]
    by_cases hidentity : intent.spec.identity = task.spec.identity
    · rw [if_pos (decide_eq_true hidentity), if_pos hidentity]
      exact cell_putBoth s next { intent with status := state, updatedAt := now, errorCode := code } hnext hspec key
    · rw [if_neg (by rw [decide_eq_true_eq]; exact hidentity), if_neg hidentity]
      exact hplain

theorem sameMaps_putIntent (intent : PostingIndexIntent) :
    s.SameMaps (putIntent s intent) := ⟨rfl, rfl, rfl, rfl, rfl, rfl⟩

theorem sameMaps_putTask (task : PostingIndexTask) : s.SameMaps (putTask s task) := ⟨rfl, rfl, rfl, rfl, rfl, rfl⟩

end

/-! ## Requests -/

/-- An eligible source asks for its current version under its current parent. -/
theorem specCurrent_of_eligible {py : Python} {source : CaptureSourceVersion}
    {parent : StructuralIndexSnapshot} (h : eligiblePostingIndex py s source parent = true) :
    SpecCurrent s (bindingFields source parent) := by
  rw [eligiblePostingIndex, decide_eq_true_eq] at h
  obtain ⟨-, -, -, -, -, -, -, hsource, howner, -⟩ := h
  exact ⟨howner, ⟨source, hsource, rfl⟩, rfl, rfl, rfl⟩

theorem request_steps (py : Python) (s : PostingStore) (source : CaptureSourceVersion)
    (parent : StructuralIndexSnapshot) (now : Time) :
    QueueSteps none s (request py s source parent now).2 := by
  rw [request]
  split
  · exact .refl s
  next heligible =>
  have hspec := specCurrent_of_eligible (not_not.mp heligible)
  simp only
  split
  · exact .refl s
  generalize bindingFields source parent = spec at hspec ⊢
  refine .of_cell (c := (some (.pending spec now), none)) ⟨rfl, rfl, rfl, rfl, rfl, rfl⟩ spec.key (fun key => ?_) ?_
  · have hkey : (PostingIndexIntent.pending spec now).spec.key = spec.key := rfl
    rw [cell_putIntent _ _ hkey]
    by_cases hk : key = spec.key
    · rw [if_pos hk, if_pos hk, Table.get?_erase, if_pos rfl]
    · rw [if_neg hk, if_neg hk, PostingStore.cell, PostingStore.cell, Table.get?_erase, if_neg hk]
  · exact .requested rfl hspec

end

/-- What `request_backfill` finds for a specification it collects. -/
structure Backfillable (s : PostingStore) (spec : PostingIndexTaskSpec) : Prop where
  current : SpecCurrent s spec
  task : ∀ task, s.tasks.get? spec.key = some task → task.spec.identity ≠ spec.identity

variable {now : Time} {k₀ : SourceKey} {token : String} {attempt : Int}

theorem Backfillable.step (h : Backfillable s spec) (now : Time) :
    QueueSteps none s (putIntent s (.pending spec now)) := by
  refine .of_cell (sameMaps_putIntent s _) spec.key (cell_putIntent s (.pending spec now) rfl) ?_
  exact .backfilled rfl h.current h.task

/-- The intents that the loop writes do not get in its way. -/
theorem Backfillable.putIntent (h : Backfillable s spec) (other : PostingIndexTaskSpec) (now : Time) :
    Backfillable (putIntent s (.pending other now)) spec where
  current := h.current.of_sameMaps (sameMaps_putIntent s _)
  task := h.task

variable {py : Python} {env : Surroundings} {limit seconds : Int} {count : Nat} {answer : Bool}

theorem backfillable_of_candidate (hkeyed : s.SourcesKeyed) {owner : SourceKey × String}
    (h : backfillCandidate py s env owner = some spec) : Backfillable s spec := by
  rw [backfillCandidate] at h
  split at h
  · next parent source _ hsource =>
    have hkey : owner.1 = (bindingFields source parent).key := (hkeyed _ _ hsource).symm
    simp only at h
    split at h
    · cases h
    next heligible =>
    split at h
    · cases h
    split at h
    · cases h
    split at h
    · cases h
    next htask =>
    split at h
    · cases h
    cases h
    rw [hkey] at htask
    refine ⟨specCurrent_of_eligible (not_not.mp heligible), fun task hget hidentity => ?_⟩
    rw [hget, Option.any_some, decide_eq_true_eq] at htask
    exact htask hidentity
  · cases h

/-- The loop of `request_backfill`. -/
theorem backfill_steps (now : Time) (specs : List PostingIndexTaskSpec) (s : PostingStore)
    (h : ∀ spec ∈ specs, Backfillable s spec) :
    QueueSteps none s (specs.foldl (fun s spec => putIntent s (.pending spec now)) s) := by
  induction specs generalizing s with
  | nil => exact .refl s
  | cons spec specs ih =>
    rw [forall_mem_cons] at h
    rw [foldl_cons]
    exact (h.1.step now).trans (ih _ fun other hother => (h.2 other hother).putIntent spec now)

theorem requestBackfill_steps (hkeyed : s.SourcesKeyed)
    (h : requestBackfill py s env limit now = .ok (count, s')) : QueueSteps none s s' := by
  rw [requestBackfill] at h
  split at h
  · cases h
  cases h
  refine backfill_steps now _ s fun spec hspec => ?_
  have hmem := mem_mergeSort.mp (mem_of_mem_take hspec)
  obtain ⟨owner, -, howner⟩ := mem_filterMap.mp hmem
  exact backfillable_of_candidate hkeyed howner

/-! ## Admission -/

theorem admit_steps {capacity maxAttempts : Int} {answer : PostingIndexAdmission}
    (h : admitSource s k₀ capacity maxAttempts now = .ok (answer, s')) : QueueSteps none s s' := by
  rw [admitSource] at h
  split at h
  · cases h
  next hbounds =>
  have hattempts : 0 < maxAttempts := not_le.mp fun hle => hbounds (.inr hle)
  split at h
  · cases h
    exact .refl s
  next htask =>
  split at h
  · cases h
    exact .refl s
  next intent hintent =>
  have hcell : s.cell k₀ = (some intent, none) := by rw [PostingStore.cell, htask, hintent]
  have hkey := key_of_intent hintent
  split at h
  · cases h
    exact .refl s
  next hopen =>
  have hopen : intent.status.eligible = true := by
    cases hstatus : intent.status <;> rw [hstatus] at hopen <;> first | rfl | exact absurd rfl hopen
  split at h
  · cases h
    refine .of_cell (sameMaps_putIntent s _) k₀ (cell_putIntent s _ hkey) ?_
    rw [hcell, htask]
    exact .deferred hopen
  cases h
  refine .of_cell ⟨rfl, rfl, rfl, rfl, rfl, rfl⟩ k₀
    (cell_putBoth s (.admitted intent.spec maxAttempts now) _ hkey hkey) ?_
  rw [hcell]
  exact .admitted hopen hattempts

theorem reconcileLoop_steps (capacity maxAttempts : Int) (clock : SourceKey → Time)
    (keys : List SourceKey) (admitted : Nat) (s : PostingStore) :
    QueueSteps none s (reconcileLoop capacity maxAttempts clock keys admitted s).2 := by
  induction keys generalizing admitted s with
  | nil => exact .refl s
  | cons key keys ih =>
    rw [reconcileLoop]
    split
    · exact .refl s
    · next hadmits => exact (admit_steps hadmits).trans (ih _ _)
    · next hadmits => exact (admit_steps hadmits).trans (ih _ _)

theorem reconcile_steps (s : PostingStore) (capacity maxAttempts limit : Int) (clock : SourceKey → Time) :
    QueueSteps none s (reconcile s capacity maxAttempts limit clock).2 := by
  rw [reconcile]
  split
  · exact .refl s
  · exact reconcileLoop_steps _ _ _ _ _ s

/-! ## Leases -/

/-- Storing the next task of a source. -/
theorem put_steps (next : PostingIndexTask) (htask : s.tasks.get? k₀ = some task) (hkey : next.spec.key = k₀)
    (hstep : ∀ intent, PostingStep issued s k₀ (intent, some task) (intent, some next)) :
    QueueSteps issued s (putTask s next) := by
  refine .of_cell (sameMaps_putTask s _) k₀ (cell_putTask s next hkey) ?_
  rw [PostingStore.cell, htask]
  exact hstep _

theorem sameMaps_settleIntent (s : PostingStore) (task : PostingIndexTask) (state : IntentState)
    (now : Time) (code : Option String) : s.SameMaps (settleIntent s task state now code) := by
  rw [settleIntent]
  split
  · exact .refl s
  · exact sameMaps_putIntent s _

/-- Storing the next task of a source, and settling its intent. -/
theorem settle_steps (next : PostingIndexTask) (htask : s.tasks.get? k₀ = some task)
    (hkey : next.spec.key = k₀) {state : IntentState} {code : Option String}
    (hstep : ∀ intent, PostingStep none s k₀ (intent, some task)
      (settledIntent intent task state now code, some next)) :
    QueueSteps none s (settleIntent (putTask s next) task state now code) := by
  have hmaps := (sameMaps_putTask s next).trans (sameMaps_settleIntent _ task state now code)
  refine .of_cell hmaps k₀ (cell_settle s task next (key_of_task htask) hkey state now code) ?_
  rw [PostingStore.cell, htask]
  exact hstep _

theorem claim_steps {answer : Option PostingIndexTask}
    (h : claim s token seconds now = .ok (answer, s')) : QueueSteps (some token) s s' := by
  rw [claim, Except.guard_eq_ok] at h
  replace h := h.2
  simp only at h
  split at h
  · cases h
    exact .refl s
  next current hcurrent =>
  obtain ⟨expires, -, h⟩ := Except.bind_eq_ok.mp h
  cases h
  obtain ⟨hmem, hqueued⟩ := mem_filter.mp (mem_of_earliest hcurrent)
  rw [decide_eq_true_eq] at hqueued
  have hget : s.tasks.get? current.spec.key = some current := Table.get?_of_mem hmem
  exact put_steps (current.claimed token expires now) hget rfl fun _ => .claimed rfl hqueued.1

/-- A task that a lease holds is stored under its source and runs. -/
theorem leased_running (h : leased s k₀ attempt token now = some task) :
    s.tasks.get? k₀ = some task ∧ task.spec.key = k₀ ∧ task.status = .running := by
  obtain ⟨hget, howns⟩ := Option.filter_eq_some_iff.mp h
  exact ⟨hget, key_of_task hget, (IndexTask.ownsUnexpired_iff.mp howns).1⟩

theorem heartbeat_steps (h : heartbeat s k₀ attempt token seconds now = .ok (answer, s')) :
    QueueSteps none s s' := by
  rw [heartbeat, Except.guard_eq_ok] at h
  replace h := h.2
  split at h
  · cases h
    exact .refl s
  next task hleased =>
  obtain ⟨expires, -, h⟩ := Except.bind_eq_ok.mp h
  cases h
  obtain ⟨htask, hkey, hrunning⟩ := leased_running hleased
  exact put_steps (task.renewed expires now) htask hkey fun _ => .renewed hrunning

theorem fail_steps {transient : Bool} {code : String} {base : Int}
    (h : fail s k₀ attempt token transient code base now = .ok (answer, s')) : QueueSteps none s s' := by
  rw [fail, Except.guard_eq_ok] at h
  replace h := h.2
  simp only at h
  split at h
  · cases h
    exact .refl s
  next task hleased =>
  obtain ⟨htask, hkey, hrunning⟩ := leased_running hleased
  split at h
  · next hretry =>
    rw [Bool.and_eq_true] at hretry
    obtain ⟨next, -, h⟩ := Except.bind_eq_ok.mp h
    cases h
    exact settle_steps (task.released .queued next now _) htask hkey
      fun _ => .released hrunning (.inl ⟨rfl, rfl, hretry.2⟩)
  · cases h
    exact settle_steps (task.released .failed task.nextAttemptAt now _) htask hkey
      fun _ => .released hrunning (.inr ⟨rfl, rfl⟩)

/-! ## Recovery and cleanup -/

/-- One round of `recover`, over a task that is stored. -/
theorem recoverTask_steps (now : Time) (htask : s.tasks.get? task.spec.key = some task)
    (hrunning : task.status = .running) : QueueSteps none s (recoverTask now s task) := by
  rw [recoverTask]
  split
  · next hretry =>
    exact settle_steps (task.released .queued now now none) htask rfl
      fun _ => .released hrunning (.inl ⟨rfl, rfl, hretry⟩)
  · exact settle_steps (task.released .failed now now _) htask rfl fun _ => .released hrunning (.inr ⟨rfl, rfl⟩)

/-- A round of `recover` leaves the other sources. -/
theorem cell_recoverTask (s : PostingStore) (now : Time) (hne : key ≠ task.spec.key) :
    (recoverTask now s task).cell key = s.cell key := by
  rw [recoverTask]
  split
  · rw [cell_settle s task (task.released .queued now now none) rfl rfl, if_neg hne]
  · rw [cell_settle s task (task.released .failed now now _) rfl rfl, if_neg hne]

theorem recoverLoop_steps (now : Time) (tasks : List PostingIndexTask) (s : PostingStore)
    (hnodup : (tasks.map PostingIndexTask.key).Nodup)
    (h : ∀ task ∈ tasks, s.tasks.get? task.spec.key = some task ∧ task.status = .running) :
    QueueSteps none s (tasks.foldl (recoverTask now) s) := by
  induction tasks generalizing s with
  | nil => exact .refl s
  | cons task tasks ih =>
    rw [map_cons, nodup_cons] at hnodup
    rw [forall_mem_cons] at h
    refine (recoverTask_steps now h.1.1 h.1.2).trans (ih _ hnodup.2 fun other hother => ?_)
    have hne : other.spec.key ≠ task.spec.key := fun hkey =>
      hnodup.1 (mem_map.mpr ⟨other, hother, hkey⟩)
    have hcell := congrArg Prod.snd (cell_recoverTask s now hne)
    exact ⟨hcell.trans (h.2 other hother).1, (h.2 other hother).2⟩

theorem recover_steps (s : PostingStore) (now : Time) : QueueSteps none s (recover s now).2 := by
  refine recoverLoop_steps now _ s ?_ fun task htask => ?_
  · rw [expiredTasks]
    refine ((mergeSort_perm _ _).map _).nodup_iff.mpr ?_
    exact s.tasks.nodup.sublist (List.Sublist.map _ filter_sublist)
  · obtain ⟨hmem, hexpired⟩ := mem_filter.mp (mem_mergeSort.mp htask)
    rw [decide_eq_true_eq] at hexpired
    exact ⟨Table.get?_of_mem hmem, hexpired.1⟩

theorem cleanupTerminal_steps {age : Int} (h : cleanupTerminal s age limit now = .ok (count, s')) :
    QueueSteps none s s' := by
  rw [cleanupTerminal, Except.guard_eq_ok] at h
  obtain ⟨before, -, h⟩ := Except.bind_eq_ok.mp h.2
  cases h
  refine ⟨⟨rfl, rfl, rfl, rfl, rfl, rfl⟩, fun key => ?_⟩
  rw [PostingStore.cell, PostingStore.cell, Table.get?_foldl_erase]
  split
  · next hselected =>
    obtain ⟨task, htask, rfl⟩ := mem_map.mp hselected
    obtain ⟨hmem, hterminal⟩ :=
      mem_filter.mp (mem_mergeSort.mp (mem_of_mem_take htask))
    rw [decide_eq_true_eq] at hterminal
    rw [Table.get?_of_mem hmem]
    exact .single (.removed hterminal.1)
  · exact .refl

end PostingQueue

end C2Hunter
