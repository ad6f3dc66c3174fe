import C2Hunter.PostingStep

/-!
# The lifecycle of posting indexes

Intent, task, owner, generation and structural parent of a source are five entries of five
maps, written by different workers. What ties them together is that an intent always names
the current structural parent: a request is refused for any other, and a re-publication of
the parent deletes the intent of the one it supersedes. So a backfill, which overwrites an
intent and leaves the task, never finds one to overwrite.

* `CellInv` — intent and task of a source agree; a completed intent has its generation.
* `MapsInv` — the maps around them point at what they name.
* `PostingInv.effect` — every operation keeps both.
* `posting_lifecycle` — the statement over whole runs.

A build id is a fresh `uuid4` in the source; `PostingOp.Legal` says so of the id that an
operation brings.
-/

namespace C2Hunter

open Option Dict

open Relation PostingQueue PostingIndex

/-! ## The invariant -/

/-- Whether a task in this status goes with an intent in this state. -/
def TaskStatus.agrees : TaskStatus → IntentState → Bool
  | .queued, state | .running, state => state.eligible
  | .completed, state => state = .completed
  | .failed, state => state = .failed

/-- The published build of an intent owns its source and parent, and its stored generation
passes validation against the current structural parent. -/
def Published (py : Python) (s : PostingStore) (intent : PostingIndexIntent) : Prop :=
  ∃ build generation source parent,
    intent.publishedBuildId = some build ∧
    s.owners.find? (intent.spec.key, intent.spec.parentStructuralBuildId) = some build ∧
    s.generations.find? build = some generation ∧
    s.sources.find? intent.spec.key = some source ∧
    (s.structuralOwners.find? intent.spec.key).bind s.structuralGenerations.find? = some parent ∧
    validatePostingIndex py generation source parent = true

/-- Intent and task of a source agree. -/
structure CellInv (py : Python) (s : PostingStore) (key : SourceKey) (c : PostingCell) : Prop where
  current : ∀ intent, c.1 = some intent → intent.spec.key = key ∧ SpecCurrent s intent.spec
  published : ∀ intent, c.1 = some intent → intent.status = .completed → Published py s intent
  task : ∀ task, c.2 = some task → task.Good ∧ ∃ intent, c.1 = some intent ∧
    task.spec.identity = intent.spec.identity ∧ task.status.agrees intent.status = true

/-- The maps point at what they name. -/
structure MapsInv (s : PostingStore) : Prop where
  sources : s.SourcesKeyed
  structural : ∀ key build, s.structuralOwners.find? key = some build →
    ∃ parent, s.structuralGenerations.find? build = some parent ∧ parent.buildId = build ∧
      parent.binding.key = key
  owned : ∀ key parent build, s.owners.find? (key, parent) = some build →
    ∃ generation, s.generations.find? build = some generation ∧ generation.binding.key = key ∧
      generation.binding.parentStructuralBuildId = parent
  /-- what is staged is not published yet -/
  staged : ∀ build entry, s.staging.find? build = some entry → s.generations.find? build = none

/-- The invariant of the store. -/
structure PostingInv (py : Python) (s : PostingStore) : Prop where
  maps : MapsInv s
  cells : ∀ key, CellInv py s key (s.cell key)

/-! ## Frames -/

/-- What the cell of a source depends on is unchanged. -/
structure SameSource (s s' : PostingStore) (key : SourceKey) : Prop where
  sources : s'.sources.find? key = s.sources.find? key
  structuralOwners : s'.structuralOwners.find? key = s.structuralOwners.find? key
  structuralGenerations : ∀ build, s.structuralOwners.find? key = some build →
    s'.structuralGenerations.find? build = s.structuralGenerations.find? build
  ready : ∀ parent build, s.owners.find? (key, parent) = some build →
    s'.owners.find? (key, parent) = some build ∧
      s'.generations.find? build = s.generations.find? build

variable {s s' : PostingStore} {py : Python} {key : SourceKey} {intent : PostingIndexIntent}
    {task : PostingIndexTask} {build token : String} {snapshot : PostingIndexSnapshot} {attempt : Int}
    {now : Time}

section

variable {c : PostingCell} {spec : PostingIndexTaskSpec} {issued : Option String}

theorem PostingStore.SameMaps.sameSource (h : s.SameMaps s') (key : SourceKey) : SameSource s s' key where
  sources := by rw [h.sources]
  structuralOwners := by rw [h.structuralOwners]
  structuralGenerations _ _ := by rw [h.structuralGenerations]
  ready _ _ howner := by
    rw [h.owners, h.generations]
    exact ⟨howner, rfl⟩

theorem SameSource.specCurrent (h : SameSource s s' spec.key) (hspec : SpecCurrent s spec) :
    SpecCurrent s' spec where
  parent := h.structuralOwners.trans hspec.parent
  version := by
    rw [h.sources]
    exact hspec.version
  contracts := hspec.contracts

theorem SameSource.published (h : SameSource s s' intent.spec.key) (hpublished : Published py s intent) :
    Published py s' intent := by
  obtain ⟨build, generation, source, parent, hbuild, howner, hgeneration, hsource, hparent, hvalid⟩ := hpublished
  obtain ⟨howner', hready⟩ := h.ready _ _ howner
  obtain ⟨parentId, hparentId, hparent⟩ := bind_eq_some_iff.mp hparent
  refine ⟨build, generation, source, parent, hbuild, howner', hready.trans hgeneration,
    h.sources.trans hsource, ?_, hvalid⟩
  rw [h.structuralOwners, hparentId, bind_some, h.structuralGenerations _ hparentId, hparent]

theorem CellInv.frame (h : CellInv py s key c) (hsame : SameSource s s' key) : CellInv py s' key c where
  current intent hintent := by
    obtain ⟨rfl, hspec⟩ := h.current intent hintent
    exact ⟨rfl, hsame.specCurrent hspec⟩
  published intent hintent hstatus := by
    obtain ⟨rfl, -⟩ := h.current intent hintent
    exact hsame.published (h.published intent hintent hstatus)
  task := h.task

theorem MapsInv.of_sameMaps (hmaps : s.SameMaps s') (h : MapsInv s) : MapsInv s' where
  sources := by
    rw [PostingStore.SourcesKeyed, hmaps.sources]
    exact h.sources
  structural := by
    rw [hmaps.structuralOwners, hmaps.structuralGenerations]
    exact h.structural
  owned := by
    rw [hmaps.owners, hmaps.generations]
    exact h.owned
  staged := by
    rw [hmaps.staging, hmaps.generations]
    exact h.staged

/-! ## The queue -/

/-- The intent of a source has the identity of every current specification of the source. -/
theorem CellInv.identity_eq (h : CellInv py s key c) (hkey : spec.key = key)
    (hspec : SpecCurrent s spec) (hintent : c.1 = some intent) :
    intent.spec.identity = spec.identity := by
  obtain ⟨hkey', hcurrent⟩ := h.current intent hintent
  exact hcurrent.identity_eq hspec (hkey'.trans hkey.symm)

theorem cellInv_none (py : Python) (s : PostingStore) (key : SourceKey) : CellInv py s key (none, none) where
  current _ hintent := by cases hintent
  published _ hintent := by cases hintent
  task _ htask := by cases htask

/-- A pending intent for a current specification, with no task. -/
theorem cellInv_pending (hkey : spec.key = key) (hspec : SpecCurrent s spec) (now : Time) :
    CellInv py s key (some (.pending spec now), none) where
  current intent hintent := by
    cases hintent
    exact ⟨hkey, hspec⟩
  published intent hintent hstatus := by
    cases hintent
    cases hstatus
  task _ htask := by cases htask

/-- The intent gets a state that does not claim a publication; the task is given. -/
theorem CellInv.restate {task : Option PostingIndexTask} (h : CellInv py s key (some intent, task))
    (next : PostingIndexIntent) (hspec : next.spec = intent.spec) (hstatus : next.status ≠ .completed)
    {task' : Option PostingIndexTask}
    (htask' : ∀ t, task' = some t → t.Good ∧ t.spec.identity = intent.spec.identity ∧
      t.status.agrees next.status = true) : CellInv py s key (some next, task') where
  current intent' hintent' := by
    cases hintent'
    rw [hspec]
    exact h.current intent rfl
  published intent' hintent' hcompleted := by
    cases hintent'
    exact absurd hcompleted hstatus
  task t ht := by
    obtain ⟨hgood, hidentity, hagrees⟩ := htask' t ht
    rw [← hspec] at hidentity
    exact ⟨hgood, next, rfl, hidentity, hagrees⟩

/-- The task changes under an intent that stays. -/
theorem CellInv.retask {intent : Option PostingIndexIntent} {next : PostingIndexTask}
    (h : CellInv py s key (intent, some task)) (hspec : next.spec = task.spec) (hgood : next.Good)
    (hagrees : ∀ state, task.status.agrees state = true → next.status.agrees state = true) :
    CellInv py s key (intent, some next) where
  current := h.current
  published := h.published
  task t ht := by
    cases ht
    obtain ⟨-, intent, hintent, hidentity, hstatus⟩ := h.task task rfl
    rw [← hspec] at hidentity
    exact ⟨hgood, intent, hintent, hidentity, hagrees _ hstatus⟩

theorem CellInv.step {c' : PostingCell} (hstep : PostingStep issued s key c c')
    (h : CellInv py s key c) : CellInv py s key c' := by
  cases hstep with
  | same => exact h
  | requested hkey hspec => exact cellInv_pending hkey hspec _
  | @backfilled _ spec now hkey hspec htask =>
    -- a task would have the identity of a current intent, which is that of the specification
    have hnone : c.2 = none := by
      rw [eq_none_iff_forall_ne_some]
      intro task hget
      obtain ⟨-, intent, hintent, hidentity, -⟩ := h.task task hget
      exact htask task hget (hidentity.trans (h.identity_eq hkey hspec hintent))
    rw [hnone]
    exact cellInv_pending hkey hspec now
  | @admitted intent maxAttempts now hopen hattempts =>
    refine h.restate _ (by rfl) (by simp) fun task htask => ?_
    cases htask
    exact ⟨IndexTask.good_admitted intent.spec hattempts now, rfl, rfl⟩
  | deferred => exact h.restate _ (by rfl) (by simp) fun task htask => by cases htask
  | claimed hissued hstatus =>
    refine h.retask rfl (IndexTask.good_claimed _ _ _ _) fun state hagrees => ?_
    rw [hstatus] at hagrees
    exact hagrees
  | @renewed intent task expires now hstatus =>
    obtain ⟨hgood, -⟩ := h.task task rfl
    exact h.retask rfl (hgood.renewed hstatus expires now) fun _ hagrees => hagrees
  | @released old task status state next now code hstatus hends =>
    obtain ⟨-, intent, hintent, hidentity, -⟩ := h.task task rfl
    cases (show old = some intent from hintent)
    rw [settledIntent, map_some, if_pos hidentity.symm]
    rcases hends with ⟨rfl, rfl, hretry⟩ | ⟨rfl, rfl⟩
    · refine h.restate _ (by rfl) (by simp) fun t ht => ?_
      cases ht
      exact ⟨IndexTask.good_released (by decide) (fun _ => hretry) _ _ _, hidentity, rfl⟩
    · refine h.restate _ (by rfl) (by simp) fun t ht => ?_
      cases ht
      exact ⟨IndexTask.good_released (by decide) (by simp) _ _ _, hidentity, rfl⟩
  | removed => exact ⟨h.current, h.published, fun task htask => by cases htask⟩

theorem CellInv.steps {c' : PostingCell} (hsteps : ReflTransGen (PostingStep issued s key) c c')
    (h : CellInv py s key c) : CellInv py s key c' := by
  induction hsteps with
  | refl => exact h
  | tail _ hstep ih => exact ih.step hstep

section

variable (h : PostingInv py s)

include h

/-- A call of the queue keeps the invariant. -/
theorem PostingInv.queue (hsteps : QueueSteps issued s s') : PostingInv py s' where
  maps := h.maps.of_sameMaps hsteps.maps
  cells key := ((h.cells key).steps (hsteps.cells key)).frame (hsteps.maps.sameSource key)

/-! ## Staging -/

/-- Writing the staging area: what is staged must not be published. -/
theorem PostingInv.with_staging {staging : Dict String StagedPostings}
    (hstaged : ∀ build entry, staging.find? build = some entry → s.generations.find? build = none) :
    PostingInv py { s with staging := staging } where
  maps := { h.maps with staged := hstaged }
  cells key := (h.cells key).frame ⟨rfl, rfl, fun _ _ => rfl, fun _ _ howner => ⟨howner, rfl⟩⟩

theorem PostingInv.put_staging (hfresh : s.generations.find? build = none) (entry : StagedPostings) :
    PostingInv py { s with staging := Table.put s.staging (build, entry) } := by
  refine h.with_staging fun build' entry' hentry' => ?_
  rw [find?_put] at hentry'
  split at hentry'
  · next heq => rwa [heq]
  · exact h.maps.staged build' entry' hentry'

theorem PostingInv.erase_staging (build : String) :
    PostingInv py { s with staging := Table.erase s.staging build } := by
  refine h.with_staging fun build' entry' hentry' => ?_
  rw [find?_erase] at hentry'
  split at hentry'
  · cases hentry'
  · exact h.maps.staged build' entry' hentry'

theorem PostingInv.begins (hfresh : s.generations.find? snapshot.buildId = none)
    {stagedAt : Time} (hbegin : begin s snapshot attempt token stagedAt now = .ok s') :
    PostingInv py s' := by
  rw [PostingIndex.begin, Except.guard_eq_ok] at hbegin
  replace hbegin := hbegin.2
  simp only at hbegin
  split at hbegin
  · cases hbegin
  · cases hbegin
    exact h.put_staging hfresh _

theorem PostingInv.stages {chunks : List PostingChunk}
    (hstage : PostingIndex.stage s build chunks key attempt token now = .ok s') : PostingInv py s' := by
  rw [PostingIndex.stage] at hstage
  split at hstage
  · cases hstage
  · next staged hstaged =>
    cases hstage
    obtain ⟨hentry, -⟩ := filter_eq_some_iff.mp hstaged
    exact h.put_staging (h.maps.staged build staged hentry) _

theorem PostingInv.aborts (build : String) (key : SourceKey) (parent : String) (attempt : Int)
    (token : String) (now : Time) : PostingInv py (abort s build key parent attempt token now).2 := by
  rw [PostingIndex.abort]
  split
  · exact h
  split
  · exact h.erase_staging build
  · exact h

end

end

/-! ## Publication of postings -/

/-- What `publish_posting_index` has checked when it publishes. -/
structure Publishing (py : Python) (s : PostingStore) (build : String)
    (source : CaptureSourceVersion) (parent : StructuralIndexSnapshot) (found : Publishable) :
    Prop where
  staged : s.staging.find? build = some found.staged
  task : s.tasks.get? source.key = some found.task
  intent : s.intents.get? source.key = some found.intent
  identity : found.task.spec.identity = found.intent.spec.identity
  names : found.intent.spec.parentStructuralBuildId = parent.buildId
  stored : s.sources.find? source.key = some source
  owner : s.structuralOwners.find? source.key = some parent.buildId
  current : ∃ current, s.structuralGenerations.find? parent.buildId = some current ∧
    sameParent current parent = true
  valid : validatePostingIndex py (assembled found.staged) source parent = true

variable {source : CaptureSourceVersion}

section

variable {parent : String} {key' : SourceKey} {found : Publishable}

theorem publishing_of_publishable {parent : StructuralIndexSnapshot}
    (h : publishable py s build source parent attempt token now = some found) :
    Publishing py s build source parent found := by
  rw [publishable] at h
  split at h
  · next staged task intent current hstaged hleased hintent hcurrent =>
    split at h
    · next hchecks =>
      cases h
      obtain ⟨-, -, -, hidentity, hnames, hsource, howner, hsame, hvalid⟩ := hchecks
      exact ⟨hstaged, (leased_running hleased).1, hintent, hidentity, hnames, hsource, howner,
        ⟨current, hcurrent, hsame⟩, hvalid⟩
    · cases h
  · cases h

/-- The generations after a publication. -/
theorem find?_publishReady (s : PostingStore) (build : String) (key : SourceKey × String)
    (snapshot : PostingIndexSnapshot) (build' : String) :
    (publishReady s build key snapshot).generations.find? build' = if build' = build then some snapshot
      else if s.owners.find? key = some build' ∧ build' ≠ "" then none
      else s.generations.find? build' := by
  rw [publishReady]
  simp only
  split
  · next owner howner =>
    rw [howner, find?_supersede _ fun hdrop => hdrop.2]
    refine ite_congr rfl (fun _ => rfl) fun hnew => if_congr ?_ rfl rfl
    constructor
    · rintro ⟨rfl, hne, -⟩
      exact ⟨rfl, hne⟩
    · rintro ⟨heq, hne⟩
      cases heq
      exact ⟨rfl, hne, hnew⟩
  · next hnone =>
    rw [find?_put, hnone]
    split
    · rfl
    · rw [if_neg fun hc => some_ne_none _ hc.1.symm]

section

variable (h : MapsInv s) (hfresh : s.generations.find? build = none)

include h hfresh

/-- A generation owned by another source and parent stays. -/
theorem MapsInv.find?_publishReady_of_owned {key : SourceKey × String} {parent' build' : String}
    (howner : s.owners.find? (key', parent') = some build') (hne : (key', parent') ≠ key) :
    (publishReady s build key snapshot).generations.find? build' = s.generations.find? build' := by
  obtain ⟨generation, hgeneration, hkey, hparent⟩ := h.owned _ _ _ howner
  rw [find?_publishReady, if_neg, if_neg]
  · rintro ⟨hother, -⟩
    obtain ⟨generation', hgeneration', hkey', hparent'⟩ := h.owned _ _ _ hother
    cases hgeneration.symm.trans hgeneration'
    exact hne (Prod.ext (hkey.symm.trans hkey') (hparent.symm.trans hparent'))
  · rintro rfl
    cases hfresh.symm.trans hgeneration

theorem MapsInv.ready {key : SourceKey × String} (hkey : snapshot.binding.key = key.1)
    (hparent : snapshot.binding.parentStructuralBuildId = key.2) :
    MapsInv (publishReady s build key snapshot) where
  sources := h.sources
  structural := h.structural
  owned key' parent' build' howner := by
    rw [publishReady] at howner
    simp only [find?_put] at howner
    split at howner
    · next heq =>
      cases howner
      subst heq
      exact ⟨snapshot, by rw [find?_publishReady, if_pos rfl], hkey, hparent⟩
    · next hne =>
      rw [h.find?_publishReady_of_owned hfresh howner hne]
      exact h.owned _ _ _ howner
  staged build' entry hentry := by
    rw [publishReady] at hentry
    simp only [find?_erase] at hentry
    split at hentry
    · cases hentry
    next hne =>
    rw [find?_publishReady, if_neg hne]
    split
    · rfl
    · exact h.staged build' entry hentry

/-- A publication does not concern the other sources. -/
theorem MapsInv.sameSource_publishReady (hne : key' ≠ key) :
    SameSource s (publishReady s build (key, parent) snapshot) key' where
  sources := rfl
  structuralOwners := rfl
  structuralGenerations _ _ := rfl
  ready parent' build' howner := by
    have hpair : (key', parent') ≠ (key, parent) := fun heq => hne (congrArg Prod.fst heq)
    refine ⟨?_, h.find?_publishReady_of_owned hfresh howner hpair⟩
    rw [publishReady]
    simp only [find?_put, if_neg hpair]
    exact howner

end

/-- The validation of a publication holds against the stored parent. -/
theorem Publishing.published {parent : StructuralIndexSnapshot} (h : Publishing py s build source parent found) (hmaps : MapsInv s)
    (now : Time) :
    Published py (publishReady s build (source.key, parent.buildId) (assembled found.staged))
      (publishedIntent found.intent build now) := by
  obtain ⟨current, hcurrent, hsame⟩ := h.current
  have hkey : found.intent.spec.key = source.key := key_of_intent h.intent
  obtain ⟨current', hcurrent', hbuild, -⟩ := hmaps.structural _ _ h.owner
  cases hcurrent.symm.trans hcurrent'
  rw [sameParent, decide_eq_true_eq] at hsame
  obtain ⟨hbinding, hsha, hinterfaces, hpackets⟩ := hsame
  refine ⟨build, assembled found.staged, source, current, rfl, ?_, ?_, ?_, ?_, ?_⟩
  · change find? (Table.put s.owners _) (found.intent.spec.key, found.intent.spec.parentStructuralBuildId) = _
    rw [hkey, h.names, find?_put, if_pos rfl]
  · rw [find?_publishReady, if_pos rfl]
  · exact (congrArg s.sources.find? hkey).trans h.stored
  · change (s.structuralOwners.find? found.intent.spec.key).bind s.structuralGenerations.find? = _
    rw [hkey, h.owner]
    exact hcurrent
  · rw [validatePostingIndex_congr hbuild hbinding hsha hinterfaces hpackets]
    exact h.valid

theorem PostingInv.publishes (h : PostingInv py s) (build : String) (source : CaptureSourceVersion)
    (parent : StructuralIndexSnapshot) (attempt : Int) (token : String) (now : Time) :
    PostingInv py (PostingIndex.publish py s build source parent attempt token now).2 := by
  rw [PostingIndex.publish]
  split
  · exact h
  next found hfound =>
  have hpublishing := publishing_of_publishable hfound
  have hfresh := h.maps.staged _ _ hpublishing.staged
  have hbinding := binding_of_validatePostingIndex hpublishing.valid
  have htask : found.task.spec.key = source.key := key_of_task hpublishing.task
  have hintent : found.intent.spec.key = source.key := key_of_intent hpublishing.intent
  have hcell := cell_putBoth (publishReady s build (source.key, parent.buildId) (assembled found.staged))
    (publishedTask found.task now) (publishedIntent found.intent build now) htask hintent
  have hmaps := (sameMaps_putTask (publishReady s build (source.key, parent.buildId) (assembled found.staged))
    (publishedTask found.task now)).trans (sameMaps_putIntent _ (publishedIntent found.intent build now))
  refine ⟨.of_sameMaps hmaps (h.maps.ready hfresh ?_ ?_), fun key => ?_⟩
  · rw [hbinding]
    rfl
  · rw [hbinding]
    rfl
  · refine CellInv.frame ?_ (hmaps.sameSource key)
    rw [hcell]
    split
    · next hkey =>
      subst hkey
      have hold : s.cell source.key = (some found.intent, some found.task) := by
        rw [PostingStore.cell, hpublishing.intent, hpublishing.task]
      have hcellInv := h.cells source.key
      rw [hold] at hcellInv
      obtain ⟨-, hspec⟩ := hcellInv.current found.intent rfl
      refine ⟨fun intent hget => ?_, fun intent hget _ => ?_, fun task hget => ?_⟩
      · cases hget
        exact ⟨hintent, ⟨hspec.parent, hspec.version, hspec.contracts⟩⟩
      · cases hget
        exact hpublishing.published h.maps now
      · cases hget
        exact ⟨IndexTask.good_released (by simp) (by simp) _ _ _, _, rfl, hpublishing.identity, rfl⟩
    · next hne => exact (h.cells key).frame (h.maps.sameSource_publishReady hfresh hne)

/-! ## Publication of the structural parent -/

/-- The generations that `_delete_posting_indexes_for_source` leaves. -/
theorem MapsInv.find?_deletePostings (h : MapsInv s) {generation : PostingIndexSnapshot}
    (hgeneration : s.generations.find? build = some generation)
    (hne : ¬(generation.binding.key = key ∧ generation.binding.parentStructuralBuildId = parent)) :
    (deletePostings s key parent).generations.find? build = some generation := by
  have howned : build ∉ (s.owners.find? (key, parent)).toList := by
    intro hmem
    obtain ⟨generation', hgeneration', hbinding⟩ := h.owned _ _ _ (mem_toList.mp hmem)
    cases hgeneration.symm.trans hgeneration'
    exact hne hbinding
  have hkept := find?_foldl_erase (s.owners.find? (key, parent)).toList s.generations build
  rw [if_neg howned, hgeneration] at hkept
  rw [deletePostings]
  simp only
  rw [find?_foldl_erase, if_neg, hkept]
  intro hstale
  obtain ⟨⟨build', generation'⟩, hrow, rfl⟩ := List.mem_map.mp hstale
  obtain ⟨hmem, hbinding⟩ := List.mem_filter.mp hrow
  cases hkept.symm.trans (find?_eq_some.mpr hmem)
  exact hne (of_decide_eq_true hbinding)

/-- Nothing is published by a deletion. -/
theorem find?_deletePostings_none (h : s.generations.find? build = none) :
    (deletePostings s key parent).generations.find? build = none := by
  rw [deletePostings]
  simp only
  rw [find?_foldl_erase, find?_foldl_erase, h]
  split
  · rfl
  · split <;> rfl

theorem MapsInv.deletes (h : MapsInv s) (key : SourceKey) (parent : String) :
    MapsInv (deletePostings s key parent) where
  sources := h.sources
  structural := h.structural
  owned key' parent' build' howner := by
    have hfind := find?_erase s.owners (key, parent) (key', parent')
    have howner := hfind.symm.trans howner
    split at howner
    · cases howner
    next hne =>
    obtain ⟨generation, hgeneration, rfl, rfl⟩ := h.owned _ _ _ howner
    exact ⟨generation, h.find?_deletePostings hgeneration fun hc => hne (Prod.ext hc.1 hc.2), rfl, rfl⟩
  staged build entry hentry := by
    rw [deletePostings] at hentry
    simp only [find?_foldl_erase] at hentry
    split at hentry
    · cases hentry
    · exact find?_deletePostings_none (h.staged build entry hentry)

theorem MapsInv.sameSource_deletes (h : MapsInv s) (hne : key' ≠ key) :
    SameSource s (deletePostings s key parent) key' where
  sources := rfl
  structuralOwners := rfl
  structuralGenerations _ _ := rfl
  ready parent' build' howner := by
    obtain ⟨generation, hgeneration, hkey, -⟩ := h.owned _ _ _ howner
    refine ⟨?_, ?_⟩
    · refine (find?_erase s.owners (key, parent) (key', parent')).trans ?_
      rw [if_neg fun heq => hne (congrArg Prod.fst heq)]
      exact howner
    · rw [hgeneration]
      exact h.find?_deletePostings hgeneration fun hc => hne (hkey.symm.trans hc.1)

theorem cell_deletePostings_ne (s : PostingStore) (parent : String) (hne : key' ≠ key) :
    (deletePostings s key parent).cell key' = s.cell key' := by
  rw [deletePostings, PostingStore.cell, PostingStore.cell]
  refine Prod.ext ?_ ?_
  · simp only
    split
    · rw [Table.get?_erase, if_neg hne]
    · rfl
  · simp only
    split
    · rw [Table.get?_erase, if_neg hne]
    · rfl

/-- Deleting the postings of the current parent clears the source: intent and task name that
parent. -/
theorem CellInv.deletes (h : CellInv py s key (s.cell key)) (howner : s.structuralOwners.find? key = some parent) :
    (deletePostings s key parent).cell key = (none, none) := by
  have hintent : ∀ intent, s.intents.get? key = some intent → intent.spec.parentStructuralBuildId = parent := by
    intro intent hget
    obtain ⟨rfl, hspec⟩ := h.current intent hget
    exact Option.some.inj (hspec.parent.symm.trans howner)
  have htask : ∀ task, s.tasks.get? key = some task → task.spec.parentStructuralBuildId = parent := by
    intro task hget
    obtain ⟨-, intent, hget', hidentity, -⟩ := h.task task hget
    exact (congrArg PostingIdentity.parentStructuralBuildId hidentity).trans (hintent intent hget')
  rw [deletePostings, PostingStore.cell]
  refine Prod.ext ?_ ?_
  · simp only
    cases hget : s.intents.get? key with
    | none => exact hget
    | some intent =>
      rw [any_some, if_pos (decide_eq_true (hintent intent hget)), Table.get?_erase, if_pos rfl]
  · simp only
    cases hget : s.tasks.get? key with
    | none => exact hget
    | some task =>
      rw [any_some, if_pos (decide_eq_true (htask task hget)), Table.get?_erase, if_pos rfl]

/-- A source without a structural owner has neither intent nor task. -/
theorem CellInv.unowned {c : PostingCell} (h : CellInv py s key c)
    (howner : s.structuralOwners.find? key = none) : c = (none, none) := by
  have hintent : c.1 = none := by
    rw [eq_none_iff_forall_ne_some]
    intro intent hget
    obtain ⟨rfl, hspec⟩ := h.current intent hget
    cases howner.symm.trans hspec.parent
  refine Prod.ext hintent ?_
  rw [eq_none_iff_forall_ne_some]
  intro task hget
  obtain ⟨-, intent, hget', -⟩ := h.task task hget
  cases hintent.symm.trans hget'

end

section Install

variable {snapshot : StructuralIndexSnapshot}
  {previous : Option String}

/-- The structural generations after a publication. -/
theorem find?_installStructure (build : String) :
    (installStructure s snapshot previous).structuralGenerations.find? build =
      if build = snapshot.buildId then some snapshot
      else if previous = some build then none
      else s.structuralGenerations.find? build := by
  rw [installStructure.eq_def]
  simp only
  split
  · next old =>
    rw [find?_supersede _ id]
    refine ite_congr rfl (fun _ => rfl) fun hnew => if_congr ?_ rfl rfl
    constructor
    · rintro ⟨rfl, -⟩
      rfl
    · intro heq
      cases heq
      exact ⟨rfl, hnew⟩
  · rw [find?_put]
    simp

section

variable (h : MapsInv s) (hfresh : s.structuralGenerations.find? snapshot.buildId = none)
  (hprevious : ∀ old, previous = some old → s.structuralOwners.find? snapshot.binding.key = some old)

include h hfresh hprevious

/-- The structural generation of another source stays. -/
theorem MapsInv.find?_installStructure_of_owned
    (howner : s.structuralOwners.find? key = some build) (hne : key ≠ snapshot.binding.key) :
    (installStructure s snapshot previous).structuralGenerations.find? build =
      s.structuralGenerations.find? build := by
  obtain ⟨parent, hparent, -, hkey⟩ := h.structural _ _ howner
  rw [find?_installStructure, if_neg, if_neg]
  · intro hold
    obtain ⟨parent', hparent', -, hkey'⟩ := h.structural _ _ (hprevious _ hold)
    cases hparent.symm.trans hparent'
    exact hne (hkey.symm.trans hkey')
  · rintro rfl
    cases hfresh.symm.trans hparent

theorem MapsInv.installs : MapsInv (installStructure s snapshot previous) where
  sources := h.sources
  structural key build howner := by
    have hfind := find?_put s.structuralOwners snapshot.binding.key key snapshot.buildId
    have howner := hfind.symm.trans howner
    split at howner
    · next hkey =>
      cases howner
      exact ⟨snapshot, by rw [find?_installStructure, if_pos rfl], rfl, hkey.symm⟩
    · next hne =>
      rw [h.find?_installStructure_of_owned hfresh hprevious howner hne]
      exact h.structural _ _ howner
  owned := h.owned
  staged := h.staged

theorem MapsInv.sameSource_installs (hne : key ≠ snapshot.binding.key) :
    SameSource s (installStructure s snapshot previous) key where
  sources := rfl
  structuralOwners := by
    refine (find?_put s.structuralOwners snapshot.binding.key key snapshot.buildId).trans ?_
    rw [if_neg hne]
  structuralGenerations _ howner :=
    h.find?_installStructure_of_owned hfresh hprevious howner hne
  ready _ _ howner := ⟨howner, rfl⟩

end

theorem sameMaps_installIntent (s : PostingStore) (intent : Option PostingIndexIntent) :
    s.SameMaps (installIntent s intent) := by
  cases intent with
  | none => exact .refl s
  | some intent => exact sameMaps_putIntent s intent

/-- The intent that a structural publication installs is the pending one of its snapshot. -/
theorem postingIntent_eq_ok {postings : Bool}
    (h : postingIntent s source snapshot postings now = .ok (some intent)) :
    intent = .pending (bindingFields source snapshot) now := by
  rw [postingIntent] at h
  split at h
  · cases h
  split at h
  · cases h
  next spec hspec =>
  obtain ⟨hspec, -⟩ := filter_eq_some_iff.mp hspec
  cases hspec
  split at h
  · cases h
  · cases h
    rfl

/-- A structural publication over a source that has been cleared. -/
theorem PostingInv.installs (snapshot : StructuralIndexSnapshot) (hmaps : MapsInv s)
    (hcells : ∀ key, key ≠ snapshot.binding.key → CellInv py s key (s.cell key))
    (hempty : s.cell snapshot.binding.key = (none, none))
    (hfresh : s.structuralGenerations.find? snapshot.buildId = none)
    (hprevious : ∀ old, previous = some old →
      s.structuralOwners.find? snapshot.binding.key = some old) (hkey : source.key = snapshot.binding.key)
    (hsource : s.sources.find? source.key = some source) {intent : Option PostingIndexIntent}
    (hintent : ∀ i, intent = some i → ∃ now, i = .pending (bindingFields source snapshot) now) :
    PostingInv py (installStructure (installIntent s intent) snapshot previous) := by
  have hsame := sameMaps_installIntent s intent
  have hmaps' := hmaps.of_sameMaps hsame
  rw [← hsame.structuralGenerations] at hfresh
  rw [← hsame.structuralOwners] at hprevious
  refine ⟨hmaps'.installs hfresh hprevious, fun key => ?_⟩
  by_cases hk : key = snapshot.binding.key
  · subst hk
    cases intent with
    | none =>
      have hcell : (installStructure (installIntent s none) snapshot previous).cell
          snapshot.binding.key = (none, none) := hempty
      rw [hcell]
      exact cellInv_none py _ _
    | some i =>
      obtain ⟨now, rfl⟩ := hintent i rfl
      have hspecKey : (bindingFields source snapshot).key = snapshot.binding.key := hkey
      have htask : s.tasks.get? snapshot.binding.key = none := congrArg Prod.snd hempty
      have hcell := cell_putIntent s (.pending (bindingFields source snapshot) now) hspecKey snapshot.binding.key
      rw [if_pos rfl, htask] at hcell
      have hcurrent : SpecCurrent (installStructure (installIntent s
          (some (.pending (bindingFields source snapshot) now))) snapshot previous)
          (bindingFields source snapshot) := by
        refine ⟨?_, ⟨source, hsource, rfl⟩, rfl, rfl, rfl⟩
        refine (find?_put s.structuralOwners snapshot.binding.key _ snapshot.buildId).trans ?_
        exact if_pos hkey
      exact hcell ▸ cellInv_pending hspecKey hcurrent now
  · have hcell : (installStructure (installIntent s intent) snapshot previous).cell key = s.cell key := by
      cases intent with
      | none => rfl
      | some i =>
        obtain ⟨now, rfl⟩ := hintent i rfl
        exact (cell_putIntent s (.pending (bindingFields source snapshot) now) hkey key).trans (if_neg hk)
    rw [hcell]
    exact ((hcells key hk).frame (hsame.sameSource key)).frame (hmaps'.sameSource_installs hfresh hprevious hk)

end Install

/-- The parent that a publication supersedes. -/
def superseded (s : PostingStore) (binding : SourceIndexBinding) (build : String) : Option String :=
  (s.structuralOwners.find? binding.key).filter (· ≠ build)

section

variable {binding : SourceIndexBinding}
    {staged : Option StagedStructure} {interfaces : List StructuralInterfaceEntry} {count : Int}
    {answer postings : Bool}

/-- `publish_structural_index` in its two outcomes. -/
theorem publishStructural_cases {job : Bool}
    (h : publishStructural py s build binding staged interfaces count postings job now = .ok (answer, s')) :
    s' = s ∨ ∃ source entry intent, staged = some entry ∧
      s.sources.find? (.pcapUpload, binding.sourceId) = some source ∧ source.key = binding.key ∧
      postingIntent s source (structuralSnapshot py build binding entry interfaces) postings now = .ok intent ∧
      s' = installStructure
        (installIntent ((superseded s binding build).elim s (deletePostings s binding.key)) intent)
        (structuralSnapshot py build binding entry interfaces) (superseded s binding build) := by
  rw [publishStructural] at h
  split at h
  · cases h
  next source hsource =>
  split at h
  · cases h
    exact .inl rfl
  next entry =>
  simp only at h
  split at h
  · cases h
    exact .inl rfl
  next hchecks =>
  have hsourceEq : source = expectedVersion binding source.objectKey :=
    not_not.mp fun hne => hchecks (.inr (.inr (.inr hne)))
  split at h
  · cases h
    exact .inl rfl
  split at h
  · cases h
    exact .inl rfl
  obtain ⟨intent, hintent, h⟩ := Except.bind_eq_ok.mp h
  cases h
  rw [← hsourceEq] at hintent
  exact .inr ⟨source, entry, intent, rfl, hsource, by rw [hsourceEq]; rfl, hintent, rfl⟩

theorem PostingInv.publishesStructural (h : PostingInv py s) {job : Bool}
    (hfresh : staged.isSome = true → s.structuralGenerations.find? build = none)
    (hpublish : publishStructural py s build binding staged interfaces count postings job now =
      .ok (answer, s')) : PostingInv py s' := by
  rcases publishStructural_cases hpublish with
    rfl | ⟨source, entry, intent, rfl, hsource, hkey, hintent, rfl⟩
  · exact h
  have hfresh := hfresh rfl
  -- the source is stored under its own key, which is that of the binding
  have hstored : s.sources.find? source.key = some source := by
    rw [h.maps.sources _ _ hsource]
    exact hsource
  have hpending : ∀ i, intent = some i → ∃ at', i = .pending (bindingFields source
      (structuralSnapshot py build binding entry interfaces)) at' := by
    rintro i rfl
    exact ⟨now, postingIntent_eq_ok hintent⟩
  cases howner : s.structuralOwners.find? binding.key with
  | none =>
    rw [superseded, howner]
    have hempty := (h.cells binding.key).unowned howner
    exact .installs _ h.maps (fun key _ => h.cells key) hempty hfresh (fun _ heq => by cases heq)
      hkey hstored hpending
  | some old =>
    obtain ⟨parent, hparent, -⟩ := h.maps.structural _ _ howner
    have hne : old ≠ build := by
      rintro rfl
      cases hfresh.symm.trans hparent
    rw [superseded, howner, filter_some, if_pos (decide_eq_true hne)]
    refine .installs (structuralSnapshot py build binding entry interfaces)
      (h.maps.deletes binding.key old) (fun key hk => ?_) ((h.cells binding.key).deletes howner)
      hfresh (fun _ heq => ?_) hkey hstored hpending
    · have hcell := cell_deletePostings_ne s old hk
      exact hcell ▸ (h.cells key).frame (h.maps.sameSource_deletes hk)
    · cases heq
      exact howner

/-- `publish_live_structural_index` in its two outcomes. -/
theorem publishLiveStructural_cases {segment : Bool}
    (h : publishLiveStructural py s build binding staged interfaces count source postings segment
      now = .ok (answer, s')) :
    s' = s ∨ ∃ entry intent, staged = some entry ∧ source.key = binding.key ∧
      postingIntent s source (structuralSnapshot py build binding entry interfaces) postings now = .ok intent ∧
      s' = installStructure (installIntent { s with sources := Table.put s.sources (binding.key, source) } intent)
        (structuralSnapshot py build binding entry interfaces)
        (s.structuralOwners.find? binding.key) := by
  rw [publishLiveStructural.eq_def] at h
  split at h
  · cases h
    exact .inl rfl
  split at h
  · cases h
    exact .inl rfl
  next hchecks =>
  have hsourceEq : source = expectedVersion binding source.objectKey :=
    not_not.mp fun hne => hchecks (.inr hne)
  split at h
  · cases h
    exact .inl rfl
  next entry =>
  simp only at h
  split at h
  · cases h
    exact .inl rfl
  obtain ⟨intent, hintent, h⟩ := Except.bind_eq_ok.mp h
  cases h
  refine .inr ⟨entry, intent, rfl, by rw [hsourceEq]; rfl, hintent, ?_⟩
  cases intent with
  | none | some => rfl

theorem PostingInv.publishesLiveStructural (h : PostingInv py s) {segment : Bool}
    (hfresh : staged.isSome = true → s.structuralGenerations.find? build = none ∧
      s.structuralOwners.find? binding.key = none)
    (hpublish : publishLiveStructural py s build binding staged interfaces count source postings
      segment now = .ok (answer, s')) : PostingInv py s' := by
  rcases publishLiveStructural_cases hpublish with
    rfl | ⟨entry, intent, rfl, hkey, hintent, rfl⟩
  · exact h
  obtain ⟨hfresh, howner⟩ := hfresh rfl
  have hput := find?_put s.sources binding.key
  -- the new version of the source is stored first, which no other source sees
  have hmaps : MapsInv { s with sources := Table.put s.sources (binding.key, source) } := by
    refine { h.maps with sources := fun key source' hget => ?_ }
    rw [hput] at hget
    split at hget
    · next heq =>
      cases hget
      exact hkey.trans heq.symm
    · exact h.maps.sources key source' hget
  have hempty := (h.cells binding.key).unowned howner
  refine .installs (structuralSnapshot py build binding entry interfaces) hmaps
    (fun key hk => ?_) hempty hfresh (fun _ heq => heq) hkey ?_ ?_
  · exact (h.cells key).frame
      ⟨(hput key source).trans (if_neg hk), rfl, fun _ _ => rfl, fun _ _ howner => ⟨howner, rfl⟩⟩
  · rw [hkey, hput, if_pos rfl]
  · rintro i rfl
    exact ⟨now, postingIntent_eq_ok hintent⟩

/-! ## Runs -/

/-- The build id that an operation brings is not one of a stored generation, and a LIVE segment
is indexed once. -/
def PostingOp.Legal (s : PostingStore) : PostingOp → Prop
  | .begin snapshot _ _ _ _ => s.generations.find? snapshot.buildId = none
  | .publishStructural build _ staged _ _ _ _ _ =>
    staged.isSome = true → s.structuralGenerations.find? build = none
  | .publishLiveStructural build binding staged _ _ _ _ _ _ =>
    staged.isSome = true → s.structuralGenerations.find? build = none ∧
      s.structuralOwners.find? binding.key = none
  | _ => True

/-- Every operation of a run is legal where it is made. -/
def PostingOp.LegalRun (py : Python) : PostingStore → List PostingOp → Prop
  | _, [] => True
  | s, op :: ops => op.Legal s ∧ PostingOp.LegalRun py (op.effect py s) ops

section

variable (h : PostingInv py s)

include h

theorem PostingInv.settle {α : Type} {x : Except PostingError (α × PostingStore)}
    (hok : ∀ r s', x = .ok (r, s') → PostingInv py s') : PostingInv py (s.settle x) := by
  cases x with
  | error => exact h
  | ok r => exact hok r.1 r.2 rfl

theorem PostingInv.settleUnit {x : Except PostingError PostingStore}
    (hok : ∀ s', x = .ok s' → PostingInv py s') : PostingInv py (s.settleUnit x) := by
  cases x with
  | error => exact h
  | ok s' => exact hok s' rfl

/-- **Every operation keeps the invariant.** -/
theorem PostingInv.effect {op : PostingOp} (hlegal : op.Legal s) : PostingInv py (op.effect py s) := by
  cases op with
  | request source parent now => exact h.queue (request_steps py s source parent now)
  | requestBackfill =>
    exact h.settle fun _ _ hok => h.queue (requestBackfill_steps h.maps.sources hok)
  | admitSource => exact h.settle fun _ _ hok => h.queue (admit_steps hok)
  | claim => exact h.settle fun _ _ hok => h.queue (claim_steps hok)
  | heartbeat =>
    exact h.settle fun _ _ hok => h.queue (heartbeat_steps hok)
  | fail =>
    exact h.settle fun _ _ hok => h.queue (fail_steps hok)
  | recover now => exact h.queue (recover_steps s now)
  | reconcile capacity attempts limit clock =>
    exact h.queue (reconcile_steps s capacity attempts limit clock)
  | cleanupTerminal =>
    exact h.settle fun _ _ hok => h.queue (cleanupTerminal_steps hok)
  | begin =>
    exact h.settleUnit fun _ hok => h.begins hlegal hok
  | stage => exact h.settleUnit fun _ hok => h.stages hok
  | publish build source parent attempt token now =>
    exact h.publishes build source parent attempt token now
  | abort build key parent attempt token now =>
    exact h.aborts build key parent attempt token now
  | publishStructural =>
    exact h.settle fun _ _ hok => h.publishesStructural hlegal hok
  | publishLiveStructural =>
    exact h.settle fun _ _ hok => h.publishesLiveStructural hlegal hok

theorem PostingInv.run {ops : List PostingOp} (hlegal : PostingOp.LegalRun py s ops) :
    PostingInv py (PostingOp.run py s ops) := by
  induction ops generalizing s with
  | nil => exact h
  | cons op ops ih => exact ih (h.effect hlegal.1) hlegal.2

end

end

/-- A store in which no postings have been asked for yet. -/
structure PostingStore.Initial (s : PostingStore) : Prop where
  sources : s.SourcesKeyed
  structural : ∀ key build, s.structuralOwners.find? key = some build →
    ∃ parent, s.structuralGenerations.find? build = some parent ∧ parent.buildId = build ∧
      parent.binding.key = key
  intents : s.intents = .empty
  tasks : s.tasks = .empty
  staging : s.staging = .empty
  generations : s.generations = .empty
  owners : s.owners = .empty

theorem PostingStore.Initial.inv (h : s.Initial) (py : Python) : PostingInv py s where
  maps := by
    refine ⟨h.sources, h.structural, fun key parent build howner => ?_, fun build entry hentry => ?_⟩
    · rw [h.owners] at howner
      cases howner
    · rw [h.staging] at hentry
      cases hentry
  cells key := by
    rw [PostingStore.cell, h.intents, h.tasks]
    exact cellInv_none py s key

/-- What ties the task, the intent and the published generation of a source together. -/
structure PostingCoupling (py : Python) (s : PostingStore) (key : SourceKey) : Prop where
  identity : ∀ task, s.tasks.get? key = some task →
    ∃ intent, s.intents.get? key = some intent ∧ task.spec.identity = intent.spec.identity
  waiting : ∀ task intent, s.tasks.get? key = some task → s.intents.get? key = some intent →
    task.status = .queued ∨ task.status = .running →
    intent.status = .pending ∨ intent.status = .deferred
  failed : ∀ task intent, s.tasks.get? key = some task → s.intents.get? key = some intent →
    task.status = .failed → intent.status = .failed
  completed : ∀ task intent, s.tasks.get? key = some task → s.intents.get? key = some intent →
    task.status = .completed → intent.status = .completed
  lease : ∀ task, s.tasks.get? key = some task →
    (task.leaseToken.isSome ↔ task.status = .running) ∧
    (task.leaseExpiresAt.isSome ↔ task.status = .running)
  attempts : ∀ task, s.tasks.get? key = some task → task.status = .queued →
    task.attempt < task.maxAttempts
  published : ∀ intent, s.intents.get? key = some intent → intent.status = .completed →
    Published py s intent

theorem CellInv.agrees (h : CellInv py s key (s.cell key))
    (htask : s.tasks.get? key = some task) (hintent : s.intents.get? key = some intent) :
    task.status.agrees intent.status = true := by
  obtain ⟨-, intent', hintent', -, hagrees⟩ := h.task task htask
  cases hintent.symm.trans hintent'
  exact hagrees

theorem CellInv.coupling (h : CellInv py s key (s.cell key)) : PostingCoupling py s key where
  identity task htask := by
    obtain ⟨-, intent, hintent, hidentity, -⟩ := h.task task htask
    exact ⟨intent, hintent, hidentity⟩
  waiting task intent htask hintent hstatus := by
    have hagrees := h.agrees htask hintent
    have heligible : intent.status.eligible = true := by
      rcases hstatus with hstatus | hstatus <;> rwa [hstatus] at hagrees
    cases hcase : intent.status with
    | pending => exact .inl rfl
    | deferred => exact .inr rfl
    | completed | failed => rw [hcase] at heligible; cases heligible
  failed task intent htask hintent hstatus := by
    have hagrees := h.agrees htask hintent
    rw [hstatus] at hagrees
    exact of_decide_eq_true hagrees
  completed task intent htask hintent hstatus := by
    have hagrees := h.agrees htask hintent
    rw [hstatus] at hagrees
    exact of_decide_eq_true hagrees
  lease task htask := ⟨(h.task task htask).1.token_iff, (h.task task htask).1.expires_iff⟩
  attempts task htask := (h.task task htask).1.queued_attempt
  published := h.published

/-- **The lifecycle of posting indexes.** After any run of requests, backfills, admissions,
claims, heartbeats, failures, recoveries, reconciliations, cleanups, stagings, publications,
aborts and structural publications, at any clock readings, task, intent and generation of
every source go together. -/
theorem posting_lifecycle (py : Python) (s : PostingStore) (ops : List PostingOp)
    (hinitial : s.Initial) (hlegal : PostingOp.LegalRun py s ops) (key : SourceKey) :
    PostingCoupling py (PostingOp.run py s ops) key :=
  (((hinitial.inv py).run hlegal).cells key).coupling

/-! ### A sample run -/

/-- An uploaded capture of one byte. -/
def sampleSource : CaptureSourceVersion :=
  ⟨.pcapUpload, "job", "object", "version", 1, hex (List.replicate 32 0)⟩

/-- Its structural index: one interface and no packets. -/
def sampleParent : StructuralIndexSnapshot :=
  let binding : SourceIndexBinding :=
    ⟨.pcapUpload, "job", "version", 1, hex (List.replicate 32 0), .pcap, 1, 1⟩
  let interface : StructuralInterfaceEntry := ⟨0, 0, 0, 1, 65535, 1, 1000000, 0⟩
  ⟨"parent", binding, 0, structuralIndexDigest .latin binding [interface] [], [interface], []⟩

/-- A repository that has the capture and its structural index. -/
def sampleStore : PostingStore where
  sources := Table.put .empty (sampleSource.key, sampleSource)
  structuralGenerations := Table.put .empty ("parent", sampleParent)
  structuralOwners := Table.put .empty (sampleSource.key, "parent")
  intents := .empty
  tasks := .empty
  staging := .empty
  generations := .empty
  owners := .empty

theorem sampleStore_initial : sampleStore.Initial := by
  refine ⟨fun key source hget => ?_, fun key build hget => ?_, rfl, rfl, rfl, rfl, rfl⟩
  · have hfind := find?_put .empty sampleSource.key key sampleSource
    have hget := hfind.symm.trans hget
    split at hget
    · next hkey =>
      cases hget
      exact hkey.symm
    · cases hget
  · have hfind := find?_put .empty sampleSource.key key "parent"
    have hget := hfind.symm.trans hget
    split at hget
    · next hkey =>
      cases hget
      exact ⟨sampleParent, rfl, rfl, hkey.symm⟩
    · cases hget

/-- Request, admission and claim; the worker is lost, and another claims its task. -/
def sampleOps : List PostingOp :=
  [.request sampleSource sampleParent 0, .admitSource sampleSource.key 1 3 1, .claim "first" 60 2,
    .recover 1000000000, .claim "second" 60 1000000001]

theorem sampleOps_legal : PostingOp.LegalRun .latin sampleStore sampleOps :=
  ⟨trivial, trivial, trivial, trivial, trivial, trivial⟩

theorem posting_lifecycle_sample : sampleStore.Initial ∧ PostingOp.LegalRun .latin sampleStore sampleOps ∧
      PostingCoupling .latin (PostingOp.run .latin sampleStore sampleOps) sampleSource.key :=
  ⟨sampleStore_initial, sampleOps_legal,
    posting_lifecycle .latin sampleStore sampleOps sampleStore_initial sampleOps_legal _⟩

end C2Hunter
