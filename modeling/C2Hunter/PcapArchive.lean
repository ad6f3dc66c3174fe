import C2Hunter.Table

/-!
# The archive of capture segments

`pcap_archive.go` and the files of `rotator.go`: segments are written as `x.pcap.partial`, closed as
`x.pcap`, claimed for an upload as `x.pcap.uploading`, and end as `x.pcap.uploaded` or `x.pcap.rejected`.
A rename replaces a file that has the new name.

* `Directory`, `moved` — names, files and renames.
* `step` — what the writer of segments, the uploads and a restart do to the directory.
* `OneLive` — no segment has two of the names that hold data to be uploaded. It is kept by every step,
  except that a new segment may have the name of one that is being uploaded.
* `Kept` — what is still there, or was settled by the controller.

File operations are atomic, as `pcapDiskMu` makes them; what a file holds is a value of any type.
-/

namespace C2Hunter.PcapArchive

/-! ## The directory -/

/-- What follows `.pcap` in a name. -/
inductive Suffix where
  | final
  /-- `.partial` -/
  | unfinished
  | uploading
  | uploaded
  | rejected
  /-- `.corrupt-` and a time -/
  | corrupt (nanos : Nat)
  deriving DecidableEq, Repr

/-- The file waits for its upload, or will. -/
def Suffix.live : Suffix → Bool
  | final | unfinished | uploading => true
  | uploaded | rejected | corrupt _ => false

/-- The file waits for its upload. -/
def Suffix.waiting : Suffix → Bool
  | final | uploading => true
  | _ => false

theorem Suffix.live_of_waiting {s : Suffix} (h : s.waiting = true) : s.live = true := by
  cases s with
  | final | uploading => rfl
  | _ => cases h

/-- The name `base.pcap` with a suffix. -/
structure Name where
  base : String
  suffix : Suffix
  deriving DecidableEq, Repr

/-- A file. -/
structure File (α : Type) : Type where
  content : α
  modTime : Int
  deriving DecidableEq, Repr

/-- The files of the directory. -/
abbrev Directory (α : Type) : Type := Dict Name (File α)

variable {α : Type}

/-- `os.Rename` within the names of a segment; an error leaves all as it is. -/
def moved (d : Directory α) (base : String) (source target : Suffix) : Directory α :=
  match d.find? ⟨base, source⟩ with
  | none => d
  | some file => Table.put (Table.erase d ⟨base, source⟩) (⟨base, target⟩, file)

/-- `openUniqueSegment` passes over this name. -/
def taken (d : Directory α) (base : String) : Bool :=
  (d.find? ⟨base, .final⟩).isSome || (d.find? ⟨base, .unfinished⟩).isSome

/-- The names that `openUniqueSegment` tries. -/
def segmentBase (basePath : String) (sequence : Nat) : String :=
  if sequence = 0 then basePath else basePath ++ "-" ++ toString sequence

/-- What a restart finds of an unfinished segment: whether it can be repaired, and the time. -/
structure Recovery where
  recoverable : Bool
  nanos : Nat

/-- A turn of the loop of `RecoverPartialSegments`. -/
def recover (found : String → Recovery) (d : Directory α) (base : String) : Directory α :=
  if (found base).recoverable then
    if (d.find? ⟨base, .final⟩).isSome then
      match d.find? ⟨base, .unfinished⟩ with
      | none => d
      | some file => Table.put (Table.erase d ⟨base, .unfinished⟩)
          (⟨base ++ ".recovered-" ++ toString (found base).nanos, .final⟩, file)
    else moved d base .unfinished .final
  else moved d base .unfinished (.corrupt (found base).nanos)

/-- The segments that were not finished. -/
def unfinished (d : Directory α) : List String :=
  d.rows.filterMap fun row => if row.1.suffix = .unfinished then some row.1.base else none

/-- `RecoverPartialSegments`. -/
def recoverPartialSegments (found : String → Recovery) (d : Directory α) : Directory α :=
  (unfinished d).foldl (recover found) d

/-! ## The archive -/

/-- `pcapUploadClaim`, and whether the controller accepted or refused the segment. -/
structure Claim where
  base : String
  accepted : Option Bool := none

/-- The directory, the segments that are being written, the claim of the upload loop, and what the
controller has accepted or refused. -/
structure State (α : Type) : Type where
  directory : Directory α
  opened : List String := []
  claim : Option Claim := none
  settled : List α := []

/-- What happens. -/
inductive Event (α : Type) : Type where
  /-- `FileFactory.Open`; the file as it is when it is closed -/
  | create (basePath : String) (sequence : Nat) (file : File α)
  /-- `fileSegment.Close` -/
  | close (base : String)
  /-- `claimOldestPCAP` -/
  | claim (name : Name)
  /-- the controller accepts the segment, or refuses it or its job for good -/
  | answer (accepted : Bool)
  /-- `completePCAPClaim`, `rejectPCAPClaim` or `restorePCAPClaim` -/
  | finish
  /-- the process stops at any point, and begins again -/
  | restart (found : String → Recovery)

/-- One of the oldest files that wait; files of one age come in any order. -/
def oldest (d : Directory α) (name : Name) : Bool :=
  match d.find? name with
  | none => false
  | some file => name.suffix.waiting &&
      d.rows.all fun row => !row.1.suffix.waiting || decide (file.modTime ≤ row.2.modTime)

/-- `restorePCAPClaim`. -/
def restore (d : Directory α) (base : String) : Directory α :=
  if (d.find? ⟨base, .final⟩).isSome then d else moved d base .uploading .final

/-- What becomes of a claim: `restorePCAPClaim` after an error that is not permanent. -/
def finishClaim (d : Directory α) (c : Claim) : Directory α :=
  match c.accepted with
  | some true => moved d c.base .uploading .uploaded
  | some false => moved d c.base .uploading .rejected
  | none => restore d c.base

/-- A step; `none` where the event cannot happen. -/
def step (s : State α) : Event α → Option (State α)
  | .create basePath sequence file =>
    let base := segmentBase basePath sequence
    if (∀ k < sequence, taken s.directory (segmentBase basePath k)) ∧ ¬taken s.directory base then
      some { s with
        directory := Table.put s.directory (⟨base, .unfinished⟩, file)
        opened := base :: s.opened }
    else none
  | .close base =>
    if base ∈ s.opened then
      some { s with directory := moved s.directory base .unfinished .final, opened := s.opened.erase base }
    else none
  | .claim name =>
    if s.claim.isNone ∧ oldest s.directory name then
      some { s with
        directory :=
          if name.suffix = .final then moved s.directory name.base .final .uploading else s.directory
        claim := some { base := name.base } }
    else none
  | .answer accepted =>
    match s.claim with
    | none => none
    | some c =>
      match s.directory.find? ⟨c.base, .uploading⟩ with
      | none => none
      | some file => some { s with
          claim := some { c with accepted := some accepted }
          settled := file.content :: s.settled }
  | .finish =>
    s.claim.map fun c => { s with directory := finishClaim s.directory c, claim := none }
  | .restart found => some { s with
      directory := recoverPartialSegments found s.directory
      opened := []
      claim := none }

/-! ## One name for each segment -/

/-- No segment has two live names. -/
def OneLive (d : Directory α) : Prop :=
  ∀ base s t f g, d.find? ⟨base, s⟩ = some f → d.find? ⟨base, t⟩ = some g → s.live = true →
    t.live = true → s = t

section

variable {d : Directory α} {s : Suffix}

theorem find?_moved {base : String} {t : Suffix} {f : File α} (h : d.find? ⟨base, s⟩ = some f) (n : Name) :
    (moved d base s t).find? n = if n = ⟨base, t⟩ then some f else if n = ⟨base, s⟩ then none else d.find? n := by
  rw [moved, h]
  simp only
  rw [Dict.find?_put, Dict.find?_erase]

section

variable (h : OneLive d)

include h

theorem OneLive.move (base : String) (hs : s.live = true) (t : Suffix) : OneLive (moved d base s t) := by
  cases hf : d.find? ⟨base, s⟩ with
  | none => rwa [moved, hf]
  | some =>
    intro base' s' t' f' g' hs' ht' hlive hlive'
    rw [find?_moved hf] at hs' ht'
    split_ifs at hs' ht' with h1 h2 h3 h4 h5
    · cases h1
      cases h2
      rfl
    -- a segment with a file under another live name had two of them before
    · cases h1
      exact absurd (h _ _ _ _ _ hf ht' hs hlive') fun heq => h3 (by rw [heq])
    · cases h5
      exact absurd (h _ _ _ _ _ hs' hf hlive hs) fun heq => h4 (by rw [heq])
    · exact h _ _ _ _ _ hs' ht' hlive hlive'

/-- A waiting file is still under its name, or under the new name of its segment. -/
theorem OneLive.find?_move (base : String) (hs : s.live = true) (t : Suffix) {n : Name} {f : File α}
    (hn : n.suffix.waiting = true) (hf : d.find? n = some f) :
    (moved d base s t).find? n = some f ∨ n = ⟨base, s⟩ ∧ (moved d base s t).find? ⟨base, t⟩ = some f := by
  cases hsource : d.find? ⟨base, s⟩ with
  | none =>
    rw [moved, hsource]
    exact .inl hf
  | some =>
    rw [find?_moved hsource, find?_moved hsource, if_pos rfl]
    by_cases hns : n = ⟨base, s⟩
    · subst hns
      exact .inr ⟨rfl, hsource ▸ hf⟩
    by_cases hnt : n = ⟨base, t⟩
    · subst hnt
      have heq := h _ _ _ _ _ hsource hf hs (Suffix.live_of_waiting hn)
      exact absurd (by rw [heq]) hns
    · rw [if_neg hnt, if_neg hns]
      exact .inl hf

theorem OneLive.put {base : String} (file : File α)
    (hfree : ∀ s, s.live = true → d.find? ⟨base, s⟩ = none) (s : Suffix) :
    OneLive (Table.put d (⟨base, s⟩, file)) := by
  have hother (base' : String) (t : Suffix) (g : File α) (ht : t.live = true)
      (hg : Dict.find? (Table.put d (⟨base', s⟩, file)) ⟨base, t⟩ = some g) (hb : base' = base) : t = s := by
    subst hb
    rw [Dict.find?_put] at hg
    split at hg
    · next heq => cases heq; rfl
    · rw [hfree t ht] at hg
      cases hg
  intro base' s' t' f' g' hs' ht' hlive hlive'
  by_cases hb : base = base'
  · subst hb
    rw [hother _ s' f' hlive hs' rfl, hother _ t' g' hlive' ht' rfl]
  · have hne (u : Suffix) : (⟨base', u⟩ : Name) ≠ ⟨base, s⟩ := fun heq => hb (by cases heq; rfl)
    rw [Dict.find?_put, if_neg (hne _)] at hs' ht'
    exact h _ _ _ _ _ hs' ht' hlive hlive'

/-- A turn of the recovery is a rename within a segment. -/
theorem OneLive.recover_eq (found : String → Recovery) (base : String) :
    ∃ t, recover found d base = moved d base .unfinished t := by
  rw [recover]
  split
  · split
    · next hfinal =>
      refine ⟨.final, ?_⟩
      obtain ⟨f, hf⟩ := Option.isSome_iff_exists.mp hfinal
      cases hg : d.find? ⟨base, .unfinished⟩ with
      | none => rw [moved, hg]
      | some => cases h _ _ _ _ _ hf hg rfl rfl
    · exact ⟨_, rfl⟩
  · exact ⟨_, rfl⟩

theorem OneLive.recovered (found : String → Recovery) (bases : List String) {n : Name}
    (hn : n.suffix.waiting = true) :
    OneLive (bases.foldl (recover found) d) ∧
      ∀ f, d.find? n = some f → (bases.foldl (recover found) d).find? n = some f := by
  induction bases generalizing d with
  | nil => exact ⟨h, fun f hf => hf⟩
  | cons base bases ih =>
    rw [List.foldl_cons]
    obtain ⟨t, ht⟩ := h.recover_eq found base
    rw [ht]
    obtain ⟨hone, hkept⟩ := ih (h.move base (s := .unfinished) rfl t)
    refine ⟨hone, fun f hf => hkept f ?_⟩
    obtain hf | ⟨rfl, -⟩ := h.find?_move base (s := .unfinished) rfl t hn hf
    · exact hf
    · cases hn

end

/-! ## Runs -/

/-- A new segment does not have the name of one that is being uploaded. -/
def Fresh (s : State α) : Event α → Prop
  | .create basePath sequence _ =>
    s.directory.find? ⟨segmentBase basePath sequence, .uploading⟩ = none
  | _ => True

end

/-- Segments have one live name, and what was answered is settled. -/
structure Inv (s : State α) : Prop where
  one : OneLive s.directory
  answered : ∀ c ∈ s.claim, c.accepted ≠ none → ∀ f, s.directory.find? ⟨c.base, .uploading⟩ = some f →
    f.content ∈ s.settled

/-- Something waits for its upload. -/
def Waits (s : State α) (content : α) : Prop :=
  ∃ n f, n.suffix.waiting = true ∧ s.directory.find? n = some f ∧ f.content = content

/-- It waits, or the controller has settled it. -/
def Kept (s : State α) (content : α) : Prop := Waits s content ∨ content ∈ s.settled

/-- The files that wait are not replaced. -/
def NotReplaced (s s' : State α) : Prop :=
  ∀ n f, n.suffix.waiting = true → s.directory.find? n = some f →
    s'.directory.find? n = some f ∨ s'.directory.find? n = none

/-- What a step does to the files that wait. -/
structure Keeps (s s' : State α) : Prop where
  inv : Inv s'
  kept : ∀ content, Kept s content → Kept s' content
  notReplaced : NotReplaced s s'

section

variable {s s' : State α} {base : String}

/-- A step that keeps all the waiting files. -/
theorem Keeps.of_find? (h : Inv s') (hsettled : s.settled ⊆ s'.settled)
    (hfind : ∀ n f, n.suffix.waiting = true → s.directory.find? n = some f →
      s'.directory.find? n = some f) : Keeps s s' where
  inv := h
  kept := by
    rintro content (⟨n, f, hn, hf, rfl⟩ | hmem)
    · exact .inl ⟨n, f, hn, hfind n f hn hf, rfl⟩
    · exact .inr (hsettled hmem)
  notReplaced n f hn hf := .inl (hfind n f hn hf)

/-- A step that renames within a segment, to a name that waits or for a settled file. -/
theorem Keeps.of_moved (h : Inv s') (hone : OneLive s.directory) (hsettled : s.settled ⊆ s'.settled)
    {source target : Suffix} (hsource : source.live = true)
    (hmoved : s'.directory = moved s.directory base source target)
    (htarget : target.waiting = true ∨ ∀ f, s.directory.find? ⟨base, source⟩ = some f →
      f.content ∈ s'.settled) (hne : source ≠ target) : Keeps s s' where
  inv := h
  kept := by
    rintro content (⟨n, f, hn, hf, rfl⟩ | hmem)
    · obtain hf' | ⟨rfl, hf'⟩ := hone.find?_move base hsource target hn hf
      · exact .inl ⟨n, f, hn, hmoved ▸ hf', rfl⟩
      · obtain htarget | htarget := htarget
        · exact .inl ⟨⟨base, target⟩, f, htarget, hmoved ▸ hf', rfl⟩
        · exact .inr (htarget f hf)
    · exact .inr (hsettled hmem)
  notReplaced n f hn hf := by
    rw [hmoved]
    obtain hf' | ⟨rfl, hf'⟩ := hone.find?_move base hsource target hn hf
    · exact .inl hf'
    · refine .inr ?_
      rw [find?_moved hf, if_neg (fun heq => hne (by cases heq; rfl)), if_pos rfl]

/-- What was answered stays settled where no file comes under the name of an upload. -/
theorem Inv.answered_moved (h : Inv s) {source target : Suffix} (htarget : target ≠ .uploading) :
    ∀ c ∈ s.claim, c.accepted ≠ none → ∀ f,
      (moved s.directory base source target).find? ⟨c.base, .uploading⟩ = some f → f.content ∈ s.settled := by
  intro c hc hanswered f hf
  cases hsource : s.directory.find? ⟨base, source⟩ with
  | none =>
    rw [moved, hsource] at hf
    exact h.answered c hc hanswered f hf
  | some =>
    rw [find?_moved hsource, if_neg (fun heq => htarget (by cases heq; rfl))] at hf
    split at hf
    · cases hf
    · exact h.answered c hc hanswered f hf

theorem Inv.finish (h : Inv s) {c : Claim} (hc : s.claim = some c) :
    Keeps s { s with directory := finishClaim s.directory c, claim := none } := by
  have hinv (t : Suffix) : Inv { s with
      directory := moved s.directory c.base .uploading t, claim := none } :=
    ⟨h.one.move c.base rfl t, fun _ hc => by cases hc⟩
  rw [finishClaim.eq_def]
  split
  · next haccepted =>
    exact .of_moved (hinv _) h.one (List.Subset.refl _) rfl rfl
      (.inr (h.answered c hc (by rw [haccepted]; exact Option.some_ne_none _))) (by decide)
  · next haccepted =>
    exact .of_moved (hinv _) h.one (List.Subset.refl _) rfl rfl
      (.inr (h.answered c hc (by rw [haccepted]; exact Option.some_ne_none _))) (by decide)
  · rw [restore]
    split
    · exact .of_find? ⟨h.one, fun _ hc => by cases hc⟩ (List.Subset.refl _) fun _ _ _ hf => hf
    · exact .of_moved (hinv _) h.one (List.Subset.refl _) rfl rfl (.inl rfl) (by decide)

theorem Inv.create (h : Inv s) (file : File α) (htaken : ¬taken s.directory base)
    (hfresh : s.directory.find? ⟨base, .uploading⟩ = none) :
    Keeps s { s with
      directory := Table.put s.directory (⟨base, .unfinished⟩, file), opened := base :: s.opened } := by
  have hfind (n : Name) (hn : n.suffix.waiting = true) :
      Dict.find? (Table.put s.directory (⟨base, .unfinished⟩, file)) n = s.directory.find? n := by
    rw [Dict.find?_put, if_neg]
    rintro rfl
    cases hn
  rw [taken, Bool.or_eq_true, not_or] at htaken
  refine .of_find? ⟨h.one.put file (fun t ht => ?_) _, fun c hc hanswered f hf => ?_⟩
    (List.Subset.refl _) fun n f hn hf => (hfind n hn).trans hf
  · cases t with
    | final => exact Option.not_isSome_iff_eq_none.mp htaken.1
    | unfinished => exact Option.not_isSome_iff_eq_none.mp htaken.2
    | uploading => exact hfresh
    | _ => cases ht
  · exact h.answered c hc hanswered f ((hfind _ rfl).symm.trans hf)

/-- A step keeps the files that wait. -/
theorem Inv.step (h : Inv s) {event : Event α} (hfresh : Fresh s event)
    (hstep : step s event = some s') : Keeps s s' := by
  cases event with
  | create basePath sequence file =>
    rw [PcapArchive.step] at hstep
    split at hstep
    · next hguard =>
      cases hstep
      exact h.create file hguard.2 hfresh
    · cases hstep
  | close base =>
    rw [PcapArchive.step] at hstep
    split at hstep
    · cases hstep
      exact .of_moved ⟨h.one.move base rfl .final, h.answered_moved (by decide)⟩ h.one
        (List.Subset.refl _) rfl rfl (.inl rfl) (by decide)
    · cases hstep
  | claim name =>
    rw [PcapArchive.step] at hstep
    split at hstep
    · cases hstep
      by_cases hfinal : name.suffix = .final
      · refine .of_moved ⟨?_, ?_⟩ h.one (List.Subset.refl _)
          (show Suffix.live .final = true from rfl) (by rw [if_pos hfinal]) (.inl rfl) (by decide)
        · rw [if_pos hfinal]
          exact h.one.move name.base rfl .uploading
        · intro c hc hanswered
          cases hc
          exact absurd rfl hanswered
      · refine .of_find? ⟨?_, ?_⟩ (List.Subset.refl _) fun n f _ hf => ?_
        · rw [if_neg hfinal]
          exact h.one
        · intro c hc hanswered
          cases hc
          exact absurd rfl hanswered
        · rw [if_neg hfinal]
          exact hf
    · cases hstep
  | answer =>
    rw [PcapArchive.step] at hstep
    split at hstep
    · cases hstep
    next c hc =>
    split at hstep
    · cases hstep
    next file hfile =>
    cases hstep
    refine .of_find? ⟨h.one, fun c' hc' _ f hf => ?_⟩ (List.subset_cons_self _ _) fun _ _ _ hf => hf
    cases hc'
    cases hfile.symm.trans hf
    exact List.mem_cons_self
  | finish =>
    rw [PcapArchive.step] at hstep
    obtain ⟨c, hc, rfl⟩ := Option.map_eq_some_iff.mp hstep
    exact h.finish hc
  | restart found =>
    cases hstep
    refine .of_find? ⟨?_, fun _ hc => by cases hc⟩ (List.Subset.refl _) fun n f hn hf => ?_
    · exact (h.one.recovered found _ (n := ⟨"", .final⟩) rfl).1
    · exact (h.one.recovered found _ hn).2 f hf

end

/-- Steps in a row, in which new segments have fresh names. -/
inductive Runs : State α → List (Event α) → State α → Prop where
  | nil (s : State α) : Runs s [] s
  | cons {s s' s'' : State α} {event : Event α} {events : List (Event α)} (hfresh : Fresh s event)
      (hstep : step s event = some s') (hruns : Runs s' events s'') : Runs s (event :: events) s''

theorem Inv.runs {s s' : State α} {events : List (Event α)} (h : Inv s) (hruns : Runs s events s') :
    Inv s' ∧ ∀ content, Kept s content → Kept s' content := by
  induction hruns with
  | nil => exact ⟨h, fun _ hkept => hkept⟩
  | cons hfresh hstep _ ih =>
    have hkeeps := h.step hfresh hstep
    obtain ⟨hinv, hkept⟩ := ih hkeeps.inv
    exact ⟨hinv, fun content hcontent => hkept content (hkeeps.kept content hcontent)⟩

/-- The archive destroys nothing that was not settled, if no segment has two live names at first and new
segments do not take the name of one that is being uploaded: what waits is there until the controller
has accepted or refused it, and no step replaces a file that waits. -/
theorem archive_keeps_segments {s s₁ s₂ : State α} {events events' : List (Event α)}
    (hone : OneLive s.directory) (hclaim : s.claim = none) (hruns : Runs s events s₁)
    (hruns' : Runs s₁ events' s₂) :
    (∀ content, Waits s₁ content → Waits s₂ content ∨ content ∈ s₂.settled) ∧
      ∀ event s₃, Fresh s₂ event → step s₂ event = some s₃ → NotReplaced s₂ s₃ := by
  have hinv : Inv s := ⟨hone, fun c hc => by rw [hclaim] at hc; cases hc⟩
  obtain ⟨hinv₁, -⟩ := hinv.runs hruns
  obtain ⟨hinv₂, hkept⟩ := hinv₁.runs hruns'
  exact ⟨fun content hwaits => hkept content (.inl hwaits),
    fun event s₃ hfresh hstep => (hinv₂.step hfresh hstep).notReplaced⟩

/-! ## A segment with two names -/

/-- A directory with the given files. -/
def directoryOf (files : List (Name × File Nat)) : Directory Nat := files.foldl Table.put Table.empty

/-- Two files of one segment, of which the one that waits for a claim is older: the claim of the older one
replaces the other, which was not uploaded. -/
theorem claim_replaces_upload :
    let s : State Nat :=
      { directory := directoryOf [(⟨"x", .final⟩, ⟨1, 10⟩), (⟨"x", .uploading⟩, ⟨2, 20⟩)] }
    ∃ s', step s (.claim ⟨"x", .final⟩) = some s' ∧ s'.directory.rows = [(⟨"x", .uploading⟩, ⟨1, 10⟩)] ∧
      s'.settled = [] :=
  ⟨_, rfl, rfl, rfl⟩

/-- A segment is claimed, restored after an error, claimed again and refused. -/
theorem archive_keeps_segment_x :
    let s : State Nat := { directory := directoryOf [(⟨"x", .final⟩, ⟨1, 10⟩)] }
    ∃ s', Runs s [.claim ⟨"x", .final⟩, .finish, .claim ⟨"x", .final⟩, .answer false, .finish] s' ∧
      (Waits s' 1 ∨ 1 ∈ s'.settled) := by
  intro s
  have hrows : s.directory.rows = [(⟨"x", .final⟩, ⟨1, 10⟩)] := rfl
  have hone : OneLive s.directory := by
    intro base u t f g hu ht _ _
    have hu := Dict.find?_eq_some.mp hu
    have ht := Dict.find?_eq_some.mp ht
    rw [hrows, List.mem_singleton] at hu ht
    cases hu
    cases ht
    rfl
  obtain ⟨s', hruns⟩ : ∃ s', Runs s
      [.claim ⟨"x", .final⟩, .finish, .claim ⟨"x", .final⟩, .answer false, .finish] s' :=
    ⟨_, .cons trivial rfl (.cons trivial rfl (.cons trivial rfl (.cons trivial rfl (.cons trivial rfl (.nil _)))))⟩
  have hkeeps := archive_keeps_segments hone rfl (.nil s) hruns
  exact ⟨s', hruns, hkeeps.1 1 ⟨⟨"x", .final⟩, ⟨1, 10⟩, rfl, rfl, rfl⟩⟩

end C2Hunter.PcapArchive
