import CodeIntel.Indexer.DeltaPlan

/-!
# What the delta plan covers

The roots to index again are those of touched files only. A file that moves to another root
with its contents unchanged is not touched, the mode ignores the fingerprints, and the lists
of all roots are taken before the roots are normalized.
-/

namespace CodeIntel.Indexer

open Relational
open Planner (ScipStrategy normalizeManifestPath sortStrings)

def IndexManifestFile.root (file : IndexManifestFile) : String := file.projectRoot.getD "."

section Touched

variable {previous current : SortedMap String IndexManifestFile} {root : String}

/-- The contents at the path differ. -/
def Touched (previous current : SortedMap String IndexManifestFile) (path : String) : Prop :=
  (previous.get path).map IndexManifestFile.contentHash ≠
    (current.get path).map IndexManifestFile.contentHash

def touchedFiles (previous current : SortedMap String IndexManifestFile) : List String :=
  addedFiles previous current ++ changedFiles previous current ++ deletedFiles previous current

theorem mem_touchedFiles {path : String} :
    path ∈ touchedFiles previous current ↔ Touched previous current path := by
  unfold touchedFiles Touched
  simp only [List.mem_append, mem_addedFiles, mem_changedFiles, mem_deletedFiles]
  cases previous.get path <;> cases current.get path <;> simp

theorem touchedFiles_eq_nil_iff :
    touchedFiles previous current = [] ↔ ¬∃ path, Touched previous current path := by
  rw [List.eq_nil_iff_forall_not_mem, not_exists]
  exact forall_congr' fun path => not_congr mem_touchedFiles

/-- The current root of a touched file, or the previous root of a file that is gone. -/
def TouchedRoot (previous current : SortedMap String IndexManifestFile) (root : String) : Prop :=
  ∃ path, Touched previous current path ∧
    ∃ file, (current.get path).or (previous.get path) = some file ∧ file.root = root

def touchedRoots (previous current : SortedMap String IndexManifestFile) : List String :=
  uniqueProjectRoots
    ((addedFiles previous current ++ changedFiles previous current).filterMap current.get ++
      (deletedFiles previous current).filterMap previous.get)

theorem mem_touchedRoots : root ∈ touchedRoots previous current ↔
    TouchedRoot previous current root := by
  unfold touchedRoots TouchedRoot
  rw [mem_uniqueProjectRoots]
  constructor
  · rintro ⟨file, hfile, hroot⟩
    rcases List.mem_append.1 hfile with hfile | hfile
    · obtain ⟨path, hpath, hget⟩ := List.mem_filterMap.1 hfile
      exact ⟨path, mem_touchedFiles.1 (List.mem_append_left _ hpath), file, by rw [hget]; rfl, hroot⟩
    · obtain ⟨path, hpath, hget⟩ := List.mem_filterMap.1 hfile
      have hgone := (mem_deletedFiles.1 hpath).2
      exact ⟨path, mem_touchedFiles.1 (List.mem_append_right _ hpath), file,
        by rw [hgone, Option.none_or, hget], hroot⟩
  · rintro ⟨path, htouched, file, hfile, hroot⟩
    refine ⟨file, List.mem_append.2 ?_, hroot⟩
    rcases List.mem_append.1 (mem_touchedFiles.2 htouched) with hpath | hpath
    · left
      refine List.mem_filterMap.2 ⟨path, hpath, ?_⟩
      have hcurrent : ∃ file, current.get path = some file := by
        rcases List.mem_append.1 hpath with h | h
        · exact (mem_addedFiles.1 h).2
        · obtain ⟨-, file, -, hget, -⟩ := mem_changedFiles.1 h
          exact ⟨file, hget⟩
      obtain ⟨file', hget⟩ := hcurrent
      rwa [hget] at hfile ⊢
    · right
      rw [(mem_deletedFiles.1 hpath).2, Option.none_or] at hfile
      exact List.mem_filterMap.2 ⟨path, hpath, hfile⟩

theorem touchedRoots_eq_nil_iff :
    touchedRoots previous current = [] ↔ ¬∃ path, Touched previous current path := by
  rw [List.eq_nil_iff_forall_not_mem]
  simp only [mem_touchedRoots]
  constructor
  · rintro h ⟨path, htouched⟩
    cases hget : (current.get path).or (previous.get path) with
    | none =>
      obtain ⟨hcurrent, hprevious⟩ := Option.or_eq_none_iff.1 hget
      exact htouched (by rw [hcurrent, hprevious])
    | some file => exact h file.root ⟨path, htouched, file, hget, rfl⟩
  · rintro h root ⟨path, htouched, -⟩
    exact h ⟨path, htouched⟩

end Touched

variable {previous current : IndexRunManifest}

/-- The same SCIP toolchains; a manifest without any has the empty list. -/
def SameToolchains (previous current : IndexRunManifest) : Prop :=
  previous.scipToolchains.getD .empty = current.scipToolchains.getD .empty

def SameFingerprints (previous current : IndexRunManifest) : Prop :=
  SameToolchains previous current ∧ previous.semanticExtraction = current.semanticExtraction

def HasTouched (previous current : IndexRunManifest) : Prop :=
  ∃ path, Touched (normalizedFileMap previous.files) (normalizedFileMap current.files) path

theorem touched_isEmpty_iff : (sortStrings (touchedFiles (normalizedFileMap previous.files)
    (normalizedFileMap current.files))).isEmpty = true ↔ ¬HasTouched previous current := by
  rw [List.isEmpty_iff, sortStrings_eq_nil, touchedFiles_eq_nil_iff]
  rfl

theorem diffPlan_scip (hsame : SameToolchains previous current) (zoekt : Bool) :
    (diffPlan previous current zoekt).scip.projectRoots =
        touchedRoots (normalizedFileMap previous.files) (normalizedFileMap current.files) ∧
      (diffPlan previous current zoekt).scip.strategy ≠ .fullRepo := by
  have hsame' : decide (previous.scipToolchains.getD .empty ≠ current.scipToolchains.getD .empty) =
      false := decide_eq_false (not_not.2 hsame)
  unfold diffPlan
  simp only [hsame', Bool.false_eq_true, if_false]
  split
  · rename_i hnoop
    simp only [Bool.and_eq_true] at hnoop
    have hnone := touchedRoots_eq_nil_iff.2 (touched_isEmpty_iff.1 hnoop.1.1.1)
    exact ⟨hnone.symm, ScipStrategy.noConfusion⟩
  · dsimp only
    split_ifs with hroots
    · exact ⟨rfl, ScipStrategy.noConfusion⟩
    · refine ⟨?_, ScipStrategy.noConfusion⟩
      rw [Bool.not_eq_true', Bool.not_eq_false] at hroots
      exact (List.isEmpty_iff.1 hroots).symm

theorem diffPlan_strategies (previous current : IndexRunManifest) (zoekt : Bool) :
    ((diffPlan previous current zoekt).mode = .noop ↔ ¬HasTouched previous current) ∧
      ((diffPlan previous current zoekt).zoekt.strategy = .noop ↔ ¬HasTouched previous current) ∧
      ((diffPlan previous current zoekt).graph.strategy = .noop ↔ ¬HasTouched previous current) ∧
      ((diffPlan previous current zoekt).scip.strategy = .noop ↔
        SameToolchains previous current ∧ ¬HasTouched previous current) ∧
      ((diffPlan previous current zoekt).semantic.strategy = .noop ↔
        previous.semanticExtraction = current.semanticExtraction ∧
          ¬HasTouched previous current) := by
  have htouched := @touched_isEmpty_iff previous current
  have hroots := @touchedRoots_eq_nil_iff (normalizedFileMap previous.files)
    (normalizedFileMap current.files)
  rw [← List.isEmpty_iff] at hroots
  unfold SameToolchains
  unfold touchedFiles at htouched
  unfold touchedRoots at hroots
  by_cases h : HasTouched previous current
  · have hsome := Bool.eq_false_iff.2 (mt htouched.1 (not_not.2 h))
    have hroots' := Bool.eq_false_iff.2 (mt hroots.1 (not_not.2 h))
    simp only [diffPlan, hsome, hroots', h]
    refine ⟨by simp, by cases zoekt <;> simp, by simp, ?_, ?_⟩
    · split_ifs <;> simp_all
    · split_ifs <;> simp_all
  · have hnone := htouched.2 h
    have hroots' := hroots.2 h
    simp only [diffPlan, hnone, hroots', h, Bool.true_and]
    split
    · rename_i hnoop
      simp only [Bool.and_eq_true, Bool.not_eq_true', decide_eq_false_iff_not, not_not] at hnoop
      simp [noopPlan, hnoop]
    · simp [apply_ite ScipPlan.strategy, apply_ite SemanticPlan.strategy]

theorem buildDeltaReindexPlan_of_same (h : SameScope previous current) (zoekt : Bool) :
    buildDeltaReindexPlan (some previous) current zoekt = .ok (diffPlan previous current zoekt) := by
  simp only [buildDeltaReindexPlan, assertSameManifestScope_of_same h]
  rfl

/-! ## The roots to index again -/

/-- The paths and contents that belong to the root. -/
def rootContents (files : SortedMap String IndexManifestFile) (root : String) :
    Set (String × String) :=
  {p | ∃ file, files.get p.1 = some file ∧ file.contentHash = p.2 ∧ file.root = root}

/-- Every root with other contents is listed. -/
def CoversRoots (scip : ScipPlan) (previous current : SortedMap String IndexManifestFile) : Prop :=
  ∀ root, rootContents previous root ≠ rootContents current root →
    root ∈ scip.projectRoots ∨ scip.strategy = .fullRepo

/-- The roots that lose and gain a moved file are roots of touched files. -/
def MovesTouched (previous current : SortedMap String IndexManifestFile) : Prop :=
  ∀ path prev file, previous.get path = some prev → current.get path = some file →
    prev.root ≠ file.root →
    TouchedRoot previous current prev.root ∧ TouchedRoot previous current file.root

theorem touchedRoot_of_contents_ne {pm cm : SortedMap String IndexManifestFile}
    (hmoves : MovesTouched pm cm) {root : String}
    (h : rootContents pm root ≠ rootContents cm root) : TouchedRoot pm cm root := by
  by_contra hroot
  -- a file of the root on one side is a file of the root on the other
  refine h (Set.ext fun p => ⟨?_, ?_⟩)
  · rintro ⟨prev, hprev, hhash, rfl⟩
    cases hfile : cm.get p.1 with
    | none =>
      refine absurd ⟨p.1, ?_, prev, by rw [hfile, hprev]; rfl, rfl⟩ hroot
      simp [Touched, hprev, hfile]
    | some file =>
      have hsame : prev.root = file.root := by
        by_contra hne
        exact hroot (hmoves _ _ _ hprev hfile hne).1
      have hcontents : prev.contentHash = file.contentHash := by
        by_contra hne
        refine hroot ⟨p.1, ?_, file, by rw [hfile]; rfl, hsame.symm⟩
        simpa [Touched, hprev, hfile] using hne
      exact ⟨file, hfile, hcontents.symm.trans hhash, hsame.symm⟩
  · rintro ⟨file, hfile, hhash, rfl⟩
    cases hprev : pm.get p.1 with
    | none =>
      refine absurd ⟨p.1, ?_, file, by rw [hfile]; rfl, rfl⟩ hroot
      simp [Touched, hprev, hfile]
    | some prev =>
      have hsame : prev.root = file.root := by
        by_contra hne
        exact hroot (hmoves _ _ _ hprev hfile hne).2
      have hcontents : prev.contentHash = file.contentHash := by
        by_contra hne
        refine hroot ⟨p.1, ?_, file, by rw [hfile]; rfl, rfl⟩
        simpa [Touched, hprev, hfile] using hne
      exact ⟨prev, hprev, hcontents.trans hhash, hsame⟩

def oneFile (root : String) (toolchains : Option (SortedMap String String)) (commit : String) :
    IndexRunManifest :=
  { orgId := 1, workspaceId := "w", repoId := 1, branch := "main", commitHash := commit
    files := [⟨"a/x.go", "h", some root⟩], scipToolchains := toolchains }

def AllNoop (plan : DeltaReindexPlan) : Prop :=
  plan.zoekt.strategy = .noop ∧ plan.scip.strategy = .noop ∧ plan.graph.strategy = .noop ∧
    plan.semantic.strategy = .noop

/-- The mode says that there is nothing to do exactly for the plans without work, except when
a fingerprint changes and no file does. -/
theorem mode_noop_agrees_iff (hscope : SameScope previous current) (zoekt : Bool) :
    ∃ plan, buildDeltaReindexPlan (some previous) current zoekt = .ok plan ∧
      ((plan.mode = .noop ↔ AllNoop plan) ↔
        HasTouched previous current ∨ SameFingerprints previous current) := by
  refine ⟨_, buildDeltaReindexPlan_of_same hscope zoekt, ?_⟩
  obtain ⟨hmode, hzoekt, hgraph, hscip, hsemantic⟩ := diffPlan_strategies previous current zoekt
  unfold AllNoop SameFingerprints
  tauto

def goToolchain (version : String) : Option (SortedMap String String) :=
  some (SortedMap.empty.insert "scip-go" version)

theorem oneFile_mode_agrees : ∃ plan,
    buildDeltaReindexPlan (some (oneFile "a" none "c")) (oneFile "a" none "d") false = .ok plan ∧
      ((plan.mode = .noop ↔ AllNoop plan) ↔ HasTouched (oneFile "a" none "c") (oneFile "a" none "d") ∨
        SameFingerprints (oneFile "a" none "c") (oneFile "a" none "d")) :=
  mode_noop_agrees_iff ⟨rfl, rfl, rfl, rfl, rfl⟩ false

/-- A new toolchain without a touched file: nothing to do, and SCIP over the whole repository. -/
theorem noop_mode_full_scip :
    (buildDeltaReindexPlan (some (oneFile "a" (goToolchain "1") "c"))
      (oneFile "a" (goToolchain "2") "c") false).map
        (fun plan => (plan.mode, plan.scip.strategy)) = .ok (.noop, .fullRepo) := by
  decide +kernel

/-! ## Other spellings of the paths -/

section Spelling

/-- The files agree once their path and root are normalized. -/
def SameFile (file file' : IndexManifestFile) : Prop := normalizedFile file = normalizedFile file'

/-- The same manifest with other spellings of its paths and roots. -/
structure Respelled (m m' : IndexRunManifest) : Prop where
  files : List.Forall₂ SameFile m.files m'.files
  rest : { m with files := [] } = { m' with files := [] }

theorem normalizedFileMap_eq_of_forall₂ {files files' : List IndexManifestFile}
    (h : List.Forall₂ SameFile files files') :
    normalizedFileMap files = normalizedFileMap files' := by
  have hkey : ∀ file, IndexManifestFile.key file = (normalizedFile file).path := fun _ => rfl
  unfold normalizedFileMap SortedMap.ofRows
  generalize (SortedMap.empty : SortedMap String IndexManifestFile) = start
  induction h generalizing start with
  | nil => rfl
  | cons hfile _ ih =>
    rw [List.foldl_cons, List.foldl_cons, hkey, hkey, hfile]
    exact ih _

theorem Respelled.eq {m m' : IndexRunManifest} (h : Respelled m m') :
    m' = { m with files := m'.files } :=
  congrArg (fun x : IndexRunManifest => { x with files := m'.files }) h.rest.symm

section Diff

variable {m current : IndexRunManifest} {files files' : List IndexManifestFile} {zoekt : Bool}
  (hprevious : normalizedFileMap files' = normalizedFileMap m.files)
  (hcurrent : normalizedFileMap files = normalizedFileMap current.files)
include hprevious hcurrent

theorem diffPlan_respelled_of_same (h : SameToolchains m current) :
    diffPlan { m with files := files' } { current with files } zoekt =
      diffPlan m current zoekt := by
  have hsame : decide (m.scipToolchains.getD .empty ≠ current.scipToolchains.getD .empty) = false :=
    decide_eq_false (not_not.2 h)
  unfold diffPlan
  simp only [hprevious, hcurrent, hsame, Bool.false_eq_true, if_false]

theorem diffPlan_respelled_of_not_same (h : ¬SameToolchains m current) :
    diffPlan { m with files := files' } { current with files } zoekt =
        diffPlan m current zoekt ↔
      uniqueProjectRoots files = uniqueProjectRoots current.files := by
  have hchanged : decide (m.scipToolchains.getD .empty ≠ current.scipToolchains.getD .empty) =
      true := decide_eq_true h
  have hsort : ∀ files, sortStrings (uniqueProjectRoots files) = uniqueProjectRoots files :=
    fun files => sortStrings_eq_self (SortedMap.keys_increasing _)
  unfold diffPlan
  simp only [hprevious, hcurrent, hchanged, hsort, Bool.not_true, Bool.and_false, Bool.false_and,
    Bool.false_eq_true, if_false, if_true, DeltaReindexPlan.mk.injEq, ScipPlan.mk.injEq, true_and,
    and_true]

end Diff

variable {previous previous' : Option IndexRunManifest} {current current' : IndexRunManifest}

/-- Respelled manifests get the same plan exactly if the roots are not listed as a whole, or
all roots are spelled as before. -/
theorem plan_respelled_iff (hprevious : Option.Rel Respelled previous previous')
    (hcurrent : Respelled current current') (hscope : ∀ m ∈ previous, SameScope m current)
    (zoekt : Bool) :
    buildDeltaReindexPlan previous' current' zoekt = buildDeltaReindexPlan previous current zoekt ↔
      (∃ m ∈ previous, SameToolchains m current) ∨
        uniqueProjectRoots current'.files = uniqueProjectRoots current.files := by
  have hfiles := (normalizedFileMap_eq_of_forall₂ hcurrent.files).symm
  rw [hcurrent.eq]
  generalize current'.files = files at hfiles
  cases hprevious with
  | none =>
    have hsort : ∀ files, sortStrings (uniqueProjectRoots files) = uniqueProjectRoots files :=
      fun files => sortStrings_eq_self (SortedMap.keys_increasing _)
    simp [buildDeltaReindexPlan, fullPlan, hfiles, hsort]
  | @some m m' hm =>
    have hsame := hscope m rfl
    have hfiles' := (normalizedFileMap_eq_of_forall₂ hm.files).symm
    have hsame' : SameScope { m with files := m'.files } { current with files } :=
      ⟨hsame.orgId, hsame.workspaceId, hsame.repoId, hsame.providerConnectionId, hsame.branch⟩
    rw [hm.eq, buildDeltaReindexPlan_of_same hsame, buildDeltaReindexPlan_of_same hsame',
      Except.ok.injEq]
    by_cases htools : SameToolchains m current
    · exact iff_of_true (diffPlan_respelled_of_same hfiles' hfiles htools) (.inl ⟨m, rfl, htools⟩)
    · rw [diffPlan_respelled_of_not_same hfiles' hfiles htools]
      refine (or_iff_right ?_).symm
      rintro ⟨_, hm, hin⟩
      exact htools (Option.some.inj hm ▸ hin)

theorem respelled_oneFile (commit : String) :
    Respelled (oneFile "a" none commit) (oneFile "/a" none commit) := by
  have hfile : SameFile ⟨"a/x.go", "h", some "a"⟩ ⟨"a/x.go", "h", some "/a"⟩ := by
    show normalizedFile _ = normalizedFile _
    decide +kernel
  exact ⟨.cons hfile .nil, rfl⟩

theorem oneFile_plan_respelled :
    buildDeltaReindexPlan (some (oneFile "/a" none "c")) (oneFile "/a" none "d") false =
        buildDeltaReindexPlan (some (oneFile "a" none "c")) (oneFile "a" none "d") false ↔
      (∃ m ∈ some (oneFile "a" none "c"), SameToolchains m (oneFile "a" none "d")) ∨
        uniqueProjectRoots (oneFile "/a" none "d").files =
          uniqueProjectRoots (oneFile "a" none "d").files := by
  refine plan_respelled_iff (.some (respelled_oneFile "c")) (respelled_oneFile "d") ?_ false
  rintro m hm
  cases hm
  exact ⟨rfl, rfl, rfl, rfl, rfl⟩

/-- With a new toolchain the root of the only file is listed as it is spelled. -/
theorem respelled_root_listed :
    normalizedFile ⟨"a/x.go", "h", some "/a"⟩ = normalizedFile ⟨"a/x.go", "h", some "a"⟩ ∧
      (buildDeltaReindexPlan (some (oneFile "a" (goToolchain "1") "c"))
        (oneFile "a" (goToolchain "2") "c") false).map (fun plan => plan.scip.projectRoots) =
          .ok ["a"] ∧
      (buildDeltaReindexPlan (some (oneFile "/a" (goToolchain "1") "c"))
        (oneFile "/a" (goToolchain "2") "c") false).map (fun plan => plan.scip.projectRoots) =
          .ok ["/a"] := by
  decide +kernel

end Spelling

end CodeIntel.Indexer
