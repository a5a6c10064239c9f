import CodeIntel.Planner.DeltaPlan
import CodeIntel.Relational.SortedMap

/-!
# The delta plan of the indexer

`build_delta_reindex_plan` compares the manifest of the last run with the
manifest of the commit to index and decides for each engine what to redo. The
plan is right for the per-file graph when dropping and re-extracting the listed
files turns the old per-file index into the index of the current manifest.
-/

namespace CodeIntel.Indexer

open Text Relational
open Planner (ZoektStrategy ScipStrategy GraphStrategy normalizeManifestPath sortStrings
  mem_sortStrings zoektRewriteReason)

structure IndexManifestFile where
  (path contentHash : String)
  projectRoot : Option String := none
  deriving DecidableEq, Repr

structure SemanticExtractionFingerprint where
  (promptVersion modelId : String)
  schemaVersion : ℤ
  deriving DecidableEq, Repr

structure IndexRunManifest where
  orgId : ℤ
  workspaceId : String
  repoId : ℤ
  providerConnectionId : Option String := none
  (branch commitHash : String)
  files : List IndexManifestFile
  scipToolchains : Option (SortedMap String String) := none
  semanticExtraction : Option SemanticExtractionFingerprint := none
  deriving DecidableEq

inductive Mode
  | noop
  | delta
  | full
  deriving DecidableEq, Repr

inductive SemanticStrategy
  | noop
  | changedChunks
  | allChunks
  deriving DecidableEq, Repr

structure ZoektPlan where
  strategy : ZoektStrategy
  files : List String
  reason : Option String
  deriving DecidableEq, Repr

structure ScipPlan where
  strategy : ScipStrategy
  (projectRoots files : List String)
  reason : Option String
  deriving DecidableEq, Repr

structure GraphPlan where
  strategy : GraphStrategy
  (files deletedFiles : List String)
  deriving DecidableEq, Repr

structure SemanticPlan where
  strategy : SemanticStrategy
  files : List String
  reason : Option String
  deriving DecidableEq, Repr

structure DeltaReindexPlan where
  mode : Mode
  (addedFiles changedFiles deletedFiles unchangedFiles : List String)
  zoekt : ZoektPlan
  scip : ScipPlan
  graph : GraphPlan
  semantic : SemanticPlan
  deriving DecidableEq, Repr

/-- The manifests disagree on a field of the scope. -/
inductive DeltaPlanError
  | scopeMismatch (field : String)
  deriving DecidableEq, Repr

def DeltaPlanError.text : DeltaPlanError → String
  | .scopeMismatch field =>
    "Index manifest scope mismatch for " ++ field ++ ". Delta reindex cannot share artifacts " ++
      "across tenants, workspaces, repos, providers, or branches."

/-- The path a file is filed under. -/
def IndexManifestFile.key (file : IndexManifestFile) : String := normalizeManifestPath file.path

def normalizedFile (file : IndexManifestFile) : IndexManifestFile :=
  { file with path := file.key, projectRoot := file.projectRoot.map normalizeManifestPath }

def normalizedFileMap (files : List IndexManifestFile) : SortedMap String IndexManifestFile :=
  SortedMap.ofRows IndexManifestFile.key normalizedFile files

/-- The project roots of the files, as an ordered set. -/
def uniqueProjectRoots (files : List IndexManifestFile) : List String :=
  (SortedMap.ofRows (fun file => file.projectRoot.getD ".") (fun _ => ()) files).keys

theorem mem_uniqueProjectRoots {files : List IndexManifestFile} {root : String} :
    root ∈ uniqueProjectRoots files ↔ ∃ file ∈ files, file.projectRoot.getD "." = root := by
  unfold uniqueProjectRoots
  rw [SortedMap.mem_keys_ofRows, List.mem_map]

def assertSameManifestScope (previous current : IndexRunManifest) : Except DeltaPlanError Unit :=
  if previous.orgId ≠ current.orgId then .error (.scopeMismatch "orgId")
  else if previous.workspaceId ≠ current.workspaceId then .error (.scopeMismatch "workspaceId")
  else if previous.repoId ≠ current.repoId then .error (.scopeMismatch "repoId")
  else if previous.providerConnectionId ≠ current.providerConnectionId then
    .error (.scopeMismatch "providerConnectionId")
  else if previous.branch ≠ current.branch then .error (.scopeMismatch "branch")
  else .ok ()

section Diff

variable (previous current : SortedMap String IndexManifestFile)

/-- The paths without a previous file. -/
def addedFiles : List String :=
  (current.entries.filter fun e => (previous.get e.1).isNone).map Prod.fst

/-- The paths whose contents differ. -/
def changedFiles : List String :=
  (current.entries.filter fun e =>
    (previous.get e.1).any fun prev => prev.contentHash ≠ e.2.contentHash).map Prod.fst

/-- The paths whose contents are the same. -/
def unchangedFiles : List String :=
  (current.entries.filter fun e =>
    (previous.get e.1).any fun prev => prev.contentHash = e.2.contentHash).map Prod.fst

/-- The previous paths that are gone. -/
def deletedFiles : List String :=
  previous.keys.filter fun path => (current.get path).isNone

end Diff

/-- The plan without a previous manifest. -/
def fullPlan (current : IndexRunManifest) : DeltaReindexPlan :=
  let allFiles := sortStrings (normalizedFileMap current.files).keys
  { mode := .full, addedFiles := allFiles, changedFiles := [], deletedFiles := [],
    unchangedFiles := [],
    zoekt :=
      { strategy := .fullRepo, files := allFiles, reason := some "No previous manifest exists." },
    scip :=
      { strategy := .fullRepo, projectRoots := sortStrings (uniqueProjectRoots current.files),
        files := allFiles, reason := some "No previous manifest exists." },
    graph := { strategy := .deltaFiles, files := allFiles, deletedFiles := [] },
    semantic :=
      { strategy := .allChunks, files := allFiles,
        reason := some "No previous semantic extraction cache exists." } }

/-- The plan when nothing at all changed. -/
def noopPlan (unchanged : List String) : DeltaReindexPlan where
  mode := .noop
  addedFiles := []
  changedFiles := []
  deletedFiles := []
  unchangedFiles := unchanged
  zoekt := { strategy := .noop, files := [], reason := none }
  scip := { strategy := .noop, projectRoots := [], files := [], reason := none }
  graph := { strategy := .noop, files := [], deletedFiles := [] }
  semantic := { strategy := .noop, files := [], reason := none }

/-- The plan of two manifests of one scope. -/
def diffPlan (previous current : IndexRunManifest) (supportsZoektFileDelta : Bool) :
    DeltaReindexPlan :=
  let currentMap := normalizedFileMap current.files
  let previousMap := normalizedFileMap previous.files
  let added := addedFiles previousMap currentMap
  let changed := changedFiles previousMap currentMap
  let deleted := deletedFiles previousMap currentMap
  let unchanged := unchangedFiles previousMap currentMap
  let touched := sortStrings (added ++ changed ++ deleted)
  let scipToolchainChanged : Bool :=
    previous.scipToolchains.getD .empty ≠ current.scipToolchains.getD .empty
  let semanticFingerprintChanged : Bool := previous.semanticExtraction ≠ current.semanticExtraction
  if touched.isEmpty && !scipToolchainChanged && !semanticFingerprintChanged &&
      previous.commitHash = current.commitHash then
    noopPlan (sortStrings unchanged)
  else
    let changedProjectRoots := uniqueProjectRoots
      ((added ++ changed).filterMap currentMap.get ++ deleted.filterMap previousMap.get)
    let allProjectRoots := sortStrings (uniqueProjectRoots current.files)
    let allCurrentFiles := sortStrings currentMap.keys
    let addedPlusChanged := sortStrings (sortStrings added ++ sortStrings changed)
    let touchedForScip := sortStrings (sortStrings added ++ sortStrings changed ++
      sortStrings deleted)
    { mode := if touched.isEmpty then .noop else .delta
      addedFiles := sortStrings added
      changedFiles := sortStrings changed
      deletedFiles := sortStrings deleted
      unchangedFiles := sortStrings unchanged
      zoekt :=
        if touched.isEmpty then { strategy := .noop, files := [], reason := none }
        else if supportsZoektFileDelta then
          { strategy := .deltaFiles, files := touched,
            reason := some "Search engine supports file-level shard updates." }
        else
          { strategy := .fullRepoRewrite, files := allCurrentFiles,
            reason := some zoektRewriteReason }
      scip :=
        if scipToolchainChanged then
          { strategy := .fullRepo, projectRoots := allProjectRoots, files := allCurrentFiles,
            reason := some "SCIP toolchain fingerprint changed." }
        else if !changedProjectRoots.isEmpty then
          { strategy := .projectRoots, projectRoots := changedProjectRoots, files := touchedForScip,
            reason := some "Language indexers require project-root context for precise symbols." }
        else { strategy := .noop, projectRoots := [], files := [], reason := none }
      graph :=
        if touched.isEmpty then { strategy := .noop, files := [], deletedFiles := [] }
        else
          { strategy := .deltaFiles, files := addedPlusChanged,
            deletedFiles := sortStrings deleted }
      semantic :=
        if semanticFingerprintChanged then
          { strategy := .allChunks, files := allCurrentFiles,
            reason := some "Semantic extraction prompt, model, or schema changed." }
        else if !touched.isEmpty then
          { strategy := .changedChunks, files := addedPlusChanged, reason := none }
        else { strategy := .noop, files := [], reason := none } }

def buildDeltaReindexPlan (previous : Option IndexRunManifest) (current : IndexRunManifest)
    (supportsZoektFileDelta : Bool) : Except DeltaPlanError DeltaReindexPlan :=
  match previous with
  | none => .ok (fullPlan current)
  | some previous => do
    assertSameManifestScope previous current
    return diffPlan previous current supportsZoektFileDelta

section Scope

/-- The two manifests agree on tenant, workspace, repository, provider and branch. -/
structure SameScope (previous current : IndexRunManifest) : Prop where
  orgId : previous.orgId = current.orgId
  workspaceId : previous.workspaceId = current.workspaceId
  repoId : previous.repoId = current.repoId
  providerConnectionId : previous.providerConnectionId = current.providerConnectionId
  branch : previous.branch = current.branch

variable {previous current : IndexRunManifest}

theorem assertSameManifestScope_of_same (h : SameScope previous current) :
    assertSameManifestScope previous current = .ok () := by
  unfold assertSameManifestScope
  simp [h.orgId, h.workspaceId, h.repoId, h.providerConnectionId, h.branch]

theorem assertSameManifestScope_of_not_same (h : ¬SameScope previous current) :
    ∃ field ∈ ["orgId", "workspaceId", "repoId", "providerConnectionId", "branch"],
      assertSameManifestScope previous current = .error (.scopeMismatch field) := by
  unfold assertSameManifestScope
  split_ifs with horg hworkspace hrepo hprovider hbranch
  · exact ⟨"orgId", by simp, rfl⟩
  · exact ⟨"workspaceId", by simp, rfl⟩
  · exact ⟨"repoId", by simp, rfl⟩
  · exact ⟨"providerConnectionId", by simp, rfl⟩
  · exact ⟨"branch", by simp, rfl⟩
  · exact absurd ⟨not_not.1 horg, not_not.1 hworkspace, not_not.1 hrepo, not_not.1 hprovider,
      not_not.1 hbranch⟩ h

end Scope

section Lists

variable {previous current : SortedMap String IndexManifestFile} {path : String}

theorem increasing_keys_filter (m : SortedMap String IndexManifestFile)
    (p : String × IndexManifestFile → Bool) :
    ((m.entries.filter p).map Prod.fst).Pairwise (· < ·) :=
  m.increasing.sublist (List.filter_sublist.map Prod.fst)

theorem sortStrings_eq_self {paths : List String} (h : paths.Pairwise (· < ·)) :
    sortStrings paths = paths :=
  List.Pairwise.insertionSort_eq (h.imp le_of_lt)

theorem sortStrings_eq_nil {paths : List String} : sortStrings paths = [] ↔ paths = [] := by
  rw [← List.length_eq_zero_iff, sortStrings, List.length_insertionSort, List.length_eq_zero_iff]

theorem mem_entries_filter {m : SortedMap String IndexManifestFile}
    {p : String × IndexManifestFile → Bool} :
    path ∈ (m.entries.filter p).map Prod.fst ↔
      ∃ file, m.get path = some file ∧ p (path, file) = true := by
  simp only [List.mem_map, List.mem_filter, SortedMap.get_eq_some_iff]
  constructor
  · rintro ⟨e, ⟨he, hp⟩, rfl⟩
    exact ⟨e.2, he, hp⟩
  · rintro ⟨file, hfile, hp⟩
    exact ⟨(path, file), ⟨hfile, hp⟩, rfl⟩

theorem mem_addedFiles : path ∈ addedFiles previous current ↔
    previous.get path = none ∧ ∃ file, current.get path = some file := by
  unfold addedFiles
  rw [mem_entries_filter]
  simp [and_comm]

theorem mem_changedFiles : path ∈ changedFiles previous current ↔
    ∃ prev file, previous.get path = some prev ∧ current.get path = some file ∧
      prev.contentHash ≠ file.contentHash := by
  unfold changedFiles
  rw [mem_entries_filter]
  simp only [Option.any_eq_true, decide_eq_true_eq]
  constructor
  · rintro ⟨file, hfile, prev, hprev, hne⟩
    exact ⟨prev, file, hprev, hfile, hne⟩
  · rintro ⟨prev, file, hprev, hfile, hne⟩
    exact ⟨file, hfile, prev, hprev, hne⟩

theorem mem_unchangedFiles : path ∈ unchangedFiles previous current ↔
    ∃ prev file, previous.get path = some prev ∧ current.get path = some file ∧
      prev.contentHash = file.contentHash := by
  unfold unchangedFiles
  rw [mem_entries_filter]
  simp only [Option.any_eq_true, decide_eq_true_eq]
  constructor
  · rintro ⟨file, hfile, prev, hprev, heq⟩
    exact ⟨prev, file, hprev, hfile, heq⟩
  · rintro ⟨prev, file, hprev, hfile, heq⟩
    exact ⟨file, hfile, prev, hprev, heq⟩

theorem mem_deletedFiles : path ∈ deletedFiles previous current ↔
    (∃ prev, previous.get path = some prev) ∧ current.get path = none := by
  unfold deletedFiles
  rw [List.mem_filter, SortedMap.mem_keys, Option.isNone_iff_eq_none]

end Lists

section Plan

/-- The files the run compares with; without a previous manifest there are none. -/
def previousFileMap (previous : Option IndexRunManifest) : SortedMap String IndexManifestFile :=
  normalizedFileMap ((previous.map IndexRunManifest.files).getD [])

/-- What a plan says about two file maps: its lists are the differences between
the maps, and the graph redoes the added and changed files and drops the deleted. -/
structure Compares (plan : DeltaReindexPlan)
    (previous current : SortedMap String IndexManifestFile) : Prop where
  added : plan.addedFiles = addedFiles previous current
  changed : plan.changedFiles = changedFiles previous current
  deleted : plan.deletedFiles = deletedFiles previous current
  unchanged : plan.unchangedFiles = unchangedFiles previous current
  graphFiles : ∀ path, path ∈ plan.graph.files ↔
    path ∈ addedFiles previous current ∨ path ∈ changedFiles previous current
  graphDeleted : ∀ path, path ∈ plan.graph.deletedFiles ↔ path ∈ deletedFiles previous current

theorem fullPlan_compares (current : IndexRunManifest) :
    Compares (fullPlan current) (previousFileMap none) (normalizedFileMap current.files) := by
  have hget : ∀ path, (previousFileMap none).get path = none := fun _ => rfl
  have hall : addedFiles (previousFileMap none) (normalizedFileMap current.files) =
      (normalizedFileMap current.files).keys := by
    simp [addedFiles, hget, SortedMap.keys]
  have hfiles : (fullPlan current).addedFiles = (normalizedFileMap current.files).keys :=
    sortStrings_eq_self (normalizedFileMap current.files).keys_increasing
  have hchanged : changedFiles (previousFileMap none) (normalizedFileMap current.files) = [] := by
    simp [changedFiles, hget]
  refine ⟨hfiles.trans hall.symm, hchanged.symm, rfl, ?_, fun path => ?_, fun path => Iff.rfl⟩
  · simp [fullPlan, unchangedFiles, hget]
  · show path ∈ (fullPlan current).addedFiles ↔ _
    rw [hfiles, hall, hchanged]
    simp

/-- The lists of files come out of the maps in order. -/
theorem sortStrings_files (pm cm : SortedMap String IndexManifestFile) :
    sortStrings (addedFiles pm cm) = addedFiles pm cm ∧
      sortStrings (changedFiles pm cm) = changedFiles pm cm ∧
      sortStrings (unchangedFiles pm cm) = unchangedFiles pm cm ∧
      sortStrings (deletedFiles pm cm) = deletedFiles pm cm := by
  refine ⟨?_, ?_, ?_, sortStrings_eq_self (pm.keys_increasing.sublist List.filter_sublist)⟩ <;>
    exact sortStrings_eq_self (increasing_keys_filter cm _)

theorem diffPlan_compares (previous current : IndexRunManifest) (zoekt : Bool) :
    Compares (diffPlan previous current zoekt) (previousFileMap (some previous))
      (normalizedFileMap current.files) := by
  change Compares _ (normalizedFileMap previous.files) _
  set pm := normalizedFileMap previous.files with hpm
  set cm := normalizedFileMap current.files with hcm
  obtain ⟨hadded, hchanged, hunchanged, hdeleted⟩ := sortStrings_files pm cm
  -- without touched files the three lists of touched files are empty
  have hempty : (sortStrings (addedFiles pm cm ++ changedFiles pm cm ++
      deletedFiles pm cm)).isEmpty = true →
      addedFiles pm cm = [] ∧ changedFiles pm cm = [] ∧ deletedFiles pm cm = [] := by
    intro h
    simpa [and_assoc] using sortStrings_eq_nil.1 (List.isEmpty_iff.1 h)
  unfold diffPlan
  simp only [← hpm, ← hcm, hadded, hchanged, hdeleted, hunchanged]
  split
  · rename_i hnoop
    simp only [Bool.and_eq_true] at hnoop
    obtain ⟨h₁, h₂, h₃⟩ := hempty hnoop.1.1.1
    exact ⟨h₁.symm, h₂.symm, h₃.symm, rfl, by simp [noopPlan, h₁, h₂], by simp [noopPlan, h₃]⟩
  · refine ⟨rfl, rfl, rfl, rfl, fun path => ?_, fun path => ?_⟩
    · dsimp only
      split
      · rename_i htouched
        obtain ⟨h₁, h₂, -⟩ := hempty htouched
        simp [h₁, h₂]
      · rw [mem_sortStrings, List.mem_append]
    · dsimp only
      split
      · rename_i htouched
        obtain ⟨-, -, h₃⟩ := hempty htouched
        simp [h₃]
      · exact Iff.rfl

theorem exists_plan {previous : Option IndexRunManifest} {current : IndexRunManifest}
    (hscope : ∀ m ∈ previous, SameScope m current) (zoekt : Bool) :
    ∃ plan, buildDeltaReindexPlan previous current zoekt = .ok plan ∧
      Compares plan (previousFileMap previous) (normalizedFileMap current.files) := by
  cases previous with
  | none => exact ⟨_, rfl, fullPlan_compares current⟩
  | some m =>
    refine ⟨diffPlan m current zoekt, ?_, diffPlan_compares m current zoekt⟩
    simp only [buildDeltaReindexPlan, assertSameManifestScope_of_same (hscope m rfl)]
    rfl

variable {plan : DeltaReindexPlan} {previous current : SortedMap String IndexManifestFile}

theorem Compares.increasing (h : Compares plan previous current) :
    plan.addedFiles.Pairwise (· < ·) ∧ plan.changedFiles.Pairwise (· < ·) ∧
      plan.deletedFiles.Pairwise (· < ·) ∧ plan.unchangedFiles.Pairwise (· < ·) := by
  rw [h.added, h.changed, h.deleted, h.unchanged]
  exact ⟨increasing_keys_filter _ _, increasing_keys_filter _ _,
    previous.keys_increasing.sublist List.filter_sublist, increasing_keys_filter _ _⟩

theorem Compares.disjoint (h : Compares plan previous current) :
    [plan.addedFiles, plan.changedFiles, plan.deletedFiles, plan.unchangedFiles].Pairwise
      List.Disjoint := by
  rw [h.added, h.changed, h.deleted, h.unchanged]
  simp only [List.pairwise_cons, List.mem_cons, List.not_mem_nil, or_false, forall_eq_or_imp,
    forall_eq, List.Disjoint, mem_addedFiles, mem_changedFiles, mem_deletedFiles,
    mem_unchangedFiles]
  grind

theorem Compares.cover (h : Compares plan previous current) (path : String) :
    path ∈ plan.addedFiles ++ plan.changedFiles ++ plan.deletedFiles ++ plan.unchangedFiles ↔
      path ∈ previous.keys ∨ path ∈ current.keys := by
  rw [h.added, h.changed, h.deleted, h.unchanged]
  simp only [List.mem_append, mem_addedFiles, mem_changedFiles, mem_deletedFiles,
    mem_unchangedFiles, SortedMap.mem_keys]
  cases previous.get path with
  | none => simp
  | some prev =>
    cases current.get path with
    | none => simp
    | some file => simp [ne_or_eq]

end Plan

section PerFileIndex

variable {ι : Type*}

/-- The paths of the files, as the plan writes them. -/
def manifestPaths (files : List IndexManifestFile) : List String := files.map IndexManifestFile.key

/-- No two files of the manifest have the same path. -/
def UniquePaths (m : IndexRunManifest) : Prop := UniqueKey IndexManifestFile.key m.files

/-- What the per-file extraction `f` yields for the files of a run. -/
def perFileIndex (f : String → String → ι) (files : List IndexManifestFile) (path : String) :
    Option ι :=
  (lookup IndexManifestFile.key path files).map fun file => f path file.contentHash

/-- Drop the files the plan names, then extract those it lists from the current run. -/
def applyGraphPlan (graph : GraphPlan) (old new : String → Option ι) (path : String) : Option ι :=
  if path ∈ graph.files then new path else if path ∈ graph.deletedFiles then none else old path

theorem perFileIndex_eq (f : String → String → ι) {files : List IndexManifestFile}
    (h : UniqueKey IndexManifestFile.key files) (path : String) :
    perFileIndex f files path =
      ((normalizedFileMap files).get path).map fun file => f path file.contentHash := by
  unfold perFileIndex normalizedFileMap
  rw [SortedMap.get_ofRows h, Option.map_map]
  rfl

/-- Following the plan turns the old index of two compared maps into the new one. -/
theorem Compares.applyGraphPlan_eq {plan : DeltaReindexPlan}
    {previous current : SortedMap String IndexManifestFile} (h : Compares plan previous current)
    (f : String → String → ι) :
    applyGraphPlan plan.graph
        (fun path => (previous.get path).map fun file => f path file.contentHash)
        (fun path => (current.get path).map fun file => f path file.contentHash) =
      fun path => (current.get path).map fun file => f path file.contentHash := by
  funext path
  have hfiles := h.graphFiles path
  have hdeleted := h.graphDeleted path
  rw [mem_addedFiles, mem_changedFiles] at hfiles
  rw [mem_deletedFiles] at hdeleted
  unfold applyGraphPlan
  cases hprevious : previous.get path with
  | none =>
    cases hcurrent : current.get path with
    | none => simp [hfiles, hdeleted, hprevious, hcurrent]
    | some file => simp [hfiles, hprevious, hcurrent]
  | some prev =>
    cases hcurrent : current.get path with
    | none => simp [hfiles, hdeleted, hprevious, hcurrent]
    | some file =>
      by_cases heq : prev.contentHash = file.contentHash
      · simp [hfiles, hdeleted, hprevious, hcurrent, heq]
      · simp [hfiles, hprevious, hcurrent, heq]

end PerFileIndex

/-- Incremental equals full: the lists of the plan are sorted without repetition,
pairwise disjoint and cover the two path sets, and following the graph part turns
any per-file index of the previous run into that of the current one. Manifests of
different scope are refused. -/
theorem buildDeltaReindexPlan_incremental (current : IndexRunManifest) (zoekt : Bool) :
    (∀ previous : Option IndexRunManifest, (∀ m ∈ previous, SameScope m current) →
      (∀ m ∈ previous, UniquePaths m) → UniquePaths current →
      ∃ plan, buildDeltaReindexPlan previous current zoekt = .ok plan ∧
        (plan.addedFiles.Pairwise (· < ·) ∧ plan.changedFiles.Pairwise (· < ·) ∧
          plan.deletedFiles.Pairwise (· < ·) ∧ plan.unchangedFiles.Pairwise (· < ·)) ∧
        [plan.addedFiles, plan.changedFiles, plan.deletedFiles, plan.unchangedFiles].Pairwise
          List.Disjoint ∧
        (∀ path, path ∈ plan.addedFiles ++ plan.changedFiles ++ plan.deletedFiles ++
            plan.unchangedFiles ↔
          path ∈ manifestPaths ((previous.map IndexRunManifest.files).getD []) ∨
            path ∈ manifestPaths current.files) ∧
        ∀ (ι : Type) (f : String → String → ι),
          applyGraphPlan plan.graph
              (perFileIndex f ((previous.map IndexRunManifest.files).getD []))
              (perFileIndex f current.files) =
            perFileIndex f current.files) ∧
    ∀ previous : IndexRunManifest, ¬SameScope previous current →
      ∃ field ∈ ["orgId", "workspaceId", "repoId", "providerConnectionId", "branch"],
        buildDeltaReindexPlan (some previous) current zoekt = .error (.scopeMismatch field) := by
  refine ⟨fun previous hscope hprevious hcurrent => ?_, fun previous hscope => ?_⟩
  · have hunique : UniqueKey IndexManifestFile.key
        ((previous.map IndexRunManifest.files).getD []) := by
      cases previous with
      | none => exact List.nodup_nil
      | some m => exact hprevious m rfl
    obtain ⟨plan, hplan, hcompares⟩ := exists_plan hscope zoekt
    refine ⟨plan, hplan, hcompares.increasing, hcompares.disjoint, fun path => ?_, fun ι f => ?_⟩
    · rw [hcompares.cover]
      exact or_congr SortedMap.mem_keys_ofRows SortedMap.mem_keys_ofRows
    · have hold := funext (perFileIndex_eq f hunique)
      have hnew := funext (perFileIndex_eq f hcurrent)
      rw [hold, hnew]
      exact hcompares.applyGraphPlan_eq f
  · obtain ⟨field, hfield, herror⟩ := assertSameManifestScope_of_not_same hscope
    refine ⟨field, hfield, ?_⟩
    simp only [buildDeltaReindexPlan, herror]
    rfl

/-- A file is changed, one is deleted and one is new; a run of another branch is refused. -/
theorem buildDeltaReindexPlan_incremental_example :
    let file (path hash : String) : IndexManifestFile := { path, contentHash := hash }
    let manifest (branch : String) (files : List IndexManifestFile) : IndexRunManifest :=
      { orgId := 1, workspaceId := "w", repoId := 2, branch, commitHash := "c",
        files }
    let previous := manifest "main" [file "/b.go" "1", file "a\\x.go" "1"]
    let current := manifest "main" [file "b.go" "2", file "c.go" "3"]
    (∃ plan, buildDeltaReindexPlan (some previous) current false = .ok plan ∧
      plan.deletedFiles.Pairwise (· < ·) ∧
      ∀ path, path ∈ plan.addedFiles ++ plan.changedFiles ++ plan.deletedFiles ++
          plan.unchangedFiles ↔
        path ∈ manifestPaths previous.files ∨ path ∈ manifestPaths current.files) ∧
    ∃ field ∈ ["orgId", "workspaceId", "repoId", "providerConnectionId", "branch"],
      buildDeltaReindexPlan (some (manifest "dev" [])) current false =
        .error (.scopeMismatch field) := by
  intro file manifest previous current
  obtain ⟨hsame, hother⟩ := buildDeltaReindexPlan_incremental current false
  constructor
  · have hunique : UniquePaths previous ∧ UniquePaths current := by
      constructor <;> (unfold UniquePaths; decide +kernel)
    obtain ⟨plan, hplan, hsorted, -, hcover, -⟩ := hsame (some previous)
      (fun m hm => by cases hm; exact ⟨rfl, rfl, rfl, rfl, rfl⟩)
      (fun m hm => by cases hm; exact hunique.1) hunique.2
    exact ⟨plan, hplan, hsorted.2.2.1, hcover⟩
  · refine hother _ fun hscope => ?_
    have hbranch : "dev" = "main" := hscope.branch
    exact absurd hbranch (by decide)

end CodeIntel.Indexer
