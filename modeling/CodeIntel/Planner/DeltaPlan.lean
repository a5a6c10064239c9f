import CodeIntel.Planner.ManifestFiles
import CodeIntel.Relational.Table

/-!
# The plan of an incremental index run

`buildManifestDeltaPlan` compares the files of the last ready manifest with the
files of the commit to index and decides what each producer has to redo.
-/

namespace CodeIntel.Planner

open Text Relational

inductive PlanMode
  | full
  | delta
  | noop
  | semanticRepair
  deriving DecidableEq, Repr

inductive ZoektStrategy
  | noop
  | deltaFiles
  | fullRepo
  | fullRepoRewrite
  deriving DecidableEq, Repr

inductive ScipStrategy
  | noop
  | projectRoots
  | fullRepo
  deriving DecidableEq, Repr

inductive GraphStrategy
  | noop
  | deltaFiles
  deriving DecidableEq, Repr

inductive SemanticStrategy
  | skipped
  deriving DecidableEq, Repr

structure DeltaZoektPlan where
  strategy : ZoektStrategy
  files : List String
  reason : Option String
  deriving DecidableEq, Repr

structure DeltaSCIPPlan where
  strategy : ScipStrategy
  (projectRoots files : List String)
  reason : Option String
  deriving DecidableEq, Repr

structure DeltaGraphPlan where
  strategy : GraphStrategy
  (files deletedFiles : List String)
  deriving DecidableEq, Repr

structure DeltaSemanticPlan where
  strategy : SemanticStrategy
  files : List String
  reason : Option String
  deriving DecidableEq, Repr

structure DeltaReindexPlan where
  mode : PlanMode
  (addedFiles changedFiles deletedFiles unchangedFiles : List String)
  zoekt : DeltaZoektPlan
  scip : DeltaSCIPPlan
  graph : DeltaGraphPlan
  semantic : DeltaSemanticPlan
  deriving DecidableEq, Repr

/-- `out[file.Path] = file`, on a map kept as a table with one row for each path. -/
def putFile (out : List ManifestFileRow) (file : ManifestFileRow) : List ManifestFileRow :=
  if file.path = "" then out
  else deleteWhere (fun r => r.path = file.path) out ++ [file]

/-- The rows by path; a later row replaces an earlier one. -/
def manifestFileMap (files : List ManifestFileRow) : List ManifestFileRow :=
  files.foldl putFile []

def fileAt (byPath : List ManifestFileRow) (path : String) : Option ManifestFileRow :=
  lookup ManifestFileRow.path path byPath

def sortStrings (values : List String) : List String :=
  values.insertionSort (· ≤ ·)

def sortedManifestKeys (values : List ManifestFileRow) : List String :=
  sortStrings (values.map ManifestFileRow.path)

/-- The root a row counts for. -/
def manifestRootOf (file : ManifestFileRow) : String :=
  match file.projectRoot with
  | none => "."
  | some root => if root = "" then "." else root

def uniqueManifestProjectRoots (files : List ManifestFileRow) : List String :=
  sortStrings (files.map manifestRootOf).eraseDups

def uniqueManifestProjectRootsForPaths (files : List ManifestFileRow) (paths : List String) :
    List String :=
  uniqueManifestProjectRoots (paths.filterMap (fileAt files))

def addedPaths (previousByPath currentByPath : List ManifestFileRow) : List String :=
  sortStrings ((currentByPath.filter fun curr =>
    fileAt previousByPath curr.path = none).map ManifestFileRow.path)

/-- The paths whose previous row meets a condition on the two contents. -/
def comparedPaths (same : Bool) (previousByPath currentByPath : List ManifestFileRow) :
    List String :=
  sortStrings ((currentByPath.filter fun curr =>
    (fileAt previousByPath curr.path).any fun prev =>
      decide (prev.contentHash = curr.contentHash) = same).map ManifestFileRow.path)

def changedPaths : List ManifestFileRow → List ManifestFileRow → List String := comparedPaths false

def unchangedPaths : List ManifestFileRow → List ManifestFileRow → List String := comparedPaths true

/-- A path is deleted when it is new the other way round. -/
def deletedPaths (previousByPath currentByPath : List ManifestFileRow) : List String :=
  addedPaths currentByPath previousByPath

def noPreviousManifest : String := "No previous index manifest exists."

def zoektRewriteReason : String :=
  "Zoekt rewrites repository shard files because file-level shard delta is not enabled."

def fullPlan (current : List ManifestFileRow) : DeltaReindexPlan :=
  let allFiles := sortedManifestKeys (manifestFileMap current)
  let allRoots := uniqueManifestProjectRoots current
  { mode := .full, addedFiles := allFiles, changedFiles := [], deletedFiles := [],
    unchangedFiles := [],
    zoekt := { strategy := .fullRepo, files := allFiles, reason := some noPreviousManifest },
    scip :=
      { strategy := .fullRepo, projectRoots := allRoots, files := allFiles,
        reason := some noPreviousManifest },
    graph := { strategy := .deltaFiles, files := allFiles, deletedFiles := [] },
    semantic := { strategy := .skipped, files := [], reason := none } }

def buildManifestDeltaPlan (previous current : List ManifestFileRow)
    (supportsZoektFileDelta : Bool) : DeltaReindexPlan :=
  let currentByPath := manifestFileMap current
  if previous.length = 0 then fullPlan current
  else
    let previousByPath := manifestFileMap previous
    let added := addedPaths previousByPath currentByPath
    let changed := changedPaths previousByPath currentByPath
    let deleted := deletedPaths previousByPath currentByPath
    let unchanged := unchangedPaths previousByPath currentByPath
    let touched := added ++ changed
    let noop := added.isEmpty && changed.isEmpty && deleted.isEmpty
    { mode := if noop then .noop else .delta
      addedFiles := added
      changedFiles := changed
      deletedFiles := deleted
      unchangedFiles := unchanged
      zoekt :=
        if noop then { strategy := .noop, files := [], reason := none }
        else if supportsZoektFileDelta then
          { strategy := .deltaFiles, files := touched, reason := none }
        else { strategy := .fullRepoRewrite, files := touched, reason := some zoektRewriteReason }
      scip :=
        if noop then { strategy := .noop, projectRoots := [], files := [], reason := none }
        else
          { strategy := .projectRoots
            projectRoots := uniqueManifestProjectRootsForPaths currentByPath touched
            files := touched, reason := none }
      graph :=
        { strategy := if noop then .noop else .deltaFiles
          files := if noop then [] else touched
          deletedFiles := deleted }
      semantic := { strategy := .skipped, files := [], reason := none } }

section ScipRoots

theorem uniqueKey_putFile {out : List ManifestFileRow} (h : UniqueKey ManifestFileRow.path out)
    (file : ManifestFileRow) : UniqueKey ManifestFileRow.path (putFile out file) := by
  unfold putFile
  split
  · exact h
  · refine (h.deleteWhere _).append_fresh fun r hr => ?_
    simpa [deleteWhere] using (List.mem_filter.1 hr).2

theorem uniqueKey_manifestFileMap (files : List ManifestFileRow) :
    UniqueKey ManifestFileRow.path (manifestFileMap files) :=
  List.foldlRecOn files putFile List.nodup_nil fun _ h file _ => uniqueKey_putFile h file

variable {files previous current : List ManifestFileRow}

theorem fileAt_of_mem {curr : ManifestFileRow} (h : curr ∈ manifestFileMap files) :
    fileAt (manifestFileMap files) curr.path = some curr :=
  lookup_eq_some_of_mem (uniqueKey_manifestFileMap files) h rfl

/-- The file has no previous row, or one with other contents. -/
def isTouched (previous : List ManifestFileRow) (curr : ManifestFileRow) : Bool :=
  (fileAt (manifestFileMap previous) curr.path).all fun prev => prev.contentHash ≠ curr.contentHash

theorem mem_sortStrings {value : String} {values : List String} :
    value ∈ sortStrings values ↔ value ∈ values :=
  List.mem_insertionSort _

theorem mem_touched {path : String} :
    path ∈ addedPaths (manifestFileMap previous) (manifestFileMap current) ++
        changedPaths (manifestFileMap previous) (manifestFileMap current) ↔
      ∃ curr ∈ manifestFileMap current, isTouched previous curr = true ∧ curr.path = path := by
  unfold addedPaths changedPaths comparedPaths isTouched
  simp only [List.mem_append, mem_sortStrings, List.mem_map, List.mem_filter]
  constructor
  · rintro (⟨curr, ⟨hcurr, h⟩, hpath⟩ | ⟨curr, ⟨hcurr, h⟩, hpath⟩)
    · refine ⟨curr, hcurr, ?_, hpath⟩
      simp [of_decide_eq_true h]
    · refine ⟨curr, hcurr, ?_, hpath⟩
      cases hprev : fileAt (manifestFileMap previous) curr.path with
      | none => rfl
      | some prev => simpa [hprev] using h
  · rintro ⟨curr, hcurr, h, hpath⟩
    cases hprev : fileAt (manifestFileMap previous) curr.path with
    | none => exact .inl ⟨curr, ⟨hcurr, by simp [hprev]⟩, hpath⟩
    | some prev =>
      refine .inr ⟨curr, ⟨hcurr, ?_⟩, hpath⟩
      simpa [hprev] using h

theorem mem_uniqueManifestProjectRoots {root : String} :
    root ∈ uniqueManifestProjectRoots files ↔ ∃ file ∈ files, manifestRootOf file = root := by
  unfold uniqueManifestProjectRoots
  rw [mem_sortStrings, List.mem_eraseDups, List.mem_map]

theorem mem_scip_projectRoots {zoekt : Bool} (hprevious : previous ≠ []) {root : String} :
    root ∈ (buildManifestDeltaPlan previous current zoekt).scip.projectRoots ↔
      ∃ curr ∈ manifestFileMap current, isTouched previous curr = true ∧
        manifestRootOf curr = root := by
  unfold buildManifestDeltaPlan
  simp only [List.length_eq_zero_iff, hprevious, if_false]
  split
  · -- nothing is added or changed when there is nothing to do
    rename_i hnoop
    simp only [Bool.and_eq_true, List.isEmpty_iff] at hnoop
    simp only [List.not_mem_nil, false_iff]
    rintro ⟨curr, hcurr, htouched, -⟩
    have hmem := mem_touched.2 ⟨curr, hcurr, htouched, rfl⟩
    simp [hnoop.1.1, hnoop.1.2] at hmem
  · unfold uniqueManifestProjectRootsForPaths
    simp only [mem_uniqueManifestProjectRoots, List.mem_filterMap]
    constructor
    · rintro ⟨file, ⟨path, hpath, hfile⟩, hroot⟩
      obtain ⟨curr, hcurr, htouched, rfl⟩ := mem_touched.1 hpath
      obtain rfl : curr = file := Option.some.inj ((fileAt_of_mem hcurr).symm.trans hfile)
      exact ⟨curr, hcurr, htouched, hroot⟩
    · rintro ⟨curr, hcurr, htouched, hroot⟩
      exact ⟨curr, ⟨curr.path, mem_touched.2 ⟨curr, hcurr, htouched, rfl⟩, fileAt_of_mem hcurr⟩,
        hroot⟩

end ScipRoots

/-! ## Incremental extraction -/

section PerFileIndex

variable {previous current : List ManifestFileRow} {zoekt : Bool} {path : String}

theorem mem_graph_files : path ∈ (buildManifestDeltaPlan previous current zoekt).graph.files ↔
    ∃ curr ∈ manifestFileMap current, isTouched previous curr = true ∧ curr.path = path := by
  unfold buildManifestDeltaPlan
  by_cases hnil : previous = []
  · simp [hnil, fullPlan, sortedManifestKeys, mem_sortStrings, isTouched, manifestFileMap, fileAt,
      lookup]
  · rw [← mem_touched]
    simp only [List.length_eq_zero_iff, hnil, if_false]
    split_ifs with hnoop
    · simp_all
    · exact Iff.rfl

theorem mem_graph_deletedFiles :
    path ∈ (buildManifestDeltaPlan previous current zoekt).graph.deletedFiles ↔
      fileAt (manifestFileMap current) path = none ∧
        ∃ prev ∈ manifestFileMap previous, prev.path = path := by
  unfold buildManifestDeltaPlan
  by_cases hnil : previous = []
  · simp [hnil, fullPlan, manifestFileMap]
  · simp only [List.length_eq_zero_iff, hnil, if_false, deletedPaths, addedPaths, mem_sortStrings,
      List.mem_map, List.mem_filter, decide_eq_true_eq]
    grind

/-- What a per-file extraction yields for the rows of a manifest. -/
def extracted {ι : Type*} (f : String → String → ι) (files : List ManifestFileRow)
    (path : String) : Option ι :=
  (fileAt (manifestFileMap files) path).map fun file => f path file.contentHash

/-- Incremental equals full: dropping the deleted files of the graph plan and extracting its
files again turns every per-file index of the previous rows into that of the current ones. -/
theorem graphPlan_incremental {ι : Type*} (f : String → String → ι)
    (previous current : List ManifestFileRow) (zoekt : Bool) (path : String) :
    (if path ∈ (buildManifestDeltaPlan previous current zoekt).graph.files then
      extracted f current path
    else if path ∈ (buildManifestDeltaPlan previous current zoekt).graph.deletedFiles then none
    else extracted f previous path) = extracted f current path := by
  unfold extracted
  split_ifs with hfiles hdeleted
  · rfl
  · simp [(mem_graph_deletedFiles.1 hdeleted).1]
  · rw [mem_graph_files] at hfiles
    rw [mem_graph_deletedFiles] at hdeleted
    have hrow {files file} (h : fileAt (manifestFileMap files) path = some file) :
        file ∈ manifestFileMap files ∧ file.path = path := ⟨mem_of_lookup h, key_of_lookup h⟩
    -- a row that is not extracted again has a previous one with the same contents
    cases hcurr : fileAt (manifestFileMap current) path <;>
      cases hprev : fileAt (manifestFileMap previous) path <;> grind [isTouched]

end PerFileIndex

/-- The plan of a run that only restores missing semantic rows. -/
def forceSemanticRepairPlan (plan : DeltaReindexPlan) (current : List ManifestFileRow)
    (reason : String) : DeltaReindexPlan :=
  let allFiles := sortedManifestKeys (manifestFileMap current)
  { plan with
    mode := .semanticRepair
    zoekt := { strategy := .noop, files := [], reason := none }
    scip :=
      { strategy := .fullRepo, projectRoots := uniqueManifestProjectRoots current,
        files := allFiles, reason := some reason }
    graph := { strategy := .deltaFiles, files := allFiles, deletedFiles := [] }
    semantic := { strategy := .skipped, files := [], reason := some reason } }

end CodeIntel.Planner
