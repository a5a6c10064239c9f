import CodeIntel.Indexer.PlanCoverage

/-!
# The delta plans of the backend and of the indexer

Both planners compare the files of the last ready manifest with the files of the commit to
index. They agree on the mode, on the four lists of differences and on the strategies. The
file lists of the engines differ: the backend lists the added files and then the changed
ones, the indexer sorts what it lists and adds the deleted files for the engines that have to
drop them.
-/

namespace CodeIntel.Indexer

open Text Relational
open Planner (ManifestFileRow PlanMode normalizeManifestPath sortStrings mem_sortStrings
  manifestFileMap putFile fileAt addedPaths comparedPaths changedPaths unchangedPaths deletedPaths
  manifestRootOf uniqueManifestProjectRoots mem_uniqueManifestProjectRoots
  uniqueManifestProjectRootsForPaths buildManifestDeltaPlan sortedManifestKeys)

/-! ## Rows both planners load -/

/-- A row of `RepoIndexManifestFile` as the indexer reads it. -/
def loadedFile (row : ManifestFileRow) : IndexManifestFile where
  path := row.path
  contentHash := row.contentHash
  projectRoot := row.projectRoot

/-- The paths are unique, not empty and normalized. -/
structure NormalRows (rows : List ManifestFileRow) : Prop where
  unique : UniqueKey ManifestFileRow.path rows
  nonempty : ∀ row ∈ rows, row.path ≠ ""
  normal : ∀ row ∈ rows, normalizeManifestPath row.path = row.path

/-- The manifest has these files and no fingerprint. -/
structure Loads (m : IndexRunManifest) (rows : List ManifestFileRow) : Prop where
  files : m.files = rows.map loadedFile
  scipToolchains : m.scipToolchains = none
  semanticExtraction : m.semanticExtraction = none

variable {rows : List ManifestFileRow}

section Rows

variable {path : String}

theorem key_loadedFile (h : NormalRows rows) {row : ManifestFileRow} (hrow : row ∈ rows) :
    (loadedFile row).key = row.path :=
  h.normal row hrow

theorem map_key_loadedFile (h : NormalRows rows) :
    (rows.map loadedFile).map IndexManifestFile.key = rows.map ManifestFileRow.path := by
  rw [List.map_map]
  exact List.map_congr_left fun row hrow => key_loadedFile h hrow

theorem uniqueKey_loadedFile (h : NormalRows rows) :
    UniqueKey IndexManifestFile.key (rows.map loadedFile) := by
  unfold UniqueKey
  rw [map_key_loadedFile h]
  exact h.unique

theorem manifestFileMap_eq_self (h : NormalRows rows) : manifestFileMap rows = rows := by
  unfold manifestFileMap
  induction rows using List.reverseRecOn with
  | nil => rfl
  | append_singleton rows row ih =>
    have hunique := h.unique
    unfold UniqueKey at hunique
    rw [List.map_append, List.nodup_append] at hunique
    have hrest : NormalRows rows :=
      ⟨hunique.1, fun r hr => h.nonempty r (List.mem_append_left _ hr),
        fun r hr => h.normal r (List.mem_append_left _ hr)⟩
    have hfresh : deleteWhere (fun r => r.path = row.path) rows = rows := by
      unfold deleteWhere
      rw [List.filter_eq_self]
      intro r hr
      have hne : r.path ≠ row.path :=
        hunique.2.2 _ (List.mem_map_of_mem hr) _ (List.mem_singleton_self _)
      simpa using hne
    have hpath : row.path ≠ "" := h.nonempty row (by simp)
    rw [List.foldl_append, ih hrest, List.foldl_cons, List.foldl_nil]
    unfold putFile
    rw [if_neg hpath, hfresh]

theorem fileAt_eq_some_iff (h : NormalRows rows) {row : ManifestFileRow} :
    fileAt rows path = some row ↔ row ∈ rows ∧ row.path = path := by
  constructor
  · intro hrow
    exact ⟨mem_of_lookup hrow, key_of_lookup hrow⟩
  · rintro ⟨hrow, hpath⟩
    exact lookup_eq_some_of_mem h.unique hrow hpath

theorem get_normalizedFileMap (h : NormalRows rows) (path : String) :
    (normalizedFileMap (rows.map loadedFile)).get path =
      (fileAt rows path).map fun row => normalizedFile (loadedFile row) := by
  have hlookup : lookup IndexManifestFile.key path (rows.map loadedFile) =
      (lookup ManifestFileRow.path path rows).map loadedFile := by
    cases hrow : lookup ManifestFileRow.path path rows with
    | none =>
      unfold lookup at hrow ⊢
      rw [List.find?_eq_none] at hrow
      rw [Option.map_none, List.find?_eq_none, List.forall_mem_map]
      intro row hmem
      rw [key_loadedFile h hmem]
      exact hrow row hmem
    | some row =>
      have hmem := mem_of_lookup hrow
      exact lookup_eq_some_of_mem (uniqueKey_loadedFile h) (List.mem_map_of_mem hmem)
        ((key_loadedFile h hmem).trans (key_of_lookup hrow))
  unfold normalizedFileMap fileAt
  rw [SortedMap.get_ofRows (uniqueKey_loadedFile h), hlookup, Option.map_map]
  rfl

end Rows

/-! ## The four lists -/

section Differences

variable {before after : List ManifestFileRow}

def loadedMap (rows : List ManifestFileRow) : SortedMap String IndexManifestFile :=
  normalizedFileMap (rows.map loadedFile)

theorem sortStrings_eq_of_mem_iff {paths sorted : List String} (hnodup : paths.Nodup)
    (hsorted : sorted.Pairwise (· < ·)) (hmem : ∀ path, path ∈ paths ↔ path ∈ sorted) :
    sortStrings paths = sorted := by
  have hperm : paths.Perm sorted :=
    (List.perm_ext_iff_of_nodup hnodup (hsorted.imp ne_of_lt)).2 hmem
  have hleft : (sortStrings paths).Pairwise (· ≤ ·) := List.pairwise_insertionSort _ _
  exact ((List.perm_insertionSort _ paths).trans hperm).eq_of_pairwise' hleft
    (hsorted.imp le_of_lt)

theorem nodup_filter_paths (h : NormalRows after) (cond : ManifestFileRow → Bool) :
    ((after.filter cond).map ManifestFileRow.path).Nodup :=
  (List.filter_sublist.map _).nodup h.unique

theorem mem_filter_paths (h : NormalRows after) (cond : ManifestFileRow → Bool) (path : String) :
    path ∈ (after.filter cond).map ManifestFileRow.path ↔
      ∃ row, fileAt after path = some row ∧ cond row = true := by
  simp only [List.mem_map, List.mem_filter, fileAt_eq_some_iff h]
  constructor
  · rintro ⟨row, ⟨hrow, hcond⟩, hpath⟩
    exact ⟨row, ⟨hrow, hpath⟩, hcond⟩
  · rintro ⟨row, ⟨hrow, hpath⟩, hcond⟩
    exact ⟨row, ⟨hrow, hcond⟩, hpath⟩

theorem mem_comparedPaths (hafter : NormalRows after) (same : Bool) (path : String) :
    path ∈ (after.filter fun curr => (fileAt before curr.path).any fun prev =>
        decide (prev.contentHash = curr.contentHash) = same).map ManifestFileRow.path ↔
      ∃ prev row, fileAt before path = some prev ∧ fileAt after path = some row ∧
        decide (prev.contentHash = row.contentHash) = same := by
  rw [mem_filter_paths hafter]
  constructor
  · rintro ⟨row, hrow, hany⟩
    obtain rfl : row.path = path := ((fileAt_eq_some_iff hafter).1 hrow).2
    obtain ⟨prev, hprev, hsame⟩ := (Option.any_eq_true _ _).1 hany
    exact ⟨prev, row, hprev, hrow, of_decide_eq_true hsame⟩
  · rintro ⟨prev, row, hprev, hrow, hsame⟩
    obtain rfl : row.path = path := ((fileAt_eq_some_iff hafter).1 hrow).2
    exact ⟨row, hrow, (Option.any_eq_true _ _).2 ⟨prev, hprev, decide_eq_true hsame⟩⟩

theorem sortedManifestKeys_eq (hafter : NormalRows after) :
    sortedManifestKeys after = (loadedMap after).keys := by
  refine sortStrings_eq_of_mem_iff hafter.unique (loadedMap after).keys_increasing fun path => ?_
  rw [loadedMap, normalizedFileMap, SortedMap.mem_keys_ofRows, map_key_loadedFile hafter]

variable (hbefore : NormalRows before) (hafter : NormalRows after)
include hbefore hafter

theorem addedPaths_eq :
    addedPaths before after = addedFiles (loadedMap before) (loadedMap after) := by
  refine sortStrings_eq_of_mem_iff (nodup_filter_paths hafter _) (increasing_keys_filter _ _)
    fun path => ?_
  rw [mem_filter_paths hafter, mem_addedFiles, loadedMap, loadedMap,
    get_normalizedFileMap hbefore, get_normalizedFileMap hafter]
  simp only [decide_eq_true_eq, Option.map_eq_none_iff, Option.map_eq_some_iff]
  constructor
  · rintro ⟨row, hrow, hnone⟩
    obtain rfl : row.path = path := ((fileAt_eq_some_iff hafter).1 hrow).2
    exact ⟨hnone, _, row, hrow, rfl⟩
  · rintro ⟨hnone, _, row, hrow, -⟩
    obtain rfl : row.path = path := ((fileAt_eq_some_iff hafter).1 hrow).2
    exact ⟨row, hrow, hnone⟩

theorem deletedPaths_eq :
    deletedPaths before after = deletedFiles (loadedMap before) (loadedMap after) := by
  have hadded : deletedPaths before after = addedFiles (loadedMap after) (loadedMap before) :=
    addedPaths_eq hafter hbefore
  rw [hadded]
  unfold addedFiles deletedFiles SortedMap.keys
  rw [List.filter_map]
  rfl

theorem exists_loaded_pair {P : String → String → Prop} {path : String} :
    (∃ prev file, (loadedMap before).get path = some prev ∧
        (loadedMap after).get path = some file ∧ P prev.contentHash file.contentHash) ↔
      ∃ prev row, fileAt before path = some prev ∧ fileAt after path = some row ∧
        P prev.contentHash row.contentHash := by
  rw [loadedMap, loadedMap, get_normalizedFileMap hbefore, get_normalizedFileMap hafter]
  simp only [Option.map_eq_some_iff]
  constructor
  · rintro ⟨_, _, ⟨prev, hprev, rfl⟩, ⟨row, hrow, rfl⟩, hcond⟩
    exact ⟨prev, row, hprev, hrow, hcond⟩
  · rintro ⟨prev, row, hprev, hrow, hcond⟩
    exact ⟨_, _, ⟨prev, hprev, rfl⟩, ⟨row, hrow, rfl⟩, hcond⟩

theorem changedPaths_eq :
    changedPaths before after = changedFiles (loadedMap before) (loadedMap after) := by
  refine sortStrings_eq_of_mem_iff (nodup_filter_paths hafter _) (increasing_keys_filter _ _)
    fun path => ?_
  rw [mem_comparedPaths hafter, mem_changedFiles,
    exists_loaded_pair hbefore hafter (P := fun hash hash' => hash ≠ hash')]
  simp only [decide_eq_false_iff_not, ne_eq]

theorem unchangedPaths_eq :
    unchangedPaths before after = unchangedFiles (loadedMap before) (loadedMap after) := by
  refine sortStrings_eq_of_mem_iff (nodup_filter_paths hafter _) (increasing_keys_filter _ _)
    fun path => ?_
  rw [mem_comparedPaths hafter, mem_unchangedFiles,
    exists_loaded_pair hbefore hafter (P := fun hash hash' => hash = hash')]
  simp only [decide_eq_true_eq]

end Differences

/-! ## Project roots -/

section Roots

/-- The root of the row is written without leading slashes and backslashes, if there is one. -/
def NormalRoot (row : ManifestFileRow) : Prop :=
  ∀ root ∈ row.projectRoot, root ≠ "" ∧ normalizeManifestPath root = root

theorem uniqueManifestProjectRoots_eq {load : ManifestFileRow → IndexManifestFile}
    (h : ∀ row ∈ rows, (load row).projectRoot.getD "." = manifestRootOf row) :
    uniqueManifestProjectRoots rows = uniqueProjectRoots (rows.map load) := by
  refine sortStrings_eq_of_mem_iff (nodup_eraseDups _) (SortedMap.keys_increasing _)
    fun root => ?_
  have hroots : (rows.map load).map (fun file => file.projectRoot.getD ".") =
      rows.map manifestRootOf := by
    rw [List.map_map]
    exact List.map_congr_left h
  rw [uniqueProjectRoots, SortedMap.mem_keys_ofRows, hroots, List.mem_eraseDups]

theorem root_loadedFile {row : ManifestFileRow} (h : row.projectRoot ≠ some "") :
    (loadedFile row).projectRoot.getD "." = manifestRootOf row := by
  unfold manifestRootOf loadedFile
  cases hroot : row.projectRoot with
  | none => rfl
  | some root =>
    have hne : root ≠ "" := fun heq => h (by rw [hroot, heq])
    simp [hne]

theorem root_normalizedFile {row : ManifestFileRow} (h : NormalRoot row) :
    (normalizedFile (loadedFile row)).projectRoot.getD "." = manifestRootOf row := by
  have hnormal : (normalizedFile (loadedFile row)).projectRoot = (loadedFile row).projectRoot := by
    unfold normalizedFile loadedFile
    cases hroot : row.projectRoot with
    | none => rfl
    | some root => rw [Option.map_some, (h root hroot).2]
  rw [hnormal]
  exact root_loadedFile fun heq => (h "" heq).1 rfl

end Roots

/-! ## The plans -/

section Plans

variable {previous current : IndexRunManifest} {before after : List ManifestFileRow}

/-- The plan of the indexer for two maps that differ. -/
def deltaPlan (previous current : SortedMap String IndexManifestFile)
    (supportsZoektFileDelta : Bool) : DeltaReindexPlan :=
  let added := addedFiles previous current
  let changed := changedFiles previous current
  let deleted := deletedFiles previous current
  let touched := sortStrings (added ++ changed ++ deleted)
  { mode := .delta, addedFiles := added, changedFiles := changed, deletedFiles := deleted,
    unchangedFiles := unchangedFiles previous current
    zoekt :=
      if supportsZoektFileDelta then
        { strategy := .deltaFiles, files := touched,
          reason := some "Search engine supports file-level shard updates." }
      else
        { strategy := .fullRepoRewrite, files := current.keys,
          reason := some CodeIntel.Planner.zoektRewriteReason }
    scip :=
      { strategy := .projectRoots
        projectRoots := uniqueProjectRoots
          ((added ++ changed).filterMap current.get ++ deleted.filterMap previous.get)
        files := touched,
        reason := some "Language indexers require project-root context for precise symbols." }
    graph :=
      { strategy := .deltaFiles, files := sortStrings (added ++ changed), deletedFiles := deleted }
    semantic :=
      { strategy := .changedChunks, files := sortStrings (added ++ changed), reason := none } }

theorem touchedFiles_eq_nil {previous current : SortedMap String IndexManifestFile} :
    touchedFiles previous current = [] ↔ addedFiles previous current = [] ∧
      changedFiles previous current = [] ∧ deletedFiles previous current = [] := by
  simp [touchedFiles]

/-- Without fingerprints the plan depends on the two maps only. -/
theorem diffPlan_eq (hprevious : Loads previous before) (hcurrent : Loads current after)
    (zoekt : Bool) :
    diffPlan previous current zoekt =
      if touchedFiles (loadedMap before) (loadedMap after) = [] then
        noopPlan (unchangedFiles (loadedMap before) (loadedMap after))
      else deltaPlan (loadedMap before) (loadedMap after) zoekt := by
  have hbefore : normalizedFileMap previous.files = loadedMap before := by
    rw [hprevious.files]; rfl
  have hafter : normalizedFileMap current.files = loadedMap after := by
    rw [hcurrent.files]; rfl
  unfold diffPlan
  simp only [hbefore, hafter, hprevious.scipToolchains, hcurrent.scipToolchains,
    hprevious.semanticExtraction, hcurrent.semanticExtraction]
  generalize loadedMap before = pm
  generalize loadedMap after = cm
  obtain ⟨hadded, hchanged, hunchanged, hdeleted⟩ := sortStrings_files pm cm
  have hkeys : sortStrings cm.keys = cm.keys := sortStrings_eq_self cm.keys_increasing
  simp only [hadded, hchanged, hunchanged, hdeleted, hkeys]
  by_cases htouched : touchedFiles pm cm = []
  · obtain ⟨hnoAdded, hnoChanged, hnoDeleted⟩ := touchedFiles_eq_nil.1 htouched
    simp only [hnoAdded, hnoChanged, hnoDeleted, htouched]
    by_cases hcommit : previous.commitHash = current.commitHash
    · simp [hcommit, sortStrings]
    · simp [hcommit, sortStrings, noopPlan, uniqueProjectRoots, SortedMap.ofRows, SortedMap.keys,
        SortedMap.empty]
  · have hsorted : (sortStrings (touchedFiles pm cm)).isEmpty = false := by
      rw [List.isEmpty_eq_false_iff]
      exact fun hnil => htouched (sortStrings_eq_nil.1 hnil)
    -- every file that differs has a root
    have hroots := List.isEmpty_eq_false_iff.2
      (mt (touchedFiles_eq_nil_iff.2 ∘ touchedRoots_eq_nil_iff.1) htouched)
    rw [if_neg htouched]
    unfold touchedFiles at hsorted
    unfold touchedRoots at hroots
    simp only [hsorted, hroots, Bool.false_and, Bool.false_eq_true, if_false, Bool.not_false,
      if_true, ne_eq, not_true_eq_false, decide_false]
    rfl

def Mode.toPlanMode : Mode → PlanMode
  | .noop => .noop
  | .delta => .delta
  | .full => .full

/-- What the plans of the two planners have in common. -/
structure Agrees (indexer : DeltaReindexPlan) (backend : Planner.DeltaReindexPlan) : Prop where
  mode : indexer.mode.toPlanMode = backend.mode
  added : indexer.addedFiles = backend.addedFiles
  changed : indexer.changedFiles = backend.changedFiles
  deleted : indexer.deletedFiles = backend.deletedFiles
  unchanged : indexer.unchangedFiles = backend.unchangedFiles
  zoektStrategy : indexer.zoekt.strategy = backend.zoekt.strategy
  scipStrategy : indexer.scip.strategy = backend.scip.strategy
  graphStrategy : indexer.graph.strategy = backend.graph.strategy
  graphFiles : indexer.graph.files = sortStrings backend.graph.files
  graphDeleted : indexer.graph.deletedFiles = backend.graph.deletedFiles

/-- The files for the search engine: outside of a delta the same, in a delta the backend
lists the added and changed files and the indexer what its strategy rewrites. -/
structure ZoektFiles (indexer : DeltaReindexPlan) (backend : Planner.DeltaReindexPlan)
    (after : List ManifestFileRow) (supportsZoektFileDelta : Bool) : Prop where
  settled : backend.mode ≠ .delta → indexer.zoekt.files = backend.zoekt.files
  backendDelta : backend.mode = .delta →
    backend.zoekt.files = backend.addedFiles ++ backend.changedFiles
  indexerDelta : backend.mode = .delta → indexer.zoekt.files =
    if supportsZoektFileDelta then
      sortStrings (backend.addedFiles ++ backend.changedFiles ++ backend.deletedFiles)
    else sortedManifestKeys after

/-- The project indexers are told the same where no file was deleted. -/
structure ScipWithoutDeletion (indexer : DeltaReindexPlan) (backend : Planner.DeltaReindexPlan)
    (after : List ManifestFileRow) : Prop where
  files : backend.deletedFiles = [] → indexer.scip.files = sortStrings backend.scip.files
  fullRoots : backend.mode = .full → (∀ row ∈ after, row.projectRoot ≠ some "") →
    indexer.scip.projectRoots = backend.scip.projectRoots
  roots : backend.deletedFiles = [] → (∀ row ∈ after, NormalRoot row) →
    indexer.scip.projectRoots = backend.scip.projectRoots

theorem sortStrings_sortStrings (paths : List String) :
    sortStrings (sortStrings paths) = sortStrings paths :=
  List.Pairwise.insertionSort_eq (List.pairwise_insertionSort _ _)

theorem fullPlan_agrees (hcurrent : Loads current after) (hafter : NormalRows after)
    (zoekt : Bool) :
    Agrees (fullPlan current) (buildManifestDeltaPlan [] after zoekt) ∧
      ZoektFiles (fullPlan current) (buildManifestDeltaPlan [] after zoekt) after zoekt ∧
      ScipWithoutDeletion (fullPlan current) (buildManifestDeltaPlan [] after zoekt) after := by
  have hfiles : sortStrings (normalizedFileMap current.files).keys =
      sortedManifestKeys (manifestFileMap after) := by
    rw [hcurrent.files, manifestFileMap_eq_self hafter, sortedManifestKeys_eq hafter]
    exact sortStrings_eq_self (SortedMap.keys_increasing _)
  have hsorted : sortStrings (normalizedFileMap current.files).keys =
      sortStrings (sortedManifestKeys (manifestFileMap after)) :=
    hfiles.trans (sortStrings_sortStrings _).symm
  have hroots : (∀ row ∈ after, row.projectRoot ≠ some "") →
      sortStrings (uniqueProjectRoots current.files) = uniqueManifestProjectRoots after := by
    intro hnonempty
    rw [hcurrent.files,
      uniqueManifestProjectRoots_eq fun row hrow => root_loadedFile (hnonempty row hrow)]
    exact sortStrings_eq_self (SortedMap.keys_increasing _)
  exact ⟨⟨rfl, hfiles, rfl, rfl, rfl, rfl, rfl, rfl, hsorted, rfl⟩,
    ⟨fun _ => hfiles, (nomatch ·), (nomatch ·)⟩,
    ⟨fun _ => hsorted, fun _ => hroots, fun _ hnormal => hroots fun row hrow heq =>
      (hnormal row hrow "" heq).1 rfl⟩⟩

/-- The plan of the backend when nothing changed. -/
def backendNoopPlan (unchanged : List String) : Planner.DeltaReindexPlan where
  mode := .noop
  addedFiles := []
  changedFiles := []
  deletedFiles := []
  unchangedFiles := unchanged
  zoekt := { strategy := .noop, files := [], reason := none }
  scip := { strategy := .noop, projectRoots := [], files := [], reason := none }
  graph := { strategy := .noop, files := [], deletedFiles := [] }
  semantic := { strategy := .skipped, files := [], reason := none }

/-- The plan of the backend for two maps that differ. -/
def backendDeltaPlan (previous current : SortedMap String IndexManifestFile)
    (after : List ManifestFileRow) (supportsZoektFileDelta : Bool) : Planner.DeltaReindexPlan :=
  let touched := addedFiles previous current ++ changedFiles previous current
  { mode := .delta, addedFiles := addedFiles previous current
    changedFiles := changedFiles previous current, deletedFiles := deletedFiles previous current
    unchangedFiles := unchangedFiles previous current
    zoekt :=
      if supportsZoektFileDelta then { strategy := .deltaFiles, files := touched, reason := none }
      else
        { strategy := .fullRepoRewrite, files := touched
          reason := some Planner.zoektRewriteReason }
    scip :=
      { strategy := .projectRoots
        projectRoots := uniqueManifestProjectRoots (touched.filterMap (fileAt after))
        files := touched, reason := none }
    graph :=
      { strategy := .deltaFiles, files := touched, deletedFiles := deletedFiles previous current }
    semantic := { strategy := .skipped, files := [], reason := none } }

/-- The plan of the backend in the terms of the maps of the indexer. -/
theorem buildManifestDeltaPlan_eq (hne : before ≠ []) (hbefore : NormalRows before)
    (hafter : NormalRows after) (zoekt : Bool) :
    buildManifestDeltaPlan before after zoekt =
      if touchedFiles (loadedMap before) (loadedMap after) = [] then
        backendNoopPlan (unchangedFiles (loadedMap before) (loadedMap after))
      else backendDeltaPlan (loadedMap before) (loadedMap after) after zoekt := by
  unfold buildManifestDeltaPlan
  simp only [List.length_eq_zero_iff, hne, if_false, manifestFileMap_eq_self hbefore,
    manifestFileMap_eq_self hafter, addedPaths_eq hbefore hafter, changedPaths_eq hbefore hafter,
    deletedPaths_eq hbefore hafter, unchangedPaths_eq hbefore hafter]
  generalize loadedMap before = pm
  generalize loadedMap after = cm
  by_cases htouched : touchedFiles pm cm = []
  · obtain ⟨hadded, hchanged, hdeleted⟩ := touchedFiles_eq_nil.1 htouched
    simp [hadded, hchanged, hdeleted, htouched, backendNoopPlan]
  · have hsome : ((addedFiles pm cm).isEmpty && (changedFiles pm cm).isEmpty &&
        (deletedFiles pm cm).isEmpty) = false := by
      simpa [touchedFiles_eq_nil, Bool.and_eq_false_iff, List.isEmpty_eq_false_iff, or_assoc,
        imp_iff_not_or] using htouched
    rw [if_neg htouched]
    simp only [hsome, Bool.false_eq_true, if_false]
    rfl

theorem diffPlan_agrees (hprevious : Loads previous before) (hcurrent : Loads current after)
    (hne : before ≠ []) (hbefore : NormalRows before) (hafter : NormalRows after) (zoekt : Bool) :
    Agrees (diffPlan previous current zoekt) (buildManifestDeltaPlan before after zoekt) ∧
      ZoektFiles (diffPlan previous current zoekt) (buildManifestDeltaPlan before after zoekt)
        after zoekt ∧
      ScipWithoutDeletion (diffPlan previous current zoekt)
        (buildManifestDeltaPlan before after zoekt) after := by
  have hroots : (∀ row ∈ after, NormalRoot row) → ∀ paths : List String,
      uniqueProjectRoots (paths.filterMap (loadedMap after).get) =
        uniqueManifestProjectRoots (paths.filterMap (fileAt after)) := by
    intro hnormal paths
    have hget : (loadedMap after).get =
        fun path => (fileAt after path).map fun row => normalizedFile (loadedFile row) :=
      funext (get_normalizedFileMap hafter)
    have hrows : ∀ row ∈ paths.filterMap (fileAt after), row ∈ after := by
      intro row hrow
      obtain ⟨path, -, hpath⟩ := List.mem_filterMap.1 hrow
      exact ((fileAt_eq_some_iff hafter).1 hpath).1
    rw [hget, ← List.map_filterMap, uniqueManifestProjectRoots_eq fun row hrow =>
      root_normalizedFile (hnormal row (hrows row hrow))]
  have hkeys := sortedManifestKeys_eq hafter
  rw [diffPlan_eq hprevious hcurrent, buildManifestDeltaPlan_eq hne hbefore hafter]
  revert hroots hkeys
  generalize loadedMap before = pm
  generalize loadedMap after = cm
  intro hroots hkeys
  split
  · exact ⟨⟨rfl, rfl, rfl, rfl, rfl, rfl, rfl, rfl, rfl, rfl⟩,
      ⟨fun _ => rfl, (nomatch ·), (nomatch ·)⟩,
      ⟨fun _ => rfl, fun _ _ => rfl, fun _ _ => rfl⟩⟩
  · refine ⟨⟨rfl, rfl, rfl, rfl, rfl, ?_, rfl, rfl, rfl, rfl⟩, ⟨?_, ?_, ?_⟩, ⟨?_, ?_, ?_⟩⟩
    · cases zoekt <;> rfl
    · intro hmode
      exact absurd rfl hmode
    · intro _
      cases zoekt <;> rfl
    · intro _
      rw [hkeys]
      cases zoekt <;> rfl
    · intro hdeleted
      have hnone : deletedFiles pm cm = [] := hdeleted
      show sortStrings (addedFiles pm cm ++ changedFiles pm cm ++ deletedFiles pm cm) = _
      rw [hnone, List.append_nil]
      rfl
    · intro hmode
      exact absurd hmode (by decide : PlanMode.delta ≠ .full)
    · intro hdeleted hnormal
      have hnone : deletedFiles pm cm = [] := hdeleted
      show uniqueProjectRoots ((addedFiles pm cm ++ changedFiles pm cm).filterMap cm.get ++
        (deletedFiles pm cm).filterMap pm.get) = _
      rw [hnone, List.filterMap_nil, List.append_nil]
      exact hroots hnormal _

/-- On rows with unique, non-empty, normalized paths and without fingerprints both planners
succeed together, with one mode, the same four lists, the same strategies and the same graph
plan up to the order of its files. -/
theorem planners_agree {previous : Option IndexRunManifest} {current : IndexRunManifest}
    {before after : List ManifestFileRow} (hnone : previous = none ↔ before = [])
    (hprevious : ∀ m ∈ previous, SameScope m current ∧ Loads m before)
    (hcurrent : Loads current after) (hbefore : NormalRows before) (hafter : NormalRows after)
    (zoekt : Bool) :
    ∃ plan, buildDeltaReindexPlan previous current zoekt = .ok plan ∧
      Agrees plan (buildManifestDeltaPlan before after zoekt) ∧
      ZoektFiles plan (buildManifestDeltaPlan before after zoekt) after zoekt ∧
      ScipWithoutDeletion plan (buildManifestDeltaPlan before after zoekt) after := by
  cases previous with
  | none =>
    obtain rfl := hnone.1 rfl
    exact ⟨_, rfl, fullPlan_agrees hcurrent hafter zoekt⟩
  | some m =>
    obtain ⟨hscope, hloads⟩ := hprevious m rfl
    have hne : before ≠ [] := fun heq => Option.some_ne_none m (hnone.2 heq)
    refine ⟨diffPlan m current zoekt, ?_, diffPlan_agrees hloads hcurrent hne hbefore hafter zoekt⟩
    simp only [buildDeltaReindexPlan, assertSameManifestScope_of_same hscope]
    rfl

def rootRow (path hash : String) : ManifestFileRow where
  path := path
  contentHash := hash
  language := none
  projectRoot := some "."
  generated := false
  vendor := false
  test := false

def branchManifest (commit : String) (rows : List ManifestFileRow) : IndexRunManifest where
  orgId := 1
  workspaceId := "w"
  repoId := 2
  branch := "main"
  commitHash := commit
  files := rows.map loadedFile

def beforeRows : List ManifestFileRow := [rootRow "cmd/main.go" "old", rootRow "deleted.go" "gone"]

def afterRows : List ManifestFileRow := [rootRow "cmd/main.go" "new", rootRow "added.go" "add"]

theorem planners_agree_main :
    ∃ plan, buildDeltaReindexPlan (some (branchManifest "c1" beforeRows))
        (branchManifest "c2" afterRows) true = .ok plan ∧
      Agrees plan (buildManifestDeltaPlan beforeRows afterRows true) ∧
      ZoektFiles plan (buildManifestDeltaPlan beforeRows afterRows true) afterRows true ∧
      ScipWithoutDeletion plan (buildManifestDeltaPlan beforeRows afterRows true) afterRows := by
  have hbefore : NormalRows beforeRows :=
    ⟨by unfold UniqueKey; decide +kernel, by decide +kernel, by decide +kernel⟩
  have hafter : NormalRows afterRows :=
    ⟨by unfold UniqueKey; decide +kernel, by decide +kernel, by decide +kernel⟩
  refine planners_agree ?_ ?_ ⟨rfl, rfl, rfl⟩ hbefore hafter true
  · simp [beforeRows]
  · rintro m ⟨rfl⟩
    exact ⟨⟨rfl, rfl, rfl, rfl, rfl⟩, ⟨rfl, rfl, rfl⟩⟩

/-- The indexer lists the deleted file for the search engine, the backend does not. -/
theorem deletedFile_zoektFiles_differ :
    ∃ plan, buildDeltaReindexPlan (some (branchManifest "c1" beforeRows))
        (branchManifest "c2" afterRows) true = .ok plan ∧
      plan.zoekt.files = ["added.go", "cmd/main.go", "deleted.go"] ∧
      (buildManifestDeltaPlan beforeRows afterRows true).zoekt.files =
        ["added.go", "cmd/main.go"] :=
  ⟨_, rfl, by decide +kernel, by decide +kernel⟩

end Plans

end CodeIntel.Indexer
