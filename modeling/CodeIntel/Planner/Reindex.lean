import CodeIntel.Planner.SplitPlan
import CodeIntel.Subjobs.RowMoves

/-!
# Planning an unchanged revision again

The manifest of a planned revision stores the files of its commit. Once that
manifest is the active one of the branch, planning the same commit again compares
the commit with itself: the revision is recorded as usable and nothing is stored,
unless its semantic index has to be repaired.
-/

namespace CodeIntel.Planner

open Text Relational Schema Subjobs

section Chunks

variable {α : Type*}

theorem flatten_toChunks_go (n : ℕ) (xs : List α) (acc : Array α) (done : Array (List α)) :
    (List.toChunks.go n xs acc done).flatten = done.toList.flatten ++ acc.toList ++ xs := by
  induction xs generalizing acc done with
  | nil => simp [List.toChunks.go]
  | cons x xs ih =>
    unfold List.toChunks.go
    split
    · rw [ih]
      simp
    · rw [ih]
      simp

theorem flatten_toChunks (n : ℕ) (xs : List α) : (xs.toChunks n).flatten = xs := by
  cases xs with
  | nil => cases n <;> rfl
  | cons x xs =>
    cases n with
    | zero => simp [List.toChunks]
    | succ n =>
      change (List.toChunks.go (n + 1) xs #[x] #[]).flatten = x :: xs
      rw [flatten_toChunks_go]
      simp

end Chunks

/-! ## The stored files of a manifest -/

section Saved

/-- The row of a path that the later statements left in place. -/
def lastWithPath (files : List ManifestFileRow) (path : String) : Option ManifestFileRow :=
  files.reverse.find? fun f => f.path = path

theorem lastWithPath_concat (files : List ManifestFileRow) (f : ManifestFileRow) (path : String) :
    lastWithPath (files ++ [f]) path =
      if f.path = path then some f else lastWithPath files path := by
  unfold lastWithPath
  by_cases h : f.path = path <;> simp [h]

variable {files : List ManifestFileRow} {rows : List RepoIndexManifestFile}
  {row : RepoIndexManifestFile} {manifestId : String}

theorem path_of_lastWithPath {path : String} {f : ManifestFileRow}
    (h : lastWithPath files path = some f) : f.path = path := by
  simpa using List.find?_some h

/-- The table stores the files under the manifest and nothing else. -/
def Saved (manifestId : String) (files : List ManifestFileRow)
    (rows : List RepoIndexManifestFile) : Prop :=
  ∀ row, row ∈ rows ∧ row.manifestId = manifestId ↔
    ∃ f, lastWithPath files f.path = some f ∧ row = manifestFileRecord manifestId f

theorem mem_upsertManifestFile {new : RepoIndexManifestFile} :
    row ∈ upsertManifestFile rows new ↔
      row = new ∨ row ∈ rows ∧ ¬(row.manifestId = new.manifestId ∧ row.path = new.path) := by
  unfold upsertManifestFile
  rw [mem_upsert]
  constructor
  · rintro (⟨row₀, hrow₀, heq⟩ | ⟨rfl, -⟩)
    · split_ifs at heq with hconflict
      · exact .inl heq.symm
      · subst heq
        exact .inr ⟨hrow₀, by simpa using hconflict⟩
    · exact .inl rfl
  · rintro (rfl | ⟨hrow, hother⟩)
    · by_cases hconflict : ∃ row₀ ∈ rows, (row₀.manifestId = row.manifestId &&
          row₀.path = row.path) = true
      · obtain ⟨row₀, hrow₀, hkey⟩ := hconflict
        exact .inl ⟨row₀, hrow₀, if_pos hkey⟩
      · exact .inr ⟨rfl, fun row₀ hrow₀ => Bool.eq_false_iff.2 fun hkey =>
          hconflict ⟨row₀, hrow₀, hkey⟩⟩
    · refine .inl ⟨row, hrow, if_neg ?_⟩
      simpa using hother

theorem Saved.upsert (h : Saved manifestId files rows) (f : ManifestFileRow) :
    Saved manifestId (files ++ [f])
      (upsertManifestFile rows (manifestFileRecord manifestId f)) := by
  intro row
  have hold := h row
  simp only [mem_upsertManifestFile, lastWithPath_concat]
  constructor
  · rintro ⟨rfl | ⟨hrow, hother⟩, hid⟩
    · exact ⟨f, if_pos rfl, rfl⟩
    · obtain ⟨f', hf', rfl⟩ := hold.1 ⟨hrow, hid⟩
      have hne : ¬f.path = f'.path := fun heq => hother ⟨rfl, heq.symm⟩
      exact ⟨f', by rw [if_neg hne, hf'], rfl⟩
  · rintro ⟨f', hf', rfl⟩
    by_cases heq : f.path = f'.path
    · rw [if_pos heq] at hf'
      cases hf'
      exact ⟨.inl rfl, rfl⟩
    · rw [if_neg heq] at hf'
      obtain ⟨hrow, hid⟩ := hold.2 ⟨f', hf', rfl⟩
      exact ⟨.inr ⟨hrow, fun hkey => heq hkey.2.symm⟩, hid⟩

theorem Saved.foldl (h : Saved manifestId files rows) (more : List ManifestFileRow) :
    Saved manifestId (files ++ more)
      ((more.map (manifestFileRecord manifestId)).foldl upsertManifestFile rows) := by
  induction more generalizing files rows with
  | nil => simpa using h
  | cons f more ih =>
    rw [List.map_cons, List.foldl_cons, List.append_cons]
    exact ih (h.upsert f)

theorem mem_foldl_other (files : List ManifestFileRow) (h : row.manifestId ≠ manifestId) :
    row ∈ (files.map (manifestFileRecord manifestId)).foldl upsertManifestFile rows ↔
      row ∈ rows := by
  induction files generalizing rows with
  | nil => exact Iff.rfl
  | cons f files ih =>
    rw [List.map_cons, List.foldl_cons, ih, mem_upsertManifestFile]
    constructor
    · rintro (rfl | ⟨hrow, -⟩)
      · exact absurd rfl h
      · exact hrow
    · exact fun hrow => .inr ⟨hrow, fun hkey => h hkey.1⟩

theorem insertManifestFiles_ok {chunks : List (List ManifestFileRow)} {db db' : Database}
    (h : insertManifestFiles manifestId chunks db = (.ok (), db')) :
    db' = { db with
      manifestFiles := (chunks.flatten.map (manifestFileRecord manifestId)).foldl
        upsertManifestFile db.manifestFiles } := by
  induction chunks generalizing db with
  | nil =>
    obtain ⟨-, rfl⟩ := Prod.mk.inj h
    rfl
  | cons chunk chunks ih =>
    unfold insertManifestFiles at h
    split at h
    · rw [ih h, List.flatten_cons, List.map_append, List.foldl_append]
    · cases h

/-- Every stored file belongs to a stored manifest, as the foreign key demands. -/
def FileOwners (db : Database) : Prop :=
  ∀ f ∈ db.manifestFiles, ∃ m ∈ db.manifests, m.id = f.manifestId

theorem insertPendingManifest_ok {m : RepoIndexManifest} {db db' : Database}
    (h : insertPendingManifest m files db = (.ok (), db')) :
    (∀ m' ∈ db.manifests, m'.id ≠ m.id) ∧
      db' = { db with
        manifests := db.manifests ++ [m]
        manifestFiles := (files.map (manifestFileRecord m.id)).foldl upsertManifestFile
          db.manifestFiles } := by
  unfold insertPendingManifest at h
  split at h
  · cases h
  split at h
  · cases h
  · rename_i hfresh
    refine ⟨by simpa using hfresh, ?_⟩
    rw [insertManifestFiles_ok h, flatten_toChunks]

end Saved

/-! ## The run that indexed the revision -/

section Planned

/-- What the rounds of a planning run do to the stored manifests. -/
structure Planned (db db' : Database) : Prop where
  owned : FileOwners db'
  kept : ∀ m ∈ db.manifests, m ∈ db'.manifests ∧
    ∀ row, row.manifestId = m.id → (row ∈ db'.manifestFiles ↔ row ∈ db.manifestFiles)

variable {db db' : Database} {plans : List RevisionPlan}

theorem Planned.trans {db'' : Database} (h : Planned db db') (h' : Planned db' db'') :
    Planned db db'' where
  owned := h'.owned
  kept m hm := by
    obtain ⟨hm', hrows⟩ := h.kept m hm
    obtain ⟨hm'', hrows'⟩ := h'.kept m hm'
    exact ⟨hm'', fun row hid => (hrows' row hid).trans (hrows row hid)⟩

theorem Planned.of_onlyControl (hown : FileOwners db) (h : OnlyControl db db') :
    Planned db db' := by
  have hfiles : db'.manifestFiles = db.manifestFiles := by rw [h.eq_updated]
  refine ⟨?_, fun m hm => ⟨?_, fun row _ => ?_⟩⟩
  · unfold FileOwners
    rw [hfiles, h.manifests_eq]
    exact hown
  · rw [h.manifests_eq]
    exact hm
  · rw [hfiles]

theorem insertPendingManifest_planned {m : RepoIndexManifest} {files : List ManifestFileRow}
    (hown : FileOwners db) (h : insertPendingManifest m files db = (.ok (), db')) :
    Planned db db' ∧ m ∈ db'.manifests ∧ Saved m.id files db'.manifestFiles := by
  obtain ⟨hfresh, rfl⟩ := insertPendingManifest_ok h
  have hnone : ∀ row ∈ db.manifestFiles, row.manifestId ≠ m.id := by
    intro row hrow hid
    obtain ⟨m', hm', hid'⟩ := hown row hrow
    exact hfresh m' hm' (hid'.trans hid)
  have hempty : Saved m.id [] db.manifestFiles := by
    intro row
    constructor
    · rintro ⟨hrow, hid⟩
      exact absurd hid (hnone row hrow)
    · rintro ⟨f, hf, -⟩
      cases hf
  have hsaved := hempty.foldl files
  refine ⟨⟨?_, ?_⟩, by simp, hsaved⟩
  · intro row hrow
    by_cases hid : row.manifestId = m.id
    · exact ⟨m, by simp, hid.symm⟩
    · obtain ⟨m', hm', hid'⟩ := hown row ((mem_foldl_other files hid).1 hrow)
      exact ⟨m', List.mem_append_left _ hm', hid'⟩
  · intro m' hm'
    refine ⟨List.mem_append_left _ hm', fun row hid => mem_foldl_other files ?_⟩
    rw [hid]
    exact hfresh m' hm'

variable {env : PlanEnv} {now : Time} {task : IndexTask} {scope : RepoIndexScope}

theorem recordUsableIndexedRevision_ok {orgId repoId : ℤ} {workspaceId branch commitHash : String}
    (h : recordUsableIndexedRevision now orgId repoId workspaceId branch commitHash db =
      (.ok (), db')) : ∃ repos, db' = { db with repos } := by
  unfold recordUsableIndexedRevision at h
  split at h <;> cases h
  exact ⟨_, rfl⟩

/-- A planned revision has a manifest with the files of its commit. -/
structure HasManifest (env : PlanEnv) (task : IndexTask) (scope : RepoIndexScope) (db : Database)
    (r : RevisionPlan) : Prop where
  files : ∃ tree, env.treeOf r.commitHash = .ok tree ∧
    Saved (env.manifestId r.branch) (buildManifestFilesForCommit tree) db.manifestFiles
  stored : ∃ m ∈ db.manifests, m.id = env.manifestId r.branch
  valid : (task.orgId ≤ 0 || task.repoId ≤ 0 || isBlank scope.workspaceId ||
    isBlank r.branch) = false

theorem HasManifest.planned {r : RevisionPlan} (h : HasManifest env task scope db r)
    (hplanned : Planned db db') :
    HasManifest env task scope db' r := by
  obtain ⟨m, hm, hid⟩ := h.stored
  obtain ⟨hm', hrows⟩ := hplanned.kept m hm
  obtain ⟨tree, htree, hsaved⟩ := h.files
  refine ⟨⟨tree, htree, fun row => ?_⟩, ⟨m, hm', hid⟩, h.valid⟩
  rw [← hsaved row]
  refine and_congr_left fun hrow => hrows row ?_
  rw [hrow, hid]

theorem planRevision_ok {selected : ResolvedIndexRevision} {planned : Option RevisionPlan}
    (h : planRevision env now task scope selected db = (.ok planned, db')) :
    ∃ tree plan, env.treeOf selected.commitHash = .ok tree ∧
      revisionDeltaPlan env task scope selected (buildManifestFilesForCommit tree) db =
        .ok plan ∧
      (planned = none ∧ recordUsableIndexedRevision now task.orgId task.repoId scope.workspaceId
          selected.branch selected.commitHash db = (.ok (), db') ∨
        planned = some ⟨selected.branch, selected.commitHash, plan,
            detectSnapshotPlan tree env.scipConfig⟩ ∧
          insertPendingManifest (pendingManifest env now task scope selected)
            (buildManifestFilesForCommit tree) db = (.ok (), db')) := by
  unfold planRevision at h
  split at h
  · cases h
  rename_i tree htree
  dsimp only at h
  split at h
  · cases h
  rename_i plan hplan
  refine ⟨tree, plan, htree, hplan, ?_⟩
  split at h <;> split at h <;> cases h
  · exact .inl ⟨rfl, ‹_›⟩
  · exact .inr ⟨rfl, ‹_›⟩

theorem planRevision_planned {selected : ResolvedIndexRevision} {planned : Option RevisionPlan}
    (hown : FileOwners db) (h : planRevision env now task scope selected db = (.ok planned, db')) :
    Planned db db' ∧ ∀ r ∈ planned, HasManifest env task scope db' r := by
  obtain ⟨tree, plan, htree, hplan, ⟨rfl, hrecord⟩ | ⟨rfl, hinsert⟩⟩ := planRevision_ok h
  · obtain ⟨repos, rfl⟩ := recordUsableIndexedRevision_ok hrecord
    exact ⟨.of_onlyControl hown (onlyControl_updated db db.subjobs db.jobs repos), by simp⟩
  · obtain ⟨hplanned, hmem, hsaved⟩ := insertPendingManifest_planned hown hinsert
    refine ⟨hplanned, fun r hr => ?_⟩
    cases hr
    refine ⟨⟨tree, htree, hsaved⟩, ⟨_, hmem, rfl⟩, ?_⟩
    -- the previous manifest was fetched, so that the scope is a valid one
    rw [Bool.eq_false_iff]
    intro hinvalid
    unfold revisionDeltaPlan fetchPreviousReadyManifestFiles at hplan
    rw [if_pos hinvalid] at hplan
    cases hplan

theorem planRevisions_planned {revisions : List ResolvedIndexRevision} (hown : FileOwners db)
    (h : planRevisions env now task scope revisions db = (.ok plans, db')) :
    Planned db db' ∧ ∀ r ∈ plans, HasManifest env task scope db' r := by
  induction revisions generalizing db plans with
  | nil =>
    obtain ⟨hplans, rfl⟩ := Prod.mk.inj h
    cases hplans
    exact ⟨.of_onlyControl hown .refl, by simp⟩
  | cons selected revisions ih =>
    unfold planRevisions at h
    split at h
    · cases h
    rename_i planned db₁ hfirst
    split at h <;> cases h
    rename_i rest hrest
    obtain ⟨hplanned, hround⟩ := planRevision_planned hown hfirst
    obtain ⟨hlater, hrounds⟩ := ih hplanned.owned hrest
    refine ⟨hplanned.trans hlater, fun r hr => ?_⟩
    rcases List.mem_append.1 hr with hr | hr
    · exact (hround r (Option.mem_toList.1 hr)).planned hlater
    · exact hrounds r hr

theorem persistSkippedSCIPProjects_ok {workspaceId : String} {r : RevisionPlan}
    (h : persistSkippedSCIPProjects env now task workspaceId r db = (.ok (), db')) :
    r.projects.skipped = [] ∧ db' = db ∨
      ∃ rows, build env.sha256Hex (skippedInput task workspaceId r) = .ok rows ∧
        persistAll (storeSkipped now) rows db = (.ok (), db') := by
  unfold persistSkippedSCIPProjects at h
  split at h
  · cases h
    exact .inl ⟨‹_›, rfl⟩
  split at h
  · cases h
  · exact .inr ⟨_, ‹_›, h⟩

theorem persistSkipped_onlyControl {workspaceId : String}
    (h : persistSkipped env now task workspaceId plans db = (.ok (), db')) : OnlyControl db db' := by
  induction plans generalizing db with
  | nil =>
    cases h
    exact .refl
  | cons r plans ih =>
    unfold persistSkipped at h
    split at h
    · cases h
    rename_i db₁ hone
    refine OnlyControl.trans ?_ (ih h)
    obtain ⟨-, rfl⟩ | ⟨rows, -, hrows⟩ := persistSkippedSCIPProjects_ok hone
    · exact .refl
    · obtain rfl : _ = db₁ := congrArg Prod.snd hrows
      refine persistAll_rel (fun _ => .refl) .trans (fun row db => ?_) rows db
      rw [storeSkipped_eq]
      exact onlyControl_upsertWithStatus _ _ _ _ _ _ db

/-- The plans of the rounds are passed on as they are, once their subjobs are stored. -/
theorem planSplitIndex_eq_ok (h : planSplitIndex env now task db = (.ok plans, db')) :
    ∃ scope revisions db₁, fetchRepoIndexScope task.repoId db = .ok scope ∧
      scope.orgId = task.orgId ∧ env.resolveIndexRevisions scope = .ok revisions ∧
      planRevisions env now task scope revisions db = (.ok plans, db₁) ∧
      (plans = [] ∧ db' = db₁ ∨ ∃ db₂,
        planAndPersist env.sha256Hex now (planInput task scope.workspaceId plans) db₁ =
          (.ok (), db₂) ∧
        persistSkipped env now task scope.workspaceId plans db₂ = (.ok (), db')) := by
  unfold planSplitIndex at h
  split at h
  · cases h
  rename_i scope hscope
  split at h
  · cases h
  rename_i horg
  split at h
  · cases h
  rename_i revisions hrevisions
  split at h
  · cases h
  rename_i planned db₁ hrounds
  refine ⟨scope, revisions, db₁, hscope, not_not.1 horg, hrevisions, ?_⟩
  unfold persistPlan at h
  split at h
  · rename_i hnil
    cases h
    exact ⟨hnil ▸ hrounds, .inl ⟨rfl, rfl⟩⟩
  split at h
  · cases h
  split at h <;> cases h
  exact ⟨hrounds, .inr ⟨_, ‹_›, ‹_›⟩⟩

/-- A planning run leaves a manifest with the files of the commit for every planned revision. -/
theorem planSplitIndex_planned (hown : FileOwners db)
    (h : planSplitIndex env now task db = (.ok plans, db'))
    (hscope : fetchRepoIndexScope task.repoId db = .ok scope) :
    scope.orgId = task.orgId ∧ ∀ r ∈ plans, HasManifest env task scope db' r := by
  obtain ⟨scope', _, db₁, hscope', horg, -, hrounds, hpersist⟩ := planSplitIndex_eq_ok h
  cases hscope.symm.trans hscope'
  obtain ⟨hplanned, hmanifests⟩ := planRevisions_planned hown hrounds
  refine ⟨horg, fun r hr => (hmanifests r hr).planned (.of_onlyControl hplanned.owned ?_)⟩
  obtain ⟨-, rfl⟩ | ⟨db₂, hqueued, hskipped⟩ := hpersist
  · exact .refl
  · refine OnlyControl.trans ?_ (persistSkipped_onlyControl hskipped)
    obtain rfl : _ = db₂ := congrArg Prod.snd hqueued
    unfold planAndPersist
    split
    · exact .refl
    · exact persistAll_rel (fun _ => .refl) .trans
        (fun row db => onlyControl_upsertWithStatus _ _ _ _ _ _ db) _ db₁

end Planned

/-! ## Planning the commit again -/

section Again

variable {previous files : List ManifestFileRow}

theorem fileAt_putFile (out : List ManifestFileRow) (f : ManifestFileRow) (path : String) :
    fileAt (putFile out f) path =
      if f.path = path ∧ path ≠ "" then some f else fileAt out path := by
  unfold putFile fileAt
  by_cases hempty : f.path = ""
  · rw [if_pos hempty, if_neg]
    rintro ⟨rfl, hne⟩
    exact hne hempty
  have hrest : (deleteWhere (fun r => decide (r.path = f.path)) out).find?
      (fun r => decide (r.path = path)) =
      if f.path = path then none else out.find? fun r => decide (r.path = path) := by
    unfold deleteWhere
    rw [List.find?_filter]
    split
    · rename_i hpath
      refine List.find?_eq_none.2 fun r _ => ?_
      simp [hpath]
    · rename_i hpath
      congr 1
      funext r
      by_cases hr : r.path = path
      · simp [hr, Ne.symm hpath]
      · simp [hr]
  unfold lookup
  rw [if_neg hempty, List.find?_append, hrest]
  by_cases hpath : f.path = path
  · rw [if_pos hpath, if_pos ⟨hpath, hpath ▸ hempty⟩]
    simp [hpath]
  · rw [if_neg hpath, if_neg fun h => hpath h.1]
    simp [hpath]

theorem fileAt_manifestFileMap (files : List ManifestFileRow) (path : String) :
    fileAt (manifestFileMap files) path = if path = "" then none else lastWithPath files path := by
  unfold manifestFileMap
  induction files using List.reverseRecOn with
  | nil => simp [fileAt, lookup, lastWithPath]
  | append_singleton files f ih =>
    rw [List.foldl_append, List.foldl_cons, List.foldl_nil, fileAt_putFile, ih,
      lastWithPath_concat]
    by_cases hempty : path = ""
    · simp [hempty]
    · by_cases hpath : f.path = path <;> simp [hempty, hpath]

theorem mode_noop (hprevious : previous ≠ []) {g : ManifestFileRow → ManifestFileRow}
    (hg : ∀ f, (g f).contentHash = f.contentHash)
    (h : ∀ path, fileAt (manifestFileMap previous) path =
      (fileAt (manifestFileMap files) path).map g) (zoekt : Bool) :
    (buildManifestDeltaPlan previous files zoekt).mode = .noop := by
  have hadded : addedPaths (manifestFileMap previous) (manifestFileMap files) = [] := by
    unfold addedPaths
    rw [List.filter_eq_nil_iff.2, List.map_nil]
    · rfl
    · intro curr hcurr
      simp [h, fileAt_of_mem hcurr]
  have hchanged : changedPaths (manifestFileMap previous) (manifestFileMap files) = [] := by
    unfold changedPaths comparedPaths
    rw [List.filter_eq_nil_iff.2, List.map_nil]
    · rfl
    · intro curr hcurr
      simp [h, fileAt_of_mem hcurr, hg]
  have hdeleted : deletedPaths (manifestFileMap previous) (manifestFileMap files) = [] := by
    unfold deletedPaths addedPaths
    rw [List.filter_eq_nil_iff.2, List.map_nil]
    · rfl
    · intro prev hprev hnone
      have hfound := fileAt_of_mem hprev
      rw [h, of_decide_eq_true hnone] at hfound
      cases hfound
  unfold buildManifestDeltaPlan
  simp [hprevious, hadded, hchanged, hdeleted]

variable {manifestId : String} {rows : List RepoIndexManifestFile}

def readBack (manifestId : String) (rows : List RepoIndexManifestFile) : List ManifestFileRow :=
  ((rows.filter fun f => f.manifestId = manifestId).insertionSort
    fun f f' => f.path ≤ f'.path).map storedFile

theorem mem_readBack (h : Saved manifestId files rows) {x : ManifestFileRow} :
    x ∈ readBack manifestId rows ↔
      ∃ f, lastWithPath files f.path = some f ∧
        x = storedFile (manifestFileRecord manifestId f) := by
  unfold readBack
  simp only [List.mem_map, List.mem_insertionSort, List.mem_filter, decide_eq_true_eq]
  constructor
  · rintro ⟨row, hrow, rfl⟩
    obtain ⟨f, hf, rfl⟩ := (h row).1 hrow
    exact ⟨f, hf, rfl⟩
  · rintro ⟨f, hf, rfl⟩
    exact ⟨_, (h _).2 ⟨f, hf, rfl⟩, rfl⟩

theorem lastWithPath_readBack (h : Saved manifestId files rows) (path : String) :
    lastWithPath (readBack manifestId rows) path =
      (lastWithPath files path).map (storedFile ∘ manifestFileRecord manifestId) := by
  cases hread : lastWithPath (readBack manifestId rows) path with
  | none =>
    cases hfile : lastWithPath files path with
    | none => rfl
    | some f =>
      obtain rfl := path_of_lastWithPath hfile
      have hmem := (mem_readBack h).2 ⟨f, hfile, rfl⟩
      have hno := List.find?_eq_none.1 hread _ (List.mem_reverse.2 hmem)
      exact absurd (decide_eq_true rfl) hno
  | some x =>
    have hpath := path_of_lastWithPath hread
    obtain ⟨f, hf, rfl⟩ := (mem_readBack h).1 (List.mem_reverse.1 (List.mem_of_find?_eq_some hread))
    change f.path = path at hpath
    subst hpath
    rw [hf]
    rfl

theorem readBack_ne_nil (h : Saved manifestId files rows) (hfiles : files ≠ []) :
    readBack manifestId rows ≠ [] := by
  obtain ⟨files, f, rfl⟩ := (List.eq_nil_or_concat files).resolve_left hfiles
  rw [List.concat_eq_append] at h
  refine List.ne_nil_of_mem ((mem_readBack h).2 ⟨f, ?_, rfl⟩)
  rw [lastWithPath_concat, if_pos rfl]

theorem mode_readBack (h : Saved manifestId files rows) (hfiles : files ≠ []) (zoekt : Bool) :
    (buildManifestDeltaPlan (readBack manifestId rows) files zoekt).mode = .noop := by
  refine mode_noop (readBack_ne_nil h hfiles)
    (g := storedFile ∘ manifestFileRecord manifestId) (fun f => rfl) (fun path => ?_) zoekt
  rw [fileAt_manifestFileMap, fileAt_manifestFileMap, lastWithPath_readBack h]
  split <;> rfl

end Again

/-! ## The second run -/

/-- A planning run and the databases before and after it. -/
structure FirstRun where
  env : PlanEnv
  now : Time
  task : IndexTask
  (before after : Database)
  plans : List RevisionPlan
  planned : planSplitIndex env now task before = (.ok plans, after)
  owned : FileOwners before

/-- The job of the run indexed the revision to its end: its subjobs succeeded or were
skipped, and its manifest is the READY one of the branch, with the files as stored. -/
structure FirstRun.Completed (run : FirstRun) (task : IndexTask) (scope : RepoIndexScope)
    (selected : ResolvedIndexRevision) (db : Database) : Prop where
  orgId : run.task.orgId = task.orgId
  repoId : run.task.repoId = task.repoId
  fetched : fetchRepoIndexScope run.task.repoId run.before = .ok scope
  revision : ∃ r ∈ run.plans, r.branch = selected.branch ∧ r.commitHash = selected.commitHash
  commit : isBlank selected.commitHash = false
  job : ∃ j ∈ db.jobs, j.id = run.task.jobId ∧ j.status = .completed
  subjobs : ∀ s ∈ db.subjobs, s.repoIndexingJobId = run.task.jobId →
    s.status = .succeeded ∨ s.status = .skipped
  manifest : ∃ m, previousReadyManifest task.orgId task.repoId scope.workspaceId selected.branch
    db = some m ∧ m.id = run.env.manifestId selected.branch
  files : ∀ row, row.manifestId = run.env.manifestId selected.branch →
    (row ∈ db.manifestFiles ↔ row ∈ run.after.manifestFiles)

/-- The semantic index of the revision is not missing and not hollow. -/
def Healthy (task : IndexTask) (scope : RepoIndexScope) (selected : ResolvedIndexRevision)
    (db : Database) : Prop :=
  ∃ health, fetchSemanticIndexHealth task.orgId task.repoId scope.workspaceId selected.branch
    selected.commitHash db = .ok health ∧ health.needsRepair = false

section Second

variable {env : PlanEnv} {now : Time} {task : IndexTask} {scope : RepoIndexScope}
  {selected : ResolvedIndexRevision} {db : Database}

/-- The revision is selected again, with files and nothing to repair. -/
structure Unchanged (env : PlanEnv) (task : IndexTask) (scope : RepoIndexScope) (db : Database)
    (selected : ResolvedIndexRevision) (tree : List TreeFile) : Prop where
  listed : env.treeOf selected.commitHash = .ok tree
  completed : ∃ run : FirstRun, run.Completed task scope selected db ∧
    run.env.treeOf selected.commitHash = .ok tree
  files : buildManifestFilesForCommit tree ≠ []
  healthy : manifestHasSemanticCandidates (buildManifestFilesForCommit tree) = true →
    Healthy task scope selected db

variable {tree : List TreeFile}

theorem FirstRun.Completed.hasManifest {run : FirstRun} (h : run.Completed task scope selected db)
    (htree : run.env.treeOf selected.commitHash = .ok tree) :
    Saved (run.env.manifestId selected.branch) (buildManifestFilesForCommit tree)
        db.manifestFiles ∧
      (task.orgId ≤ 0 || task.repoId ≤ 0 || isBlank scope.workspaceId ||
        isBlank selected.branch) = false := by
  obtain ⟨r, hr, hbranch, hcommit⟩ := h.revision
  obtain ⟨-, hmanifests⟩ := planSplitIndex_planned run.owned run.planned h.fetched
  obtain ⟨⟨tree', htree', hsaved⟩, -, hvalid⟩ := hmanifests r hr
  rw [hcommit, htree] at htree'
  cases htree'
  rw [hbranch] at hsaved hvalid
  rw [h.orgId, h.repoId] at hvalid
  refine ⟨fun row => ?_, hvalid⟩
  rw [← hsaved row]
  exact and_congr_left fun hid => h.files row hid

theorem fetchPreviousReadyManifestFiles_unchanged (h : Unchanged env task scope db selected tree) :
    ∃ manifestId, fetchPreviousReadyManifestFiles task.orgId task.repoId scope.workspaceId
        selected.branch db = .ok (readBack manifestId db.manifestFiles) ∧
      Saved manifestId (buildManifestFilesForCommit tree) db.manifestFiles := by
  obtain ⟨run, hcompleted, htree⟩ := h.completed
  obtain ⟨hsaved, hvalid⟩ := hcompleted.hasManifest htree
  obtain ⟨m, hm, hid⟩ := hcompleted.manifest
  refine ⟨run.env.manifestId selected.branch, ?_, hsaved⟩
  unfold fetchPreviousReadyManifestFiles
  rw [if_neg (Bool.eq_false_iff.1 hvalid), hm, ← hid]
  rfl

theorem revisionDeltaPlan_unchanged (h : Unchanged env task scope db selected tree) :
    ∃ plan, revisionDeltaPlan env task scope selected (buildManifestFilesForCommit tree) db =
        .ok plan ∧ plan.mode = .noop := by
  obtain ⟨manifestId, hfetch, hsaved⟩ := fetchPreviousReadyManifestFiles_unchanged h
  have hnoop := mode_readBack hsaved h.files env.supportsZoektFileDelta
  refine ⟨_, ?_, hnoop⟩
  unfold revisionDeltaPlan
  rw [hfetch]
  simp only [Except.mapError, bind, Except.bind, pure, Except.pure, hnoop, decide_true,
    Bool.true_and]
  split
  · rename_i hcandidates
    obtain ⟨health, hhealth, hrepair⟩ := h.healthy hcandidates
    rw [hhealth]
    simp [hrepair]
  · rfl

variable (now) in
theorem planRevision_unchanged (h : Unchanged env task scope db selected tree) :
    ∃ db', planRevision env now task scope selected db = (.ok none, db') ∧ OnlyControl db db' ∧
      db'.subjobs = db.subjobs ∧ db'.jobs = db.jobs := by
  obtain ⟨plan, hplan, hnoop⟩ := revisionDeltaPlan_unchanged h
  obtain ⟨run, hcompleted, htree⟩ := h.completed
  obtain ⟨-, hvalid⟩ := hcompleted.hasManifest htree
  unfold planRevision
  rw [h.listed]
  dsimp only
  rw [hplan]
  dsimp only
  rw [if_pos hnoop]
  unfold recordUsableIndexedRevision
  rw [hcompleted.commit, Bool.or_false, if_neg (Bool.eq_false_iff.1 hvalid)]
  exact ⟨_, rfl, onlyControl_updated db db.subjobs db.jobs _, rfl, rfl⟩

/-- What a revision needs is not touched by recording other revisions. -/
theorem Unchanged.of_onlyControl {db' : Database} (h : Unchanged env task scope db selected tree)
    (hcontrol : OnlyControl db db') (hsubjobs : db'.subjobs = db.subjobs)
    (hjobs : db'.jobs = db.jobs) :
    Unchanged env task scope db' selected tree := by
  have hdb : db' = { db with repos := db'.repos } := by
    conv_lhs => rw [hcontrol.eq_updated, hsubjobs, hjobs]
  obtain ⟨run, hcompleted, htree⟩ := h.completed
  rw [hdb]
  exact ⟨h.listed, ⟨run, ⟨hcompleted.orgId, hcompleted.repoId, hcompleted.fetched,
    hcompleted.revision, hcompleted.commit, hcompleted.job, hcompleted.subjobs,
    hcompleted.manifest, hcompleted.files⟩, htree⟩, h.files, h.healthy⟩

variable (now) in
theorem planRevisions_unchanged {revisions : List ResolvedIndexRevision}
    (h : ∀ selected ∈ revisions, ∃ tree, Unchanged env task scope db selected tree) :
    ∃ db', planRevisions env now task scope revisions db = (.ok [], db') ∧ OnlyControl db db' ∧
      db'.subjobs = db.subjobs := by
  induction revisions generalizing db with
  | nil => exact ⟨db, rfl, .refl, rfl⟩
  | cons selected revisions ih =>
    obtain ⟨tree, hselected⟩ := h selected List.mem_cons_self
    obtain ⟨db₁, hfirst, hcontrol, hsubjobs, hjobs⟩ := planRevision_unchanged now hselected
    obtain ⟨db₂, hrest, hcontrol', hsubjobs'⟩ := ih fun selected' hselected' => by
      obtain ⟨tree', htree'⟩ := h selected' (List.mem_cons_of_mem _ hselected')
      exact ⟨tree', htree'.of_onlyControl hcontrol hsubjobs hjobs⟩
    refine ⟨db₂, ?_, hcontrol.trans hcontrol', hsubjobs'.trans hsubjobs⟩
    unfold planRevisions
    rw [hfirst]
    dsimp only
    rw [hrest]
    rfl

end Second

section OneFile

def oneFileEnv (path manifestId : String) : PlanEnv where
  resolveIndexRevisions _ := .ok [⟨"main", sampleCommit⟩]
  distinct := nodup_of_eq_main
  treeOf _ := .ok (sampleTree [(path, "1")])
  supportsZoektFileDelta := false
  scipConfig := universalConfig
  manifestId _ := manifestId
  -- the lengths of the inputs are enough to tell the subjobs apart
  sha256Hex s := toString s.utf8ByteSize

def emptyRepository : Database := { sampleDatabase with manifests := [] }

def firstPlan (path : String) : Reply (List RevisionPlan) :=
  planSplitIndex (oneFileEnv path "manifest") 1 ⟨"job", 1, 7⟩ emptyRepository

/-- The job ended well and a second one has begun: every subjob succeeded, the manifest
is active and the graph is ready with anchors and edges. -/
def completedOnce (db : Database) : Database :=
  { db with
    jobs := [{ sampleJob with status := .completed, completedAt := some 2 },
      { sampleJob with id := "another-job" }]
    subjobs := db.subjobs.map fun s => { s with status := .succeeded, completedAt := some 2 }
    manifests := db.manifests.map fun m => { m with status := .ready, activatedAt := some 2 }
    graphIndexes :=
      [{ id := "graph", status := .ready, sourceRevision := "main", commitHash := sampleCommit,
         graphSpace := "space", workspaceId := "ws", schemaVersion := 1, builderVersion := "v1",
         vertexCount := 2, edgeCount := 1, anchorCount := 1, linkedEdgeCount := 1,
         indexedAt := some 2, orgId := 1, repoId := 7, createdAt := 1, updatedAt := 2 }] }

theorem completedOnce_subjobs (db : Database) :
    ∀ s ∈ (completedOnce db).subjobs, s.status = .succeeded := by
  intro s hs
  obtain ⟨s₀, -, rfl⟩ := List.mem_map.1 hs
  rfl

def indexedOnce (path : String) : Database := completedOnce (firstPlan path).2

def oneFileScope : RepoIndexScope := ⟨1, "ws", "main", {}⟩

def oneFilePlan (path : String) : List RevisionPlan :=
  [{ branch := "main", commitHash := sampleCommit,
     plan := fullPlan (buildManifestFilesForCommit (sampleTree [(path, "1")])),
     projects := detectSnapshotPlan (sampleTree [(path, "1")]) universalConfig }]

/-- The first run of a repository with a script, and of one with a text. -/
def oneFileRun (path : String) (h : (firstPlan path).1 = .ok (oneFilePlan path)) : FirstRun where
  env := oneFileEnv path "manifest"
  now := 1
  task := ⟨"job", 1, 7⟩
  before := emptyRepository
  after := (firstPlan path).2
  plans := oneFilePlan path
  planned := by
    rw [← h]
    exact (Prod.eta (firstPlan path)).symm
  owned := by
    intro f hf
    cases hf

def secondTask : IndexTask := ⟨"another-job", 1, 7⟩

theorem oneFileRun_completed {path : String} (h : (firstPlan path).1 = .ok (oneFilePlan path))
    (hmanifest : (previousReadyManifest 1 7 "ws" "main" (indexedOnce path)).map
      RepoIndexManifest.id = some "manifest") :
    (oneFileRun path h).Completed secondTask oneFileScope ⟨"main", sampleCommit⟩
      (indexedOnce path) where
  orgId := rfl
  repoId := rfl
  fetched := by
    show fetchRepoIndexScope 7 emptyRepository = .ok oneFileScope
    decide +kernel
  revision := ⟨_, List.mem_singleton_self _, rfl, rfl⟩
  commit := by decide +kernel
  job := ⟨{ sampleJob with status := .completed, completedAt := some 2 },
    List.mem_cons_self, rfl, rfl⟩
  subjobs := fun s hs _ => .inl (completedOnce_subjobs _ s hs)
  manifest := by
    obtain ⟨m, hm, hid⟩ := Option.map_eq_some_iff.1 hmanifest
    exact ⟨m, hm, hid⟩
  files := by
    intro row _
    rw [indexedOnce, completedOnce, oneFileRun]

end OneFile

end CodeIntel.Planner
