import CodeIntel.Cleanup.Files
import CodeIntel.Relational.Table
import CodeIntel.Schema.Database
import Mathlib.Data.List.Dedup

/-!
# Cleanup of a repository or of one ref

`dispatchCleanupScoped` retires graph snapshots, deletes rows and removes files.
With a ref it is meant to take only what the branch of the ref does not share with
another branch: graph rows, graph snapshots and source snapshots are one for each
commit. The database, the graph store and the file system may refuse any call.
-/

namespace CodeIntel.Cleanup

open Text Relational Schema

/-! ## Queries -/

/-- The scope of one graph snapshot. -/
structure CodeGraphDeleteInput where
  orgId : ℤ
  workspaceId : String
  repoId : ℤ
  commitHash : String
  schemaVersion : ℤ
  builderVersion : String
  deriving DecidableEq, Repr

def deleteInput (g : CodeGraphIndex) : CodeGraphDeleteInput where
  orgId := g.orgId
  workspaceId := g.workspaceId
  repoId := g.repoId
  commitHash := g.commitHash
  schemaVersion := g.schemaVersion
  builderVersion := g.builderVersion

def revisionOf (g : CodeGraphIndex) (r : CodeGraphRevision) : Bool :=
  r.codeGraphIndexId = g.id && r.orgId = g.orgId && r.repoId = g.repoId

def listGraphSnapshotsForCleanup (orgId repoId : ℤ) (db : Database) :
    Except String (List CodeGraphDeleteInput) :=
  if orgId ≤ 0 then .error "ListGraphSnapshotsForCleanup: orgID is required"
  else
    let rows := db.graphIndexes.filter fun g =>
      g.repoId = repoId && g.orgId = orgId && g.status = .ready
    .ok (rows.map deleteInput).dedup

/-- The graph index is active for the refs of the cleanup and for no other one. -/
def retiredWith (db : Database) (orgId repoId : ℤ) (refs : List String) (g : CodeGraphIndex) :
    Bool :=
  g.repoId = repoId && g.orgId = orgId && g.status = .ready &&
    (db.graphRevisions.any fun r => revisionOf g r && refs.contains r.revision) &&
    !(db.graphRevisions.any fun sibling =>
      revisionOf g sibling && !refs.contains sibling.revision)

def listGraphSnapshotsForCleanupRef (orgId repoId : ℤ) (ref : String) (db : Database) :
    Except String (List CodeGraphDeleteInput) :=
  match cleanupRefCandidates ref with
  | [] => listGraphSnapshotsForCleanup orgId repoId db
  | refs => .ok ((db.graphIndexes.filter (retiredWith db orgId repoId refs)).map deleteInput).dedup

/-- A row of another ref needs the source snapshot of the commit. -/
def commitIsShared (db : Database) (orgId repoId : ℤ) (refs : List String) (commitHash : String) :
    Bool :=
  (db.manifests.any fun m =>
      m.repoId = repoId && m.orgId = orgId && m.commitHash = commitHash &&
        !refs.contains m.branch) ||
    (db.codeIntelIndexes.any fun i =>
      i.repoId = repoId && i.orgId = orgId && i.commitHash = commitHash &&
        (!refs.contains i.branch || !refs.contains i.revision)) ||
    (db.graphRevisions.any fun r =>
      r.repoId = repoId && r.orgId = orgId && r.commitHash = commitHash &&
        !refs.contains r.revision)

def listSnapshotCommitsForCleanupRef (orgId repoId : ℤ) (ref : String) (db : Database) :
    List String :=
  match cleanupRefCandidates ref with
  | [] => []
  | refs =>
    let rows := db.manifests.filter fun m =>
      m.repoId = repoId && m.orgId = orgId && refs.contains m.branch &&
        !commitIsShared db orgId repoId refs m.commitHash
    ((rows.map RepoIndexManifest.commitHash).dedup).filter fun commit => trimSpace commit ≠ ""

/-- `none` is `ErrRepoNotFound`. -/
def fetchRepoForCleanup (orgId repoId : ℤ) (db : Database) : Except String (Option PathsRepo) :=
  if orgId ≤ 0 then .error "FetchRepoForCleanup: orgID is required"
  else
    .ok ((db.repos.find? fun r => r.id = repoId && r.orgId = orgId).map fun r =>
      { orgId := r.orgId
        repoId := r.id
        cloneUrl := r.cloneUrl
        codeHostType := r.externalCodeHostType })

/-! ## Deletions -/

/-- `DELETE FROM "CodeGraphIndex"` with its cascade. -/
def deleteGraphIndexes (cond : CodeGraphIndex → Bool) (db : Database) : Database :=
  let gone (id : String) : Bool := db.graphIndexes.any fun g => cond g && g.id = id
  { db with
    graphIndexes := deleteWhere cond db.graphIndexes
    graphRevisions := deleteWhere (fun r => gone r.codeGraphIndexId) db.graphRevisions
    semanticFacts := deleteWhere (fun f => gone f.graphIndexId) db.semanticFacts
    semanticEdges := deleteWhere (fun e => gone e.graphIndexId) db.semanticEdges
    anchors := deleteWhere (fun a => gone a.graphIndexId) db.anchors }

/-- `DELETE FROM "CodeIntelIndex"` with its cascade. -/
def deleteCodeIntelIndexes (cond : CodeIntelIndex → Bool) (db : Database) : Database :=
  let gone (id : String) : Bool := db.codeIntelIndexes.any fun i => cond i && i.id = id
  { db with
    codeIntelIndexes := deleteWhere cond db.codeIntelIndexes
    languageIndexes := deleteWhere (fun l => gone l.codeIntelIndexId) db.languageIndexes
    symbols := deleteWhere (fun s => gone s.codeIntelIndexId) db.symbols
    occurrences := deleteWhere (fun o => gone o.codeIntelIndexId) db.occurrences
    relationships := deleteWhere (fun r => gone r.codeIntelIndexId) db.relationships
    subjobs := deleteWhere (fun s => s.codeIntelIndexId.any gone) db.subjobs }

/-- `DELETE FROM "RepoIndexManifest"` with its cascade. -/
def deleteManifests (cond : RepoIndexManifest → Bool) (db : Database) : Database :=
  let gone (id : String) : Bool := db.manifests.any fun m => cond m && m.id = id
  { db with
    manifests := deleteWhere cond db.manifests
    manifestFiles := deleteWhere (fun f => gone f.manifestId) db.manifestFiles }

def updateRepo (orgId repoId : ℤ) (set : Repo → Repo) (db : Database) : Database :=
  { db with repos := updateWhere (fun r => r.id = repoId && r.orgId = orgId) set db.repos }

/-- The first statement of `CleanupRepoDBStateForRef`. Both of its parts read the tables as
they were before it, so the revisions it removes still count in `NOT EXISTS`. -/
def deleteRefGraph (orgId repoId : ℤ) (refs : List String) (db : Database) : Database :=
  let removes (r : CodeGraphRevision) : Bool :=
    r.repoId = repoId && r.orgId = orgId && refs.contains r.revision
  let orphaned (g : CodeGraphIndex) : Bool :=
    g.repoId = repoId && g.orgId = orgId &&
      (db.graphRevisions.any fun r => removes r && r.codeGraphIndexId = g.id) &&
      !(db.graphRevisions.any fun r => revisionOf g r)
  deleteGraphIndexes orphaned { db with graphRevisions := deleteWhere removes db.graphRevisions }

/-- The statements of a cleanup that may fail. -/
inductive CleanupCall where
  | fetchRepo | listGraphSnapshots | listSnapshotCommits
  | deleteGraph | deleteCodeIntel | deleteManifest | updateRepo
  deriving DecidableEq, Repr

/-- Statements one after the other until one fails; each comes with its name in the error. -/
def runStatements (failing : CleanupCall → Option String) (caller : String) :
    List (CleanupCall × String × (Database → Database)) → Database → Except String Unit × Database
  | [], db => (.ok (), db)
  | (call, what, exec) :: rest, db =>
    match failing call with
    | some e => (.error (caller ++ ": " ++ what ++ ": " ++ e), db)
    | none => runStatements failing caller rest (exec db)

def cleanupRepoDBState (failing : CleanupCall → Option String) (now : Time) (orgId repoId : ℤ)
    (db : Database) : Except String Unit × Database :=
  let caller := "CleanupRepoDBState"
  if orgId ≤ 0 then (.error (caller ++ ": orgID is required"), db)
  else
    runStatements failing caller
      [(.deleteGraph, "delete CodeGraphIndex",
          deleteGraphIndexes fun g => g.repoId = repoId && g.orgId = orgId),
        (.deleteCodeIntel, "delete CodeIntelIndex",
          deleteCodeIntelIndexes fun i => i.repoId = repoId && i.orgId = orgId),
        (.deleteManifest, "delete RepoIndexManifest",
          deleteManifests fun m => m.repoId = repoId && m.orgId = orgId),
        (.updateRepo, "clear Repo indexed-state",
          updateRepo orgId repoId fun r =>
            { r with
              indexedAt := none
              indexedCommitHash := none
              latestIndexingJobStatus := none
              metadata := some { r.metadata.getD {} with indexedRevisions := [] }
              updatedAt := now })]
      db

def cleanupRepoDBStateForRef (failing : CleanupCall → Option String) (now : Time)
    (orgId repoId : ℤ) (ref : String) (db : Database) : Except String Unit × Database :=
  let caller := "CleanupRepoDBStateForRef"
  if orgId ≤ 0 then (.error (caller ++ ": orgID is required"), db)
  else match cleanupRefCandidates ref with
    | [] => cleanupRepoDBState failing now orgId repoId db
    | refs =>
      runStatements failing caller
        [(.deleteGraph, "delete CodeGraphRevision/orphan CodeGraphIndex",
            deleteRefGraph orgId repoId refs),
          (.deleteCodeIntel, "delete CodeIntelIndex",
            deleteCodeIntelIndexes fun i => i.repoId = repoId && i.orgId = orgId &&
              (refs.contains i.branch || refs.contains i.revision)),
          (.deleteManifest, "delete RepoIndexManifest",
            deleteManifests fun m => m.repoId = repoId && m.orgId = orgId &&
              refs.contains m.branch),
          (.updateRepo, "remove indexed revision metadata",
            updateRepo orgId repoId fun r =>
              let m := r.metadata.getD {}
              { r with
                metadata := some { m with
                  indexedRevisions := m.indexedRevisions.filter fun v => !refs.contains v }
                updatedAt := now })]
        db

/-! ## The job -/

/-- What a cleanup job has at hand. -/
structure CleanupEnv where
  paths : PathsConfig
  os : Faults := {}
  /-- The database refuses a statement. -/
  failing : CleanupCall → Option String := fun _ => none
  /-- `MarkSnapshotForDeletion` with its error; `none` when no retirer is configured. -/
  graphRetirer : Option (CodeGraphDeleteInput → Option String)

/-- The result of a cleanup, with the snapshots that were passed to
`MarkSnapshotForDeletion`. -/
structure CleanupReply where
  result : Except String Unit
  db : Database
  fs : FileSystem
  retired : List CodeGraphDeleteInput := []

def shortCleanupCommit (commit : String) : String :=
  String.ofList (commit.toList.take 12)

def retireSnapshots (mark : CodeGraphDeleteInput → Option String) :
    List CodeGraphDeleteInput → Except String Unit × List CodeGraphDeleteInput
  | [] => (.ok (), [])
  | snapshot :: rest =>
    match mark snapshot with
    | some e =>
      (.error ("delete graph snapshot " ++ snapshot.workspaceId ++ "/" ++ toString snapshot.repoId ++
        "@" ++ shortCleanupCommit snapshot.commitHash ++ ": " ++ e), [snapshot])
    | none =>
      let (result, passed) := retireSnapshots mark rest
      (result, snapshot :: passed)

def cleanupFiles (env : CleanupEnv) (repo : PathsRepo) (ref : String) (commits : List String)
    (fs : FileSystem) : Except String Unit × FileSystem :=
  match cleanupRepoFilesystemForRef env.os env.paths repo ref fs with
  | (.error e, fs₁) => (.error e, fs₁)
  | (.ok (), fs₁) =>
    if ref = "" then cleanupRepoSnapshots env.os env.paths repo fs₁
    else cleanupRepoSnapshotsForCommits env.os env.paths repo commits fs₁

/-- `dispatchCleanupScoped` from the commits of the source snapshots on. -/
def cleanupRowsAndFiles (env : CleanupEnv) (now : Time) (orgId repoId : ℤ) (ref : String)
    (repo : PathsRepo) (retired : List CodeGraphDeleteInput) (db : Database) (fs : FileSystem) :
    CleanupReply :=
  let commits : Except String (List String) :=
    if ref = "" then .ok []
    else match env.failing .listSnapshotCommits with
      | some e => .error ("ListSnapshotCommitsForCleanupRef: " ++ e)
      | none => .ok (listSnapshotCommitsForCleanupRef orgId repoId ref db)
  match commits with
  | .error e => ⟨.error e, db, fs, retired⟩
  | .ok commits =>
    match cleanupRepoDBStateForRef env.failing now orgId repoId ref db with
    | (.error e, db₁) => ⟨.error e, db₁, fs, retired⟩
    | (.ok (), db₁) =>
      let (result, fs₁) := cleanupFiles env repo ref commits fs
      ⟨result, db₁, fs₁, retired⟩

def dispatchCleanupScoped (env : CleanupEnv) (now : Time) (orgId repoId : ℤ) (ref : String)
    (db : Database) (fs : FileSystem) : CleanupReply :=
  if orgId ≤ 0 then ⟨.error "cleanup requires org scope", db, fs, []⟩
  else match env.failing .fetchRepo with
  | some e => ⟨.error ("FetchRepoForCleanup: FetchRepoForCleanup: " ++ e), db, fs, []⟩
  | none =>
  match fetchRepoForCleanup orgId repoId db with
  | .error e => ⟨.error ("FetchRepoForCleanup: " ++ e), db, fs, []⟩
  | .ok none => ⟨.ok (), db, fs, []⟩
  | .ok (some repo) =>
    let ref := trimSpace ref
    match env.failing .listGraphSnapshots with
    | some e =>
      let caller :=
        if ref = "" then "ListGraphSnapshotsForCleanup" else "ListGraphSnapshotsForCleanupRef"
      ⟨.error (caller ++ ": " ++ e), db, fs, []⟩
    | none =>
      match listGraphSnapshotsForCleanupRef orgId repoId ref db with
      | .error e => ⟨.error e, db, fs, []⟩
      | .ok snapshots =>
        match env.graphRetirer with
        | none =>
          if snapshots.length > 0 then
            ⟨.error ("repo-index cleanup: graph snapshot retirer is not configured for " ++
              toString snapshots.length ++ " active snapshot(s)"), db, fs, []⟩
          else cleanupRowsAndFiles env now orgId repoId ref repo [] db fs
        | some mark =>
          match retireSnapshots mark snapshots with
          | (.error e, passed) => ⟨.error e, db, fs, passed⟩
          | (.ok (), passed) => cleanupRowsAndFiles env now orgId repoId ref repo passed db fs

/-! ## What the cleanup of a ref does -/

section Frame

variable {orgId repoId : ℤ} {refs : List String} {db : Database}

/-- A revision that is removed points to its graph index, so no index counts as orphaned. -/
theorem graphIndexes_deleteRefGraph :
    (deleteRefGraph orgId repoId refs db).graphIndexes = db.graphIndexes := by
  refine List.filter_eq_self.2 fun g _ => ?_
  rw [Bool.not_eq_true', ← Bool.not_eq_true]
  intro h
  simp only [Bool.and_eq_true, decide_eq_true_eq, Bool.not_eq_true'] at h
  obtain ⟨⟨⟨hrepo, horg⟩, hremoved⟩, hnone⟩ := h
  obtain ⟨r, hr, hrg⟩ := List.any_eq_true.1 hremoved
  simp only [Bool.and_eq_true, decide_eq_true_eq] at hrg
  obtain ⟨⟨⟨hrrepo, hrorg⟩, -⟩, hid⟩ := hrg
  have hjoin : revisionOf g r = true := by
    simp [revisionOf, hid, hrorg, horg, hrrepo, hrepo]
  exact absurd (List.any_eq_true.2 ⟨r, hr, hjoin⟩) (Bool.eq_false_iff.1 hnone)

theorem graphIndexes_runStatements {failing : CleanupCall → Option String} {caller : String}
    {statements : List (CleanupCall × String × (Database → Database))}
    (h : ∀ st ∈ statements, ∀ db, (st.2.2 db).graphIndexes = db.graphIndexes) :
    (runStatements failing caller statements db).2.graphIndexes = db.graphIndexes := by
  induction statements generalizing db with
  | nil => rfl
  | cons st rest ih =>
    obtain ⟨hst, hrest⟩ := List.forall_mem_cons.1 h
    unfold runStatements
    split
    · rfl
    · rw [ih hrest]
      exact hst db

/-- The rows of graph snapshots survive the cleanup of a ref. -/
theorem graphIndexes_cleanupRepoDBStateForRef (failing : CleanupCall → Option String) (now : Time)
    (orgId repoId : ℤ) {ref : String} (href : trimSpace ref ≠ "") (db : Database) :
    (cleanupRepoDBStateForRef failing now orgId repoId ref db).2.graphIndexes = db.graphIndexes := by
  unfold cleanupRepoDBStateForRef
  split
  · rfl
  split
  · rename_i hnil
    exact absurd hnil (List.ne_nil_of_mem (trimSpace_mem_cleanupRefCandidates href))
  · refine graphIndexes_runStatements fun st hst db => ?_
    simp only [List.mem_cons, List.not_mem_nil, or_false] at hst
    rcases hst with rfl | rfl | rfl | rfl
    · exact graphIndexes_deleteRefGraph
    all_goals rfl

theorem cleanupRefCandidates_trimSpace (ref : String) :
    cleanupRefCandidates (trimSpace ref) = cleanupRefCandidates ref := by
  unfold cleanupRefCandidates
  rw [trimSpace_trimSpace]

theorem listGraphSnapshotsForCleanupRef_eq (orgId repoId : ℤ) (db : Database) {ref : String}
    (href : trimSpace ref ≠ "") :
    ∃ snapshots, listGraphSnapshotsForCleanupRef orgId repoId ref db = .ok snapshots ∧
      ∀ x, x ∈ snapshots ↔ ∃ g ∈ db.graphIndexes,
        retiredWith db orgId repoId (cleanupRefCandidates ref) g = true ∧ deleteInput g = x := by
  unfold listGraphSnapshotsForCleanupRef
  split
  · rename_i hnil
    exact absurd hnil (List.ne_nil_of_mem (trimSpace_mem_cleanupRefCandidates href))
  · exact ⟨_, rfl, fun x => by simp [and_assoc]⟩

theorem mem_listSnapshotCommitsForCleanupRef {ref commit : String} (href : trimSpace ref ≠ "") :
    commit ∈ listSnapshotCommitsForCleanupRef orgId repoId ref db ↔
      trimSpace commit ≠ "" ∧ ∃ m ∈ db.manifests, m.repoId = repoId ∧ m.orgId = orgId ∧
        m.branch ∈ cleanupRefCandidates ref ∧ m.commitHash = commit ∧
        commitIsShared db orgId repoId (cleanupRefCandidates ref) commit = false := by
  unfold listSnapshotCommitsForCleanupRef
  split
  · rename_i hnil
    exact absurd hnil (List.ne_nil_of_mem (trimSpace_mem_cleanupRefCandidates href))
  · simp only [List.mem_filter, List.mem_dedup, List.mem_map, decide_eq_true_eq, Bool.and_eq_true,
      List.contains_iff_mem, Bool.not_eq_true']
    rw [and_comm]
    refine and_congr_right fun _ => exists_congr fun m => ?_
    constructor
    · rintro ⟨⟨hm, ⟨⟨hrepo, horg⟩, hbranch⟩, hshared⟩, rfl⟩
      exact ⟨hm, hrepo, horg, hbranch, rfl, hshared⟩
    · rintro ⟨hm, hrepo, horg, hbranch, rfl, hshared⟩
      exact ⟨⟨hm, ⟨⟨hrepo, horg⟩, hbranch⟩, hshared⟩, rfl⟩

end Frame

section Scoped

variable {env : CleanupEnv} {now : Time} {orgId repoId : ℤ} {ref : String} {db : Database}
  {fs : FileSystem}

theorem retireSnapshots_passed (mark : CodeGraphDeleteInput → Option String)
    (snapshots : List CodeGraphDeleteInput) :
    (retireSnapshots mark snapshots).2 ⊆ snapshots ∧
      ((retireSnapshots mark snapshots).1 = .ok () →
        (retireSnapshots mark snapshots).2 = snapshots) := by
  induction snapshots with
  | nil => exact ⟨List.Subset.refl _, fun _ => rfl⟩
  | cons snapshot rest ih =>
    unfold retireSnapshots
    split
    · exact ⟨List.cons_subset_cons _ (List.nil_subset _), fun h => by cases h⟩
    · exact ⟨List.cons_subset_cons _ ih.1, fun h => congrArg _ (ih.2 h)⟩

def removedSnapshots (env : CleanupEnv) (orgId repoId : ℤ) (ref : String) (db : Database) :
    List String :=
  commitSnapshotPaths env.paths { orgId := orgId, repoId := repoId }
    (listSnapshotCommitsForCleanupRef orgId repoId ref db)

/-- What a cleanup with a ref does to graphs and source snapshots, complete or not. -/
structure ScopedEffect (env : CleanupEnv) (orgId repoId : ℤ) (ref : String) (db : Database)
    (fs : FileSystem) (found : Prop) (snapshots : List CodeGraphDeleteInput) (reply : CleanupReply) :
    Prop where
  graphIndexes : reply.db.graphIndexes = db.graphIndexes
  retired : reply.retired ⊆ snapshots
  directories : ∀ dir, (∀ path ∈ removedSnapshots env orgId repoId ref db,
    ¬fs.covers path dir = true) → fs.hasDirectory dir = true → reply.fs.hasDirectory dir = true
  complete : reply.result = .ok () → found → snapshots ⊆ reply.retired ∧
    ∀ dir, (∃ path ∈ removedSnapshots env orgId repoId ref db, fs.covers path dir = true) →
      ¬reply.fs.hasDirectory dir = true

variable {snapshots retired : List CodeGraphDeleteInput} {repo : PathsRepo}

theorem ScopedEffect.stopped {found : Prop} {e : String} {db' : Database}
    (hgraph : db'.graphIndexes = db.graphIndexes) (hretired : retired ⊆ snapshots) :
    ScopedEffect env orgId repoId ref db fs found snapshots ⟨.error e, db', fs, retired⟩ :=
  ⟨hgraph, hretired, fun _ _ h => h, fun h => by cases h⟩

theorem cleanupFiles_removesTrees (env : CleanupEnv) (repo : PathsRepo) (commits : List String)
    (fs : FileSystem) (dir : String) (href : trimSpace ref ≠ "") (hne : ref ≠ "") :
    RemovesTrees (commitSnapshotPaths env.paths repo commits) dir fs
      (cleanupFiles env repo ref commits fs) := by
  have hshards : (cleanupRepoFilesystemForRef env.os env.paths repo ref fs).2.cwd = fs.cwd ∧
      ∀ dir, (cleanupRepoFilesystemForRef env.os env.paths repo ref fs).2.hasDirectory dir =
        fs.hasDirectory dir := by
    unfold cleanupRepoFilesystemForRef
    split
    · exact ⟨rfl, fun _ => rfl⟩
    split
    · rename_i hnil
      exact absurd hnil (List.ne_nil_of_mem (trimSpace_mem_cleanupRefCandidates href))
    · exact removeListedShards_directories _ _ _ _ _
  have hfirst : RemovesTrees [] dir fs (cleanupRepoFilesystemForRef env.os env.paths repo ref fs) :=
    ⟨hshards.1, fun h => by rwa [hshards.2] at h, fun _ h => by rwa [hshards.2], by simp⟩
  unfold cleanupFiles
  split <;> rename_i heq <;> rw [heq] at hfirst
  · exact ⟨hfirst.cwd, hfirst.shrinks, fun _ => hfirst.kept (by simp), fun h => by cases h⟩
  · rw [if_neg hne]
    exact hfirst.append (cleanupRepoSnapshotsForCommits_removesTrees _ _ _ _ _ _)

theorem cleanupRowsAndFiles_effect {found : Prop} (href : trimSpace ref ≠ "") (hne : ref ≠ "")
    (horg : repo.orgId = orgId) (hrepo : repo.repoId = repoId) (hretired : retired = snapshots) :
    ScopedEffect env orgId repoId ref db fs found snapshots
      (cleanupRowsAndFiles env now orgId repoId ref repo retired db fs) := by
  subst hretired
  have hpaths : commitSnapshotPaths env.paths repo
      (listSnapshotCommitsForCleanupRef orgId repoId ref db) =
        removedSnapshots env orgId repoId ref db := by
    unfold removedSnapshots commitSnapshotPaths
    rw [horg, hrepo]
  have hgraph := graphIndexes_cleanupRepoDBStateForRef env.failing now orgId repoId href db
  unfold cleanupRowsAndFiles
  rw [if_neg hne]
  dsimp only
  split
  · exact .stopped rfl (List.Subset.refl _)
  · rename_i commits hcommits
    split at hcommits
    · cases hcommits
    obtain rfl := Except.ok.inj hcommits
    split
    · rename_i e db₁ herror
      rw [herror] at hgraph
      exact .stopped hgraph (List.Subset.refl _)
    · rename_i db₁ hok
      rw [hok] at hgraph
      have htrees := fun dir => hpaths ▸ cleanupFiles_removesTrees env repo
        (listSnapshotCommitsForCleanupRef orgId repoId ref db) fs dir href hne
      exact ⟨hgraph, List.Subset.refl _, fun dir => (htrees dir).kept,
        fun hresult _ => ⟨List.Subset.refl _, fun dir => (htrees dir).removed hresult⟩⟩

def RepoFound (db : Database) (orgId repoId : ℤ) : Prop :=
  ∃ r ∈ db.repos, r.id = repoId ∧ r.orgId = orgId

theorem fetchRepoForCleanup_some (h : fetchRepoForCleanup orgId repoId db = .ok (some repo)) :
    repo.orgId = orgId ∧ repo.repoId = repoId := by
  unfold fetchRepoForCleanup at h
  split at h
  · cases h
  obtain ⟨r, hr, rfl⟩ := Option.map_eq_some_iff.1 (Except.ok.inj h)
  have hids := List.find?_some hr
  simp only [Bool.and_eq_true, decide_eq_true_eq] at hids
  exact hids.symm

theorem fetchRepoForCleanup_none (h : fetchRepoForCleanup orgId repoId db = .ok none) :
    ¬RepoFound db orgId repoId := by
  unfold fetchRepoForCleanup at h
  split at h
  · cases h
  rintro ⟨r, hr, hid, horg⟩
  have hnone := List.find?_eq_none.1 (Option.map_eq_none_iff.1 (Except.ok.inj h)) r hr
  simp [hid, horg] at hnone

/-- A cleanup stops before it deletes anything, finds no repository, or retires all listed
snapshots and deletes rows and files. -/
theorem dispatchCleanupScoped_cases (env : CleanupEnv) (now : Time) (orgId repoId : ℤ)
    (ref : String) (db : Database) (fs : FileSystem) :
    (∃ e retired, (∀ snapshots, listGraphSnapshotsForCleanupRef orgId repoId (trimSpace ref) db =
          .ok snapshots → retired ⊆ snapshots) ∧
        dispatchCleanupScoped env now orgId repoId ref db fs = ⟨.error e, db, fs, retired⟩) ∨
      (¬RepoFound db orgId repoId ∧
        dispatchCleanupScoped env now orgId repoId ref db fs = ⟨.ok (), db, fs, []⟩) ∨
      ∃ repo snapshots,
        listGraphSnapshotsForCleanupRef orgId repoId (trimSpace ref) db = .ok snapshots ∧
        repo.orgId = orgId ∧ repo.repoId = repoId ∧
        dispatchCleanupScoped env now orgId repoId ref db fs =
          cleanupRowsAndFiles env now orgId repoId (trimSpace ref) repo snapshots db fs := by
  unfold dispatchCleanupScoped
  split
  · exact .inl ⟨_, [], by simp, rfl⟩
  split
  · exact .inl ⟨_, [], by simp, rfl⟩
  split
  · exact .inl ⟨_, [], by simp, rfl⟩
  · exact .inr (.inl ⟨fetchRepoForCleanup_none ‹_›, rfl⟩)
  rename_i repo hfetch
  obtain ⟨horg, hrepo⟩ := fetchRepoForCleanup_some hfetch
  dsimp only
  split
  · exact .inl ⟨_, [], by simp, rfl⟩
  split
  · exact .inl ⟨_, [], by simp, rfl⟩
  rename_i snapshots hlist
  split
  · split
    · exact .inl ⟨_, [], by simp, rfl⟩
    · rename_i hempty
      obtain rfl : snapshots = [] := List.eq_nil_of_length_eq_zero (Nat.eq_zero_of_not_pos hempty)
      exact .inr (.inr ⟨repo, [], hlist, horg, hrepo, rfl⟩)
  · rename_i mark hmark
    have hpassed := retireSnapshots_passed mark snapshots
    split <;> rename_i heq <;> rw [heq] at hpassed
    · exact .inl ⟨_, _, fun _ h => Except.ok.inj (hlist.symm.trans h) ▸ hpassed.1, rfl⟩
    · obtain rfl := hpassed.2 rfl
      exact .inr (.inr ⟨repo, _, hlist, horg, hrepo, rfl⟩)

theorem dispatchCleanupScoped_effect (env : CleanupEnv) (now : Time) (orgId repoId : ℤ)
    (href : trimSpace ref ≠ "") (db : Database) (fs : FileSystem) :
    ∃ snapshots, (∀ x, x ∈ snapshots ↔ ∃ g ∈ db.graphIndexes,
        retiredWith db orgId repoId (cleanupRefCandidates ref) g = true ∧ deleteInput g = x) ∧
      ScopedEffect env orgId repoId (trimSpace ref) db fs (RepoFound db orgId repoId) snapshots
        (dispatchCleanupScoped env now orgId repoId ref db fs) := by
  have htrim : trimSpace (trimSpace ref) ≠ "" := by rwa [trimSpace_trimSpace]
  obtain ⟨snapshots, hlist, hmem⟩ :=
    listGraphSnapshotsForCleanupRef_eq orgId repoId db htrim
  rw [cleanupRefCandidates_trimSpace] at hmem
  refine ⟨snapshots, hmem, ?_⟩
  rcases dispatchCleanupScoped_cases env now orgId repoId ref db fs with
    ⟨e, retired, hretired, hreply⟩ | ⟨hnone, hreply⟩ | ⟨repo, listed, hlisted, horg, hrepo, hreply⟩
  · rw [hreply]
    exact .stopped rfl (hretired _ hlist)
  · rw [hreply]
    exact ⟨rfl, List.nil_subset _, fun _ _ h => h, fun _ hfound => absurd hfound hnone⟩
  · rw [hreply]
    exact cleanupRowsAndFiles_effect htrim href horg hrepo (Except.ok.inj (hlisted.symm.trans hlist))

/-! ## Sibling branches -/

/-- A branch that the cleanup is not about, indexed or being indexed at a commit. -/
structure ActiveSibling (db : Database) (orgId repoId : ℤ) (refs : List String)
    (m : RepoIndexManifest) : Prop where
  mem : m ∈ db.manifests
  repoId : m.repoId = repoId
  orgId : m.orgId = orgId
  branch : m.branch ∉ refs
  active : m.status = .ready ∨
    m.status = .pending ∧ ∃ job ∈ db.jobs, m.indexJobId = some job.id ∧ job.status = .inProgress

/-- The sibling keeps its graph row, its graph snapshot and its source snapshot. -/
structure SiblingSpared (env : CleanupEnv) (orgId repoId : ℤ) (db : Database) (fs : FileSystem)
    (reply : CleanupReply) (m : RepoIndexManifest) : Prop where
  graphRow : ∀ g ∈ db.graphIndexes, g.orgId = orgId → g.repoId = repoId →
    g.commitHash = m.commitHash → g ∈ reply.db.graphIndexes
  notRetired : ∀ x ∈ reply.retired, x.commitHash ≠ m.commitHash
  sources : fs.hasDirectory (env.paths.revisionSnapshotPath orgId repoId m.commitHash) = true →
    reply.fs.hasDirectory (env.paths.revisionSnapshotPath orgId repoId m.commitHash) = true

/-- What protects a sibling: every active graph of its commit that the cleaned refs use is
also used by another ref, and no source snapshot that only the cleaned refs need is, or
contains, the one of the sibling. -/
structure SiblingProtected (env : CleanupEnv) (orgId repoId : ℤ) (refs : List String)
    (db : Database) (fs : FileSystem) (m : RepoIndexManifest) : Prop where
  graph : ∀ g ∈ db.graphIndexes, g.orgId = orgId → g.repoId = repoId → g.status = .ready →
    g.commitHash = m.commitHash →
    (∃ r ∈ db.graphRevisions, revisionOf g r = true ∧ r.revision ∈ refs) →
    ∃ r ∈ db.graphRevisions, revisionOf g r = true ∧ r.revision ∉ refs
  sources : fs.hasDirectory (env.paths.revisionSnapshotPath orgId repoId m.commitHash) = true →
    ∀ m' ∈ db.manifests, m'.repoId = repoId → m'.orgId = orgId → m'.branch ∈ refs →
      commitIsShared db orgId repoId refs m'.commitHash = false → trimSpace m'.commitHash ≠ "" →
      ¬fs.covers (env.paths.revisionSnapshotPath orgId repoId (trimSpace m'.commitHash))
        (env.paths.revisionSnapshotPath orgId repoId m.commitHash) = true

theorem retiredWith_iff {refs : List String} {g : CodeGraphIndex} :
    retiredWith db orgId repoId refs g = true ↔
      g.orgId = orgId ∧ g.repoId = repoId ∧ g.status = .ready ∧
        (∃ r ∈ db.graphRevisions, revisionOf g r = true ∧ r.revision ∈ refs) ∧
        ¬∃ r ∈ db.graphRevisions, revisionOf g r = true ∧ r.revision ∉ refs := by
  unfold retiredWith
  simp only [Bool.and_eq_true, decide_eq_true_eq, Bool.not_eq_true', ← Bool.not_eq_true,
    List.any_eq_true, List.contains_iff_mem]
  tauto

theorem mem_removedSnapshots {path : String} (href : trimSpace ref ≠ "") :
    path ∈ removedSnapshots env orgId repoId ref db ↔
      ∃ m ∈ db.manifests, m.repoId = repoId ∧ m.orgId = orgId ∧
        m.branch ∈ cleanupRefCandidates ref ∧
        commitIsShared db orgId repoId (cleanupRefCandidates ref) m.commitHash = false ∧
        trimSpace m.commitHash ≠ "" ∧
        env.paths.revisionSnapshotPath orgId repoId (trimSpace m.commitHash) = path := by
  unfold removedSnapshots commitSnapshotPaths
  simp only [List.mem_map, List.mem_filter, decide_eq_true_eq,
    mem_listSnapshotCommitsForCleanupRef href]
  constructor
  · rintro ⟨_, ⟨⟨_, ⟨hne, m, hm, hrepo, horg, hbranch, rfl, hshared⟩, rfl⟩, -⟩, rfl⟩
    exact ⟨m, hm, hrepo, horg, hbranch, hshared, hne, rfl⟩
  · rintro ⟨m, hm, hrepo, horg, hbranch, hshared, hne, rfl⟩
    exact ⟨_, ⟨⟨_, ⟨hne, m, hm, hrepo, horg, hbranch, rfl, hshared⟩, rfl⟩, hne⟩, rfl⟩

/-- The cleanup of a ref spares the active siblings that are protected, whatever fails on the
way; a cleanup that succeeds on a repository spares only those. -/
theorem dispatchCleanupScoped_spares_siblings_iff (env : CleanupEnv) (now : Time)
    (orgId repoId : ℤ) (href : trimSpace ref ≠ "") (db : Database) (fs : FileSystem) :
    let reply := dispatchCleanupScoped env now orgId repoId ref db fs
    let refs := cleanupRefCandidates ref
    (∀ m, ActiveSibling db orgId repoId refs m →
      SiblingProtected env orgId repoId refs db fs m →
        SiblingSpared env orgId repoId db fs reply m) ∧
      (reply.result = .ok () → RepoFound db orgId repoId →
        ∀ m, ActiveSibling db orgId repoId refs m →
          (SiblingSpared env orgId repoId db fs reply m ↔
            SiblingProtected env orgId repoId refs db fs m)) := by
  have htrim : trimSpace (trimSpace ref) ≠ "" := by rwa [trimSpace_trimSpace]
  obtain ⟨snapshots, hmem, heffect⟩ := dispatchCleanupScoped_effect env now orgId repoId href db fs
  have hspares : ∀ m, SiblingProtected env orgId repoId (cleanupRefCandidates ref) db fs m →
      SiblingSpared env orgId repoId db fs (dispatchCleanupScoped env now orgId repoId ref db fs) m := by
    intro m hprot
    refine ⟨?_, ?_, ?_⟩
    · intro g hg _ _ _
      rwa [heffect.graphIndexes]
    · intro x hx hcommit
      obtain ⟨g, hg, hretired, rfl⟩ := (hmem x).1 (heffect.retired hx)
      obtain ⟨horg, hrepo, hready, hused, hnone⟩ := retiredWith_iff.1 hretired
      exact hnone (hprot.graph g hg horg hrepo hready hcommit hused)
    · intro hdir
      refine heffect.directories _ (fun path hpath => ?_) hdir
      obtain ⟨m', hm', hrepo, horg, hbranch, hshared, hne, rfl⟩ :=
        (mem_removedSnapshots htrim).1 hpath
      rw [cleanupRefCandidates_trimSpace] at hbranch hshared
      exact hprot.sources hdir m' hm' hrepo horg hbranch hshared hne
  refine ⟨fun m _ => hspares m, fun hok hfound m _ => ⟨fun hspared => ⟨?_, ?_⟩, hspares m⟩⟩
  · intro g hg horg hrepo hready hcommit hused
    by_contra hnone
    have hlisted : deleteInput g ∈ snapshots :=
      (hmem _).2 ⟨g, hg, retiredWith_iff.2 ⟨horg, hrepo, hready, hused, hnone⟩, rfl⟩
    exact hspared.notRetired _ ((heffect.complete hok hfound).1 hlisted) hcommit
  · intro hdir m' hm' hrepo horg hbranch hshared hne hcovers
    refine (heffect.complete hok hfound).2 _ ⟨_, (mem_removedSnapshots htrim).2 ?_, hcovers⟩
      (hspared.sources hdir)
    rw [cleanupRefCandidates_trimSpace]
    exact ⟨m', hm', hrepo, horg, hbranch, hshared, hne, rfl⟩

/-! ## Two branches at one commit -/

def releaseGraph : CodeGraphIndex where
  id := "graph"
  status := .ready
  sourceRevision := "release"
  commitHash := sampleCommit
  graphSpace := "space"
  workspaceId := "ws"
  schemaVersion := 1
  builderVersion := "v1"
  orgId := 1
  repoId := 7
  createdAt := 0
  updatedAt := 0

def releaseRevision (revision : String) : CodeGraphRevision where
  id := revision
  revision := revision
  workspaceId := "ws"
  commitHash := sampleCommit
  schemaVersion := 1
  builderVersion := "v1"
  orgId := 1
  repoId := 7
  codeGraphIndexId := "graph"
  activatedAt := 0
  updatedAt := 0

/-- The branch `main` is being indexed at the commit for which `release` is active; the
graph is active for the given revisions. -/
def twoBranches (revisions : List String) : Database :=
  { sampleDatabase with
    manifests := [sampleManifest,
      { sampleManifest with id := "other", branch := "release", status := .ready }]
    graphIndexes := [releaseGraph]
    graphRevisions := revisions.map releaseRevision }

def cleanupEnv : CleanupEnv where
  paths := { dataCacheDir := "data" }
  graphRetirer := some fun _ => none

theorem mainIsSibling (revisions : List String) :
    ActiveSibling (twoBranches revisions) 1 7 (cleanupRefCandidates "release") sampleManifest :=
  ⟨by simp [twoBranches], rfl, rfl, by decide +kernel,
    .inr ⟨rfl, sampleJob, by simp [twoBranches, sampleDatabase], rfl, rfl⟩⟩

theorem dispatchCleanupScoped_spares_main :
    SiblingSpared cleanupEnv 1 7 (twoBranches ["release", "main"]) ⟨"/app", []⟩
      (dispatchCleanupScoped cleanupEnv 1 1 7 "release" (twoBranches ["release", "main"])
        ⟨"/app", []⟩) sampleManifest := by
  have hspares := dispatchCleanupScoped_spares_siblings_iff cleanupEnv 1 1 7
    (show trimSpace "release" ≠ "" by decide) (twoBranches ["release", "main"]) ⟨"/app", []⟩
  refine hspares.1 sampleManifest (mainIsSibling _) ⟨fun g hg _ _ _ _ _ => ?_, fun h => ?_⟩
  · obtain rfl := List.mem_singleton.1 hg
    exact ⟨releaseRevision "main", by simp [twoBranches], by decide, by decide +kernel⟩
  · exact absurd h (by decide)

/-- Cleaning up `release` retires the graph that the running job of `main` builds on. -/
theorem release_cleanup_retires_graph_of_main :
    ActiveSibling (twoBranches ["release"]) 1 7 (cleanupRefCandidates "release") sampleManifest ∧
      (dispatchCleanupScoped cleanupEnv 1 1 7 "release" (twoBranches ["release"])
        ⟨"/app", []⟩).result = .ok () ∧
      (dispatchCleanupScoped cleanupEnv 1 1 7 "release" (twoBranches ["release"])
        ⟨"/app", []⟩).retired = [deleteInput releaseGraph] ∧
      (deleteInput releaseGraph).commitHash = sampleManifest.commitHash :=
  ⟨mainIsSibling _, by decide +kernel, by decide +kernel, rfl⟩

end Scoped

end CodeIntel.Cleanup
