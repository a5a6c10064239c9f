import CodeIntel.Planner.Subjobs

/-!
# Planning an index job

`planSplitIndex` goes over the revisions a repository selects. A revision whose
files did not change is recorded as usable, any other one gets a pending
manifest and its producer subjobs. The clone, the resolution of refs and the
identifiers come from the environment.
-/

namespace CodeIntel.Planner

open Text Relational Schema Subjobs

structure RepoIndexScope where
  orgId : ℤ
  (workspaceId defaultBranch : String)
  metadata : RepoMetadata
  deriving DecidableEq, Repr

/-- The revision is always the branch ref. -/
structure ResolvedIndexRevision where
  (branch commitHash : String)
  deriving DecidableEq, Repr

/-- What a planning run draws from the clone and from its process. -/
structure PlanEnv where
  resolveIndexRevisions : RepoIndexScope → Except String (List ResolvedIndexRevision)
  /-- The revisions are collected in a map by ref. -/
  distinct : ∀ scope revisions, resolveIndexRevisions scope = .ok revisions →
    (revisions.map ResolvedIndexRevision.branch).Nodup
  treeOf : String → Except String (List TreeFile)
  supportsZoektFileDelta : Bool
  scipConfig : Config
  (manifestId sha256Hex : String → String)

theorem nodup_of_eq_main : ∀ (_ : RepoIndexScope) (revisions : List ResolvedIndexRevision),
    Except.ok (ε := String) [⟨"main", sampleCommit⟩] = .ok revisions →
      (revisions.map ResolvedIndexRevision.branch).Nodup := by
  rintro _ _ ⟨⟩
  exact List.nodup_singleton _

/-- `FetchRepoIndexScope`. -/
def fetchRepoIndexScope (repoId : ℤ) (db : Database) : Except String RepoIndexScope :=
  match lookup Repo.id repoId db.repos with
  | none => .error "repoindexmanager: repo not found"
  | some r => match lookup Org.id r.orgId db.orgs with
    | none => .error "repoindexmanager: repo not found"
    | some o => .ok
      { orgId := r.orgId
        workspaceId := o.atomWorkspaceId.getD o.domain
        defaultBranch := match r.defaultBranch with
          | none => "main"
          | some b => if b = "" then "main" else b
        metadata := r.metadata.getD {} }

/-- `ORDER BY column DESC NULLS LAST, ...` as a key to maximise. -/
def newestFirst (stamp : Option Time) (updatedAt : Time) (id : String) :
    Bool ×ₗ Time ×ₗ Time ×ₗ String :=
  toLex (stamp.isSome, toLex (stamp.getD 0, toLex (updatedAt, id)))

/-- The active manifest of a branch. -/
def previousReadyManifest (orgId repoId : ℤ) (workspaceId branch : String) (db : Database) :
    Option RepoIndexManifest :=
  (db.manifests.filter fun m =>
    m.orgId = orgId && m.repoId = repoId && m.workspaceId = workspaceId && m.branch = branch &&
      m.status = .ready).argmax fun m => newestFirst m.activatedAt m.updatedAt m.id

def storedFile (f : RepoIndexManifestFile) : ManifestFileRow :=
  { path := f.path, contentHash := f.contentHash, language := f.language,
    projectRoot := f.projectRoot, generated := f.generated, vendor := f.vendor, test := f.test }

def fetchPreviousReadyManifestFiles (orgId repoId : ℤ) (workspaceId branch : String)
    (db : Database) : Except String (List ManifestFileRow) :=
  if orgId ≤ 0 || repoId ≤ 0 || isBlank workspaceId || isBlank branch then
    .error "repoindexmanager: invalid previous manifest scope"
  else match previousReadyManifest orgId repoId workspaceId branch db with
    | none => .ok []
    | some m => .ok (((db.manifestFiles.filter fun f => f.manifestId = m.id).insertionSort
        fun f f' => f.path ≤ f'.path).map storedFile)

structure SemanticIndexHealth where
  scipFound : Bool := false
  scipSymbolCount : ℤ := 0
  scipOccurrenceCount : ℤ := 0
  scipRelationshipCount : ℤ := 0
  graphFound : Bool := false
  graphAnchorCount : ℤ := 0
  graphLinkedEdgeCount : ℤ := 0
  deriving DecidableEq, Repr

def SemanticIndexHealth.needsRepair (h : SemanticIndexHealth) : Bool :=
  !h.scipFound || h.scipSymbolCount + h.scipOccurrenceCount + h.scipRelationshipCount = 0 ||
    !h.graphFound || h.graphAnchorCount = 0 || h.graphLinkedEdgeCount = 0

/-- The SCIP part does not compare the workspace. -/
def fetchSemanticIndexHealth (orgId repoId : ℤ) (workspaceId branch commitHash : String)
    (db : Database) : Except String SemanticIndexHealth :=
  if orgId ≤ 0 || repoId ≤ 0 || isBlank workspaceId || isBlank branch || isBlank commitHash then
    .error "repoindexmanager: invalid semantic health scope"
  else
    let scip := (db.codeIntelIndexes.filter fun ci =>
      ci.orgId = orgId && ci.repoId = repoId && ci.revision = branch &&
        ci.commitHash = commitHash && (ci.status = .ready || ci.status = .partialReady)).argmax
      fun ci => newestFirst ci.indexedAt ci.updatedAt ci.id
    let graph := (db.graphIndexes.filter fun g =>
      g.orgId = orgId && g.repoId = repoId && g.workspaceId = workspaceId &&
        g.sourceRevision = branch && g.commitHash = commitHash && g.status = .ready &&
        g.supersededAt = none && g.deleteAfter = none).argmax
      fun g => newestFirst g.indexedAt g.updatedAt g.id
    .ok
      { scipFound := scip.isSome
        scipSymbolCount := (scip.map CodeIntelIndex.symbolCount).getD 0
        scipOccurrenceCount := (scip.map CodeIntelIndex.occurrenceCount).getD 0
        scipRelationshipCount := (scip.map CodeIntelIndex.relationshipCount).getD 0
        graphFound := graph.isSome
        graphAnchorCount := (graph.map CodeGraphIndex.anchorCount).getD 0
        graphLinkedEdgeCount := (graph.map CodeGraphIndex.linkedEdgeCount).getD 0 }

def inferSemanticLanguageFromPath (path : String) : String :=
  let lower := toLower path
  if hasAnySuffix lower [".ts", ".tsx", ".js", ".jsx", ".mts", ".cts", ".mjs", ".cjs"] then
    "typescript"
  else if hasSuffix lower ".go" then "go"
  else if hasSuffix lower ".py" then "python"
  else if hasAnySuffix lower [".java", ".scala", ".kt"] then "java"
  else if hasAnySuffix lower [".cc", ".cpp", ".cxx", ".c", ".h", ".hpp"] then "cpp"
  else if hasAnySuffix lower [".cs", ".vb", ".fs"] then "dotnet"
  else if hasSuffix lower ".rb" then "ruby"
  else if hasSuffix lower ".rs" then "rust"
  else if hasSuffix lower ".dart" then "dart"
  else ""

def manifestHasSemanticCandidates (files : List ManifestFileRow) : Bool :=
  files.any fun file =>
    let declared := toLower (trimSpace (file.language.getD ""))
    let language := if declared = "" then inferSemanticLanguageFromPath file.path else declared
    ["typescript", "javascript", "go", "python", "java", "cpp", "c", "c++", "dotnet", "csharp",
      "ruby", "rust", "dart"].contains language

/-- The revisions listed for a repository once the branch is usable again. -/
def refreshedRevisions (m : RepoIndexManifest → Bool) (manifests : List RepoIndexManifest)
    (listed : List String) : List String :=
  (((listed ++ (manifests.filter m).map RepoIndexManifest.branch).filter (· ≠ "")).dedup).insertionSort
    (· ≤ ·)

def recordUsableIndexedRevision (now : Time) (orgId repoId : ℤ)
    (workspaceId branch commitHash : String) (db : Database) : Reply Unit :=
  if orgId ≤ 0 || repoId ≤ 0 || isBlank workspaceId || isBlank branch || isBlank commitHash then
    (.error "repoindexmanager: invalid indexed revision refresh scope", db)
  else
    let usable (m : RepoIndexManifest) : Bool :=
      m.orgId = orgId && m.repoId = repoId && m.workspaceId = workspaceId && m.branch = branch &&
        m.commitHash = commitHash && m.status = .ready && m.supersededAt = none
    let refresh (r : Repo) : Repo :=
      let metadata := r.metadata.getD {}
      { r with
        metadata := some { metadata with
          indexedRevisions := refreshedRevisions usable db.manifests metadata.indexedRevisions }
        indexedAt := some now
        indexedCommitHash := some commitHash
        updatedAt := now }
    (.ok (),
      { db with repos := updateWhere (fun r => r.id = repoId && r.orgId = orgId) refresh db.repos })

/-- `nullableStringPtr`. -/
def nullableString (value : Option String) : Option String :=
  value.filter fun v => !isBlank v

def manifestFileRecord (manifestId : String) (file : ManifestFileRow) : RepoIndexManifestFile :=
  { manifestId, path := file.path, contentHash := file.contentHash,
    language := nullableString file.language, projectRoot := nullableString file.projectRoot,
    generated := file.generated, vendor := file.vendor, test := file.test }

/-- `INSERT ... ON CONFLICT ("manifestId", path) DO UPDATE` for one row. -/
def upsertManifestFile (rows : List RepoIndexManifestFile) (new : RepoIndexManifestFile) :
    List RepoIndexManifestFile :=
  upsert (fun f => f.manifestId = new.manifestId && f.path = new.path) (fun _ => new) new rows

/-- One statement for each thousand rows, and a statement must not store one path twice. -/
def insertManifestFiles (manifestId : String) :
    List (List ManifestFileRow) → Database → Reply Unit
  | [], db => (.ok (), db)
  | chunk :: chunks, db =>
    if (chunk.map ManifestFileRow.path).Nodup then
      insertManifestFiles manifestId chunks
        { db with manifestFiles :=
            (chunk.map (manifestFileRecord manifestId)).foldl upsertManifestFile db.manifestFiles }
    else
      (.error "InsertManifestFiles: ON CONFLICT DO UPDATE command cannot affect row a second time",
        db)

/-- The stored plan and its counts are read by no statement here. -/
def insertPendingManifest (m : RepoIndexManifest) (files : List ManifestFileRow)
    (db : Database) : Reply Unit :=
  if m.id = "" || coalesce m.indexJobId = "" || m.orgId ≤ 0 || m.repoId ≤ 0 ||
      m.workspaceId = "" || m.branch = "" || m.commitHash = "" then
    (.error "repoindexmanager: invalid pending manifest input", db)
  else if db.manifests.any fun m' => m'.id = m.id then
    (.error ("InsertPendingManifest: duplicate key value violates unique constraint " ++
      "RepoIndexManifest_pkey"), db)
  else
    insertManifestFiles m.id (files.toChunks 1000)
      { db with manifests := db.manifests ++ [m] }

/-- A revision that gets subjobs: its delta plan and the projects of its tree. -/
structure RevisionPlan where
  (branch commitHash : String)
  plan : DeltaReindexPlan
  projects : ProjectPlan
  deriving DecidableEq, Repr

/-- The projects the revision indexes. -/
def RevisionPlan.kept (r : RevisionPlan) : List SCIPProject :=
  filterSCIPProjectsForDelta r.projects.runnable (some r.plan)

def RevisionPlan.toRevision (workspaceId : String) (r : RevisionPlan) : Revision where
  workspaceId := some workspaceId
  branch := r.branch
  revision := r.branch
  commitHash := r.commitHash
  runZoekt := r.plan.zoekt.strategy ≠ .noop
  runASTTreeSitter := r.plan.graph.strategy ≠ .noop
  runGraphMerge := true
  runActivate := true
  scipProjects := r.kept

/-- The job and the repository row it was dispatched with. -/
structure IndexTask where
  jobId : String
  (orgId repoId : ℤ)
  deriving DecidableEq, Repr

def repairReason : String :=
  "Active SCIP or graph semantic index is missing or hollow for an unchanged revision."

/-- The plan of a revision against the active manifest of its branch. -/
def revisionDeltaPlan (env : PlanEnv) (task : IndexTask) (scope : RepoIndexScope)
    (selected : ResolvedIndexRevision) (files : List ManifestFileRow) (db : Database) :
    Except String DeltaReindexPlan := do
  let context (step e : String) : String := "INDEX: " ++ step ++ " " ++ selected.branch ++ ": " ++ e
  let previous ← (fetchPreviousReadyManifestFiles task.orgId task.repoId scope.workspaceId
    selected.branch db).mapError (context "fetch previous manifest files")
  let plan := buildManifestDeltaPlan previous files env.supportsZoektFileDelta
  if plan.mode = .noop && manifestHasSemanticCandidates files then
    let health ← (fetchSemanticIndexHealth task.orgId task.repoId scope.workspaceId
      selected.branch selected.commitHash db).mapError (context "fetch semantic health")
    pure (if health.needsRepair then forceSemanticRepairPlan plan files repairReason else plan)
  else pure plan

def pendingManifest (env : PlanEnv) (now : Time) (task : IndexTask) (scope : RepoIndexScope)
    (selected : ResolvedIndexRevision) : RepoIndexManifest where
  id := env.manifestId selected.branch
  status := .pending
  workspaceId := scope.workspaceId
  branch := selected.branch
  commitHash := selected.commitHash
  orgId := task.orgId
  repoId := task.repoId
  indexJobId := some task.jobId
  createdAt := now
  updatedAt := now

def planRevision (env : PlanEnv) (now : Time) (task : IndexTask) (scope : RepoIndexScope)
    (selected : ResolvedIndexRevision) (db : Database) : Reply (Option RevisionPlan) :=
  match env.treeOf selected.commitHash with
  | .error e => (.error ("INDEX: build manifest files " ++ selected.branch ++ ": " ++ e), db)
  | .ok tree =>
    let files := buildManifestFilesForCommit tree
    match revisionDeltaPlan env task scope selected files db with
    | .error e => (.error e, db)
    | .ok plan =>
      if plan.mode = .noop then
        match recordUsableIndexedRevision now task.orgId task.repoId scope.workspaceId
            selected.branch selected.commitHash db with
        | (.error e, db') =>
          (.error ("INDEX: refresh unchanged indexed revision " ++ selected.branch ++ ": " ++ e),
            db')
        | (.ok (), db') => (.ok none, db')
      else
        match insertPendingManifest (pendingManifest env now task scope selected) files db with
        | (.error e, db') => (.error e, db')
        | (.ok (), db') =>
          let projects := detectSnapshotPlan tree env.scipConfig
          (.ok (some ⟨selected.branch, selected.commitHash, plan, projects⟩), db')

def planRevisions (env : PlanEnv) (now : Time) (task : IndexTask) (scope : RepoIndexScope) :
    List ResolvedIndexRevision → Database → Reply (List RevisionPlan)
  | [], db => (.ok [], db)
  | selected :: revisions, db =>
    match planRevision env now task scope selected db with
    | (.error e, db') => (.error e, db')
    | (.ok planned, db') =>
      match planRevisions env now task scope revisions db' with
      | (.error e, db'') => (.error e, db'')
      | (.ok rest, db'') => (.ok (planned.toList ++ rest), db'')

/-- The input of the planner for the projects of a revision that have no worker. -/
def skippedInput (task : IndexTask) (workspaceId : String) (r : RevisionPlan) : Input where
  repoIndexingJobId := task.jobId
  orgId := task.orgId
  repoId := task.repoId
  maxAttempts := 1
  revisions :=
    [{ workspaceId := some workspaceId, branch := r.branch, revision := r.branch,
       commitHash := r.commitHash, scipProjects := r.projects.skipped }]

/-- `UpsertSkipped` with the reason the planner gives. -/
def storeSkipped (now : Time) (row : CreateInput) (db : Database) : Reply Unit :=
  upsertSkipped now now row "WORKER_CLASS_UNAVAILABLE"
    "SCIP worker class is not enabled for this backend/indexer deployment" db

theorem storeSkipped_eq (now : Time) (row : CreateInput) (db : Database) :
    storeSkipped now row db = upsertWithStatus now now row .skipped "WORKER_CLASS_UNAVAILABLE"
      "SCIP worker class is not enabled for this backend/indexer deployment" db := by
  unfold storeSkipped upsertSkipped
  exact if_neg (by decide +kernel)

/-- `persistSkippedSCIPProjects` for one revision. -/
def persistSkippedSCIPProjects (env : PlanEnv) (now : Time) (task : IndexTask)
    (workspaceId : String) (r : RevisionPlan) (db : Database) : Reply Unit :=
  if r.projects.skipped = [] then (.ok (), db)
  else match build env.sha256Hex (skippedInput task workspaceId r) with
    | .error e => (.error e, db)
    | .ok rows => persistAll (storeSkipped now) rows db

def persistSkipped (env : PlanEnv) (now : Time) (task : IndexTask) (workspaceId : String) :
    List RevisionPlan → Database → Reply Unit
  | [], db => (.ok (), db)
  | r :: plans, db =>
    match persistSkippedSCIPProjects env now task workspaceId r db with
    | (.error e, db') =>
      (.error ("INDEX: persist skipped SCIP projects " ++ r.branch ++ ": " ++ e), db')
    | (.ok (), db') => persistSkipped env now task workspaceId plans db'

def planInput (task : IndexTask) (workspaceId : String) (plans : List RevisionPlan) : Input where
  repoIndexingJobId := task.jobId
  orgId := task.orgId
  repoId := task.repoId
  maxAttempts := 3
  revisions := plans.map (RevisionPlan.toRevision workspaceId)

/-- The subjobs of the planned revisions; without any there is nothing to store. -/
def persistPlan (env : PlanEnv) (now : Time) (task : IndexTask) (workspaceId : String)
    (plans : List RevisionPlan) (db : Database) : Reply (List RevisionPlan) :=
  if plans = [] then (.ok [], db)
  else match planAndPersist env.sha256Hex now (planInput task workspaceId plans) db with
    | (.error e, db') => (.error ("INDEX: persist split plan: " ++ e), db')
    | (.ok (), db') => match persistSkipped env now task workspaceId plans db' with
      | (.error e, db'') => (.error e, db'')
      | (.ok (), db'') => (.ok plans, db'')

/-- The planned revisions are returned; without any the source ends the job, otherwise the
job continues with the stored subjobs. -/
def planSplitIndex (env : PlanEnv) (now : Time) (task : IndexTask) (db : Database) :
    Reply (List RevisionPlan) :=
  match fetchRepoIndexScope task.repoId db with
  | .error e => (.error e, db)
  | .ok scope =>
    if scope.orgId ≠ task.orgId then
      (.error ("INDEX: repo org drift: repo=" ++ toString task.orgId ++ " scope=" ++
        toString scope.orgId), db)
    else match env.resolveIndexRevisions scope with
      | .error e => (.error ("INDEX: resolve selected revisions: " ++ e), db)
      | .ok revisions => match planRevisions env now task scope revisions db with
        | (.error e, db') => (.error e, db')
        | (.ok plans, db') => persistPlan env now task scope.workspaceId plans db'

end CodeIntel.Planner
