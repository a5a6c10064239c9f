import CodeIntel.Relational.Fallible
import CodeIntel.Planner.TouchedProjects
import CodeIntel.Subjobs.Store

/-!
# The subjobs of a planned revision

`indexplanner.Build` turns the planned revisions of a job into subjob rows and
`PlanAndPersist` stores them one by one. The digest is a parameter.
-/

namespace CodeIntel.Planner

open Text Relational Schema Subjobs

/-- `indexplanner.Revision`. -/
structure Revision where
  workspaceId : Option String
  (branch revision commitHash : String)
  runClone : Bool := false
  runZoekt : Bool := false
  runASTTreeSitter : Bool := false
  runGraphMerge : Bool := false
  runActivate : Bool := false
  scipProjects : List SCIPProject
  deriving DecidableEq, Repr

/-- `indexplanner.Input`. -/
structure Input where
  repoIndexingJobId : String
  (orgId repoId maxAttempts : ℤ)
  revisions : List Revision
  deriving DecidableEq, Repr

def errInvalidPlan : String := "indexplanner: invalid plan"

/-- `workerclasses.ForSCIPWorkerClass`. -/
def classForSCIP (scipWorkerClass : String) : Option WorkerClass :=
  classes.find? fun c => c.scipWorkerClasses.contains scipWorkerClass

/-- Every part is followed by a NUL byte. -/
def digest (sha256Hex : String → String) (parts : List String) : String :=
  sha256Hex (String.join (parts.map fun part => part ++ "\x00"))

def stableID (sha256Hex : String → String) (inp : Input) (rev : Revision) (layer : Layer)
    (workerClass language projectRoot indexer : String) : String :=
  let sum := digest sha256Hex
    ["subjob", inp.repoIndexingJobId, toString inp.orgId, coalesce rev.workspaceId,
      toString inp.repoId, rev.branch, rev.revision, rev.commitHash, layer.text, workerClass,
      language, projectRoot, indexer]
  "isj_" ++ String.ofList (sum.toList.take 32)

def coreSubjob (sha256Hex : String → String) (inp : Input) (rev : Revision) (layer : Layer)
    (c : WorkerClass) : CreateInput where
  id := stableID sha256Hex inp rev layer c.name "" "" ""
  repoIndexingJobId := inp.repoIndexingJobId
  codeIntelIndexId := none
  orgId := inp.orgId
  workspaceId := rev.workspaceId
  repoId := inp.repoId
  branch := rev.branch
  revision := rev.revision
  commitHash := rev.commitHash
  layer := layer
  language := none
  projectRoot := none
  indexer := none
  workerClass := c.name
  queueName := c.queueName
  maxAttempts := inp.maxAttempts
  inputDigest := some (digest sha256Hex
    ["input", inp.repoIndexingJobId, coalesce rev.workspaceId, rev.branch, rev.revision,
      rev.commitHash, layer.text, c.name])
  toolchainDigest := none
  imageDigest := none

/-- The row of a SCIP project, once its worker class and root are known. -/
def scipInput (sha256Hex : String → String) (inp : Input) (rev : Revision) (project : SCIPProject)
    (c : WorkerClass) (projectRoot : String) : CreateInput where
  id := stableID sha256Hex inp rev .scip c.name project.language projectRoot project.indexer
  repoIndexingJobId := inp.repoIndexingJobId
  codeIntelIndexId := none
  orgId := inp.orgId
  workspaceId := rev.workspaceId
  repoId := inp.repoId
  branch := rev.branch
  revision := rev.revision
  commitHash := rev.commitHash
  layer := .scip
  language := some project.language
  projectRoot := some projectRoot
  indexer := some project.indexer
  workerClass := c.name
  queueName := c.queueName
  maxAttempts := inp.maxAttempts
  inputDigest := some (digest sha256Hex
    ["input", inp.repoIndexingJobId, coalesce rev.workspaceId, rev.branch, rev.revision,
      rev.commitHash, project.language, projectRoot, project.indexer, project.scipWorkerClass])
  toolchainDigest := none
  imageDigest := none

def scipSubjob (sha256Hex : String → String) (inp : Input) (rev : Revision)
    (project : SCIPProject) : Except String CreateInput :=
  if project.language = "" || project.indexer = "" || project.scipWorkerClass = "" then
    .error errInvalidPlan
  else match classForSCIP project.scipWorkerClass with
    | none => .error (errInvalidPlan ++ ": no executor class for SCIP workerClass " ++
        project.scipWorkerClass.quote)
    | some c => match normalizeProjectRoot project.projectRoot with
      | none => .error (errInvalidPlan ++ ": projectRoot " ++ project.projectRoot.quote ++
          " is not repo-relative")
      | some projectRoot => .ok (scipInput sha256Hex inp rev project c projectRoot)

/-- The row of a layer that the plan may leave out. -/
def coreRow (sha256Hex : String → String) (inp : Input) (core : WorkerClass) (rev : Revision)
    (run : Bool) (layer : Layer) : List CreateInput :=
  if run then [coreSubjob sha256Hex inp rev layer core] else []

/-- The rows of one revision: producers first, then the merge and the activation. -/
def buildRevision (sha256Hex : String → String) (inp : Input) (core : WorkerClass)
    (rev : Revision) : Except String (List CreateInput) :=
  let hasGraphProducer := rev.runASTTreeSitter || !rev.scipProjects.isEmpty
  let hasProducer := rev.runZoekt || hasGraphProducer
  let row := coreRow sha256Hex inp core rev
  if rev.branch = "" || rev.revision = "" || rev.commitHash = "" then .error errInvalidPlan
  else if coalesce rev.workspaceId = "" then .error errInvalidPlan
  else if rev.runClone then
    .error (errInvalidPlan ++ ": clone is a repo-wide layer and is not revision-planned")
  else if rev.runGraphMerge && !hasGraphProducer then
    .error (errInvalidPlan ++ ": graph merge requires AST/tree-sitter or SCIP producer work")
  else if rev.runActivate && !hasProducer && !rev.runGraphMerge then
    .error (errInvalidPlan ++ ": activate requires at least one producer layer")
  else do
    let scip ← rev.scipProjects.mapM (scipSubjob sha256Hex inp rev)
    pure (row rev.runZoekt .zoekt ++ row rev.runASTTreeSitter .astTreeSitter ++ scip ++
      row rev.runGraphMerge .graphMerge ++ row rev.runActivate .activate)

def build (sha256Hex : String → String) (inp : Input) : Except String (List CreateInput) :=
  if inp.repoIndexingJobId = "" || inp.orgId ≤ 0 || inp.repoId ≤ 0 || inp.revisions = [] then
    .error errInvalidPlan
  else match classByName "core" with
    | none => .error (errInvalidPlan ++ ": core worker class is not registered")
    | some core => do
      let rows ← inp.revisions.mapM (buildRevision sha256Hex inp core)
      if rows.flatten = [] then .error errInvalidPlan else pure rows.flatten

/-- Store rows one statement after the other, up to the first error. -/
def persistAll (store : CreateInput → Database → Reply Unit) :
    List CreateInput → Database → Reply Unit
  | [], db => (.ok (), db)
  | row :: rows, db =>
    match store row db with
    | (.error e, db') => (.error e, db')
    | (.ok (), db') => persistAll store rows db'

def planAndPersist (sha256Hex : String → String) (now : Time) (inp : Input) (db : Database) :
    Reply Unit :=
  match build sha256Hex inp with
  | .error e => (.error e, db)
  | .ok rows => persistAll (upsertQueued now) rows db

/-- What every stored row respects holds between the tables before and after the run. -/
theorem persistAll_rel {store : CreateInput → Database → Reply Unit}
    {R : Database → Database → Prop} (hrefl : ∀ db, R db db)
    (htrans : ∀ {db₁ db₂ db₃}, R db₁ db₂ → R db₂ db₃ → R db₁ db₃)
    (hstore : ∀ row db, R db (store row db).2) (rows : List CreateInput) (db : Database) :
    R db (persistAll store rows db).2 := by
  induction rows generalizing db with
  | nil => exact hrefl db
  | cons row rows ih =>
    have hrow := hstore row db
    unfold persistAll
    split <;> rename_i heq <;> rw [heq] at hrow
    · exact hrow
    · exact htrans hrow (ih _)

end CodeIntel.Planner
