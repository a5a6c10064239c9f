import Mathlib.Data.Int.Notation
import Mathlib.Data.Nat.Notation
import Mathlib.Tactic.TypeStar

/-!
# The relational schema

The tables shared by the scheduler, the planner, the worker fabric and the graph
writers, with the columns their statements read or write. Timestamps are
readings of the database clock in milliseconds, and enumerated columns are
inductive types. Column defaults of the migrations are field defaults, so a
nullable column is `none` unless a row says otherwise. `Database` is one
committed state of all tables.
-/

namespace CodeIntel.Schema

abbrev Time := ℕ

inductive Layer where
  | clone | zoekt | astTreeSitter | scip | graphMerge | activate | remove
  deriving DecidableEq, Repr

/-- The text stored in the `layer` column. -/
def Layer.text : Layer → String
  | .clone => "CLONE"
  | .zoekt => "ZOEKT"
  | .astTreeSitter => "AST_TREE_SITTER"
  | .scip => "SCIP"
  | .graphMerge => "GRAPH_MERGE"
  | .activate => "ACTIVATE"
  | .remove => "REMOVE"

inductive SubjobStatus where
  | queued | claimed | running | artifactWritten | validating
  | succeeded | failed | retrying | canceled | skipped
  deriving DecidableEq, Repr

/-- The text stored in the `status` column of a subjob. -/
def SubjobStatus.text : SubjobStatus → String
  | .queued => "QUEUED"
  | .claimed => "CLAIMED"
  | .running => "RUNNING"
  | .artifactWritten => "ARTIFACT_WRITTEN"
  | .validating => "VALIDATING"
  | .succeeded => "SUCCEEDED"
  | .failed => "FAILED"
  | .retrying => "RETRYING"
  | .canceled => "CANCELED"
  | .skipped => "SKIPPED"

/-- `RepoIndexingJobType`. -/
inductive JobType where
  | index | cleanup | removeIndex
  deriving DecidableEq, Repr

/-- `RepoIndexingJobStatus`. -/
inductive JobStatus where
  | pending | inProgress | completed | failed
  deriving DecidableEq, Repr

/-- `RepoIndexManifestStatus`. -/
inductive ManifestStatus where
  | pending | ready | failed | superseded
  deriving DecidableEq, Repr

/-- `CodeGraphIndexStatus`. -/
inductive GraphIndexStatus where
  | pending | building | ready | partialReady | skipped | failed | deleting
  deriving DecidableEq, Repr

/-- `CodeIntelIndexSubjob`. -/
structure Subjob where
  (id repoIndexingJobId : String)
  codeIntelIndexId : Option String := none
  orgId : ℤ
  workspaceId : String
  repoId : ℤ
  (branch revision commitHash : String)
  layer : Layer
  language : Option String := none
  projectRoot : Option String := none
  indexer : Option String := none
  (workerClass queueName : String)
  status : SubjobStatus := .queued
  attempt : ℤ := 0
  maxAttempts : ℤ := 3
  attemptId : Option String := none
  leaseOwner : Option String := none
  leaseExpiresAt : Option Time := none
  heartbeatAt : Option Time := none
  startedAt : Option Time := none
  completedAt : Option Time := none
  artifactTempPath : Option String := none
  artifactPath : Option String := none
  artifactSha256 : Option String := none
  inputDigest : Option String := none
  toolchainDigest : Option String := none
  imageDigest : Option String := none
  errorCode : Option String := none
  errorMessage : Option String := none
  (createdAt updatedAt : Time)
  deriving DecidableEq, Repr

/-- `ref` is the `ref` entry of the metadata column. -/
structure RepoIndexingJob where
  id : String
  repoId : ℤ
  type : JobType
  status : JobStatus
  ref : Option String := none
  errorMessage : Option String := none
  completedAt : Option Time := none
  (createdAt updatedAt : Time)
  deriving DecidableEq, Repr

/-- The pairs are a workspace or project key and a repository slug. -/
structure CodeHostMetadata where
  bitbucketCloud : Option (String × String) := none
  bitbucketServer : Option (String × String) := none
  gitlabTopics : Option (List String) := none
  githubTopics : Option (List String) := none
  deriving DecidableEq, Repr

/-- The `metadata` column of `Repo`, as the services marshal it. -/
structure RepoMetadata where
  gitConfig : List (String × String) := []
  branches : List String := []
  tags : List String := []
  indexedRevisions : List String := []
  manualIndexDisabled : Option Bool := none
  codeHostMetadata : Option CodeHostMetadata := none
  deriving DecidableEq, Repr

structure Org where
  id : ℤ
  domain : String
  atomWorkspaceId : Option String := none
  deriving DecidableEq, Repr

structure Repo where
  (id orgId : ℤ)
  name : String
  displayName : Option String := none
  isFork : Bool := false
  isArchived : Bool := false
  isPublic : Bool := false
  isAutoCleanupDisabled : Bool := false
  metadata : Option RepoMetadata := none
  cloneUrl : String
  webUrl : Option String := none
  imageUrl : Option String := none
  defaultBranch : Option String := none
  (externalId externalCodeHostType externalCodeHostUrl : String)
  indexedAt : Option Time := none
  indexedCommitHash : Option String := none
  latestIndexingJobStatus : Option JobStatus := none
  (createdAt updatedAt : Time)
  deriving DecidableEq, Repr

structure RepoIndexManifest where
  id : String
  status : ManifestStatus
  workspaceId : String
  providerConnectionId : Option String := none
  (branch commitHash : String)
  (orgId repoId : ℤ)
  indexJobId : Option String := none
  activatedAt : Option Time := none
  supersededAt : Option Time := none
  failedAt : Option Time := none
  errorMessage : Option String := none
  (createdAt updatedAt : Time)
  deriving DecidableEq, Repr

structure RepoIndexManifestFile where
  (manifestId path contentHash : String)
  language : Option String := none
  projectRoot : Option String := none
  generated : Bool := false
  vendor : Bool := false
  test : Bool := false
  deriving DecidableEq, Repr

/-- The provider column has the single value `NEBULA`. -/
structure CodeGraphIndex where
  id : String
  status : GraphIndexStatus
  (sourceRevision commitHash graphSpace workspaceId : String)
  schemaVersion : ℤ
  builderVersion : String
  indexRunId : Option String := none
  vertexCount : ℤ := 0
  edgeCount : ℤ := 0
  anchorCount : ℤ := 0
  linkedEdgeCount : ℤ := 0
  errorMessage : Option String := none
  indexedAt : Option Time := none
  supersededAt : Option Time := none
  deleteAfter : Option Time := none
  (orgId repoId : ℤ)
  (createdAt updatedAt : Time)
  deriving DecidableEq, Repr

structure CodeGraphRevision where
  (id revision workspaceId commitHash : String)
  schemaVersion : ℤ
  builderVersion : String
  (orgId repoId : ℤ)
  codeGraphIndexId : String
  (activatedAt updatedAt : Time)
  deriving DecidableEq, Repr

inductive CodeIntelIndexStatus where
  | pending | indexing | ready | partialReady | skipped | failed
  deriving DecidableEq, Repr

/-- The kind column has the single value `SCIP`. -/
structure CodeIntelIndex where
  id : String
  status : CodeIntelIndexStatus
  (workspaceId branch revision commitHash artifactRoot : String)
  languageCount : ℤ := 0
  symbolCount : ℤ := 0
  occurrenceCount : ℤ := 0
  relationshipCount : ℤ := 0
  errorMessage : Option String := none
  indexedAt : Option Time := none
  (orgId repoId : ℤ)
  (createdAt updatedAt : Time)
  deriving DecidableEq, Repr

structure CodeIntelLanguageIndex where
  (id codeIntelIndexId language projectRoot indexer workerClass : String)
  status : CodeIntelIndexStatus
  artifactPath : String
  command : Option String := none
  durationMs : Option ℤ := none
  errorMessage : Option String := none
  (createdAt updatedAt : Time)
  deriving DecidableEq, Repr

structure CodeIntelSymbol where
  symbol : String
  displayName : Option String := none
  kind : Option String := none
  language : Option String := none
  filePath : Option String := none
  startLine : Option ℤ := none
  endLine : Option ℤ := none
  (orgId repoId : ℤ)
  (codeIntelIndexId codeIntelLanguageIndexId : String)
  deriving DecidableEq, Repr

/-- `CodeIntelOccurrenceRole`. -/
inductive OccurrenceRole where
  | definition | reference | imported | read | write | generated | test | forwardDefinition
  deriving DecidableEq, Repr

structure CodeIntelOccurrence where
  (symbol filePath : String)
  startLine : Option ℤ := none
  startCharacter : Option ℤ := none
  endLine : Option ℤ := none
  role : OccurrenceRole
  syntaxKind : Option String := none
  lineContent : Option String := none
  enclosingSymbol : Option String := none
  (orgId repoId : ℤ)
  (codeIntelIndexId codeIntelLanguageIndexId : String)
  deriving DecidableEq, Repr

structure CodeIntelRelationship where
  (sourceSymbol targetSymbol : String)
  (isReference isImplementation isTypeDefinition isDefinition : Bool)
  (orgId repoId : ℤ)
  (codeIntelIndexId codeIntelLanguageIndexId : String)
  deriving DecidableEq, Repr

/-- `CodeGraphSemanticFact`. -/
structure SemanticFact where
  (externalId dedupeKey kind label workspaceId commitHash : String)
  schemaVersion : ℤ
  (builderVersion sourceFile : String)
  startLine : Option ℤ := none
  endLine : Option ℤ := none
  (evidence confidenceTier source : String)
  (orgId repoId : ℤ)
  graphIndexId : String
  updatedAt : Time
  deriving DecidableEq, Repr

/-- `CodeGraphSemanticEdge`. -/
structure SemanticEdge where
  (sourceExternalId targetExternalId dedupeKey relation workspaceId commitHash : String)
  schemaVersion : ℤ
  (builderVersion sourceFile : String)
  startLine : Option ℤ := none
  endLine : Option ℤ := none
  evidence : Option String := none
  rationale : Option String := none
  (confidenceTier source : String)
  (orgId repoId : ℤ)
  graphIndexId : String
  updatedAt : Time
  deriving DecidableEq, Repr

/-- `CodeGraphAnchor`. -/
structure Anchor where
  (kind direction key normalizedKey nodeVid workspaceId commitHash : String)
  schemaVersion : ℤ
  builderVersion : String
  evidenceFilePath : Option String := none
  startLine : Option ℤ := none
  endLine : Option ℤ := none
  source : String
  (orgId repoId : ℤ)
  graphIndexId : String
  updatedAt : Time
  deriving DecidableEq, Repr

structure Connection where
  (id orgId : ℤ)
  (name connectionType config : String)
  syncedAt : Option Time := none
  updatedAt : Time
  deriving DecidableEq, Repr

structure ConnectionSyncJob where
  id : String
  connectionId : ℤ
  status : JobStatus
  warningMessages : List String := []
  errorMessage : Option String := none
  completedAt : Option Time := none
  updatedAt : Time
  deriving DecidableEq, Repr

structure RepoToConnection where
  (connectionId repoId : ℤ)
  addedAt : Time
  deriving DecidableEq, Repr

/-- One committed state of the database. -/
structure Database where
  repos : List Repo := []
  jobs : List RepoIndexingJob := []
  manifests : List RepoIndexManifest := []
  subjobs : List Subjob := []
  graphIndexes : List CodeGraphIndex := []
  graphRevisions : List CodeGraphRevision := []
  codeIntelIndexes : List CodeIntelIndex := []
  languageIndexes : List CodeIntelLanguageIndex := []
  symbols : List CodeIntelSymbol := []
  occurrences : List CodeIntelOccurrence := []
  relationships : List CodeIntelRelationship := []
  semanticFacts : List SemanticFact := []
  semanticEdges : List SemanticEdge := []
  anchors : List Anchor := []
  orgs : List Org := []
  manifestFiles : List RepoIndexManifestFile := []
  connections : List Connection := []
  syncJobs : List ConnectionSyncJob := []
  repoConnections : List RepoToConnection := []
  deriving DecidableEq, Repr

/-! ## A one-repository instance

The rows concrete runs start from: an INDEX job in progress on one repository,
with the pending manifest of its `main` branch. -/

def sampleCommit : String := "0123456789abcdef0123456789abcdef01234567"

def sampleOrg : Org where
  id := 1
  domain := "acme"
  atomWorkspaceId := some "ws"

def sampleRepo : Repo where
  id := 7
  orgId := 1
  name := "acme/app"
  cloneUrl := "acme/app.git"
  externalId := "42"
  externalCodeHostType := "github"
  externalCodeHostUrl := "github"
  createdAt := 0
  updatedAt := 0

def sampleJob : RepoIndexingJob where
  id := "job"
  repoId := 7
  type := .index
  status := .inProgress
  createdAt := 0
  updatedAt := 0

def sampleManifest : RepoIndexManifest where
  id := "manifest"
  status := .pending
  workspaceId := "ws"
  branch := "main"
  commitHash := sampleCommit
  orgId := 1
  repoId := 7
  indexJobId := some "job"
  createdAt := 0
  updatedAt := 0

def sampleDatabase : Database where
  orgs := [sampleOrg]
  repos := [sampleRepo]
  jobs := [sampleJob]
  manifests := [sampleManifest]

end CodeIntel.Schema
