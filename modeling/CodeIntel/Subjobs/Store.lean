import CodeIntel.Relational.Table
import CodeIntel.Schema.Database
import CodeIntel.Text.GoPath
import Mathlib.Data.List.Dedup
import Mathlib.Data.List.Sort
import Mathlib.Data.Prod.Lex

/-!
# The durable subjob store

Package `indexsubjobs`: the statements that create, claim, renew, finish and
requeue rows of `CodeIntelIndexSubjob`. Every call is a function of the clock
reading `now`, its arguments and the committed database; it returns the value or
error text of the Go call together with the database it leaves behind.
-/

namespace CodeIntel.Subjobs

open Relational Schema Text

/-- Result of a store call and the database after it. -/
abbrev Reply (α : Type) := Except String α × Database

theorem Reply.eq_mk {α : Type} {reply : Reply α} {result : Except String α}
    (h : reply.1 = result) : reply = (result, reply.2) := Prod.ext h rfl

/-! ## Worker classes -/

/-- The part of a `workerclasses.WorkerClass` the control plane reads. -/
structure WorkerClass where
  (name queueName : String)
  scipWorkerClasses : List String
  deriving DecidableEq, Repr

/-- `workerclasses.classes`. -/
def classes : List WorkerClass :=
  [⟨"core", "codeintel-index-core", []⟩,
    ⟨"scip-ts-python", "codeintel-index-scip-ts-python", ["ts-js", "python"]⟩,
    ⟨"scip-go", "codeintel-index-scip-go", ["go"]⟩,
    ⟨"scip-jvm", "codeintel-index-scip-jvm", ["jvm"]⟩,
    ⟨"scip-dotnet", "codeintel-index-scip-dotnet", ["dotnet"]⟩,
    ⟨"scip-rust-dart", "codeintel-index-scip-rust-dart", ["rust-dart"]⟩,
    ⟨"scip-cpp-x86", "codeintel-index-scip-cpp-x86", ["cpp"]⟩,
    ⟨"scip-ruby-x86", "codeintel-index-scip-ruby-x86", ["ruby"]⟩]

/-- `workerclasses.ByName`. -/
def classByName (name : String) : Option WorkerClass :=
  lookup WorkerClass.name name classes

def classServesQueue (workerClass queueName : String) : Bool :=
  match classByName workerClass with
  | none => false
  | some c => c.queueName = queueName

/-! ## Creating subjobs -/

structure CreateInput where
  (id repoIndexingJobId : String)
  codeIntelIndexId : Option String
  orgId : ℤ
  workspaceId : Option String
  repoId : ℤ
  (branch revision commitHash : String)
  layer : Layer
  (language projectRoot indexer : Option String)
  (workerClass queueName : String)
  maxAttempts : ℤ
  (inputDigest toolchainDigest imageDigest : Option String)
  deriving DecidableEq, Repr

def errInvalidCreateInput : String := "indexsubjobs: invalid create input"

def errScopeNotReady : String := "indexsubjobs: parent job or manifest scope is not ready"

/-- `COALESCE(column, '')`. -/
def coalesce (column : Option String) : String := column.getD ""

def isHexDigit (c : Char) : Bool :=
  ('0' ≤ c && c ≤ '9') || ('a' ≤ c && c ≤ 'f') || ('A' ≤ c && c ≤ 'F')

/-- `commitHashPattern`. -/
def isCommitHash (s : String) : Bool :=
  s.toList.length = 40 && s.toList.all isHexDigit

def safeProjectRoot (root : String) : Bool :=
  let root := trimSpace root
  if root = "" || root = "." then true
  else if hasPrefix root "/" || hasPrefix root "\\" || contains root "\\" then false
  else
    let clean := cleanPath root
    if clean = "." || clean = "" then true
    else clean = root && clean ≠ ".." && !hasPrefix clean "../" && !contains clean "/../"

/-- The argument checks of `upsertWithStatus`. -/
def validCreateInput (inp : CreateInput) : Bool :=
  inp.id ≠ "" && inp.repoIndexingJobId ≠ "" && 0 < inp.orgId && 0 < inp.repoId &&
    coalesce inp.workspaceId ≠ "" && inp.branch ≠ "" && inp.revision ≠ "" &&
    inp.workerClass ≠ "" && inp.queueName ≠ "" && isCommitHash inp.commitHash &&
    classServesQueue inp.workerClass inp.queueName &&
    if inp.layer = .scip then
      coalesce inp.language ≠ "" && coalesce inp.indexer ≠ "" &&
        match inp.projectRoot with
        | none => false
        | some root => safeProjectRoot root
    else inp.language = none && inp.projectRoot = none && inp.indexer = none

/-- The parent job is an INDEX job in progress on a repo of the organisation. -/
def liveJob (db : Database) (jobId : String) (repoId orgId : ℤ) : Bool :=
  db.jobs.any fun j =>
    j.id = jobId && j.repoId = repoId && j.type = .index && j.status = .inProgress &&
      db.repos.any fun r => r.id = j.repoId && r.orgId = orgId

/-- The revision still has a PENDING manifest of the job. -/
def hasPendingManifest (db : Database) (jobId : String) (orgId repoId : ℤ)
    (workspaceId branch commitHash : String) : Bool :=
  db.manifests.any fun m =>
    m.indexJobId = some jobId && m.orgId = orgId && m.repoId = repoId &&
      m.workspaceId = workspaceId && m.branch = branch && m.commitHash = commitHash &&
      m.status = .pending

def newSubjob (now : Time) (inp : CreateInput) (status : SubjobStatus)
    (errorCode errorMessage : String) (completedAt : Option Time) : Subjob where
  id := inp.id
  repoIndexingJobId := inp.repoIndexingJobId
  codeIntelIndexId := inp.codeIntelIndexId
  orgId := inp.orgId
  workspaceId := coalesce inp.workspaceId
  repoId := inp.repoId
  branch := inp.branch
  revision := inp.revision
  commitHash := inp.commitHash
  layer := inp.layer
  language := inp.language
  projectRoot := inp.projectRoot
  indexer := inp.indexer
  workerClass := inp.workerClass
  queueName := inp.queueName
  status := status
  attempt := 0
  maxAttempts := if inp.maxAttempts ≤ 0 then 3 else inp.maxAttempts
  attemptId := none
  leaseOwner := none
  leaseExpiresAt := none
  heartbeatAt := none
  startedAt := none
  completedAt := completedAt
  artifactTempPath := none
  artifactPath := none
  artifactSha256 := none
  inputDigest := inp.inputDigest
  toolchainDigest := inp.toolchainDigest
  imageDigest := inp.imageDigest
  errorCode := some errorCode
  errorMessage := some errorMessage
  createdAt := now
  updatedAt := now

/-- The columns of the unique index `CodeIntelIndexSubjob_scope_key`. -/
def scopeKey (r : Subjob) : List String × Layer :=
  ([r.repoIndexingJobId, r.workspaceId, r.branch, r.revision, r.commitHash, r.workerClass,
    coalesce r.language, coalesce r.projectRoot, coalesce r.indexer], r.layer)

/-- The scope the conflict branch of the insert compares. -/
def sameScope (r new : Subjob) : Bool :=
  scopeKey r = scopeKey new && r.orgId = new.orgId && r.repoId = new.repoId &&
    r.queueName = new.queueName

/-- The foreign key to `CodeIntelIndex` with its scope columns. -/
def indexScopeExists (db : Database) (new : Subjob) : Bool :=
  match new.codeIntelIndexId with
  | none => true
  | some indexId => db.codeIntelIndexes.any fun ci =>
      ci.id = indexId && ci.orgId = new.orgId && ci.repoId = new.repoId &&
        ci.revision = new.revision && ci.commitHash = new.commitHash

/-- `completedAt` is the Go clock reading used for SKIPPED rows. -/
def upsertWithStatus (now completedAt : Time) (inp : CreateInput) (status : SubjobStatus)
    (errorCode errorMessage : String) (db : Database) : Reply Unit :=
  if !validCreateInput inp || (status ≠ .queued && status ≠ .skipped) then
    (.error errInvalidCreateInput, db)
  else if !liveJob db inp.repoIndexingJobId inp.repoId inp.orgId ||
      !hasPendingManifest db inp.repoIndexingJobId inp.orgId inp.repoId
        (coalesce inp.workspaceId) inp.branch inp.commitHash then
    (.error errScopeNotReady, db)
  else
    let row := newSubjob now inp status errorCode errorMessage
      (if status = .skipped then some completedAt else none)
    match lookup Subjob.id inp.id db.subjobs with
    | some r => (if sameScope r row then .ok () else .error errScopeNotReady, db)
    | none =>
      if db.subjobs.any fun r => scopeKey r = scopeKey row then
        (.error ("Upsert" ++ status.text ++
          ": duplicate key value violates unique constraint CodeIntelIndexSubjob_scope_key"), db)
      else if !indexScopeExists db row then
        (.error ("Upsert" ++ status.text ++
          ": insert violates foreign key constraint CodeIntelIndexSubjob_codeIntelIndex_scope_fkey"),
          db)
      else (.ok (), { db with subjobs := db.subjobs ++ [row] })

def upsertQueued (now : Time) (inp : CreateInput) (db : Database) : Reply Unit :=
  upsertWithStatus now now inp .queued "" "" db

def upsertSkipped (now completedAt : Time) (inp : CreateInput) (errorCode errorMessage : String)
    (db : Database) : Reply Unit :=
  if isBlank errorCode || isBlank errorMessage then (.error errInvalidCreateInput, db)
  else upsertWithStatus now completedAt inp .skipped errorCode errorMessage db

/-! ## Leases -/

/-- The immutable scope copied from a queued task payload. -/
structure ClaimScope where
  (id repoIndexingJobId : String)
  orgId : ℤ
  workspaceId : Option String
  repoId : ℤ
  (branch revision commitHash : String)
  layer : Layer
  (language projectRoot indexer : Option String)
  (workerClass queueName : String)
  attempt : ℤ
  deriving DecidableEq, Repr

/-- The row carries every scope column of the payload. -/
def ClaimScope.matchesRow (scope : ClaimScope) (r : Subjob) : Bool :=
  r.id = scope.id && r.repoIndexingJobId = scope.repoIndexingJobId && r.orgId = scope.orgId &&
    some r.workspaceId = scope.workspaceId && r.repoId = scope.repoId &&
    r.branch = scope.branch && r.revision = scope.revision &&
    r.commitHash = scope.commitHash && r.layer = scope.layer &&
    coalesce r.language = coalesce scope.language &&
    coalesce r.projectRoot = coalesce scope.projectRoot &&
    coalesce r.indexer = coalesce scope.indexer &&
    r.workerClass = scope.workerClass && r.queueName = scope.queueName

def ClaimScope.complete (scope : ClaimScope) : Bool :=
  scope.id ≠ "" && scope.repoIndexingJobId ≠ "" && 0 < scope.orgId && 0 < scope.repoId &&
    coalesce scope.workspaceId ≠ "" && scope.branch ≠ "" && scope.revision ≠ "" &&
    scope.commitHash ≠ "" && scope.workerClass ≠ "" && scope.queueName ≠ "" && 0 < scope.attempt

/-- `UPDATE "CodeIntelIndexSubjob"` and the Go result `RowsAffected() == 1`. -/
def updateSubjobs (cond : Subjob → Bool) (set : Subjob → Subjob) (db : Database) : Reply Bool :=
  (.ok (affected cond db.subjobs = 1),
    { db with subjobs := updateWhere cond set db.subjobs })

/-- The `WHERE` clause of `ClaimScoped`. -/
def claimable (now : Time) (scope : ClaimScope) (db : Database) (r : Subjob) : Bool :=
  scope.matchesRow r && (r.status = .queued || r.status = .retrying || r.status = .claimed) &&
    r.attempt = scope.attempt - 1 && r.attempt < r.maxAttempts &&
    (r.leaseExpiresAt.all (· < now) || r.status = .queued || r.status = .retrying) &&
    liveJob db scope.repoIndexingJobId scope.repoId scope.orgId

/-- The `SET` clause of `ClaimScoped`. -/
def claimRow (now : Time) (leaseOwner attemptId : String) (leaseUntil : Time) (r : Subjob) :
    Subjob :=
  { r with
    status := .claimed
    attempt := r.attempt + 1
    attemptId := some attemptId
    leaseOwner := some leaseOwner
    leaseExpiresAt := some leaseUntil
    heartbeatAt := some now
    startedAt := some (r.startedAt.getD now)
    updatedAt := now }

def claimScoped (now : Time) (scope : ClaimScope) (leaseOwner attemptId : String)
    (leaseUntil : Time) (db : Database) : Reply Bool :=
  if !scope.complete then (.error "indexsubjobs: ClaimScoped requires immutable scope", db)
  else if !classServesQueue scope.workerClass scope.queueName then
    (.error "indexsubjobs: ClaimScoped workerClass/queue mismatch", db)
  else if leaseOwner = "" || attemptId = "" then
    (.error "indexsubjobs: ClaimScoped requires leaseOwner and attemptID", db)
  else updateSubjobs (claimable now scope db) (claimRow now leaseOwner attemptId leaseUntil) db

/-- The lease a call presents: subjob, owner and attempt. -/
structure Lease where
  (subjobId leaseOwner attemptId : String)
  deriving DecidableEq, Repr

/-- The row is in one of the given states, stores exactly this lease and belongs
to a live parent job. -/
def holdsLease (db : Database) (lease : Lease) (states : List SubjobStatus) (r : Subjob) : Bool :=
  r.id = lease.subjobId && r.leaseOwner = some lease.leaseOwner &&
    r.attemptId = some lease.attemptId && states.contains r.status &&
    liveJob db r.repoIndexingJobId r.repoId r.orgId

/-- `"leaseExpiresAt" IS NOT NULL AND "leaseExpiresAt" > NOW()`. -/
def leaseAlive (now : Time) (r : Subjob) : Bool :=
  r.leaseExpiresAt.any (now < ·)

def inFlight : List SubjobStatus := [.claimed, .running, .artifactWritten, .validating]

def renewRow (now leaseUntil : Time) (r : Subjob) : Subjob :=
  { r with
    status := if r.status = .claimed || r.status = .running then .running else r.status
    leaseExpiresAt := some leaseUntil
    heartbeatAt := some now
    updatedAt := now }

/-- The only lease statement that does not look at the expiry. -/
def heartbeat (now : Time) (lease : Lease) (leaseUntil : Time) (db : Database) : Reply Bool :=
  updateSubjobs (holdsLease db lease inFlight) (renewRow now leaseUntil) db

def markArtifactWritten (now : Time) (lease : Lease) (tempPath artifactPath sha256 : String)
    (db : Database) : Reply Bool :=
  updateSubjobs
    (fun r => holdsLease db lease [.claimed, .running, .artifactWritten] r && leaseAlive now r)
    (fun r =>
      { r with
        status := .artifactWritten
        artifactTempPath := some tempPath
        artifactPath := some artifactPath
        artifactSha256 := some sha256
        heartbeatAt := some now
        updatedAt := now })
    db

/-- A lease whose three parts are given, as the finishing calls require. -/
def Lease.complete (lease : Lease) : Bool :=
  lease.subjobId ≠ "" && lease.leaseOwner ≠ "" && lease.attemptId ≠ ""

/-- The `SET` clause of `MarkSucceeded`. The attempt id stays in the row. -/
def succeedRow (now : Time) (r : Subjob) : Subjob :=
  { r with
    status := .succeeded
    leaseOwner := none
    leaseExpiresAt := none
    errorCode := none
    errorMessage := none
    completedAt := some now
    updatedAt := now }

def markSucceeded (now : Time) (lease : Lease) (db : Database) : Reply Bool :=
  if !lease.complete then
    (.error "indexsubjobs: MarkSucceeded requires subjobID, leaseOwner, and attemptID", db)
  else
    updateSubjobs (fun r => holdsLease db lease inFlight r && leaseAlive now r) (succeedRow now) db

/-- The artifact store's lease check: a row with a published artifact moves to
VALIDATING and keeps its lease for at least fifteen more minutes. -/
def validateLiveSubjobLease (now : Time) (scope : ClaimScope) (leaseOwner attemptId : String)
    (artifactPath sha256 : String) (db : Database) : Reply Bool :=
  updateSubjobs
    (fun r =>
      scope.matchesRow r && r.layer = .scip &&
        holdsLease db ⟨scope.id, leaseOwner, attemptId⟩ [.artifactWritten, .validating] r &&
        r.artifactPath = some artifactPath && r.artifactSha256 = some sha256 &&
        leaseAlive now r &&
        hasPendingManifest db r.repoIndexingJobId r.orgId r.repoId r.workspaceId r.branch
          r.commitHash)
    (fun r =>
      { r with
        status := .validating
        leaseExpiresAt := r.leaseExpiresAt.map fun t => max t (now + 15 * 60 * 1000)
        heartbeatAt := some now
        updatedAt := now })
    db

/-! ## Failures -/

def normalizeFailure (errorCode errorMessage : String) : String × String :=
  let errorCode := trimSpace errorCode
  let errorMessage := trimSpace errorMessage
  (if errorCode = "" then "SUBJOB_FAILED" else errorCode,
    if errorMessage = "" then "subjob failed without diagnostic" else errorMessage)

/-- The diagnostics that mark a SCIP artifact without semantic rows. -/
def semanticallyEmpty (message : String) : Bool :=
  containsFold message "semantically empty .scip" || containsFold message "has no semantic rows:"

/-- The state a failed attempt moves to once attempts are counted. -/
def exhaustedStatus (skippable : Layer → Bool) (r : Subjob) : SubjobStatus :=
  if r.attempt < r.maxAttempts then .retrying
  else if skippable r.layer then .skipped
  else .failed

def isScip (layer : Layer) : Bool := layer = .scip

def isScipOrAst (layer : Layer) : Bool := layer = .scip || layer = .astTreeSitter

/-- The status chosen by `MarkFailed`. -/
def markFailedStatus (message : String) (r : Subjob) : SubjobStatus :=
  if r.layer = .scip && semanticallyEmpty message then .skipped
  else if r.layer = .scip && containsFold message "timeout after" then .skipped
  else exhaustedStatus isScipOrAst r

/-- The lease columns after an attempt ended without success. -/
def releaseRow (now : Time) (status : SubjobStatus) (r : Subjob) : Subjob :=
  { r with
    status
    leaseOwner := none
    leaseExpiresAt := none
    attemptId := none
    heartbeatAt := none
    completedAt := if status = .retrying then none else some now
    updatedAt := now }

/-- A dependent subjob canceled because a sibling failed for good. -/
def cancelRow (now : Time) (message : String) (r : Subjob) : Subjob :=
  { releaseRow now .canceled r with
    errorCode := some "PARENT_SUBJOB_FAILED"
    errorMessage := some message }

def failJob (now : Time) (message : String) (j : RepoIndexingJob) : RepoIndexingJob :=
  { j with
    status := .failed
    errorMessage := some message
    completedAt := some now
    updatedAt := now }

def waiting (r : Subjob) : Bool := r.status = .queued || r.status = .retrying

/-- One statement, so every part reads `db`. -/
def failParentIfTerminalFailure (now : Time) (subjobId errorCode errorMessage : String)
    (db : Database) : Database :=
  match db.subjobs.find? fun r => r.id = subjobId && r.status = .failed with
  | none => db
  | some f =>
    let message := errorCode ++ ": " ++ errorMessage
    let failing := fun j : RepoIndexingJob =>
      decide (j.id = f.repoIndexingJobId && j.repoId = f.repoId && j.status = .inProgress)
    { db with
      subjobs := updateWhere
        (fun r => r.repoIndexingJobId = f.repoIndexingJobId && r.id ≠ subjobId && waiting r)
        (cancelRow now message) db.subjobs
      jobs := updateWhere failing (failJob now message) db.jobs
      repos := updateWhere
        (fun r => (db.jobs.filter failing).any fun j => j.repoId = r.id)
        (fun r => { r with latestIndexingJobStatus := some .failed, updatedAt := now })
        db.repos }

/-- The `SET` clause of the two failure marks. -/
def failRow (now : Time) (status : Subjob → SubjobStatus) (errorCode errorMessage : String)
    (r : Subjob) : Subjob :=
  { releaseRow now (status r) r with
    errorCode := some errorCode
    errorMessage := some errorMessage }

/-- An update of a leased row followed by the parent check when it took effect. -/
def failSubjob (now : Time) (lease : Lease) (cond : Subjob → Bool)
    (status : Subjob → SubjobStatus) (errorCode errorMessage : String) (db : Database) :
    Reply Bool :=
  let updated := { db with
    subjobs := updateWhere cond (failRow now status errorCode errorMessage) db.subjobs }
  if affected cond db.subjobs = 1 then
    (.ok true, failParentIfTerminalFailure now lease.subjobId errorCode errorMessage updated)
  else (.ok false, updated)

def markFailed (now : Time) (lease : Lease) (errorCode errorMessage : String) (db : Database) :
    Reply Bool :=
  if !lease.complete then
    (.error "indexsubjobs: MarkFailed requires subjobID, leaseOwner, and attemptID", db)
  else
    let failure := normalizeFailure errorCode errorMessage
    failSubjob now lease (fun r => holdsLease db lease inFlight r && leaseAlive now r)
      (markFailedStatus failure.2) failure.1 failure.2 db

def markRetryableInfrastructureFailure (now : Time) (lease : Lease)
    (errorCode errorMessage : String) (db : Database) : Reply Bool :=
  if !lease.complete then
    (.error ("indexsubjobs: MarkRetryableInfrastructureFailure requires subjobID, " ++
      "leaseOwner, and attemptID"), db)
  else
    let failure := normalizeFailure errorCode errorMessage
    failSubjob now lease (fun r => holdsLease db lease [.claimed, .running] r && leaseAlive now r)
      (exhaustedStatus isScipOrAst) failure.1 failure.2 db

/-! ## Repair and requeue

`SKIP LOCKED` leaves out the rows another transaction has locked; the calls take
those ids as an argument. -/

/-- `ORDER BY key ASC LIMIT n` over the unlocked candidates, by storage order on ties. -/
def pickIds {κ : Type} [LinearOrder κ] (key : Subjob → κ) (limit : ℤ) (locked : List String)
    (candidate : Subjob → Bool) (rows : List Subjob) : List String :=
  (((rows.filter fun r => candidate r && !locked.contains r.id).insertionSort
    fun r r' => key r ≤ key r').take limit.toNat).map Subjob.id

def parentJob (db : Database) (r : Subjob) : Option RepoIndexingJob :=
  db.jobs.find? fun j => j.id = r.repoIndexingJobId && j.repoId = r.repoId

def parentRunning (db : Database) (r : Subjob) : Bool :=
  (parentJob db r).any fun j => j.type = .index && j.status = .inProgress

def requeueStatus (db : Database) (skippable : Layer → Bool) (r : Subjob) : SubjobStatus :=
  if parentRunning db r then exhaustedStatus skippable r else .canceled

/-- Release the picked rows; the result is the number of rows touched. -/
def requeueRows (stamp : Time) (skippable : Layer → Bool) (ids : List String) (db : Database) :
    Reply ℕ :=
  let cond := fun r : Subjob => ids.contains r.id
  (.ok (affected cond db.subjobs),
    { db with
      subjobs := updateWhere cond
        (fun r => releaseRow stamp (requeueStatus db skippable r) r) db.subjobs })

/-- `asOf` is the argument the leases are compared with. -/
def requeueExpiredLeases (now asOf : Time) (limit : ℤ) (locked : List String) (db : Database) :
    Reply ℕ :=
  if limit ≤ 0 then
    (.error "indexsubjobs: RequeueExpiredLeases requires positive limit", db)
  else
    requeueRows now isScipOrAst
      (pickIds (fun r => r.leaseExpiresAt.getD 0) limit locked
        (fun r => (parentJob db r).isSome && inFlight.contains r.status &&
          r.leaseExpiresAt.any (· < asOf))
        db.subjobs)
      db

/-- Unlike the expiry sweep it never skips an exhausted AST subjob. -/
def requeueLeasesForOwnerPrefixes (ownerPrefixes : List String) (stamp : Time) (limit : ℤ)
    (locked : List String) (db : Database) : Reply ℕ :=
  let cleanPrefixes := (ownerPrefixes.map trimSpace).filter (· ≠ "")
  if limit ≤ 0 then
    (.error "indexsubjobs: RequeueLeasesForOwnerPrefixes requires positive limit", db)
  else if cleanPrefixes = [] then
    (.error "indexsubjobs: RequeueLeasesForOwnerPrefixes requires at least one owner prefix", db)
  else
    requeueRows stamp isScip
      (pickIds (fun r => toLex (r.leaseExpiresAt.elim 0 (· + 1), r.updatedAt)) limit locked
        (fun r => (parentJob db r).isSome && inFlight.contains r.status &&
          r.leaseOwner.any fun owner => cleanPrefixes.any (likeOwnerPrefix owner))
        db.subjobs)
      db

/-- A FAILED subjob standing for its job in `ReconcileTerminalFailures`. -/
def jobFailureMessage (r : Subjob) : String :=
  (if coalesce r.errorCode = "" then "SUBJOB_FAILED" else coalesce r.errorCode) ++ ": " ++
    (if coalesce r.errorMessage = "" then "terminal subjob failed" else coalesce r.errorMessage)

/-- The `failed_jobs` subquery: for each live job its latest FAILED subjob. -/
def failedJobs (limit : ℤ) (db : Database) : List Subjob :=
  let candidates := db.subjobs.filter fun r =>
    r.status = .failed && liveJob db r.repoIndexingJobId r.repoId r.orgId
  (((candidates.map Subjob.repoIndexingJobId).dedup.insertionSort (· ≤ ·)).take
    limit.toNat).filterMap fun jobId =>
      (candidates.filter fun r => r.repoIndexingJobId = jobId).argmax
        fun r => toLex (r.updatedAt, r.id)

/-- A row that qualifies both as semantically empty and as a dependent of a failed job is
updated once; `skipWins` says how. -/
def reconcileTerminalFailures (now : Time) (limit : ℤ) (locked : List String)
    (skipWins : String → Bool) (db : Database) : Reply ℕ :=
  if limit ≤ 0 then
    (.error "indexsubjobs: ReconcileTerminalFailures requires positive limit", db)
  else
    let skipped := pickIds (fun r => toLex (r.updatedAt, r.id)) limit locked
      (fun r => r.layer = .scip && r.status = .retrying &&
        semanticallyEmpty (coalesce r.errorMessage) &&
        liveJob db r.repoIndexingJobId r.repoId r.orgId)
      db.subjobs
    let failed := failedJobs limit db
    let failureOf := fun r : Subjob =>
      failed.find? fun f => r.repoIndexingJobId = f.repoIndexingJobId && waiting r
    let failing := fun j : RepoIndexingJob =>
      failed.find? fun f =>
        j.id = f.repoIndexingJobId && j.repoId = f.repoId && j.status = .inProgress
    let touchesRepo := fun r : Repo =>
      db.jobs.any fun j => (failing j).isSome && j.repoId = r.id
    (.ok (affected touchesRepo db.repos),
      { db with
        subjobs := db.subjobs.map fun r =>
          match failureOf r with
          | none => if skipped.contains r.id then releaseRow now .skipped r else r
          | some f =>
            if skipped.contains r.id && skipWins r.id then releaseRow now .skipped r
            else cancelRow now (jobFailureMessage f) r
        jobs := db.jobs.map fun j =>
          match failing j with
          | none => j
          | some f => failJob now (jobFailureMessage f) j
        repos := updateWhere touchesRepo
          (fun r => { r with latestIndexingJobStatus := some .failed, updatedAt := now })
          db.repos })

end CodeIntel.Subjobs
