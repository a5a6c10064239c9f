import CodeIntel.Relational.Run
import CodeIntel.Relational.Table
import CodeIntel.Schema.Database
import CodeIntel.Text.GoString
import Mathlib.Data.Prod.Lex
import Mathlib.Logic.Function.Basic

/-!
# Scheduling index jobs

`ScheduleRepoIndex` inserts a job in one statement: it takes the advisory lock of
the repository, looks for an active job of the branch and inserts if there is
none. The statement reads the snapshot it started with, also when it then waits
for the lock. Calls and workers interleave at the granularity of these events.
-/

namespace CodeIntel.Scheduler

open Relational Schema Text

/-! ## The statement -/

def schedulerRefCandidates (ref : String) : List String :=
  let ref := trimSpace ref
  if ref = "" then []
  else
    let stripped := trimPrefix ref "refs/heads/"
    let out :=
      if stripped ≠ ref ∧ trimSpace stripped ≠ "" then [ref, stripped]
      else [ref, "refs/heads/" ++ ref]
    ((out.map trimSpace).filter (· ≠ "")).eraseDups

/-- `status IN ('PENDING', 'IN_PROGRESS')`. -/
def isActive (j : RepoIndexingJob) : Bool :=
  j.status = .pending || j.status = .inProgress

/-- `COALESCE(metadata->>'ref', '')`. -/
def jobRef (j : RepoIndexingJob) : String := j.ref.getD ""

/-- A running `insertPendingRepoIndexJob`: its arguments, the jobs it can see and the
time its transaction started. -/
structure Statement where
  repoId : ℤ
  jobId : String
  jobType : JobType
  ref : String
  snapshot : List RepoIndexingJob
  startedAt : Time
  deriving DecidableEq, Repr

namespace Statement

/-- The condition of the query `existing`. -/
def blockedBy (st : Statement) (j : RepoIndexingJob) : Bool :=
  j.repoId = st.repoId && isActive j &&
    (st.ref = "" || jobRef j = "" || (schedulerRefCandidates st.ref).contains (jobRef j))

/-- The query `existing`: the newest blocking job of the snapshot. -/
def existing (st : Statement) : Option RepoIndexingJob :=
  (st.snapshot.filter st.blockedBy).argmax fun j => toLex (j.createdAt, j.id)

def row (st : Statement) : RepoIndexingJob where
  id := st.jobId
  repoId := st.repoId
  type := st.jobType
  status := .pending
  ref := if st.ref = "" then none else some st.ref
  createdAt := st.startedAt
  updatedAt := st.startedAt

end Statement

/-! ## Calls and workers -/

/-- `RepoScheduleRequest`, with a valid kind. -/
structure RepoScheduleRequest where
  (orgId repoId : ℤ)
  kind : JobType
  ref : String
  deriving DecidableEq, Repr

/-- The errors of `ScheduleRepoIndex`. -/
inductive ScheduleError where
  | other (message : String)
  | repoNotFound
  | jobAlreadyActive (jobId : String) (type : JobType) (status : JobStatus)
  deriving DecidableEq, Repr

/-- Where a call stands. -/
inductive CallPhase where
  | idle
  | loaded (req : RepoScheduleRequest)
  | waiting (st : Statement)
  | locked (st : Statement)
  | inserted (jobId : String)
  | done (result : Except ScheduleError String)

def CallPhase.statement : CallPhase → Option Statement
  | .waiting st => some st
  | .locked st => some st
  | _ => none

/-- The database, the calls and the repositories whose advisory lock is held. -/
structure SchedulerState where
  db : Database
  calls : ℕ → CallPhase
  locks : List ℤ

inductive SchedulerStep where
  /-- The checks of a request and the query for its repository. -/
  | load (c : ℕ) (req : RepoScheduleRequest)
  /-- The statement starts and takes its snapshot. -/
  | start (c : ℕ) (jobId : String) (now : Time)
  /-- The advisory lock is granted. -/
  | acquire (c : ℕ)
  /-- The statement ends, which commits it and releases the lock. -/
  | commit (c : ℕ)
  /-- The task is enqueued, or the enqueue fails with an error. -/
  | enqueue (c : ℕ) (failure : Option String) (now : Time)
  /-- A worker takes up a job. -/
  | take (jobId : String) (now : Time)
  /-- A worker completes a job, or fails it with an error. -/
  | finish (jobId : String) (failure : Option String) (now : Time)

/-- `SELECT name FROM "Repo"` of `ScheduleRepoIndex` finds a row. -/
def repoInOrg (db : Database) (req : RepoScheduleRequest) : Bool :=
  db.repos.any fun r => r.id = req.repoId && r.orgId = req.orgId &&
    db.repoConnections.any fun rc => rc.repoId = r.id &&
      db.connections.any fun c => c.id = rc.connectionId && c.orgId = r.orgId

/-- The phase a request is in after its checks. -/
def loadRequest (db : Database) (req : RepoScheduleRequest) : CallPhase :=
  if req.orgId ≤ 0 || req.repoId ≤ 0 then
    .done (.error (.other "backend scheduler: orgId and repoId are required"))
  else if repoInOrg db req then .loaded req
  else .done (.error .repoNotFound)

def startStatement (jobs : List RepoIndexingJob) (req : RepoScheduleRequest) (jobId : String)
    (now : Time) : Statement where
  repoId := req.repoId
  jobId := jobId
  jobType := req.kind
  ref := trimSpace req.ref
  snapshot := jobs
  startedAt := now

def commitStatement (db : Database) (st : Statement) : List RepoIndexingJob × CallPhase :=
  match st.existing with
  | some j => (db.jobs, .done (.error (.jobAlreadyActive j.id j.type j.status)))
  | none =>
    if db.jobs.any fun j => j.id = st.jobId then
      (db.jobs, .done (.error (.other ("backend scheduler: insert pending repo index job: " ++
        "duplicate key value violates unique constraint RepoIndexingJob_pkey"))))
    else if !db.repos.any fun r => r.id = st.repoId then
      (db.jobs, .done (.error (.other ("backend scheduler: insert pending repo index job: " ++
        "violates foreign key constraint RepoIndexingJob_repoId_fkey"))))
    else (db.jobs ++ [st.row], .inserted st.jobId)

def markRepoIndexJobFailedAfterEnqueueError (now : Time) (jobId cause : String)
    (jobs : List RepoIndexingJob) : List RepoIndexingJob :=
  updateWhere (fun j => j.id = jobId && j.status = .pending)
    (fun j =>
      { j with
        status := .failed
        errorMessage := some ("enqueue failed before worker delivery: " ++ cause)
        completedAt := some now
        updatedAt := now })
    jobs

/-- `MarkInProgress`. -/
def takeJob (now : Time) (jobId : String) (jobs : List RepoIndexingJob) : List RepoIndexingJob :=
  updateWhere (fun j => j.id = jobId && isActive j)
    (fun j => { j with status := .inProgress, updatedAt := now }) jobs

/-- `MarkCompleted` and `MarkFailed`. -/
def finishJob (now : Time) (jobId : String) (failure : Option String)
    (jobs : List RepoIndexingJob) : List RepoIndexingJob :=
  updateWhere (fun j => j.id = jobId)
    (fun j =>
      { j with
        status := if failure.isSome then .failed else .completed
        errorMessage := failure.or j.errorMessage
        completedAt := some now
        updatedAt := now })
    jobs

def SchedulerState.setJobs (s : SchedulerState) (jobs : List RepoIndexingJob) : SchedulerState :=
  { s with db := { s.db with jobs } }

def SchedulerState.setCall (s : SchedulerState) (c : ℕ) (phase : CallPhase) : SchedulerState :=
  { s with calls := Function.update s.calls c phase }

def schedulerStep (s : SchedulerState) : SchedulerStep → Option SchedulerState
  | .load c req => match s.calls c with
    | .idle => some (s.setCall c (loadRequest s.db req))
    | _ => none
  | .start c jobId now => match s.calls c with
    | .loaded req => some (s.setCall c (.waiting (startStatement s.db.jobs req jobId now)))
    | _ => none
  | .acquire c => match s.calls c with
    | .waiting st =>
      if st.repoId ∈ s.locks then none
      else some { s.setCall c (.locked st) with locks := st.repoId :: s.locks }
    | _ => none
  | .commit c => match s.calls c with
    | .locked st =>
      some
        { (s.setJobs (commitStatement s.db st).1).setCall c (commitStatement s.db st).2 with
          locks := s.locks.erase st.repoId }
    | _ => none
  | .enqueue c failure now => match s.calls c with
    | .inserted jobId => match failure with
      | none => some (s.setCall c (.done (.ok jobId)))
      | some e =>
        some ((s.setJobs (markRepoIndexJobFailedAfterEnqueueError now jobId e s.db.jobs)).setCall c
          (.done (.error (.other ("backend scheduler: enqueue repo index: " ++ e)))))
    | _ => none
  | .take jobId now => some (s.setJobs (takeJob now jobId s.db.jobs))
  | .finish jobId failure now => some (s.setJobs (finishJob now jobId failure s.db.jobs))

def schedulerMachine : Machine SchedulerState SchedulerStep := ⟨schedulerStep⟩

end CodeIntel.Scheduler
