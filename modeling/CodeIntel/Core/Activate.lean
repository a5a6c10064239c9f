import CodeIntel.Core.Merge

/-!
# ACTIVATE and the core task handler

`activate` is one transaction: it resolves the pending manifest and the READY
graph of a revision, supersedes the older manifests of the branch and publishes
the revision. `handle` wraps it, like the merge, into claim, heartbeat and the
final mark of the subjob.
-/

namespace CodeIntel.Core

open Relational Schema Subjobs CodeIntel.Graph

/-! ## The transaction -/

def repoExists (p : Payload) (db : Database) : Bool :=
  db.repos.any fun r => r.id = p.repoId && r.orgId = p.orgId

def pendingFor (p : Payload) (m : RepoIndexManifest) : Bool :=
  m.indexJobId = some p.repoIndexingJobId && m.orgId = p.orgId && m.repoId = p.repoId &&
    m.workspaceId = workspaceOf p && m.branch = p.branch && m.commitHash = p.commitHash &&
    m.status = .pending

def resolvePendingManifest (p : Payload) (db : Database) : Option RepoIndexManifest :=
  (db.manifests.filter (pendingFor p)).argmax fun m => toLex (m.createdAt, m.id)

def resolveReadyGraph (p : Payload) (db : Database) : Option CodeGraphIndex :=
  (db.graphIndexes.filter fun g => graphOfRevision p g && g.status = .ready).argmax
    fun g => toLex (g.updatedAt, g.id)

/-- The subjobs that hold the activation back. -/
def blocking (p : Payload) (dep : Subjob) : Bool :=
  dependencyOf p dep && dep.layer ≠ .activate && !depFinished dep

/-- The manifest shares the branch and the provider connection of `current`. -/
def sameBranch (p : Payload) (current m : RepoIndexManifest) : Bool :=
  m.orgId = p.orgId && m.repoId = p.repoId && m.workspaceId = workspaceOf p &&
    m.providerConnectionId = current.providerConnectionId && m.branch = p.branch

def supersede (now : Time) (m : RepoIndexManifest) : RepoIndexManifest :=
  { m with status := .superseded, supersededAt := some now, updatedAt := now }

def supersedeStale (now : Time) (m : RepoIndexManifest) : RepoIndexManifest :=
  { supersede now m with
    errorMessage := some (m.errorMessage.getD
      "Superseded by a newer activated index manifest for the same branch.") }

def activateManifest (now : Time) (m : RepoIndexManifest) : RepoIndexManifest :=
  { m with
    status := .ready
    activatedAt := some now
    failedAt := none
    errorMessage := none
    updatedAt := now }

/-- The first manifest statement: older READY manifests of the branch. -/
def supersedeReady (now : Time) (p : Payload) (current : RepoIndexManifest)
    (rows : List RepoIndexManifest) : List RepoIndexManifest :=
  updateWhere (fun m => m.id ≠ current.id && sameBranch p current m && m.status = .ready)
    (supersede now) rows

/-- The second manifest statement: PENDING manifests not newer than the current one. -/
def supersedePending (now : Time) (p : Payload) (current : RepoIndexManifest)
    (rows : List RepoIndexManifest) : List RepoIndexManifest :=
  updateWhere
    (fun m => m.id ≠ current.id && sameBranch p current m && m.status = .pending &&
      rows.any fun c => c.id = current.id && sameBranch p current c && m.createdAt ≤ c.createdAt)
    (supersedeStale now) rows

def activateCurrent (now : Time) (current : RepoIndexManifest) (rows : List RepoIndexManifest) :
    List RepoIndexManifest :=
  updateWhere (fun m => m.id = current.id && m.status = .pending) (activateManifest now) rows

def activatedManifests (now : Time) (p : Payload) (current : RepoIndexManifest)
    (rows : List RepoIndexManifest) : List RepoIndexManifest :=
  activateCurrent now current (supersedePending now p current (supersedeReady now p current rows))

def activatedRevisions (now : Time) (newId : String) (p : Payload) (graph : CodeGraphIndex)
    (rows : List CodeGraphRevision) : List CodeGraphRevision :=
  upsert
    (fun r => r.repoId = p.repoId && r.workspaceId = workspaceOf p && r.revision = p.revision &&
      r.schemaVersion = defaultSchemaVersion && r.builderVersion = defaultBuilder)
    (fun r =>
      { r with
        commitHash := p.commitHash
        codeGraphIndexId := graph.id
        activatedAt := now
        updatedAt := now })
    { id := newId
      revision := p.revision
      workspaceId := workspaceOf p
      commitHash := p.commitHash
      schemaVersion := defaultSchemaVersion
      builderVersion := defaultBuilder
      orgId := p.orgId
      repoId := p.repoId
      codeGraphIndexId := graph.id
      activatedAt := now
      updatedAt := now }
    rows

/-- The sorted union of the listed revisions and the branches with a READY manifest. -/
def mergedRevisions (p : Payload) (manifests : List RepoIndexManifest) (listed : List String) :
    List String :=
  let ready := (manifests.filter fun m =>
    m.orgId = p.orgId && m.repoId = p.repoId && m.workspaceId = workspaceOf p &&
      m.status = .ready).map RepoIndexManifest.branch
  (((listed ++ ready).filter (· ≠ "")).dedup).insertionSort (· ≤ ·)

def publishRepo (now : Time) (p : Payload) (manifests : List RepoIndexManifest) (r : Repo) :
    Repo :=
  let metadata := r.metadata.getD {}
  { r with
    metadata := some { metadata with
      indexedRevisions := mergedRevisions p manifests metadata.indexedRevisions }
    indexedAt := some now
    indexedCommitHash := some p.commitHash
    updatedAt := now }

def activatedDatabase (now : Time) (newId : String) (p : Payload)
    (current : RepoIndexManifest) (graph : CodeGraphIndex) (db : Database) : Database :=
  let manifests := activatedManifests now p current db.manifests
  { db with
    manifests
    graphRevisions := activatedRevisions now newId p graph db.graphRevisions
    repos := updateWhere (fun r => r.id = p.repoId && r.orgId = p.orgId)
      (publishRepo now p manifests) db.repos }

/-- Every error rolls the transaction back. -/
def activate (now : Time) (newId : String) (p : Payload) (db : Database) : Reply Unit :=
  if !repoExists p db then (.error "lock repo indexed metadata: no rows in result set", db)
  else match resolvePendingManifest p db with
    | none => (.error "resolve pending manifest: no rows in result set", db)
    | some current =>
      match resolveReadyGraph p db with
      | none => (.error "resolve ready graph snapshot: no rows in result set", db)
      | some graph =>
        let blocked := affected (blocking p) db.subjobs
        if blocked ≠ 0 then
          (.error ("indexcore: activation blocked by " ++ toString blocked ++
            " unfinished subjobs"), db)
        else (.ok (), activatedDatabase now newId p current graph db)

theorem activate_ok_iff {now : Time} {newId : String} {p : Payload} {db : Database} :
    (activate now newId p db).1 = .ok () ↔
      repoExists p db = true ∧ (∃ m ∈ db.manifests, pendingFor p m = true) ∧
        (∃ g ∈ db.graphIndexes, graphOfRevision p g = true ∧ g.status = .ready) ∧
        ∀ dep ∈ db.subjobs, blocking p dep = false := by
  unfold activate
  by_cases hrepo : repoExists p db = true
  · cases hm : resolvePendingManifest p db with
    | none =>
      have := argmax_filter_eq_none.1 hm
      simp_all
    | some current =>
      have hcurrent := mem_of_argmax_filter hm
      cases hg : resolveReadyGraph p db with
      | none =>
        have := argmax_filter_eq_none.1 hg
        simp_all
      | some graph =>
        have hgraph := mem_of_argmax_filter hg
        simp only [Bool.and_eq_true, decide_eq_true_eq] at hgraph
        simp only [hrepo, Bool.not_true, Bool.false_eq_true, if_false, true_and]
        by_cases hblocked : affected (blocking p) db.subjobs = 0
        · simp only [hblocked, ne_eq, not_true_eq_false, if_false, true_iff]
          exact ⟨⟨current, hcurrent⟩, ⟨graph, hgraph⟩, affected_eq_zero_iff.1 hblocked⟩
        · simp only [ne_eq, hblocked, not_false_eq_true, if_true, reduceCtorEq, false_iff]
          rintro ⟨-, -, hfree⟩
          exact hblocked (affected_eq_zero_iff.2 hfree)
  · simp [hrepo]

theorem activate_cases (now : Time) (newId : String) (p : Payload) (db : Database) :
    (∃ e, activate now newId p db = (.error e, db)) ∨
      ∃ current graph, resolvePendingManifest p db = some current ∧
        resolveReadyGraph p db = some graph ∧
        activate now newId p db = (.ok (), activatedDatabase now newId p current graph db) := by
  unfold activate
  split
  · exact .inl ⟨_, rfl⟩
  split
  · exact .inl ⟨_, rfl⟩
  split
  · exact .inl ⟨_, rfl⟩
  dsimp only
  split
  · exact .inl ⟨_, rfl⟩
  · exact .inr ⟨_, _, ‹_›, ‹_›, rfl⟩

theorem activate_of_ok {now : Time} {newId : String} {p : Payload} {db : Database}
    (h : (activate now newId p db).1 = .ok ()) :
    ∃ current graph, resolvePendingManifest p db = some current ∧
      resolveReadyGraph p db = some graph ∧
      (activate now newId p db).2 = activatedDatabase now newId p current graph db := by
  obtain ⟨e, he⟩ | ⟨current, graph, hm, hg, heq⟩ := activate_cases now newId p db
  · rw [he] at h
    cases h
  · exact ⟨current, graph, hm, hg, congrArg Prod.snd heq⟩

def completeJobIfReady (now : Time) (p : Payload) (db : Database) : Database :=
  let jobs := updateWhere
    (fun j => j.id = p.repoIndexingJobId && j.repoId = p.repoId && j.type = .index &&
      j.status = .inProgress &&
      !db.subjobs.any fun s => s.repoIndexingJobId = j.id && !depFinished s)
    (fun j => { j with status := .completed, completedAt := some now, updatedAt := now })
    db.jobs
  let latest := (jobs.filter fun j => j.repoId = p.repoId).argmax fun j => toLex (j.createdAt, j.id)
  { db with
    jobs := jobs
    repos := updateWhere (fun r => r.id = p.repoId && r.orgId = p.orgId && latest.isSome)
      (fun r => { r with latestIndexingJobStatus := latest.map RepoIndexingJob.status }) db.repos }

/-! ## The task handler -/

/-- `Payload.Validate`. -/
def validPayload (p : Payload) : Bool :=
  p.id ≠ "" && p.repoIndexingJobId ≠ "" && 0 < p.orgId && 0 < p.repoId &&
    coalesce p.workspaceId ≠ "" && p.branch ≠ "" && p.revision ≠ "" && p.workerClass ≠ "" &&
    p.queueName ≠ "" && isCommitHash p.commitHash && classServesQueue p.workerClass p.queueName &&
    if p.layer = .scip then
      coalesce p.language ≠ "" && p.projectRoot.isSome && coalesce p.indexer ≠ ""
    else p.language = none && p.projectRoot = none && p.indexer = none

/-- What one execution of the handler draws from outside: clock readings, lease
deadlines, fresh identifiers and the answer of the graph store. -/
structure Execution where
  (leaseOwner attemptId : String)
  (claimAt claimLease heartbeatAt heartbeatLease executeAt finishAt : Time)
  newId : String
  caps : ProjectionCaps := {}
  graphError : Option String := none

def execute (d : Digests) (x : Execution) (p : Payload) (db : Database) : Reply Unit :=
  if p.layer = .graphMerge then mergeGraph d x.caps x.graphError x.executeAt x.newId p db
  else activate x.executeAt x.newId p db

/-- The first renewal, then the work. -/
def withHeartbeat (d : Digests) (x : Execution) (p : Payload) (db : Database) : Reply Unit :=
  match heartbeat x.heartbeatAt ⟨p.id, x.leaseOwner, x.attemptId⟩ x.heartbeatLease db with
  | (.error e, db') => (.error ("initial heartbeat: " ++ e), db')
  | (.ok false, db') => (.error "initial heartbeat: lease lost", db')
  | (.ok true, db') => execute d x p db'

def recordFailure (x : Execution) (p : Payload) (message : String) (db : Database) : Reply Unit :=
  match markFailed x.finishAt ⟨p.id, x.leaseOwner, x.attemptId⟩ "CORE_SUBJOB_FAILED" message db with
  | (.error e, db') => (.error ("mark core subjob " ++ p.id ++ " failed: " ++ e), db')
  | (.ok false, db') => (.error ("mark core subjob " ++ p.id ++ " failed: lease lost"), db')
  | (.ok true, db') => (.ok (), db')

def recordSuccess (x : Execution) (p : Payload) (db : Database) : Reply Unit :=
  match markSucceeded x.finishAt ⟨p.id, x.leaseOwner, x.attemptId⟩ db with
  | (.error e, db') => (.error ("mark core subjob " ++ p.id ++ " succeeded: " ++ e), db')
  | (.ok false, db') => (.error ("mark core subjob " ++ p.id ++ " succeeded: lease lost"), db')
  | (.ok true, db') =>
    (.ok (), if p.layer = .activate then completeJobIfReady x.finishAt p db' else db')

def finishTask (x : Execution) (p : Payload) : Reply Unit → Reply Unit
  | (.error message, db) => recordFailure x p message db
  | (.ok (), db) => recordSuccess x p db

/-- `Handle` for a decoded task. -/
def handle (d : Digests) (x : Execution) (taskType : String) (p : Payload) (db : Database) :
    Reply Unit :=
  if !validPayload p || taskType ≠ p.queueName then (.ok (), db)
  else if p.layer ≠ .graphMerge && p.layer ≠ .activate then
    (.error ("indexcore: unsupported core layer " ++ p.layer.text), db)
  else match claimScoped x.claimAt p x.leaseOwner x.attemptId x.claimLease db with
    | (.error e, db') => (.error ("claim core subjob " ++ p.id ++ ": " ++ e), db')
    | (.ok false, db') => (.ok (), db')
    | (.ok true, db') => finishTask x p (withHeartbeat d x p db')

end CodeIntel.Core
