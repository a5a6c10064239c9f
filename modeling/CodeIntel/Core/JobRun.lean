import CodeIntel.Core.ManifestOrder
import CodeIntel.Core.MergeFrame
import CodeIntel.Planner.PlanRows
import CodeIntel.Subjobs.ActivateOrder
import CodeIntel.Subjobs.RowProgress

/-!
# The run of an INDEX job

The planner of a job stores the rows of its plan one statement after the other, while
dispatchers and task handlers already work on the rows that are there. Every statement
is a step of its own, and the planner or a handler may stop between any two of them.
-/

namespace CodeIntel.Core

open Relational Schema Subjobs CodeIntel.Graph

/-! ## The planner of the job -/

/-- What the planner of a job stores: the rows of `Build`, by `UpsertQueued`, and after them
the SCIP projects without a worker, by `UpsertSkipped`. -/
structure JobPlan where
  sha256Hex : String → String
  input : Planner.Input
  (rows skipped : List CreateInput)
  built : Planner.build sha256Hex input = .ok rows
  scip : ∀ row ∈ skipped, row.layer = .scip

def JobPlan.jobId (plan : JobPlan) : String := plan.input.repoIndexingJobId

theorem JobPlan.rows_ne_nil (plan : JobPlan) : plan.rows ≠ [] := by
  obtain ⟨-, -, -, -, hne, -⟩ := Planner.build_rows plan.built
  exact hne

/-- Where the planner stands: what it has still to store, or that it got an error. -/
inductive Planning where
  | issuing (rows skipped : List CreateInput)
  | failing
  | stopped

/-- The `WHERE` clause of the scoped job transitions. -/
def openJob (inp : Planner.Input) (db : Database) (j : RepoIndexingJob) : Bool :=
  j.id = inp.repoIndexingJobId && j.repoId = inp.repoId && j.type = .index &&
    (j.status = .pending || j.status = .inProgress) &&
    db.repos.any fun r => r.id = j.repoId && r.orgId = inp.orgId

/-- The result is whether a row was affected. -/
def markInProgressScoped (now : Time) (inp : Planner.Input) (db : Database) : Reply Bool :=
  (.ok (affected (openJob inp db) db.jobs ≠ 0),
    { db with
      jobs := updateWhere (openJob inp db)
        (fun j => { j with status := .inProgress, updatedAt := now }) db.jobs })

def markFailedScoped (now : Time) (message : String) (inp : Planner.Input) (db : Database) :
    Database :=
  { db with jobs := updateWhere (openJob inp db) (failJob now message) db.jobs }

/-! ## Handlers -/

/-- How far a task handler has come after its claim. -/
inductive TaskPhase where
  | working
  | executed
  | failed (message : String)
  | marked
  deriving DecidableEq

/-- A task handler that was granted its claim. -/
structure Worker where
  payload : Payload
  run : Execution
  phase : TaskPhase := .working

def Worker.lease (w : Worker) : Lease := ⟨w.payload.id, w.run.leaseOwner, w.run.attemptId⟩

/-- The layers whose work `indexcore` does itself. -/
def isCore (layer : Layer) : Bool := layer = .graphMerge || layer = .activate

/-- The database, the planner, whether a planner has stored the last row of the plan,
the queue messages so far, and the handlers at work. -/
structure JobState where
  db : Database
  planning : Planning := .stopped
  planned : Bool := false
  issued : List Payload := []
  workers : List Worker := []

def JobState.issue (s : JobState) (now : Time) : Option JobState :=
  match s.planning with
  | .issuing (row :: rows) skipped => match upsertQueued now row s.db with
    | (.ok (), db) => some { s with
        db
        planning := .issuing rows skipped
        planned := s.planned || rows.isEmpty }
    | (.error _, db) => some { s with
        db
        planning := .failing }
  | .issuing [] (row :: skipped) => match Planner.storeSkipped now row s.db with
    | (.ok (), db) => some { s with
        db
        planning := .issuing [] skipped }
    | (.error _, db) => some { s with
        db
        planning := .failing }
  | _ => none

/-- `ClaimScoped` for a delivered message; a refused claim ends the task. -/
def JobState.claim (s : JobState) (p : Payload) (x : Execution) : JobState :=
  match claimScoped x.claimAt p x.leaseOwner x.attemptId x.claimLease s.db with
  | (.ok true, db) => { s with
      db := db
      workers := s.workers ++ [{ payload := p, run := x }] }
  | (_, db) => { s with db }

def JobState.execute (s : JobState) (d : Digests) (i : ℕ) (w : Worker) : Option JobState :=
  if w.phase = .working && isCore w.payload.layer then
    match Core.execute d w.run w.payload s.db with
    | (.ok (), db) => some { s with
        db := db
        workers := s.workers.set i { w with phase := .executed } }
    | (.error message, db) => some { s with
        db := db
        workers := s.workers.set i { w with phase := .failed message } }
  else none

/-- `MarkSucceeded`; the handler of an ACTIVATE subjob goes on to complete the job. -/
def JobState.succeed (s : JobState) (i : ℕ) (w : Worker) : JobState :=
  match markSucceeded w.run.finishAt w.lease s.db with
  | (.ok true, db) => { s with
      db := db
      workers := if w.payload.layer = .activate then s.workers.set i { w with phase := .marked }
        else s.workers.eraseIdx i }
  | (_, db) => { s with
      db
      workers := s.workers.eraseIdx i }

/-- The mark of the subjob. The work of the other layers changes none of the tables here,
so that their handlers may mark at any time. -/
def JobState.mark (s : JobState) (i : ℕ) (w : Worker) : Option JobState :=
  match w.phase with
  | .working => if isCore w.payload.layer then none else some (s.succeed i w)
  | .executed => some (s.succeed i w)
  | .failed message => some { s with
      db := (recordFailure w.run w.payload message s.db).2
      workers := s.workers.eraseIdx i }
  | .marked => none

def JobState.complete (s : JobState) (i : ℕ) (w : Worker) : Option JobState :=
  if w.phase = .marked then
    some { s with
      db := completeJobIfReady w.run.finishAt w.payload s.db
      workers := s.workers.eraseIdx i }
  else none

/-! ## The machine -/

/-- Calls of the store outside claims and success marks: renewals, failures, requeues and
repairs, and the planning of other jobs. -/
def JobPlan.allows (plan : JobPlan) : StoreCall → Bool
  | .upsertQueued _ inp => inp.repoIndexingJobId ≠ plan.jobId
  | .upsertSkipped _ _ inp _ _ => inp.repoIndexingJobId ≠ plan.jobId
  | .claimScoped .. | .markSucceeded .. | .otherTables _ => false
  | _ => true

/-- Subjobs, the row of the job and the manifests that reached READY are untouched. -/
def JobPlan.undisturbed (plan : JobPlan) (db db' : Database) : Bool :=
  db'.subjobs = db.subjobs && (db'.jobs.all fun j => j.id ≠ plan.jobId || db.jobs.contains j) &&
    db.manifests.all fun m => m.activatedAt.isNone || db'.manifests.contains m

inductive JobStep where
  | start (now : Time)
  | plan (now : Time)
  | abandon (now : Time) (message : String)
  | stopPlanner
  | dispatch (limit : ℤ)
  | claim (p : Payload) (x : Execution)
  | execute (d : Digests) (i : ℕ)
  | mark (i : ℕ)
  | complete (i : ℕ)
  | leave (i : ℕ)
  | store (call : StoreCall)
  | other (f : Database → Database)

/-- Every statement of the planner, the dispatcher and the handlers is one step. A planner
that stopped may be started again by a second delivery of its task, and `leave` ends a
handler wherever it stands. -/
def jobMachine (plan : JobPlan) : Machine JobState JobStep where
  step s
    | .start now => match s.planning with
      | .stopped =>
        if (markInProgressScoped now plan.input s.db).1 = .ok true then
          some { s with
            db := (markInProgressScoped now plan.input s.db).2
            planning := .issuing plan.rows plan.skipped }
        else some s
      | _ => none
    | .plan now => s.issue now
    | .abandon now message => match s.planning with
      | .failing => some { s with
          db := markFailedScoped now message plan.input s.db
          planning := .stopped }
      | _ => none
    | .stopPlanner => some { s with planning := .stopped }
    | .dispatch limit => some { s with issued := s.issued ++ dispatchMessages limit s.db }
    | .claim p x => if s.issued.contains p then some (s.claim p x) else none
    | .execute d i => s.workers[i]?.bind (s.execute d i)
    | .mark i => s.workers[i]?.bind (s.mark i)
    | .complete i => s.workers[i]?.bind (s.complete i)
    | .leave i => some { s with workers := s.workers.eraseIdx i }
    | .store call => if plan.allows call then some { s with db := call.apply s.db } else none
    | .other f => if plan.undisturbed s.db (f s.db) then some { s with db := f s.db } else none

/-! ## Stored rows and activated manifests -/

/-- The table has a row of the id and the scope of a planned one. -/
def Stored (db : Database) (row : CreateInput) : Prop :=
  ∃ r ∈ db.subjobs, r.id = row.id ∧ sameScope r (newSubjob 0 row .queued "" "" none) = true

/-- The columns that tie a manifest to the revision of a job. -/
abbrev ManifestKey := Option String × ℤ × ℤ × String × String × String

def manifestKey (m : RepoIndexManifest) : ManifestKey :=
  (m.indexJobId, m.orgId, m.repoId, m.workspaceId, m.branch, m.commitHash)

def rowKey (r : Subjob) : ManifestKey :=
  (some r.repoIndexingJobId, r.orgId, r.repoId, r.workspaceId, r.branch, r.commitHash)

def payloadKey (p : Payload) : ManifestKey :=
  (some p.repoIndexingJobId, p.orgId, p.repoId, workspaceOf p, p.branch, p.commitHash)

/-- A manifest of the revision became READY; its activation time stays when it is
superseded. -/
def ReachedReady (db : Database) (key : ManifestKey) : Prop :=
  ∃ m ∈ db.manifests, manifestKey m = key ∧ m.activatedAt.isSome = true

instance (db : Database) (row : CreateInput) : Decidable (Stored db row) :=
  inferInstanceAs (Decidable (∃ r ∈ db.subjobs, _))

instance (db : Database) (key : ManifestKey) : Decidable (ReachedReady db key) :=
  inferInstanceAs (Decidable (∃ m ∈ db.manifests, _))

section Rows

variable {marks : String → Prop} {r r' : Subjob} {row : CreateInput} {p : Payload}

theorem sameScope_columns {now : Time} {status : SubjobStatus} {code message : String}
    {completed : Option Time}
    (h : sameScope r (newSubjob now row status code message completed) = true) :
    r.repoIndexingJobId = row.repoIndexingJobId ∧ r.orgId = row.orgId ∧ r.repoId = row.repoId ∧
      (r.workspaceId, r.branch, r.revision, r.commitHash) = Planner.inputRevision row ∧
      r.layer = row.layer := by
  simp only [sameScope, scopeKey, Bool.and_eq_true, decide_eq_true_eq, Prod.mk.injEq,
    List.cons.injEq] at h
  obtain ⟨⟨⟨⟨⟨hjob, hws, hbranch, hrevision, hcommit, -⟩, hlayer⟩, horg⟩, hrepo⟩, -⟩ := h
  refine ⟨hjob, horg, hrepo, ?_, hlayer⟩
  simp only [hws, hbranch, hrevision, hcommit]
  rfl

theorem rowKey_of_rowOf {inp : Planner.Input} {rev : Planner.Revision}
    (h : sameScope r (newSubjob 0 row .queued "" "" none) = true) (hrow : Planner.RowOf inp rev row) :
    rowKey r = (some inp.repoIndexingJobId, inp.orgId, inp.repoId, coalesce rev.workspaceId,
      rev.branch, rev.commitHash) := by
  obtain ⟨hjob, horg, hrepo, hrevision, -⟩ := sameScope_columns h
  rw [hrow.revision] at hrevision
  simp only [Planner.Revision.key, Prod.mk.injEq] at hrevision
  simp only [rowKey, hjob, horg, hrepo, hrow.job, hrow.org, hrow.repo, hrevision]

theorem matchesRow_key (h : p.matchesRow r = true) : payloadKey p = rowKey r := by
  simp only [ClaimScope.matchesRow, Bool.and_eq_true, decide_eq_true_eq] at h
  obtain ⟨⟨⟨⟨⟨⟨⟨⟨⟨⟨⟨⟨⟨-, hjob⟩, horg⟩, hws⟩, hrepo⟩, hbranch⟩, -⟩, hcommit⟩, -⟩, -⟩, -⟩, -⟩, -⟩, -⟩ := h
  simp [payloadKey, rowKey, workspaceOf, coalesce, ← hws, hjob, horg, hrepo, hbranch, hcommit]

theorem dependencyOf_of_matchesRow (h : p.matchesRow r = true) (dep : Subjob) :
    dependencyOf p dep = sameRevision r dep := by
  simp only [ClaimScope.matchesRow, Bool.and_eq_true, decide_eq_true_eq] at h
  obtain ⟨⟨⟨⟨⟨⟨⟨⟨⟨⟨⟨⟨⟨-, hjob⟩, -⟩, hws⟩, hrepo⟩, hbranch⟩, hrevision⟩, hcommit⟩, -⟩, -⟩, -⟩, -⟩, -⟩,
    -⟩ := h
  simp [dependencyOf, sameRevision, workspaceOf, coalesce, ← hws, hjob, hrepo, hbranch, hrevision,
    hcommit]

theorem terminal_of_depFinished (h : depFinished r = true) : r.status ∈ terminal := by
  simp only [depFinished, Bool.or_eq_true, Bool.and_eq_true, decide_eq_true_eq] at h
  rcases h with (h | h) | ⟨-, h | h⟩ <;> rw [h] <;> decide

theorem depFinished_activate (hlayer : r.layer = .activate) :
    depFinished r = true ↔ r.status = .succeeded ∨ r.status = .skipped := by
  simp [depFinished, hlayer]

theorem finished_progress (h : RowProgress marks r r') (hr : depFinished r = true) : r' = r :=
  h.terminal (terminal_of_depFinished hr)

/-- An ACTIVATE row is finished by its mark only. -/
theorem activate_finished_progress (h : RowProgress marks r r') (hlayer : r.layer = .activate)
    (hr' : depFinished r' = true) : depFinished r = true ∨ marks r.id := by
  rw [depFinished_activate (h.layer_eq.trans hlayer)] at hr'
  rw [depFinished_activate hlayer]
  rcases hr' with hst | hst
  · exact (h.succeeded hst).imp_left Or.inl
  · rcases h.skipped hst with hst | hoptional
    · exact .inl (.inr hst)
    · rw [hlayer] at hoptional
      cases hoptional

theorem Stored.progress {inserts : Subjob → Prop} {db db' : Database} (h : Stored db row)
    (hrows : RowsProgress marks inserts db.subjobs db'.subjobs) : Stored db' row := by
  obtain ⟨r, hr, hid, hscope⟩ := h
  obtain ⟨r', hr', hprogress⟩ := hrows.kept r hr
  have hsame := congrArg (fun r => sameScope r (newSubjob 0 row .queued "" "" none))
    hprogress.identity_eq
  exact ⟨r', hr', hprogress.id_eq.trans hid, hsame.trans hscope⟩

end Rows

/-! ## The work of the core layers -/

/-- The activation of the payload committed: nothing of its revision was unfinished. -/
structure Activated (db : Database) (p : Payload) : Prop where
  ready : ReachedReady db (payloadKey p)
  finished : ∀ dep ∈ db.subjobs, blocking p dep = false

section Execute

variable {now : Time} {newId : String} {p : Payload} {db : Database}

theorem ReachedReady.activatedDatabase {key : ManifestKey} (h : ReachedReady db key)
    (current : RepoIndexManifest) (graph : CodeGraphIndex) :
    ReachedReady (activatedDatabase now newId p current graph db) key := by
  obtain ⟨m, hm, hkey, hready⟩ := h
  refine ⟨activatedRow now p current db.manifests m, ?_, ?_, ?_⟩
  · dsimp only [Core.activatedDatabase]
    rw [activatedManifests_eq_map]
    exact List.mem_map_of_mem hm
  · obtain ⟨horg, hrepo, hws, hbranch, hcommit, hjob⟩ :=
      @activatedRow_scope now p current m db.manifests
    rw [← hkey]
    simp only [manifestKey, horg, hrepo, hws, hbranch, hcommit, hjob]
  · unfold activatedRow
    dsimp only
    split_ifs <;> simp [activateManifest, supersede, supersedeStale, hready]

theorem activate_activated (h : (activate now newId p db).1 = .ok ()) :
    Activated (activate now newId p db).2 p := by
  obtain ⟨current, graph, hcurrent, -, hdb⟩ := activate_of_ok h
  obtain ⟨-, -, -, hfinished⟩ := activate_ok_iff.1 h
  obtain ⟨hmem, hpending⟩ := mem_of_argmax_filter hcurrent
  rw [hdb]
  refine ⟨⟨activateManifest now current, ?_, ?_, rfl⟩, hfinished⟩
  · have hrow : activatedRow now p current db.manifests current = activateManifest now current :=
      activatedRow_current hpending
    dsimp only [Core.activatedDatabase]
    rw [activatedManifests_eq_map, ← hrow]
    exact List.mem_map_of_mem hmem
  · simp only [pendingFor, Bool.and_eq_true, decide_eq_true_eq] at hpending
    simp only [manifestKey, payloadKey, activateManifest, hpending]

theorem recordFailure_snd (x : Execution) (p : Payload) (message : String) (db : Database) :
    (recordFailure x p message db).2 =
      (markFailed x.finishAt ⟨p.id, x.leaseOwner, x.attemptId⟩ "CORE_SUBJOB_FAILED" message db).2 := by
  unfold recordFailure
  split <;> simp only [*]

theorem execute_effect (d : Digests) (x : Execution) (p : Payload) (db : Database) :
    (execute d x p db).2.subjobs = db.subjobs ∧ (execute d x p db).2.jobs = db.jobs ∧
      (∀ key, ReachedReady db key → ReachedReady (execute d x p db).2 key) ∧
      (p.layer = .activate → (execute d x p db).1 = .ok () →
        Activated (execute d x p db).2 p) := by
  unfold execute
  split_ifs with hlayer
  · have hgraph := mergeGraph_onlyGraph d x.caps x.graphError x.executeAt x.newId p db
    have hsubjobs := congrArg Database.subjobs hgraph
    have hjobs := congrArg Database.jobs hgraph
    have hmanifests := congrArg Database.manifests hgraph
    refine ⟨hsubjobs, hjobs, ?_, ?_⟩
    · intro key hkey
      unfold ReachedReady
      rw [hmanifests]
      exact hkey
    · intro hactivate
      rw [hlayer] at hactivate
      cases hactivate
  · have hactivated := fun _ : p.layer = .activate =>
      @activate_activated x.executeAt x.newId p db
    obtain ⟨e, heq⟩ | ⟨current, graph, -, -, heq⟩ := activate_cases x.executeAt x.newId p db <;>
      rw [heq] at hactivated ⊢
    · exact ⟨rfl, rfl, fun _ hkey => hkey, hactivated⟩
    · exact ⟨rfl, rfl, fun _ hkey => hkey.activatedDatabase current graph, hactivated⟩

end Execute

end CodeIntel.Core
