import CodeIntel.Core.JobSteps

/-!
# When a job is completed

A job is completed by the handler of an ACTIVATE subjob that finds no unfinished row of
the job. The rows it looks at are those the planner has stored so far. If the planner
was done by then, every planned row has ended and every planned revision was activated;
if not, the job is completed without the rest of its plan.
-/

namespace CodeIntel.Core

open Relational Schema Subjobs CodeIntel.Graph

/-! ## What every reachable state satisfies -/

/-- A state before the job is planned: no row and no handler of it exists yet. -/
structure Unplanned (plan : JobPlan) (s : JobState) : Prop where
  unique : UniqueKey Subjob.id s.db.subjobs
  jobIds : UniqueKey RepoIndexingJob.id s.db.jobs
  fresh : ∀ r ∈ s.db.subjobs, r.repoIndexingJobId ≠ plan.jobId
  notCompleted : ∀ j ∈ s.db.jobs, j.id = plan.jobId → j.status ≠ .completed
  planning : ∀ rows skipped, s.planning ≠ .issuing rows skipped
  notPlanned : s.planned = false
  workers : ∀ w ∈ s.workers, w.payload.repoIndexingJobId ≠ plan.jobId ∧
    ∃ r ∈ s.db.subjobs, w.payload.matchesRow r = true

/-- A finished ACTIVATE row, and the handler that is about to mark one, have an activated
manifest. -/
structure JobInv (plan : JobPlan) (s : JobState) : Prop where
  unique : UniqueKey Subjob.id s.db.subjobs
  planner : PlannerInv plan s
  single : SingleJob plan.jobId s.db.jobs
  started : ∀ r ∈ s.db.subjobs, r.repoIndexingJobId = plan.jobId →
    ∀ j ∈ s.db.jobs, j.id = plan.jobId →
      j.repoId = r.repoId ∧ j.type = .index ∧ j.status ≠ .pending
  activated : ∀ r ∈ s.db.subjobs, r.repoIndexingJobId = plan.jobId → r.layer = .activate →
    depFinished r = true → ReachedReady s.db (rowKey r)
  claimed : ∀ w ∈ s.workers, ∃ r ∈ s.db.subjobs, w.payload.matchesRow r = true
  executed : ∀ w ∈ s.workers, w.payload.repoIndexingJobId = plan.jobId →
    w.payload.layer = .activate → w.phase = .executed ∨ w.phase = .marked →
      ReachedReady s.db (payloadKey w.payload)

variable {plan : JobPlan} {s s' : JobState} {a : JobStep}

section Invariant

theorem Unplanned.jobInv (h : Unplanned plan s) : JobInv plan s := by
  refine ⟨h.unique, ⟨?_, ?_⟩, ?_, ?_, ?_, ?_, ?_⟩
  · exact fun rows skipped hissuing => absurd hissuing (h.planning rows skipped)
  · intro hplanned
    rw [h.notPlanned] at hplanned
    cases hplanned
  · intro j hj j' hj' hid hid'
    exact h.jobIds.eq_of_key_eq hj hj' (hid.trans hid'.symm)
  · exact fun r hr hjob => absurd hjob (h.fresh r hr)
  · exact fun r hr hjob => absurd hjob (h.fresh r hr)
  · exact fun w hw => (h.workers w hw).2
  · exact fun w hw hjob => absurd hjob (h.workers w hw).1

theorem StatusChange.not_pending {st st' : JobStatus} (h : StatusChange plan s a st st')
    (hst : st ≠ .pending) : st' ≠ .pending := by
  cases h with
  | keep => exact hst
  | fail | start | complete => exact fun h => nomatch h

variable {r r' : Subjob}

theorem SingleJob.live (h : SingleJob plan.jobId s.db.jobs)
    (hjob : r.repoIndexingJobId = plan.jobId)
    (hlive : liveJob s.db r.repoIndexingJobId r.repoId r.orgId = true) {j : RepoIndexingJob}
    (hj : j ∈ s.db.jobs) (hid : j.id = plan.jobId) :
    j.repoId = r.repoId ∧ j.type = .index ∧ j.status = .inProgress := by
  simp only [liveJob, List.any_eq_true, Bool.and_eq_true, decide_eq_true_eq] at hlive
  obtain ⟨j₀, hj₀, ⟨⟨⟨hid₀, hrepo⟩, htype⟩, hstatus⟩, -⟩ := hlive
  obtain rfl := h j hj j₀ hj₀ hid (hid₀.trans hjob)
  exact ⟨hrepo, htype, hstatus⟩

theorem Inserted.of_job (h : Inserted plan s r) (hjob : r.repoIndexingJobId = plan.jobId) :
    liveJob s.db r.repoIndexingJobId r.repoId r.orgId = true ∧
      (depFinished r = true → r.layer = .scip) := by
  cases h with
  | other hother => exact absurd hjob hother
  | queued before after row hrows hbefore hid hscope hstatus hlive =>
    refine ⟨hlive, fun hfinished => ?_⟩
    have hterminal := terminal_of_depFinished hfinished
    rw [hstatus] at hterminal
    exact absurd hterminal (by decide)
  | skipped hlayer hstatus hlive hstored => exact ⟨hlive, fun _ => hlayer⟩

theorem JobInv.marks_row (h : JobInv plan s) {w : Worker} (hw : w ∈ s.workers)
    (hr : r ∈ s.db.subjobs) (hid : w.payload.id = r.id) : w.payload.matchesRow r = true := by
  obtain ⟨r₀, hr₀, hmatch⟩ := h.claimed w hw
  have hid₀ := (ClaimScope.of_matchesRow hmatch).1
  rwa [← h.unique.eq_of_key_eq hr₀ hr (hid₀.trans hid)]

theorem matchesRow_progress {marks : String → Prop} (h : RowProgress marks r r') (p : Payload) :
    p.matchesRow r' = p.matchesRow r :=
  (congrArg p.matchesRow h.identity_eq :)

theorem rowKey_progress {marks : String → Prop} (h : RowProgress marks r r') :
    rowKey r' = rowKey r ∧ r'.repoIndexingJobId = r.repoIndexingJobId ∧ r'.repoId = r.repoId := by
  have hkey := congrArg rowKey h.identity_eq
  have hjob := congrArg Subjob.repoIndexingJobId h.identity_eq
  have hrepo := congrArg Subjob.repoId h.identity_eq
  exact ⟨hkey, hjob, hrepo⟩

theorem JobInv.started_step (h : JobInv plan s) (heffect : StepEffect plan s a s')
    (hr' : r' ∈ s'.db.subjobs) (hjob : r'.repoIndexingJobId = plan.jobId) {j' : RepoIndexingJob}
    (hj' : j' ∈ s'.db.jobs) (hid : j'.id = plan.jobId) :
    j'.repoId = r'.repoId ∧ j'.type = .index ∧ j'.status ≠ .pending := by
  obtain ⟨j, hj, hid, hrepo, htype, hstatus⟩ := heffect.jobs.origin j' hj' hid
  have hbefore : j.repoId = r'.repoId ∧ j.type = .index ∧ j.status ≠ .pending := by
    rcases heffect.rows.origin r' hr' with ⟨r, hr, hprogress⟩ | ⟨-, hinserted⟩
    · obtain ⟨-, hjob', hrepo'⟩ := rowKey_progress hprogress
      rw [hrepo']
      exact h.started r hr (hjob'.symm.trans hjob) j hj hid
    · obtain ⟨hrepo, htype, hlive⟩ := h.single.live hjob (hinserted.of_job hjob).1 hj hid
      exact ⟨hrepo, htype, by rw [hlive]; decide⟩
  exact ⟨hrepo.trans hbefore.1, htype.trans hbefore.2.1, hstatus.not_pending hbefore.2.2⟩

theorem JobInv.activated_step (h : JobInv plan s) (heffect : StepEffect plan s a s')
    (hr' : r' ∈ s'.db.subjobs) (hjob : r'.repoIndexingJobId = plan.jobId)
    (hlayer : r'.layer = .activate) (hfinished : depFinished r' = true) :
    ReachedReady s'.db (rowKey r') := by
  rcases heffect.rows.origin r' hr' with ⟨r, hr, hprogress⟩ | ⟨-, hinserted⟩
  · obtain ⟨hkey, hjob', -⟩ := rowKey_progress hprogress
    rw [hkey]
    rw [hjob'] at hjob
    rw [hprogress.layer_eq] at hlayer
    apply heffect.manifests
    rcases activate_finished_progress hprogress hlayer hfinished with hold | ⟨w, hw, hid, hmarked⟩
    · exact h.activated r hr hjob hlayer hold
    · -- the row was marked by its own handler, after the activation
      have hmatch := h.marks_row hw hr hid
      obtain ⟨-, hwjob, -, -, hwlayer⟩ := ClaimScope.of_matchesRow hmatch
      have hwlayer : w.payload.layer = .activate := hwlayer.symm.trans hlayer
      rw [← matchesRow_key hmatch]
      exact h.executed w hw (hwjob.symm.trans hjob) hwlayer (.inl (hmarked hwlayer).1)
  · have hscip := (hinserted.of_job hjob).2 hfinished
    rw [hlayer] at hscip
    cases hscip

theorem JobInv.claimed_step (h : JobInv plan s) (heffect : StepEffect plan s a s') {w' : Worker}
    (hw' : w' ∈ s'.workers) : ∃ r ∈ s'.db.subjobs, w'.payload.matchesRow r = true := by
  have hrow : ∃ r ∈ s.db.subjobs, w'.payload.matchesRow r = true := by
    cases heffect.workers.origin w' hw' with
    | kept hw => exact h.claimed w' hw
    | claimed r hr hmatch => exact ⟨r, hr, hmatch⟩
    | executed w hw hpayload | failed w hw hpayload | marked w hw hpayload =>
      exact hpayload ▸ h.claimed w hw
  obtain ⟨r, hr, hmatch⟩ := hrow
  obtain ⟨r', hr', hprogress⟩ := heffect.rows.kept r hr
  exact ⟨r', hr', (matchesRow_progress hprogress _).trans hmatch⟩

theorem JobInv.executed_step (h : JobInv plan s) (heffect : StepEffect plan s a s') {w' : Worker}
    (hw' : w' ∈ s'.workers) (hjob : w'.payload.repoIndexingJobId = plan.jobId)
    (hlayer : w'.payload.layer = .activate) (hphase : w'.phase = .executed ∨ w'.phase = .marked) :
    ReachedReady s'.db (payloadKey w'.payload) := by
  cases heffect.workers.origin w' hw' with
  | kept hw => exact heffect.manifests _ (h.executed w' hw hjob hlayer hphase)
  | claimed r hr hmatch hworking =>
    rw [hworking] at hphase
    rcases hphase with hphase | hphase <;> cases hphase
  | executed w hw hpayload hdone =>
    rw [hpayload] at hlayer ⊢
    exact (hdone hlayer).ready
  | failed w hw hpayload message hfailed =>
    rw [hfailed] at hphase
    rcases hphase with hphase | hphase <;> cases hphase
  | marked w hw hpayload hexecuted =>
    rw [hpayload] at hjob hlayer ⊢
    exact heffect.manifests _ (h.executed w hw hjob hlayer (.inl (hexecuted hlayer)))

theorem JobInv.step (h : JobInv plan s) (hstep : (jobMachine plan).step s a = some s') :
    JobInv plan s' := by
  have heffect := job_step_effect h.unique h.planner hstep
  exact ⟨heffect.rows.unique, h.planner.step heffect, heffect.jobs.single h.single,
    fun _ hr hjob _ hj hid => h.started_step heffect hr hjob hj hid,
    fun _ hr hjob hlayer hfinished => h.activated_step heffect hr hjob hlayer hfinished,
    fun _ hw => h.claimed_step heffect hw,
    fun _ hw hjob hlayer hphase => h.executed_step heffect hw hjob hlayer hphase⟩

end Invariant

/-! ## Completed jobs -/

/-- The step is a completion check of the job that finds no unfinished row. -/
def JobStep.completes (plan : JobPlan) (s : JobState) : JobStep → Bool
  | .complete i => (s.workers[i]?.any fun w => w.payload.repoIndexingJobId = plan.jobId) &&
      s.db.subjobs.all fun r => r.repoIndexingJobId ≠ plan.jobId || depFinished r
  | _ => false

/-- Such a check comes after the last `UpsertQueued` of the planner. -/
def PlannedFirst (plan : JobPlan) (s : JobState) (a : JobStep) : Prop :=
  a.completes plan s = true → s.planned = true

instance (plan : JobPlan) (s : JobState) (a : JobStep) : Decidable (PlannedFirst plan s a) :=
  inferInstanceAs (Decidable (_ → _))

/-- Every planned row is stored and has ended, and every planned revision with an activation
has a manifest that reached READY. -/
def PlanDone (plan : JobPlan) (db : Database) : Prop :=
  (∀ row ∈ plan.rows, ∃ r ∈ db.subjobs, r.id = row.id ∧
    sameScope r (newSubjob 0 row .queued "" "" none) = true ∧ depFinished r = true) ∧
  ∀ rev ∈ plan.input.revisions, rev.runActivate = true →
    ReachedReady db (some plan.input.repoIndexingJobId, plan.input.orgId, plan.input.repoId,
      coalesce rev.workspaceId, rev.branch, rev.commitHash)

instance (plan : JobPlan) (db : Database) : Decidable (PlanDone plan db) :=
  inferInstanceAs (Decidable (_ ∧ _))

/-- A completed job has its whole plan, and nothing of it is unfinished. -/
structure CompletedInv (plan : JobPlan) (s : JobState) : Prop extends JobInv plan s where
  stored : ∀ j ∈ s.db.jobs, j.id = plan.jobId → j.status = .completed →
    ∀ row ∈ plan.rows, Stored s.db row
  finished : ∀ j ∈ s.db.jobs, j.id = plan.jobId → j.status = .completed →
    AllFinished plan.jobId s.db

theorem complete_rows {i : ℕ} (hstep : (jobMachine plan).step s (.complete i) = some s') :
    s'.db.subjobs = s.db.subjobs := by
  obtain ⟨w, -, hstep⟩ := Option.bind_eq_some_iff.1 hstep
  obtain ⟨-, hstep⟩ := Option.ite_none_right_eq_some.1 hstep
  cases hstep
  rfl

theorem StatusChange.completed {st st' : JobStatus} (h : StatusChange plan s a st st')
    (hst' : st' = .completed) :
    st = .completed ∨ a.completes plan s = true ∧ (∃ i, a = .complete i) ∧
      AllFinished plan.jobId s.db := by
  cases h with
  | keep => exact .inl hst'
  | fail | start => cases hst'
  | complete i w hstep hw hjob hfinished =>
    refine .inr ⟨?_, ⟨i, hstep⟩, hfinished⟩
    have hall : (s.db.subjobs.all fun r => r.repoIndexingJobId ≠ plan.jobId || depFinished r) =
        true := by
      simp only [List.all_eq_true, Bool.or_eq_true, decide_eq_true_eq]
      intro r hr
      exact or_iff_not_imp_left.2 fun hne => hfinished r hr (not_not.1 hne)
    simp only [hstep, JobStep.completes, hw, Option.any_some, hjob, decide_true, hall, Bool.and_self]

/-- The rows of a completed job do not change any more. -/
theorem CompletedInv.finished_step (h : CompletedInv plan s) (heffect : StepEffect plan s a s')
    {j : RepoIndexingJob} (hj : j ∈ s.db.jobs) (hid : j.id = plan.jobId)
    (hst : j.status = .completed) : AllFinished plan.jobId s'.db := by
  intro r' hr' hjob
  rcases heffect.rows.origin r' hr' with ⟨r, hr, hprogress⟩ | ⟨-, hinserted⟩
  · have hjob' := (rowKey_progress hprogress).2.1
    have hfinished := h.finished j hj hid hst r hr (hjob'.symm.trans hjob)
    rw [finished_progress hprogress hfinished]
    exact hfinished
  · -- nothing is inserted once the job has left IN_PROGRESS
    have hlive := (h.single.live hjob (hinserted.of_job hjob).1 hj hid).2.2
    rw [hst] at hlive
    cases hlive

theorem CompletedInv.step (h : CompletedInv plan s) (hcond : PlannedFirst plan s a)
    (hstep : (jobMachine plan).step s a = some s') : CompletedInv plan s' := by
  have heffect := job_step_effect h.unique h.planner hstep
  refine ⟨h.toJobInv.step hstep, ?_, ?_⟩
  · intro j' hj' hid hst row hrow
    obtain ⟨j, hj, hid, -, -, hstatus⟩ := heffect.jobs.origin j' hj' hid
    rcases hstatus.completed hst with hold | ⟨hcompletes, -⟩
    · exact (h.stored j hj hid hold row hrow).progress heffect.rows
    · exact (h.planner.planned (hcond hcompletes) row hrow).progress heffect.rows
  · intro j' hj' hid hst
    obtain ⟨j, hj, hid, -, -, hstatus⟩ := heffect.jobs.origin j' hj' hid
    rcases hstatus.completed hst with hold | ⟨-, ⟨i, rfl⟩, hfinished⟩
    · exact h.finished_step heffect hj hid hold
    · intro r hr
      rw [complete_rows hstep] at hr
      exact hfinished r hr

theorem Unplanned.completedInv (h : Unplanned plan s) : CompletedInv plan s :=
  ⟨h.jobInv, fun j hj hid hst => absurd hst (h.notCompleted j hj hid),
    fun j hj hid hst => absurd hst (h.notCompleted j hj hid)⟩

/-- If no completion check succeeds before the last row of the plan is stored, a completed job
has its whole plan: all planned rows have ended, and all planned revisions were activated. -/
theorem completed_job_plan_done {plan : JobPlan} {s₀ s : JobState} {steps : List JobStep}
    (hs₀ : Unplanned plan s₀) (hfirst : (jobMachine plan).Always (PlannedFirst plan) s₀ steps)
    (hrun : (jobMachine plan).run s₀ steps = some s) {j : RepoIndexingJob} (hj : j ∈ s.db.jobs)
    (hid : j.id = plan.jobId) (hstatus : j.status = .completed) : PlanDone plan s.db := by
  have hinv : CompletedInv plan s := Machine.invariant_of_always (CompletedInv plan)
    (fun _ _ _ h hcond hstep => h.step hcond hstep) hs₀.completedInv hfirst hrun
  have hrow : ∀ row ∈ plan.rows, ∃ r ∈ s.db.subjobs, r.id = row.id ∧
      sameScope r (newSubjob 0 row .queued "" "" none) = true ∧ depFinished r = true := by
    intro row hrow
    obtain ⟨r, hr, hrid, hscope⟩ := hinv.stored j hj hid hstatus row hrow
    have hjob := (sameScope_columns hscope).1.trans (plan.row_job hrow)
    exact ⟨r, hr, hrid, hscope, hinv.finished j hj hid hstatus r hr hjob⟩
  refine ⟨hrow, ?_⟩
  intro rev hrev hactivate
  obtain ⟨row, hmem, hlayer, hof⟩ := Planner.activate_mem_build plan.built hrev hactivate
  obtain ⟨r, hr, -, hscope, hfinished⟩ := hrow row hmem
  obtain ⟨hjob, -, -, -, hrlayer⟩ := sameScope_columns hscope
  rw [← rowKey_of_rowOf hscope hof]
  exact hinv.activated r hr (hjob.trans (plan.row_job hmem)) (hrlayer.trans hlayer) hfinished

/-! ## Two branches of one commit -/

def branchRevision (branch : String) : Planner.Revision where
  workspaceId := some "ws"
  branch := branch
  revision := branch
  commitHash := sampleCommit
  runASTTreeSitter := true
  runGraphMerge := true
  runActivate := true
  scipProjects := []

def branchInput (branches : List String) : Planner.Input where
  repoIndexingJobId := "job"
  orgId := 1
  repoId := 7
  maxAttempts := 3
  revisions := branches.map branchRevision

/-- The length of the hashed text tells the sample rows apart. -/
def sampleSha (s : String) : String := toString s.utf8ByteSize

def branchRows (branches : List String) : List CreateInput :=
  (Planner.build sampleSha (branchInput branches)).toOption.getD []

def branchPlan : JobPlan where
  sha256Hex := sampleSha
  input := branchInput ["main", "dev"]
  rows := branchRows ["main", "dev"]
  skipped := []
  built := by decide +kernel
  scip := by simp

def firstTask (row : CreateInput) : Payload where
  id := row.id
  repoIndexingJobId := row.repoIndexingJobId
  orgId := row.orgId
  workspaceId := row.workspaceId
  repoId := row.repoId
  branch := row.branch
  revision := row.revision
  commitHash := row.commitHash
  layer := row.layer
  language := row.language
  projectRoot := row.projectRoot
  indexer := row.indexer
  workerClass := row.workerClass
  queueName := row.queueName
  attempt := 1

def firstRun (row : CreateInput) : Execution where
  leaseOwner := "worker"
  attemptId := "attempt"
  claimAt := 40
  claimLease := 1000
  heartbeatAt := 41
  heartbeatLease := 1000
  executeAt := 42
  finishAt := 43
  newId := row.id

def writeGraph (branch : String) (db : Database) : Database :=
  { db with
    graphIndexes := db.graphIndexes ++
      [{ sampleGraph with id := branch, sourceRevision := branch, status := .partialReady }] }

/-- An undisturbed attempt of a row up to its mark, while no other handler is at work. -/
def attempt (row : CreateInput) : List JobStep :=
  [.dispatch 10, .claim (firstTask row) (firstRun row),
    if isCore row.layer then .execute sampleDigests 0 else .other (writeGraph row.branch), .mark 0]

def plannedState : JobState := { db := manyRevisions }

theorem plannedState_unplanned : Unplanned branchPlan plannedState where
  unique := by decide
  jobIds := by decide
  fresh := by decide
  notCompleted := by decide +kernel
  planning _ _ h := nomatch h
  notPlanned := rfl
  workers := by simp [plannedState]

def plannedThenActivated : List JobStep :=
  [.start 1, .plan 2, .plan 3, .plan 4, .plan 5, .plan 6, .plan 7] ++
    branchPlan.rows.flatMap fun row =>
      attempt row ++ if row.layer = .activate then [.complete 0] else []

/-- The job is completed after the second branch, with the whole plan done. -/
theorem planned_job_completes_done :
    ∃ s, (jobMachine branchPlan).run plannedState plannedThenActivated = some s ∧
      (∃ j ∈ s.db.jobs, j.id = branchPlan.jobId ∧ j.status = .completed) ∧
      PlanDone branchPlan s.db := by
  refine (jobMachine branchPlan).exists_run_of_any_imp
    (fun s => ∃ j ∈ s.db.jobs, j.id = branchPlan.jobId ∧ j.status = .completed)
    (by decide +kernel) ?_
  rintro s hrun ⟨j, hj, hid, hstatus⟩
  exact ⟨⟨j, hj, hid, hstatus⟩, completed_job_plan_done plannedState_unplanned
    (by decide +kernel) hrun hj hid hstatus⟩

/-- The planner is slow: `main` is activated before the rows of `dev` are stored, and the job
is completed without them. -/
theorem job_completed_while_planning :
    Unplanned branchPlan plannedState ∧
      ∃ s, (jobMachine branchPlan).run plannedState
          ([.start 1, .plan 2, .plan 3, .plan 4] ++ (branchPlan.rows.take 3).flatMap attempt ++
            [.complete 0]) = some s ∧
        (∃ j ∈ s.db.jobs, j.id = branchPlan.jobId ∧ j.status = .completed) ∧
        ¬ PlanDone branchPlan s.db :=
  ⟨plannedState_unplanned, (jobMachine branchPlan).exists_run_of_any _ (by decide +kernel)⟩

end CodeIntel.Core
