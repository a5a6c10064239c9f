import CodeIntel.Core.JobCompletion

/-!
# Undisturbed tasks

The calls `PlanAndPersist` and `Handle` are the runs of the job machine in which nobody
else takes a step between the statements of the call.
-/

namespace CodeIntel.Core

open Relational Schema Subjobs CodeIntel.Graph

/-! ## The planner -/

section Planner

variable {plan : JobPlan} {now : Time}

theorem persistAll_reaches (rows skipped : List CreateInput) (hrows : rows ≠ []) (s : JobState)
    (hplanning : s.planning = .issuing rows skipped) :
    ∃ s', (jobMachine plan).Reaches s s' ∧
      s'.db = (Planner.persistAll (upsertQueued now) rows s.db).2 ∧
      match (Planner.persistAll (upsertQueued now) rows s.db).1 with
      | .ok () => s'.planning = .issuing [] skipped ∧ s'.planned = true
      | .error _ => s'.planning = .failing := by
  induction rows generalizing s with
  | nil => exact absurd rfl hrows
  | cons row rows ih =>
    have hstep : (jobMachine plan).step s (.plan now) = s.issue now := rfl
    unfold JobState.issue at hstep
    rw [hplanning] at hstep
    unfold Planner.persistAll
    cases hstore : upsertQueued now row s.db with
    | mk result db =>
      simp only [hstore] at hstep
      cases result with
      | error e => exact ⟨_, .single hstep, rfl, rfl⟩
      | ok _ =>
        cases rows with
        | nil => exact ⟨_, .single hstep, rfl, rfl, Bool.or_true _⟩
        | cons row' rows =>
          obtain ⟨s', hreaches, hrest⟩ := ih (List.cons_ne_nil _ _)
            { s with
              db
              planning := .issuing (row' :: rows) skipped
              planned := s.planned || false } rfl
          exact ⟨s', .head hstep hreaches, hrest⟩

/-- A planner that nobody interrupts does what `PlanAndPersist` does. -/
theorem planAndPersist_reaches (s : JobState)
    (hplanning : s.planning = .issuing plan.rows plan.skipped) :
    ∃ s', (jobMachine plan).Reaches s s' ∧
      s'.db = (Planner.planAndPersist plan.sha256Hex now plan.input s.db).2 ∧
      match (Planner.planAndPersist plan.sha256Hex now plan.input s.db).1 with
      | .ok () => s'.planning = .issuing [] plan.skipped ∧ s'.planned = true
      | .error _ => s'.planning = .failing := by
  unfold Planner.planAndPersist
  rw [plan.built]
  exact persistAll_reaches plan.rows plan.skipped plan.rows_ne_nil s hplanning

theorem planAndPersist_reaches_branches :
    ∃ s, (jobMachine branchPlan).Reaches
        { plannedState with planning := .issuing branchPlan.rows [] } s ∧ s.planned = true := by
  obtain ⟨s, hreaches, -, hplanned⟩ := @planAndPersist_reaches branchPlan 2
    { plannedState with planning := .issuing branchPlan.rows [] } rfl
  have hok : (Planner.planAndPersist branchPlan.sha256Hex 2 branchPlan.input
      plannedState.db).1 = .ok () := by decide +kernel
  rw [hok] at hplanned
  exact ⟨s, hreaches, hplanned.2⟩

end Planner

/-! ## Handlers -/

def JobState.handling (s : JobState) (p : Payload) (x : Execution) (phase : TaskPhase)
    (db : Database) : JobState :=
  { s with
    db := db
    workers := s.workers ++ [{ payload := p, run := x, phase }] }

section Handler

variable {plan : JobPlan} (s : JobState) (d : Digests) (p : Payload) (x : Execution)
  (phase : TaskPhase) (db : Database)

@[simp] theorem handling_last : (s.handling p x phase db).workers[s.workers.length]? =
    some { payload := p, run := x, phase } := List.getElem?_concat_length ..

@[simp] theorem handling_erase :
    (s.handling p x phase db).workers.eraseIdx s.workers.length = s.workers := by
  simp [JobState.handling, List.eraseIdx_append_of_length_le]

@[simp] theorem handling_set (w : Worker) :
    (s.handling p x phase db).workers.set s.workers.length w = s.workers ++ [w] := by
  simp [JobState.handling]

theorem leave_reaches : (jobMachine plan).Reaches (s.handling p x phase db) { s with db } := by
  refine .single (a := .leave s.workers.length) ?_
  simp only [jobMachine, handling_erase]
  rfl

theorem complete_reaches : (jobMachine plan).Reaches (s.handling p x .marked db)
    { s with db := completeJobIfReady x.finishAt p db } := by
  refine .single (a := .complete s.workers.length) ?_
  simp only [jobMachine, handling_last, Option.bind_some, JobState.complete, handling_erase]
  rfl

theorem recordFailure_reaches (message : String) :
    (jobMachine plan).Reaches (s.handling p x (.failed message) db)
      { s with db := (recordFailure x p message db).2 } := by
  refine .single (a := .mark s.workers.length) ?_
  simp only [jobMachine, handling_last, Option.bind_some, JobState.mark, handling_erase]
  rfl

theorem recordSuccess_reaches : (jobMachine plan).Reaches (s.handling p x .executed db)
    { s with db := (recordSuccess x p db).2 } := by
  have hmark : (jobMachine plan).step (s.handling p x .executed db) (.mark s.workers.length) =
      some ((s.handling p x .executed db).succeed s.workers.length ⟨p, x, .executed⟩) := by
    simp only [jobMachine, handling_last, Option.bind_some, JobState.mark]
  refine .head hmark ?_
  simp only [JobState.succeed, handling_erase, handling_set]
  dsimp only [recordSuccess, Worker.lease, JobState.handling]
  cases markSucceeded x.finishAt ⟨p.id, x.leaseOwner, x.attemptId⟩ db with
  | mk result db' =>
    -- only a granted mark of an ACTIVATE subjob goes on to the completion of the job
    rcases result with e | refused | granted
    · exact .refl _
    · exact .refl _
    · dsimp only
      split_ifs
      · exact complete_reaches s p x db'
      · exact .refl _

theorem finishTask_reaches (hcore : isCore p.layer = true) :
    (jobMachine plan).Reaches (s.handling p x .working db)
      { s with db := (finishTask x p (execute d x p db)).2 } := by
  have hstep : (jobMachine plan).step (s.handling p x .working db) (.execute d s.workers.length) =
      (s.handling p x .working db).execute d s.workers.length ⟨p, x, .working⟩ := by
    simp only [jobMachine, handling_last, Option.bind_some]
  unfold JobState.execute at hstep
  rw [if_pos (by simp [hcore])] at hstep
  simp only [handling_set] at hstep
  dsimp only [JobState.handling] at hstep
  cases hexecute : execute d x p db with
  | mk result db' =>
    rw [hexecute] at hstep
    cases result with
    | error message => exact .head hstep (recordFailure_reaches s p x db' message)
    | ok _ => exact .head hstep (recordSuccess_reaches s p x db')

theorem withHeartbeat_reaches (hcore : isCore p.layer = true) :
    (jobMachine plan).Reaches (s.handling p x .working db)
      { s with db := (finishTask x p (withHeartbeat d x p db)).2 } := by
  -- the renewal is a call of the store, granted or not
  refine .head (a := .store (.heartbeat x.heartbeatAt ⟨p.id, x.leaseOwner, x.attemptId⟩
    x.heartbeatLease)) rfl ?_
  have hfail : ∀ message db', (jobMachine plan).Reaches (s.handling p x .working db')
      { s with db := (recordFailure x p message db').2 } := by
    intro message db'
    refine .head (a := .store (.markFailed x.finishAt ⟨p.id, x.leaseOwner, x.attemptId⟩
      "CORE_SUBJOB_FAILED" message)) rfl ?_
    rw [recordFailure_snd]
    exact leave_reaches s p x .working _
  unfold withHeartbeat
  dsimp only [StoreCall.apply, JobState.handling]
  cases heartbeat x.heartbeatAt ⟨p.id, x.leaseOwner, x.attemptId⟩ x.heartbeatLease db with
  | mk result db' =>
    rcases result with e | refused | granted
    · exact hfail _ db'
    · exact hfail _ db'
    · exact finishTask_reaches s d p x db' hcore

/-- A handler that nobody interrupts does what `Handle` does. -/
theorem handle_reaches (taskType : String) (hissued : p ∈ s.issued) :
    (jobMachine plan).Reaches s { s with db := (handle d x taskType p s.db).2 } := by
  unfold handle
  split_ifs with hpayload hlayer
  · exact .refl s
  · exact .refl s
  · have hcore : isCore p.layer = true := by
      revert hlayer
      cases p.layer <;> decide
    have hclaim : (jobMachine plan).step s (.claim p x) = some (s.claim p x) := by
      dsimp only [jobMachine]
      rw [if_pos (List.contains_iff_mem.2 hissued)]
    refine .head hclaim ?_
    unfold JobState.claim
    cases claimScoped x.claimAt p x.leaseOwner x.attemptId x.claimLease s.db with
    | mk result db' =>
      rcases result with e | refused | granted
      · exact .refl _
      · exact .refl _
      · exact withHeartbeat_reaches s d p x db' hcore

theorem handle_reaches_failed_retry :
    ∃ s, (jobMachine branchPlan).Reaches
        { db := requeuedAfterCommit [sampleManifest], issued := [retryOf sampleActivatePayload 2] }
        s ∧ subjobStatus "activate" s.db = some .failed :=
  ⟨_, handle_reaches _ sampleDigests _ sampleRetry "codeintel-index-core"
    (List.mem_singleton_self _), by decide⟩

end Handler

end CodeIntel.Core
