import CodeIntel.Core.JobRun

/-!
# What a step of a job's run does

Every step is summarised once: which rows it adds and how it moves the others, how
the status of the job changes, which manifests stay activated and where its
handlers come from.
-/

namespace CodeIntel.Core

open Relational Schema Subjobs CodeIntel.Graph

/-! ## Effects -/

def SingleJob (jobId : String) (jobs : List RepoIndexingJob) : Prop :=
  ∀ j ∈ jobs, ∀ j' ∈ jobs, j.id = jobId → j'.id = jobId → j = j'

/-- Every subjob of the job holds nothing back any more. -/
def AllFinished (jobId : String) (db : Database) : Prop :=
  ∀ r ∈ db.subjobs, r.repoIndexingJobId = jobId → depFinished r = true

instance (jobId : String) (db : Database) : Decidable (AllFinished jobId db) :=
  inferInstanceAs (Decidable (∀ r ∈ db.subjobs, _))

/-- How a step may change the status of the job. -/
inductive StatusChange (plan : JobPlan) (s : JobState) (a : JobStep) : JobStatus → JobStatus → Prop
  | keep (st : JobStatus) : StatusChange plan s a st st
  | fail (st : JobStatus) : StatusChange plan s a st .failed
  | start (st : JobStatus) (now : Time) (hstep : a = .start now)
      (hopen : st = .pending ∨ st = .inProgress) : StatusChange plan s a st .inProgress
  | complete (i : ℕ) (w : Worker) (hstep : a = .complete i) (hw : s.workers[i]? = some w)
      (hjob : w.payload.repoIndexingJobId = plan.jobId)
      (hfinished : AllFinished plan.jobId s.db) : StatusChange plan s a .inProgress .completed

structure JobsEffect (plan : JobPlan) (s : JobState) (a : JobStep)
    (jobs' : List RepoIndexingJob) : Prop where
  single : SingleJob plan.jobId s.db.jobs → SingleJob plan.jobId jobs'
  origin : ∀ j' ∈ jobs', j'.id = plan.jobId → ∃ j ∈ s.db.jobs, j.id = plan.jobId ∧
    j'.repoId = j.repoId ∧ j'.type = j.type ∧ StatusChange plan s a j.status j'.status

/-- Where a new row comes from: the planning of another job, or the plan, once everything
before it in the plan is stored. -/
inductive Inserted (plan : JobPlan) (s : JobState) (r : Subjob) : Prop
  | other (hjob : r.repoIndexingJobId ≠ plan.jobId)
  | queued (before after : List CreateInput) (row : CreateInput)
      (hrows : plan.rows = before ++ row :: after) (hbefore : ∀ row' ∈ before, Stored s.db row')
      (hid : r.id = row.id)
      (hscope : sameScope r (newSubjob 0 row .queued "" "" none) = true)
      (hstatus : r.status = .queued)
      (hlive : liveJob s.db r.repoIndexingJobId r.repoId r.orgId = true)
  | skipped (hlayer : r.layer = .scip) (hstatus : r.status = .skipped)
      (hlive : liveJob s.db r.repoIndexingJobId r.repoId r.orgId = true)
      (hstored : ∀ row ∈ plan.rows, Stored s.db row)

/-- The subjob was marked SUCCEEDED by its handler; that of an ACTIVATE subjob had committed
the activation and is about to complete the job. -/
def Marks (s s' : JobState) (id : String) : Prop :=
  ∃ w ∈ s.workers, w.payload.id = id ∧ (w.payload.layer = .activate → w.phase = .executed ∧
    ∃ w' ∈ s'.workers, w'.payload = w.payload ∧ w'.phase = .marked)

inductive WorkerFrom (s s' : JobState) (w' : Worker) : Prop
  | kept (hw : w' ∈ s.workers)
  | claimed (r : Subjob) (hr : r ∈ s.db.subjobs) (hmatch : w'.payload.matchesRow r = true)
      (hphase : w'.phase = .working)
  | executed (w : Worker) (hw : w ∈ s.workers) (hpayload : w'.payload = w.payload)
      (hdone : w.payload.layer = .activate → Activated s'.db w.payload)
  | failed (w : Worker) (hw : w ∈ s.workers) (hpayload : w'.payload = w.payload)
      (message : String) (hphase : w'.phase = .failed message)
  | marked (w : Worker) (hw : w ∈ s.workers) (hpayload : w'.payload = w.payload)
      (hphase : w.payload.layer = .activate → w.phase = .executed)

/-- A handler that has marked its ACTIVATE subjob stays until it completes the job or stops. -/
structure WorkersEffect (s : JobState) (a : JobStep) (s' : JobState) : Prop where
  origin : ∀ w' ∈ s'.workers, WorkerFrom s s' w'
  marked : ∀ w ∈ s.workers, w.phase = .marked →
    w ∈ s'.workers ∨ ∃ i, s.workers[i]? = some w ∧ (a = .leave i ∨ a = .complete i)

inductive PlannerEffect (plan : JobPlan) (s s' : JobState) : Prop
  | kept (hplanning : s'.planning = s.planning) (hplanned : s'.planned = s.planned)
  | stopped (hplanning : ∀ rows skipped, s'.planning ≠ .issuing rows skipped)
      (hplanned : s'.planned = s.planned)
  | started (hplanning : s'.planning = .issuing plan.rows plan.skipped)
      (hplanned : s'.planned = s.planned)
  | queued (row : CreateInput) (rows skipped : List CreateInput)
      (hbefore : s.planning = .issuing (row :: rows) skipped)
      (hafter : s'.planning = .issuing rows skipped)
      (hplanned : s'.planned = (s.planned || rows.isEmpty)) (hstored : Stored s'.db row)
  | skipped (row : CreateInput) (skipped : List CreateInput)
      (hbefore : s.planning = .issuing [] (row :: skipped))
      (hafter : s'.planning = .issuing [] skipped) (hplanned : s'.planned = s.planned)

structure StepEffect (plan : JobPlan) (s : JobState) (a : JobStep) (s' : JobState) : Prop where
  rows : RowsProgress (Marks s s') (Inserted plan s) s.db.subjobs s'.db.subjobs
  jobs : JobsEffect plan s a s'.db.jobs
  manifests : ∀ key, ReachedReady s.db key → ReachedReady s'.db key
  workers : WorkersEffect s a s'
  planner : PlannerEffect plan s s'

/-- What the planner has already issued is stored. -/
structure PlannerInv (plan : JobPlan) (s : JobState) : Prop where
  issuing : ∀ rows skipped, s.planning = .issuing rows skipped →
    ∃ before, plan.rows = before ++ rows ∧ (∀ row ∈ before, Stored s.db row) ∧
      ∀ row ∈ skipped, row ∈ plan.skipped
  planned : s.planned = true → ∀ row ∈ plan.rows, Stored s.db row

variable {plan : JobPlan} {s s' : JobState} {a : JobStep}

section Jobs

variable {jobs' : List RepoIndexingJob}

theorem JobsEffect.of_map {g : RepoIndexingJob → RepoIndexingJob}
    (hjobs : jobs' = s.db.jobs.map g)
    (hg : ∀ j ∈ s.db.jobs, (g j).id = j.id ∧ (g j).repoId = j.repoId ∧ (g j).type = j.type ∧
      (j.id = plan.jobId → StatusChange plan s a j.status (g j).status)) :
    JobsEffect plan s a jobs' := by
  subst hjobs
  constructor
  · intro hsingle j₁ hj₁ j₂ hj₂ hid₁ hid₂
    obtain ⟨i₁, hi₁, rfl⟩ := List.mem_map.1 hj₁
    obtain ⟨i₂, hi₂, rfl⟩ := List.mem_map.1 hj₂
    rw [(hg i₁ hi₁).1] at hid₁
    rw [(hg i₂ hi₂).1] at hid₂
    rw [hsingle i₁ hi₁ i₂ hi₂ hid₁ hid₂]
  · intro j' hj' hid
    obtain ⟨j, hj, rfl⟩ := List.mem_map.1 hj'
    obtain ⟨hgid, hrepo, htype, hstatus⟩ := hg j hj
    rw [hgid] at hid
    exact ⟨j, hj, hid, hrepo, htype, hstatus hid⟩

theorem JobsEffect.of_kept (h : JobsKept s.db.jobs jobs') : JobsEffect plan s a jobs' := by
  obtain ⟨g, hjobs, hg⟩ := h
  refine .of_map hjobs fun j hj => ?_
  obtain ⟨hid, hrepo, htype, hstatus⟩ := hg j hj
  refine ⟨hid, hrepo, htype, fun _ => ?_⟩
  rcases hstatus with heq | hfailed
  · rw [heq]
    exact .keep _
  · rw [hfailed]
    exact .fail _

theorem JobsEffect.of_updateWhere {cond : RepoIndexingJob → Bool}
    {set : RepoIndexingJob → RepoIndexingJob}
    (hset : ∀ j, (set j).id = j.id ∧ (set j).repoId = j.repoId ∧ (set j).type = j.type)
    (hstatus : ∀ j, cond j = true → j.id = plan.jobId →
      StatusChange plan s a j.status (set j).status) :
    JobsEffect plan s a (updateWhere cond set s.db.jobs) := by
  refine .of_map (updateWhere_eq_map cond set s.db.jobs) fun j _ => ?_
  split_ifs with hcond
  · obtain ⟨hid, hrepo, htype⟩ := hset j
    exact ⟨hid, hrepo, htype, hstatus j hcond⟩
  · exact ⟨rfl, rfl, rfl, fun _ => .keep _⟩

end Jobs

/-! ## Handlers -/

section Workers

variable {workers : List Worker} {i : ℕ} {w v : Worker}

theorem mem_eraseIdx_of_ne (hw : w ∈ workers) (hne : workers[i]? ≠ some w) :
    w ∈ workers.eraseIdx i := by
  obtain ⟨k, hk⟩ := List.mem_iff_getElem?.1 hw
  refine List.mem_eraseIdx_iff_getElem?.2 ⟨k, ?_, hk⟩
  rintro rfl
  exact hne hk

theorem mem_set_of_ne (hw : w ∈ workers) (hne : workers[i]? ≠ some w) : w ∈ workers.set i v := by
  obtain ⟨k, hk⟩ := List.mem_iff_getElem?.1 hw
  refine List.mem_iff_getElem?.2 ⟨k, ?_⟩
  rw [List.getElem?_set_ne, hk]
  rintro rfl
  exact hne hk

theorem ne_of_not_marked (hv : s.workers[i]? = some v) (hphase : v.phase ≠ .marked)
    (hmarked : w.phase = .marked) : s.workers[i]? ≠ some w := by
  intro hw
  obtain rfl : v = w := Option.some.inj (hv.symm.trans hw)
  exact hphase hmarked

theorem WorkersEffect.kept (h : s'.workers = s.workers) : WorkersEffect s a s' :=
  ⟨fun _ hw' => .kept (h ▸ hw'), fun _ hw _ => .inl (h.symm ▸ hw)⟩

theorem WorkersEffect.erased (hv : s.workers[i]? = some v) (hphase : v.phase ≠ .marked)
    (h : s'.workers = s.workers.eraseIdx i) :
    WorkersEffect s a s' := by
  constructor
  · intro w' hw'
    rw [h] at hw'
    exact .kept (List.mem_of_mem_eraseIdx hw')
  · intro w hw hmarked
    rw [h]
    exact .inl (mem_eraseIdx_of_ne hw (ne_of_not_marked hv hphase hmarked))

theorem WorkersEffect.ended (ha : a = .leave i ∨ a = .complete i)
    (h : s'.workers = s.workers.eraseIdx i) : WorkersEffect s a s' := by
  constructor
  · intro w' hw'
    rw [h] at hw'
    exact .kept (List.mem_of_mem_eraseIdx hw')
  · intro w hw _
    by_cases hi : s.workers[i]? = some w
    · exact .inr ⟨i, hi, ha⟩
    · rw [h]
      exact .inl (mem_eraseIdx_of_ne hw hi)

theorem WorkersEffect.set {w' : Worker} (hv : s.workers[i]? = some v) (hphase : v.phase ≠ .marked)
    (h : s'.workers = s.workers.set i w') (hw' : WorkerFrom s s' w') : WorkersEffect s a s' := by
  constructor
  · intro w hw
    rw [h] at hw
    rcases List.mem_or_eq_of_mem_set hw with hold | rfl
    · exact .kept hold
    · exact hw'
  · intro w hw hmarked
    rw [h]
    exact .inl (mem_set_of_ne hw (ne_of_not_marked hv hphase hmarked))

end Workers

/-! ## Steps that leave the rows alone -/

theorem StepEffect.of_frame (hunique : UniqueKey Subjob.id s.db.subjobs)
    (hrows : s'.db.subjobs = s.db.subjobs) (hjobs : JobsEffect plan s a s'.db.jobs)
    (hmanifests : ∀ key, ReachedReady s.db key → ReachedReady s'.db key)
    (hworkers : WorkersEffect s a s') (hplanner : PlannerEffect plan s s') :
    StepEffect plan s a s' := by
  refine ⟨?_, hjobs, hmanifests, hworkers, hplanner⟩
  rw [hrows]
  exact .refl hunique

theorem jobsEffect_refl : JobsEffect plan s a s.db.jobs := .of_kept (.refl _)

theorem ReachedReady.of_manifests {db db' : Database} (h : db'.manifests = db.manifests)
    {key : ManifestKey} (hkey : ReachedReady db key) : ReachedReady db' key := by
  unfold ReachedReady
  rw [h]
  exact hkey

/-! ## Calls of the store -/

/-- A call that marks no subjob and inserts for other jobs only. -/
structure Routine (plan : JobPlan) (call : StoreCall) : Prop where
  ofStore : call.ofStore = true
  succeeds : call.rules.succeeds = none
  inserts : ∀ now inp, call.rules.inserts now inp → inp.repoIndexingJobId ≠ plan.jobId

section Store

variable {call : StoreCall} {i : ℕ} {w : Worker}

theorem routine_of_allows (h : plan.allows call = true) : Routine plan call := by
  cases call with
  | upsertQueued now inp | upsertSkipped now completedAt inp code message =>
    have hjob : inp.repoIndexingJobId ≠ plan.jobId := of_decide_eq_true h
    exact ⟨rfl, rfl, fun _ _ hinserts => hinserts.2 ▸ hjob⟩
  | claimScoped | markSucceeded | otherTables => cases h
  | _ => exact ⟨rfl, rfl, fun _ _ hinserts => hinserts.elim⟩

theorem StepEffect.of_call (hunique : UniqueKey Subjob.id s.db.subjobs)
    (hcall : Routine plan call) (hdb : s'.db = call.apply s.db) (hworkers : WorkersEffect s a s')
    (hplanner : PlannerEffect plan s s') :
    StepEffect plan s a s' := by
  have hmoves := apply_moves hunique hcall.ofStore
  have hframe : OnlyControl s.db (call.apply s.db) := apply_onlyControl hcall.ofStore
  rw [← hdb] at hmoves hframe
  have hrows : RowsProgress (Marks s s') (fun r => r.repoIndexingJobId ≠ plan.jobId)
      s.db.subjobs s'.db.subjobs := by
    apply rowsProgress_of_moves hunique _ _ _ hmoves
    · intro id hsucceeds
      rw [hcall.succeeds] at hsucceeds
      cases hsucceeds
    · intro now inp status code message completed hinserts _
      exact hcall.inserts now inp hinserts
    · intro r r' hjob hprogress
      have hjob' := congrArg Subjob.repoIndexingJobId hprogress.identity_eq
      exact fun heq => hjob (hjob'.symm.trans heq)
  exact ⟨hrows.imp fun _ => .other, .of_kept (jobsKept_of_moves hmoves),
    fun _ => .of_manifests hframe.manifests_eq, hworkers, hplanner⟩

theorem claim_effect (hunique : UniqueKey Subjob.id s.db.subjobs) (p : Payload) (x : Execution) :
    StepEffect plan s a (s.claim p x) := by
  have hcall : Routine plan
      (.claimScoped x.claimAt p x.leaseOwner x.attemptId x.claimLease) :=
    ⟨rfl, rfl, fun _ _ hinserts => hinserts.elim⟩
  have hdb : (s.claim p x).db =
      (claimScoped x.claimAt p x.leaseOwner x.attemptId x.claimLease s.db).2 := by
    unfold JobState.claim
    split <;> simp only [*]
  refine .of_call hunique hcall hdb ?_ ?_
  · unfold JobState.claim
    split
    · rename_i db hclaim
      refine ⟨?_, fun w hw _ => .inl (List.mem_append_left _ hw)⟩
      intro w' hw'
      rcases List.mem_append.1 hw' with hold | hnew
      · exact .kept hold
      · obtain rfl := List.mem_singleton.1 hnew
        obtain ⟨r, hrow, hclaimable, -⟩ := claimScoped_granted hunique (congrArg Prod.fst hclaim)
        exact .claimed r (mem_of_lookup hrow) (claimable_matchesRow hclaimable).1 rfl
    · exact .kept rfl
  · unfold JobState.claim
    split <;> exact .kept rfl rfl

theorem execute_step {d : Digests} (hunique : UniqueKey Subjob.id s.db.subjobs)
    (hi : s.workers[i]? = some w) (hstep : s.execute d i w = some s') : StepEffect plan s a s' := by
  have hw : w ∈ s.workers := List.mem_of_getElem? hi
  obtain ⟨hphase, hstep⟩ := Option.ite_none_right_eq_some.1 hstep
  simp only [Bool.and_eq_true, decide_eq_true_eq] at hphase
  have hphase : w.phase ≠ .marked := by
    rw [hphase.1]
    decide
  obtain ⟨hrows, hjobs, hmanifests, hdone⟩ := execute_effect d w.run w.payload s.db
  split at hstep
  · rename_i db hexec
    cases hstep
    rw [hexec] at hrows hjobs hmanifests hdone
    refine .of_frame hunique hrows ?_ hmanifests ?_ (.kept rfl rfl)
    · dsimp only
      rw [hjobs]
      exact jobsEffect_refl
    · exact .set hi hphase rfl (.executed w hw rfl fun hlayer => hdone hlayer rfl)
  · rename_i message db hexec
    cases hstep
    rw [hexec] at hrows hjobs hmanifests
    refine .of_frame hunique hrows ?_ hmanifests ?_ (.kept rfl rfl)
    · dsimp only
      rw [hjobs]
      exact jobsEffect_refl
    · exact .set hi hphase rfl (.failed w hw rfl message rfl)

theorem markSucceeded_refused {now : Time} {lease : Lease} {db : Database}
    (hunique : UniqueKey Subjob.id db.subjobs) (h : (markSucceeded now lease db).1 ≠ .ok true) :
    (markSucceeded now lease db).2 = db := by
  unfold markSucceeded at *
  split_ifs at h ⊢
  · rfl
  · have hnone : ∀ r ∈ db.subjobs, (holdsLease db lease inFlight r && leaseAlive now r) = false := by
      intro r hr
      by_contra hcond
      rw [Bool.not_eq_false] at hcond
      have hrow := lookup_eq_some_of_mem hunique hr (holdsLease_and_id r hcond)
      apply h
      simp [updateSubjobs, affected_eq_one hunique holdsLease_and_id hrow hcond]
    dsimp only [updateSubjobs]
    rw [updateWhere_eq_self hnone]

theorem succeed_effect (hunique : UniqueKey Subjob.id s.db.subjobs) (hi : s.workers[i]? = some w)
    (hmarked : w.phase ≠ .marked) (hphase : w.payload.layer = .activate → w.phase = .executed) :
    StepEffect plan s a (s.succeed i w) := by
  have hw : w ∈ s.workers := List.mem_of_getElem? hi
  unfold JobState.succeed
  split
  · rename_i db hmark
    have hmoves : Relation.ReflTransGen
        (TableMove (StoreCall.markSucceeded w.run.finishAt w.lease).rules) s.db
        ((StoreCall.markSucceeded w.run.finishAt w.lease).apply s.db) := apply_moves hunique rfl
    have hframe : OnlyControl s.db
        ((StoreCall.markSucceeded w.run.finishAt w.lease).apply s.db) := apply_onlyControl rfl
    have happly : (StoreCall.markSucceeded w.run.finishAt w.lease).apply s.db = db :=
      congrArg Prod.snd hmark
    rw [happly] at hmoves hframe
    set s' : JobState := { s with
      db := db
      workers := if w.payload.layer = .activate then s.workers.set i { w with phase := .marked }
        else s.workers.eraseIdx i } with hs'
    have hmarks : Marks s s' w.payload.id := by
      refine ⟨w, hw, rfl, fun hlayer => ⟨hphase hlayer, { w with phase := .marked }, ?_, rfl, rfl⟩⟩
      rw [hs']
      rw [if_pos hlayer]
      exact List.mem_set (List.getElem?_eq_some_iff.1 hi).1 _
    have hrows : RowsProgress (Marks s s') (fun _ => False) s.db.subjobs s'.db.subjobs := by
      apply rowsProgress_of_moves hunique _ _ (fun _ _ hinserts _ => hinserts) hmoves
      · intro id hsucceeds
        cases hsucceeds
        exact hmarks
      · exact fun _ _ _ _ _ _ hinserts _ => hinserts
    refine ⟨hrows.imp fun _ hinserts => hinserts.elim, .of_kept (jobsKept_of_moves hmoves),
      fun _ => .of_manifests hframe.manifests_eq, ?_, .kept rfl rfl⟩
    by_cases hlayer : w.payload.layer = .activate
    · exact .set hi hmarked (if_pos hlayer) (.marked w hw rfl hphase)
    · exact .erased hi hmarked (if_neg hlayer)
  · rename_i reply db hreply hmark
    have hdb : db = s.db := by
      rw [← markSucceeded_refused hunique (by rw [hmark]; exact hreply), hmark]
    subst hdb
    exact .of_frame hunique rfl jobsEffect_refl (fun _ h => h) (.erased hi hmarked rfl)
      (.kept rfl rfl)

theorem mark_step (hunique : UniqueKey Subjob.id s.db.subjobs) (hi : s.workers[i]? = some w)
    (hstep : s.mark i w = some s') : StepEffect plan s a s' := by
  unfold JobState.mark at hstep
  split at hstep
  · rename_i hphase
    split_ifs at hstep with hcore
    cases hstep
    refine succeed_effect hunique hi (by rw [hphase]; decide) fun hlayer => absurd ?_ hcore
    rw [hlayer]
    rfl
  · rename_i hphase
    cases hstep
    exact succeed_effect hunique hi (by rw [hphase]; decide) fun _ => hphase
  · rename_i message hphase
    cases hstep
    have hcall : Routine plan (.markFailed w.run.finishAt w.lease "CORE_SUBJOB_FAILED" message) :=
      ⟨rfl, rfl, fun _ _ hinserts => hinserts.elim⟩
    have hmarked : w.phase ≠ .marked := by
      rw [hphase]
      exact fun h => nomatch h
    exact .of_call hunique hcall (recordFailure_snd w.run w.payload message s.db)
      (.erased hi hmarked rfl) (.kept rfl rfl)
  · cases hstep

end Store

/-! ## Steps of the job and its planner -/

section Planner

theorem complete_step {i : ℕ} {w : Worker} (hunique : UniqueKey Subjob.id s.db.subjobs)
    (hw : s.workers[i]? = some w) (hstep : s.complete i w = some s') :
    StepEffect plan s (.complete i) s' := by
  obtain ⟨-, hstep⟩ := Option.ite_none_right_eq_some.1 hstep
  cases hstep
  refine .of_frame hunique rfl ?_ (fun _ h => h) (.ended (.inr rfl) rfl) (.kept rfl rfl)
  refine .of_updateWhere (fun j => ⟨rfl, rfl, rfl⟩) ?_
  intro j hcond hid
  simp only [Bool.and_eq_true, decide_eq_true_eq, Bool.not_eq_true', List.any_eq_false] at hcond
  obtain ⟨⟨⟨⟨hpayload, -⟩, -⟩, hstatus⟩, hfree⟩ := hcond
  rw [hstatus]
  refine .complete i w rfl hw (hpayload.symm.trans hid) ?_
  intro r hr hjob
  have hr := hfree r hr
  simpa [hid, hjob] using hr

variable {row : CreateInput} {now : Time}

theorem JobPlan.row_job (plan : JobPlan) (hrow : row ∈ plan.rows) :
    row.repoIndexingJobId = plan.jobId := by
  obtain ⟨rev, -, hof⟩ := Planner.mem_build plan.built hrow
  exact hof.job

theorem upsertRow_effect {completedAt : Time} {status : SubjobStatus} {code message : String}
    (hunique : UniqueKey Subjob.id s.db.subjobs)
    (hdb : s'.db = (upsertWithStatus now completedAt row status code message s.db).2)
    (hworkers : s'.workers = s.workers) (hplanner : PlannerEffect plan s s')
    (hinserted : liveJob s.db row.repoIndexingJobId row.repoId row.orgId = true →
      Inserted plan s (newSubjob now row status code message
        (if status = .skipped then some completedAt else none))) :
    StepEffect plan s a s' := by
  obtain heq | ⟨-, -, hlive, -, hfresh, heq⟩ :=
    upsertWithStatus_cases now completedAt row status code message s.db
  · rw [heq] at hdb
    refine .of_frame hunique (by rw [hdb]) ?_ ?_ (.kept hworkers) hplanner
    · rw [hdb]
      exact jobsEffect_refl
    · rw [hdb]
      exact fun _ h => h
  · rw [heq] at hdb
    refine ⟨?_, ?_, ?_, .kept hworkers, hplanner⟩
    · rw [hdb]
      exact .append hunique hfresh (hinserted hlive)
    · rw [hdb]
      exact jobsEffect_refl
    · rw [hdb]
      exact fun _ h => h

theorem failing_ne_issuing (rows skipped : List CreateInput) :
    Planning.failing ≠ .issuing rows skipped := by
  intro h
  cases h

theorem stopped_ne_issuing (rows skipped : List CreateInput) :
    Planning.stopped ≠ .issuing rows skipped := by
  intro h
  cases h

theorem stored_of_upsertQueued {db db' : Database} (h : upsertQueued now row db = (.ok (), db')) :
    Stored db' row := by
  obtain ⟨r, hr, hid, hscope⟩ := upsertWithStatus_ok (congrArg Prod.fst h)
  have hdb : (upsertQueued now row db).2 = db' := congrArg Prod.snd h
  exact ⟨r, hdb ▸ hr, hid, hscope⟩

theorem issue_step (hunique : UniqueKey Subjob.id s.db.subjobs) (hplanner : PlannerInv plan s)
    (hstep : s.issue now = some s') : StepEffect plan s a s' := by
  unfold JobState.issue at hstep
  split at hstep
  · rename_i row rows skipped hplanning
    obtain ⟨before, hrows, hbefore, -⟩ := hplanner.issuing _ _ hplanning
    have heffect : ∀ {s' : JobState}, s'.db = (upsertQueued now row s.db).2 →
        s'.workers = s.workers → PlannerEffect plan s s' → StepEffect plan s a s' := by
      intro s' hdb hworkers hplanner
      refine upsertRow_effect hunique hdb hworkers hplanner fun hlive => ?_
      exact .queued before rows row hrows hbefore rfl (by simp [sameScope, scopeKey, newSubjob]) rfl
        hlive
    split at hstep
    · rename_i db hupsert
      cases hstep
      exact heffect (by rw [hupsert]) rfl
        (.queued row rows skipped hplanning rfl rfl (stored_of_upsertQueued hupsert))
    · rename_i e db hupsert
      cases hstep
      exact heffect (by rw [hupsert]) rfl (.stopped failing_ne_issuing rfl)
  · rename_i row skipped hplanning
    obtain ⟨before, hrows, hbefore, hskipped⟩ := hplanner.issuing _ _ hplanning
    rw [List.append_nil] at hrows
    have heffect : ∀ {s' : JobState}, s'.db = (Planner.storeSkipped now row s.db).2 →
        s'.workers = s.workers → PlannerEffect plan s s' → StepEffect plan s a s' := by
      intro s' hdb hworkers hplanner
      rw [Planner.storeSkipped_eq] at hdb
      refine upsertRow_effect hunique hdb hworkers hplanner fun hlive => ?_
      exact .skipped (plan.scip row (hskipped row List.mem_cons_self)) rfl hlive (hrows ▸ hbefore)
    split at hstep
    · rename_i db hupsert
      cases hstep
      exact heffect (by rw [hupsert]) rfl (.skipped row skipped hplanning rfl rfl)
    · rename_i e db hupsert
      cases hstep
      exact heffect (by rw [hupsert]) rfl (.stopped failing_ne_issuing rfl)
  · cases hstep

theorem openJob_status {inp : Planner.Input} {db : Database} {j : RepoIndexingJob}
    (h : openJob inp db j = true) : j.status = .pending ∨ j.status = .inProgress := by
  simp only [openJob, Bool.and_eq_true, Bool.or_eq_true, decide_eq_true_eq] at h
  exact h.1.2

theorem StepEffect.of_undisturbed (hunique : UniqueKey Subjob.id s.db.subjobs)
    (hsafe : plan.undisturbed s.db s'.db = true) (hworkers : WorkersEffect s a s')
    (hplanner : PlannerEffect plan s s') : StepEffect plan s a s' := by
  simp only [JobPlan.undisturbed, Bool.and_eq_true, decide_eq_true_eq, List.all_eq_true,
    Bool.or_eq_true, List.contains_iff_mem] at hsafe
  obtain ⟨⟨hrows, hjobs⟩, hmanifests⟩ := hsafe
  have hjob : ∀ j ∈ s'.db.jobs, j.id = plan.jobId → j ∈ s.db.jobs := by
    intro j hj hid
    exact (hjobs j hj).resolve_left fun hne => hne hid
  refine .of_frame hunique hrows ⟨?_, ?_⟩ ?_ hworkers hplanner
  · intro hsingle j₁ hj₁ j₂ hj₂ hid₁ hid₂
    exact hsingle j₁ (hjob j₁ hj₁ hid₁) j₂ (hjob j₂ hj₂ hid₂) hid₁ hid₂
  · intro j hj hid
    exact ⟨j, hjob j hj hid, hid, rfl, rfl, .keep _⟩
  · rintro key ⟨m, hm, hkey, hready⟩
    refine ⟨m, (hmanifests m hm).resolve_left fun hnone => ?_, hkey, hready⟩
    rw [Option.isNone_iff_eq_none.1 hnone] at hready
    cases hready

/-- What a step does. -/
theorem job_step_effect (hunique : UniqueKey Subjob.id s.db.subjobs)
    (hplanner : PlannerInv plan s) (hstep : (jobMachine plan).step s a = some s') :
    StepEffect plan s a s' := by
  have hsame : ∀ {s' : JobState}, s'.db = s.db → WorkersEffect s a s' →
      PlannerEffect plan s s' → StepEffect plan s a s' := by
    intro s' hdb hworkers hplanner
    refine .of_frame hunique (by rw [hdb]) ?_ ?_ hworkers hplanner
    · rw [hdb]
      exact jobsEffect_refl
    · rw [hdb]
      exact fun _ h => h
  cases a with
  | start now =>
    dsimp only [jobMachine] at hstep
    split at hstep
    · split_ifs at hstep
      · cases hstep
        refine .of_frame hunique rfl ?_ (fun _ h => h) (.kept rfl) (.started rfl rfl)
        refine .of_updateWhere (fun j => ⟨rfl, rfl, rfl⟩) fun j hcond _ => ?_
        exact .start _ now rfl (openJob_status hcond)
      · cases hstep
        exact hsame rfl (.kept rfl) (.kept rfl rfl)
    · cases hstep
  | plan now => exact issue_step hunique hplanner hstep
  | abandon now message =>
    dsimp only [jobMachine] at hstep
    split at hstep
    · cases hstep
      refine .of_frame hunique rfl ?_ (fun _ h => h) (.kept rfl)
        (.stopped stopped_ne_issuing rfl)
      exact .of_updateWhere (fun j => ⟨rfl, rfl, rfl⟩) fun j _ _ => .fail _
    · cases hstep
  | stopPlanner =>
    obtain rfl := Option.some.inj hstep
    exact hsame rfl (.kept rfl) (.stopped stopped_ne_issuing rfl)
  | dispatch limit =>
    obtain rfl := Option.some.inj hstep
    exact hsame rfl (.kept rfl) (.kept rfl rfl)
  | claim p x =>
    obtain ⟨-, hstep⟩ := Option.ite_none_right_eq_some.1 hstep
    obtain rfl := Option.some.inj hstep
    exact claim_effect hunique p x
  | execute d i =>
    obtain ⟨w, hw, hstep⟩ := Option.bind_eq_some_iff.1 hstep
    exact execute_step hunique hw hstep
  | mark i =>
    obtain ⟨w, hw, hstep⟩ := Option.bind_eq_some_iff.1 hstep
    exact mark_step hunique hw hstep
  | complete i =>
    obtain ⟨w, hw, hstep⟩ := Option.bind_eq_some_iff.1 hstep
    exact complete_step hunique hw hstep
  | leave i =>
    obtain rfl := Option.some.inj hstep
    exact hsame rfl (.ended (.inl rfl) rfl) (.kept rfl rfl)
  | store call =>
    obtain ⟨hallows, hstep⟩ := Option.ite_none_right_eq_some.1 hstep
    cases hstep
    exact .of_call hunique (routine_of_allows hallows) rfl (.kept rfl) (.kept rfl rfl)
  | other f =>
    obtain ⟨hsafe, hstep⟩ := Option.ite_none_right_eq_some.1 hstep
    cases hstep
    exact .of_undisturbed hunique hsafe (.kept rfl) (.kept rfl rfl)

theorem PlannerInv.step (h : PlannerInv plan s) (heffect : StepEffect plan s a s') :
    PlannerInv plan s' := by
  have hplanned : s'.planned = s.planned → s'.planned = true →
      ∀ row ∈ plan.rows, Stored s'.db row := by
    intro hsame hdone row hrow
    exact (h.planned (hsame ▸ hdone) row hrow).progress heffect.rows
  -- a planner that is no further than before
  have hissuing : ∀ rows skipped (skipped' : List CreateInput), s.planning = .issuing rows skipped →
      (∀ row ∈ skipped', row ∈ skipped) → ∃ before, plan.rows = before ++ rows ∧
        (∀ row ∈ before, Stored s'.db row) ∧ ∀ row ∈ skipped', row ∈ plan.skipped := by
    intro rows skipped skipped' hplanning hsub
    obtain ⟨before, hrows, hbefore, hskipped⟩ := h.issuing rows skipped hplanning
    exact ⟨before, hrows, fun row hrow => (hbefore row hrow).progress heffect.rows,
      fun row hrow => hskipped row (hsub row hrow)⟩
  cases heffect.planner with
  | kept hplanning hsame =>
    refine ⟨?_, hplanned hsame⟩
    intro rows skipped hafter
    exact hissuing rows skipped skipped (hplanning ▸ hafter) fun _ hrow => hrow
  | stopped hplanning hsame =>
    exact ⟨fun rows skipped hafter => absurd hafter (hplanning rows skipped), hplanned hsame⟩
  | started hplanning hsame =>
    refine ⟨?_, hplanned hsame⟩
    intro rows skipped hafter
    obtain ⟨rfl, rfl⟩ := Planning.issuing.inj (hplanning.symm.trans hafter)
    exact ⟨[], rfl, by simp, fun _ hrow => hrow⟩
  | queued row rows skipped hbefore hafter hdone hstored =>
    obtain ⟨before, hrows, hold, hskipped⟩ := hissuing _ _ skipped hbefore fun _ hrow => hrow
    have hnew : ∀ row' ∈ before ++ [row], Stored s'.db row' := by
      intro row' hrow'
      rcases List.mem_append.1 hrow' with hmem | hmem
      · exact hold row' hmem
      · rw [List.mem_singleton.1 hmem]
        exact hstored
    constructor
    · intro rows' skipped' hafter'
      obtain ⟨rfl, rfl⟩ := Planning.issuing.inj (hafter.symm.trans hafter')
      refine ⟨before ++ [row], ?_, hnew, hskipped⟩
      rw [hrows, List.append_assoc]
      rfl
    · intro hlast row' hrow'
      rw [hdone, Bool.or_eq_true] at hlast
      rcases hlast with hlast | hlast
      · exact (h.planned hlast row' hrow').progress heffect.rows
      · rw [hrows, List.isEmpty_iff.1 hlast] at hrow'
        exact hnew row' hrow'
  | skipped row skipped hbefore hafter hsame =>
    refine ⟨?_, hplanned hsame⟩
    intro rows' skipped' hafter'
    obtain ⟨rfl, rfl⟩ := Planning.issuing.inj (hafter.symm.trans hafter')
    exact hissuing _ _ _ hbefore fun _ hrow => List.mem_cons_of_mem _ hrow

end Planner

end CodeIntel.Core
