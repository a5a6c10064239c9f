import CodeIntel.Planner.Subjobs
import CodeIntel.Subjobs.Dispatch
import CodeIntel.Subjobs.Lifecycle

/-!
# Deadlock freedom of the dispatcher

Planner and store calls keep every subjob attached to its INDEX job, and cancel a
subjob only when a sibling has failed or the job no longer runs. A running job
without work in flight and without a failed subjob therefore has only waiting
and finished subjobs, and the first waiting one, by layer and then by age, is
dispatchable.
-/

namespace CodeIntel.Subjobs

open Relational Schema

/-! ## Planner and store calls -/

/-- A call of the control plane: a store operation or a whole `PlanAndPersist`. -/
inductive ControlCall where
  | store (call : StoreCall)
  | plan (now : Time) (inp : Planner.Input)

/-- Only the twelve store operations are enabled. -/
def controlMachine (sha256Hex : String → String) : Machine Database ControlCall where
  step db
    | .store call => if call.ofStore then some (call.apply db) else none
    | .plan now inp => some (Planner.planAndPersist sha256Hex now inp db).2

variable {sha256Hex : String → String} {db : Database}

theorem control_moves {db' : Database} (hunique : UniqueKey Subjob.id db.subjobs)
    {call : ControlCall} (hstep : (controlMachine sha256Hex).step db call = some db') :
    ∃ rules, Relation.ReflTransGen (TableMove rules) db db' := by
  cases call with
  | store call =>
    obtain ⟨hcall, happly⟩ := Option.ite_none_right_eq_some.1 hstep
    cases happly
    exact ⟨call.rules, apply_moves hunique hcall⟩
  | plan now inp =>
    cases hstep
    refine ⟨{ skippable := isScipOrAst, inserts := fun _ _ => True }, ?_⟩
    unfold Planner.planAndPersist
    split
    · exact .refl
    · exact Planner.persistAll_rel (R := Relation.ReflTransGen (TableMove _)) (fun _ => .refl)
        .trans (fun row db => (upsertWithStatus_move trivial now .queued "" "").to_reflTransGen) _ db

/-! ## Subjobs and their jobs -/

/-- The INDEX job and the repo a subjob was planned for still exist. -/
def Parented (db : Database) (r : Subjob) : Prop :=
  (∃ j ∈ db.jobs, j.id = r.repoIndexingJobId ∧ j.repoId = r.repoId ∧ j.type = .index) ∧
    ∃ repo ∈ db.repos, repo.id = r.repoId ∧ repo.orgId = r.orgId

/-- A sibling has failed for good, or the job is not running. -/
def Stopped (db : Database) (jobId : String) : Prop :=
  (∃ f ∈ db.subjobs, f.repoIndexingJobId = jobId ∧ f.status = .failed) ∨
    ∀ j ∈ db.jobs, j.id = jobId → j.status ≠ .inProgress

/-- What planner and store calls keep true of subjobs and jobs. -/
structure Attached (db : Database) : Prop where
  table : LifecycleTable db.subjobs
  jobIds : UniqueKey RepoIndexingJob.id db.jobs
  parented : ∀ r ∈ db.subjobs, Parented db r
  canceled : ∀ r ∈ db.subjobs, r.status = .canceled → Stopped db r.repoIndexingJobId

section Moves

variable {rules : CallRules} {db db' : Database}

theorem JobMove.kept {j j' : RepoIndexingJob} (h : JobMove db j j') :
    j'.id = j.id ∧ j'.repoId = j.repoId ∧ j'.type = j.type ∧
      (j'.status = .inProgress → j.status = .inProgress) := by
  cases h with
  | keep => exact ⟨rfl, rfl, rfl, id⟩
  | fail now message hstatus => exact ⟨rfl, rfl, rfl, fun _ => hstatus⟩

variable {r : Subjob}

theorem TableMove.parented (h : TableMove rules db db') (hr : Parented db r) : Parented db' r := by
  obtain ⟨⟨j, hj, hid, hrepo, htype⟩, repo, hmem, hrepoId, horg⟩ := hr
  cases h with
  | update f g h hrows hmoves hjobs hjobMoves hrepos hrepoIds =>
    obtain ⟨hgid, hgrepo, hgtype, -⟩ := (hjobMoves j hj).kept
    refine ⟨⟨g j, ?_, hgid.trans hid, hgrepo.trans hrepo, hgtype.trans htype⟩,
      h repo, ?_, (hrepoIds repo).1.trans hrepoId, (hrepoIds repo).2.trans horg⟩
    · rw [hjobs]
      exact List.mem_map_of_mem hj
    · rw [hrepos]
      exact List.mem_map_of_mem hmem
  | insert => exact ⟨⟨j, hj, hid, hrepo, htype⟩, repo, hmem, hrepoId, horg⟩

theorem TableMove.stopped (h : TableMove rules db db') {jobId : String}
    (hstopped : Stopped db jobId) : Stopped db' jobId := by
  obtain ⟨f, hf, hjob, hfailed⟩ | hidle := hstopped
  · exact .inl ⟨f, h.terminalKept f hf (by rw [hfailed]; decide), hjob, hfailed⟩
  · right
    intro j' hj' hid hstatus
    cases h with
    | update f g h hrows hmoves hjobs hjobMoves =>
      rw [hjobs] at hj'
      obtain ⟨j, hj, rfl⟩ := List.mem_map.1 hj'
      obtain ⟨hgid, -, -, hgstatus⟩ := (hjobMoves j hj).kept
      exact hidle j hj (hgid.symm.trans hid) (hgstatus hstatus)
    | insert => exact hidle j' hj' hid hstatus

theorem stopped_of_not_parentRunning (hdb : Attached db) (hr : r ∈ db.subjobs)
    (h : parentRunning db r = false) : Stopped db r.repoIndexingJobId := by
  obtain ⟨⟨j, hj, hid, hrepo, htype⟩, -⟩ := hdb.parented r hr
  right
  intro j' hj' hid' hstatus
  obtain rfl : j' = j := hdb.jobIds.eq_of_key_eq hj' hj (hid'.trans hid.symm)
  have hparent : parentJob db r = some j' := by
    cases hfind : parentJob db r with
    | none =>
      have hnone := List.find?_eq_none.1 hfind j' hj'
      simp [hid, hrepo] at hnone
    | some j₀ =>
      have hkey := List.find?_some hfind
      simp only [Bool.and_eq_true, decide_eq_true_eq] at hkey
      have hmem := List.mem_of_find?_eq_some hfind
      rw [hdb.jobIds.eq_of_key_eq hmem hj (hkey.1.trans hid.symm)]
  simp [parentRunning, hparent, htype, hstatus] at h

theorem Move.stopped (hdb : Attached db) {r' : Subjob} (hr : r ∈ db.subjobs)
    (h : Move rules db r r') (hcanceled : r'.status = .canceled) :
    Stopped db r.repoIndexingJobId := by
  cases h with
  | keep => exact hdb.canceled r hr hcanceled
  | claim | succeed => cases hcanceled
  | hold _ _ _ hflight' =>
    rw [hcanceled] at hflight'
    exact absurd hflight' (by decide)
  | ended now st code message hended =>
    obtain rfl : st = .canceled := hcanceled
    cases hended with
    | orphan _ hparent => exact stopped_of_not_parentRunning hdb hr hparent
    | dependent _ f hf hfailed hjob => exact .inl ⟨f, hf, hjob, hfailed⟩

theorem Parented.of_identity {r' : Subjob} (hr : Parented db r) (hid : identity r' = identity r) :
    Parented db r' := by
  have hjob : r'.repoIndexingJobId = r.repoIndexingJobId := congrArg (·.repoIndexingJobId) hid
  have hrepo : r'.repoId = r.repoId := congrArg (·.repoId) hid
  have horg : r'.orgId = r.orgId := congrArg (·.orgId) hid
  unfold Parented
  rw [hjob, hrepo, horg]
  exact hr

theorem parented_of_liveJob (h : liveJob db r.repoIndexingJobId r.repoId r.orgId = true) :
    Parented db r := by
  simp only [liveJob, List.any_eq_true, Bool.and_eq_true, decide_eq_true_eq] at h
  obtain ⟨j, hj, ⟨⟨⟨hid, hrepo⟩, htype⟩, -⟩, repo, hmem, hrepoId, horg⟩ := h
  exact ⟨⟨j, hj, hid, hrepo, htype⟩, repo, hmem, hrepoId.trans hrepo, horg⟩

theorem TableMove.attached (h : TableMove rules db db') (hdb : Attached db) :
    Attached db' := by
  have hmove := h
  have htable := h.lifecycleTable hdb.table
  cases h with
  | update f g h hrows hmoves hjobs hjobMoves hrepos hrepoIds =>
    refine ⟨htable, ?_, ?_, ?_⟩
    · rw [hjobs]
      exact hdb.jobIds.map_of_mem fun j hj => (hjobMoves j hj).kept.1
    · intro r' hr'
      rw [hrows] at hr'
      obtain ⟨r, hr, rfl⟩ := List.mem_map.1 hr'
      exact hmove.parented ((hdb.parented r hr).of_identity (hmoves r hr).identity_eq)
    · intro r' hr' hcanceled
      rw [hrows] at hr'
      obtain ⟨r, hr, rfl⟩ := List.mem_map.1 hr'
      have hjob : (f r).repoIndexingJobId = r.repoIndexingJobId :=
        congrArg (·.repoIndexingJobId) (hmoves r hr).identity_eq
      rw [hjob]
      exact hmove.stopped ((hmoves r hr).stopped hdb hr hcanceled)
  | insert now inp status code message completed hstatus hcompleted hinserts hvalid hlive =>
    refine ⟨htable, hdb.jobIds, ?_, ?_⟩
    · intro r hr
      rcases List.mem_append.1 hr with hold | hnew
      · exact hmove.parented (hdb.parented r hold)
      · rw [List.mem_singleton.1 hnew]
        exact hmove.parented (parented_of_liveJob hlive)
    · intro r hr hcanceled
      rcases List.mem_append.1 hr with hold | hnew
      · exact hmove.stopped (hdb.canceled r hold hcanceled)
      · rw [List.mem_singleton.1 hnew] at hcanceled
        obtain rfl : status = .canceled := hcanceled
        simp at hstatus

end Moves

theorem run_attached {db' : Database} {calls : List ControlCall} (hdb : Attached db)
    (hrun : (controlMachine sha256Hex).run db calls = some db') :
    Attached db' := by
  refine Machine.run_invariant Attached ?_ hdb hrun
  intro db call db' hdb hstep
  obtain ⟨rules, hmoves⟩ := control_moves hdb.table.unique hstep
  exact moves_invariant Attached TableMove.attached hmoves hdb

/-! ## The next subjob of a job -/

/-- The layers in the order in which they depend on each other. -/
def layerRank : Layer → ℕ
  | .clone | .remove => 0
  | .zoekt | .astTreeSitter | .scip => 1
  | .graphMerge => 2
  | .activate => 3

/-- Dependencies first, then age. -/
def dispatchRank (s : Subjob) : ℕ ×ₗ (Time ×ₗ String) := toLex (layerRank s.layer, dispatchKey s)

/-- Every subjob of the job waits, or is finished for its dependents. -/
def Quiet (db : Database) (jobId : String) : Prop :=
  ∀ r ∈ db.subjobs, r.repoIndexingJobId = jobId →
    waiting r = true ∨ r.status = .succeeded ∨ r.status = .skipped

theorem quiet_of_attached (hdb : Attached db) {j : RepoIndexingJob} (hj : j ∈ db.jobs)
    (hstatus : j.status = .inProgress)
    (hflight : ∀ r ∈ db.subjobs, r.repoIndexingJobId = j.id → r.status ∉ inFlight)
    (hfailed : ∀ r ∈ db.subjobs, r.repoIndexingJobId = j.id → r.status ≠ .failed) :
    Quiet db j.id := by
  intro r hr hjob
  have hcanceled : r.status ≠ .canceled := by
    intro hcanceled
    obtain ⟨f, hf, hfjob, hst⟩ | hidle := hdb.canceled r hr hcanceled
    · exact hfailed f hf (hfjob.trans hjob) hst
    · exact hidle j hj hjob.symm hstatus
  have hflight := hflight r hr hjob
  have hfailed := hfailed r hr hjob
  rw [waiting_iff]
  revert hcanceled hflight hfailed
  cases r.status <;> simp [inFlight]

section First

variable {db : Database} {s : Subjob}

/-- The subjob comes before all waiting subjobs of its job. -/
def FirstWaiting (db : Database) (s : Subjob) : Prop :=
  ∀ r ∈ db.subjobs, r.repoIndexingJobId = s.repoIndexingJobId → waiting r = true →
    dispatchRank s ≤ dispatchRank r

section QuietJob

variable (hquiet : Quiet db s.repoIndexingJobId) (hfirst : FirstWaiting db s)
include hquiet hfirst

/-- In a quiet job an unfinished subjob waits, so it does not come before the first one. -/
theorem Quiet.rank_le {dep : Subjob} (hdep : dep ∈ db.subjobs)
    (hjob : dep.repoIndexingJobId = s.repoIndexingJobId) (hunfinished : unfinished dep = true) :
    dispatchRank s ≤ dispatchRank dep := by
  apply hfirst dep hdep hjob
  obtain hwaiting | hst | hst := hquiet dep hdep hjob
  · exact hwaiting
  · simp [unfinished, hst] at hunfinished
  · simp [unfinished, hst] at hunfinished

theorem Quiet.layerRank_le {dep : Subjob} (hdep : dep ∈ db.subjobs)
    (hsame : sameRevision s dep = true) (hunfinished : unfinished dep = true) :
    layerRank s.layer ≤ layerRank dep.layer := by
  simp only [sameRevision, Bool.and_eq_true, decide_eq_true_eq] at hsame
  have hle := hquiet.rank_le hfirst hdep hsame.1.1.1.1.1 hunfinished
  rw [dispatchRank, dispatchRank, Prod.Lex.toLex_le_toLex] at hle
  obtain hlt | ⟨heq, -⟩ := hle
  · exact hlt.le
  · exact heq.le

theorem Quiet.not_awaitsClone (hrank : 1 ≤ layerRank s.layer) : awaitsClone db s = false := by
  apply List.any_eq_false.2
  intro dep hdep hawaits
  simp only [Bool.and_eq_true, decide_eq_true_eq] at hawaits
  have hle := hquiet.layerRank_le hfirst hdep hawaits.1.1 hawaits.2
  rw [hawaits.1.2] at hle
  have hzero : layerRank .clone = 0 := rfl
  omega

theorem Quiet.not_awaitsProducer (hlayer : s.layer = .graphMerge) :
    awaitsProducer db s = false := by
  apply List.any_eq_false.2
  intro dep hdep hawaits
  simp only [Bool.and_eq_true, isScipOrAst, Bool.or_eq_true, decide_eq_true_eq] at hawaits
  have hle := hquiet.layerRank_le hfirst hdep hawaits.1.1.1 hawaits.1.2
  obtain hscip | hast := hawaits.1.1.2
  · simp [hlayer, hscip, layerRank] at hle
  · simp [hlayer, hast, layerRank] at hle

theorem Quiet.not_awaitsRevision (hlayer : s.layer = .activate) : awaitsRevision db s = false := by
  apply List.any_eq_false.2
  intro dep hdep hawaits
  simp only [Bool.and_eq_true, decide_eq_true_eq] at hawaits
  have hle := hquiet.layerRank_le hfirst hdep hawaits.1.1.1.1 hawaits.1.2
  have hother := hawaits.1.1.2
  rw [hlayer] at hle
  revert hle hother
  cases dep.layer <;> simp [layerRank]

theorem Quiet.not_awaitsActivate (hlayer : s.layer = .activate) : awaitsActivate db s = false := by
  apply List.any_eq_false.2
  intro act hact hawaits
  simp only [Bool.and_eq_true, decide_eq_true_eq] at hawaits
  obtain ⟨⟨⟨⟨⟨⟨hjob, -⟩, -⟩, hactlayer⟩, -⟩, hstatus⟩, hlt⟩ := hawaits
  have hunfinished : unfinished act = true := by
    unfold unfinished
    revert hstatus
    cases act.status <;> decide
  -- both are ACTIVATE rows, so their ranks compare by age
  have hle := hquiet.rank_le hfirst hact hjob hunfinished
  rw [dispatchRank, dispatchRank, hlayer, hactlayer, Prod.Lex.toLex_le_toLex] at hle
  obtain hlt' | ⟨-, hkey⟩ := hle
  · exact lt_irrefl _ hlt'
  · exact absurd hlt (not_lt.2 hkey)

/-- The first waiting subjob of a quiet job has its dependencies met. -/
theorem Quiet.dependenciesMet : dependenciesMet db s = true := by
  have hclone := hquiet.not_awaitsClone hfirst
  unfold Subjobs.dependenciesMet
  cases hlayer : s.layer with
  | clone => rfl
  | remove => rfl
  | zoekt | astTreeSitter | scip => simp [hclone (by simp [hlayer, layerRank])]
  | graphMerge => simp [hquiet.not_awaitsProducer hfirst hlayer]
  | activate =>
    simp [hquiet.not_awaitsRevision hfirst hlayer, hquiet.not_awaitsActivate hfirst hlayer]

end QuietJob

end First

/-- In every state that planner and store calls reach from an empty subjob table: a
running INDEX job with a waiting subjob, none in flight and none failed, has a subjob
that `ListDispatchable` returns when its limit covers the waiting subjobs. -/
theorem dispatch_deadlock_free (sha256Hex : String → String) {db₀ db : Database}
    {calls : List ControlCall} (hempty : db₀.subjobs = [])
    (hjobs : UniqueKey RepoIndexingJob.id db₀.jobs)
    (hrun : (controlMachine sha256Hex).run db₀ calls = some db) {j : RepoIndexingJob}
    (hj : j ∈ db.jobs) (htype : j.type = .index) (hstatus : j.status = .inProgress)
    (hflight : ∀ r ∈ db.subjobs, r.repoIndexingJobId = j.id → r.status ∉ inFlight)
    (hfailed : ∀ r ∈ db.subjobs, r.repoIndexingJobId = j.id → r.status ≠ .failed)
    (hwaiting : ∃ r ∈ db.subjobs, r.repoIndexingJobId = j.id ∧
      (r.status = .queued ∨ r.status = .retrying)) {limit : ℤ}
    (hlimit : ((db.subjobs.filter fun r => r.status = .queued ∨ r.status = .retrying).length : ℤ) ≤
      limit) :
    ∃ items, listDispatchable limit db = .ok items ∧
      ∃ item ∈ items, item.repoIndexingJobId = j.id := by
  have hinit : Attached db₀ := by
    refine ⟨hempty ▸ lifecycleTable_nil, hjobs, ?_, ?_⟩
    · intro r hr
      rw [hempty] at hr
      cases hr
    · intro r hr
      rw [hempty] at hr
      cases hr
  have hdb := run_attached hinit hrun
  have hquiet := quiet_of_attached hdb hj hstatus hflight hfailed
  -- the first waiting subjob of the job
  obtain ⟨r, hr, hrjob, hrstatus⟩ := hwaiting
  have hne : (db.subjobs.filter fun r => r.repoIndexingJobId = j.id && waiting r) ≠ [] := by
    apply List.ne_nil_of_mem (a := r)
    exact List.mem_filter.2 ⟨hr, by simp [hrjob, waiting_iff.2 hrstatus]⟩
  obtain ⟨s, hs⟩ := Option.ne_none_iff_exists'.1
    (mt (List.argmin_eq_none (f := dispatchRank)).1 hne)
  obtain ⟨hmem, hfilter⟩ := List.mem_filter.1 (List.argmin_mem hs)
  simp only [Bool.and_eq_true, decide_eq_true_eq] at hfilter
  obtain ⟨hsjob, hswaiting⟩ := hfilter
  have hmin : ∀ r ∈ db.subjobs, r.repoIndexingJobId = s.repoIndexingJobId → waiting r = true →
      dispatchRank s ≤ dispatchRank r := by
    intro r hr hjob hwaiting
    apply List.le_of_mem_argmin (List.mem_filter.2 ⟨hr, _⟩) hs
    simp [hjob, hsjob, hwaiting]
  have hmet : dependenciesMet db s = true := Quiet.dependenciesMet (hsjob ▸ hquiet) hmin
  have hlive : liveJob db s.repoIndexingJobId s.repoId s.orgId = true := by
    obtain ⟨⟨j', hj', hid, hrepo, -⟩, repo, hrepoMem, hrepoId, horg⟩ := hdb.parented s hmem
    obtain rfl : j' = j := hdb.jobIds.eq_of_key_eq hj' hj (hid.trans hsjob)
    simp only [liveJob, List.any_eq_true, Bool.and_eq_true, decide_eq_true_eq]
    exact ⟨j', hj', ⟨⟨⟨hid, hrepo⟩, htype⟩, hstatus⟩, repo, hrepoMem,
      hrepoId.trans hrepo.symm, horg⟩
  have hattempt := (hdb.table.rows s hmem).attempt_lt hswaiting
  have hdispatchable : dispatchable db s = true := by
    simp [dispatchable, hswaiting, hlive, hattempt, hmet]
  have hcount : (db.subjobs.filter fun r => r.status = .queued ∨ r.status = .retrying) =
      db.subjobs.filter waiting := by
    apply List.filter_congr
    intro r _
    simp [waiting]
  rw [hcount] at hlimit
  obtain ⟨items, hitems, hlisted⟩ := mem_listDispatchable_of_le hmem hdispatchable hlimit
  exact ⟨items, hitems, dispatchColumns s, hlisted, hsjob⟩

/-- The requeued subjob of the sample job is dispatched again. -/
theorem requeued_job_dispatches :
    ∃ items, listDispatchable 1 requeuedDatabase = .ok items ∧
      ∃ item ∈ items, item.repoIndexingJobId = "job" := by
  have hrun : (controlMachine id).run sampleDatabase
      [.store (.upsertQueued 1 sampleInput),
        .store (.claimScoped 2 (sampleClaim 2 1 "first").scope "executor" "first" 102),
        .store (.requeueExpiredLeases 200 200 10 [])] = some requeuedDatabase := rfl
  obtain ⟨j, hj, hjob⟩ : ∃ j ∈ requeuedDatabase.jobs,
      j.id = "job" ∧ j.type = .index ∧ j.status = .inProgress := by decide +kernel
  have hrows : ∀ r ∈ requeuedDatabase.subjobs, r.repoIndexingJobId = "job" ∧
      r.status = .retrying := by decide +kernel
  have hne : ∃ r, r ∈ requeuedDatabase.subjobs :=
    List.exists_mem_of_length_pos (by decide +kernel)
  have hkeys : UniqueKey RepoIndexingJob.id sampleDatabase.jobs := by
    decide +kernel
  obtain ⟨r, hr⟩ := hne
  have hall := dispatch_deadlock_free id rfl hkeys hrun hj hjob.2.1 hjob.2.2
    (fun r hr _ => by rw [(hrows r hr).2]; decide) (fun r hr _ => by rw [(hrows r hr).2]; decide)
    ⟨r, hr, (hrows r hr).1.trans hjob.1.symm, .inr (hrows r hr).2⟩
    (show ((requeuedDatabase.subjobs.filter fun r =>
      r.status = .queued ∨ r.status = .retrying).length : ℤ) ≤ 1 by decide +kernel)
  rw [hjob.1] at hall
  exact hall

end CodeIntel.Subjobs
