import CodeIntel.Core.MergeFrame
import CodeIntel.Core.ActivationRetry
import CodeIntel.Scip.PlannedProjects

/-!
# Which projects are indexed after a planned job

The language rows of a commit come from the ingests of the job that was planned
for it. A project the plan leaves out has no subjob, so the first ingest of the
revision removes its rows, and no step brings the rows of an older commit over.
-/

namespace CodeIntel.Scip

open Relational Schema Subjobs Planner CodeIntel.Graph

/-! ## Steps that leave the index rows alone -/

section Frame

variable {jobId : String} {db : Database}

theorem sameScip_updateSubjobs {cond : Subjob → Bool} {set : Subjob → Subjob}
    (hset : ∀ s, jobProject jobId (set s) = jobProject jobId s) :
    SameScip jobId db (updateSubjobs cond set db).2 :=
  ⟨rfl, rfl, rfl, jobProjects_updateWhere jobId hset db.subjobs⟩

theorem sameScip_claimScoped (now : Time) (scope : ClaimScope) (owner attemptId : String)
    (leaseUntil : Time) :
    SameScip jobId db (claimScoped now scope owner attemptId leaseUntil db).2 := by
  unfold claimScoped
  split_ifs
  · exact .refl
  · exact .refl
  · exact .refl
  · exact sameScip_updateSubjobs fun _ => rfl

theorem sameScip_markSucceeded (now : Time) (lease : Lease) :
    SameScip jobId db (markSucceeded now lease db).2 := by
  unfold markSucceeded
  split_ifs
  · exact .refl
  · exact sameScip_updateSubjobs fun _ => rfl

theorem sameScip_failParent (now : Time) (id code message : String) :
    SameScip jobId db (failParentIfTerminalFailure now id code message db) := by
  unfold failParentIfTerminalFailure
  split
  · exact .refl
  · exact ⟨rfl, rfl, rfl, jobProjects_updateWhere jobId (by intro s; rfl) db.subjobs⟩

theorem sameScip_markFailed (now : Time) (lease : Lease) (code message : String) :
    SameScip jobId db (markFailed now lease code message db).2 := by
  unfold markFailed
  split_ifs
  · exact .refl
  · unfold failSubjob
    have hupdated : ∀ cond status code message, SameScip jobId db
        { db with subjobs := updateWhere cond (failRow now status code message) db.subjobs } :=
      fun cond status code message =>
        ⟨rfl, rfl, rfl, jobProjects_updateWhere jobId (by intro s; rfl) db.subjobs⟩
    split_ifs
    · exact (hupdated _ _ _ _).trans (sameScip_failParent now _ _ _)
    · exact hupdated _ _ _ _

theorem sameScip_activate (now : Time) (newId : String) (p : Payload) :
    SameScip jobId db (Core.activate now newId p db).2 := by
  obtain ⟨e, heq⟩ | ⟨current, graph, -, -, heq⟩ := Core.activate_cases now newId p db <;>
    rw [heq] <;> exact ⟨rfl, rfl, rfl, rfl⟩

theorem sameScip_execute (d : Digests) (x : Core.Execution) (p : Payload) :
    SameScip jobId db (Core.execute d x p db).2 := by
  unfold Core.execute
  split
  · have hsame := Core.SameInputs.of_onlyGraph
      (Core.mergeGraph_onlyGraph d x.caps x.graphError x.executeAt x.newId p db)
    exact ⟨hsame.indexes, hsame.languages, hsame.symbols, by rw [hsame.subjobs]⟩
  · exact sameScip_activate x.executeAt x.newId p

theorem sameScip_withHeartbeat (d : Digests) (x : Core.Execution) (p : Payload) :
    SameScip jobId db (Core.withHeartbeat d x p db).2 := by
  have hbeat : SameScip jobId db
      (heartbeat x.heartbeatAt ⟨p.id, x.leaseOwner, x.attemptId⟩ x.heartbeatLease db).2 :=
    sameScip_updateSubjobs fun _ => rfl
  unfold Core.withHeartbeat
  split <;> rename_i heq <;> rw [heq] at hbeat
  · exact hbeat
  · exact hbeat
  · exact hbeat.trans (sameScip_execute d x p)

theorem sameScip_finishTask (x : Core.Execution) (p : Payload) (reply : Reply Unit) :
    SameScip jobId reply.2 (Core.finishTask x p reply).2 := by
  obtain ⟨result | result, db⟩ := reply
  · have hmark : SameScip jobId db (markFailed x.finishAt ⟨p.id, x.leaseOwner, x.attemptId⟩
        "CORE_SUBJOB_FAILED" result db).2 := sameScip_markFailed _ _ _ _
    unfold Core.finishTask Core.recordFailure
    dsimp only
    split <;> rename_i heq <;> rw [heq] at hmark <;> exact hmark
  · have hmark : SameScip jobId db (markSucceeded x.finishAt ⟨p.id, x.leaseOwner, x.attemptId⟩
        db).2 := sameScip_markSucceeded _ _
    unfold Core.finishTask Core.recordSuccess
    dsimp only
    split <;> rename_i heq <;> rw [heq] at hmark
    · exact hmark
    · exact hmark
    · split
      · exact hmark.trans ⟨rfl, rfl, rfl, rfl⟩
      · exact hmark

theorem sameScip_handle (d : Digests) (x : Core.Execution) (taskType : String) (p : Payload) :
    SameScip jobId db (Core.handle d x taskType p db).2 := by
  unfold Core.handle
  split
  · exact .refl
  split
  · exact .refl
  have hclaim : SameScip jobId db
      (claimScoped x.claimAt p x.leaseOwner x.attemptId x.claimLease db).2 :=
    sameScip_claimScoped _ _ _ _ _
  split <;> rename_i heq <;> rw [heq] at hclaim
  · exact hclaim
  · exact hclaim
  · exact (hclaim.trans (sameScip_withHeartbeat d x p)).trans (sameScip_finishTask x p _)

end Frame

/-! ## The workers of a job -/

instance (jobId : String) (db db' : Database) : Decidable (SameScip jobId db db') :=
  decidable_of_iff (db'.codeIntelIndexes = db.codeIntelIndexes ∧
      db'.languageIndexes = db.languageIndexes ∧ db'.symbols = db.symbols ∧
      jobProjects jobId db'.subjobs = jobProjects jobId db.subjobs)
    ⟨fun ⟨h₁, h₂, h₃, h₄⟩ => ⟨h₁, h₂, h₃, h₄⟩, fun ⟨h₁, h₂, h₃, h₄⟩ => ⟨h₁, h₂, h₃, h₄⟩⟩

/-- A successful `Ingest`, a delivery of a merge or activation task, or anything
else that keeps the index rows and the projects of the job: claims, heartbeats,
marks, failed ingests, the producers of the other layers. -/
inductive WorkerStep where
  | ingest (c : IngestCall)
  | core (d : Digests) (x : Core.Execution) (taskType : String) (p : Payload)
  | other (f : Database → Database)

def indexMachine (jobId : String) : Machine Database WorkerStep where
  step db
    | .ingest c => match ingest c db with
      | (.ok (), db') => some db'
      | (.error _, _) => none
    | .core d x taskType p => some (Core.handle d x taskType p db).2
    | .other f => if SameScip jobId db (f db) then some (f db) else none

variable {jobId : String} {db db' : Database} {steps : List WorkerStep}

theorem indexMachine_step_cases {l : WorkerStep} (h : (indexMachine jobId).step db l = some db') :
    (∃ c, l = .ingest c ∧ ingest c db = (.ok (), db')) ∨
      (∀ c, l ≠ .ingest c) ∧ SameScip jobId db db' := by
  cases l with
  | ingest c =>
    simp only [indexMachine] at h
    split at h
    · rename_i db₁ heq
      cases h
      exact .inl ⟨c, rfl, heq⟩
    · cases h
  | core d x taskType p =>
    refine .inr ⟨by simp, ?_⟩
    rw [← Option.some.inj h]
    exact sameScip_handle d x taskType p
  | other f =>
    simp only [indexMachine] at h
    split_ifs at h with hsame
    refine .inr ⟨by simp, ?_⟩
    rwa [← Option.some.inj h]

def ingests (steps : List WorkerStep) : List IngestCall :=
  steps.filterMap fun
    | .ingest c => some c
    | _ => none

theorem mem_ingests {c : IngestCall} : c ∈ ingests steps ↔ WorkerStep.ingest c ∈ steps := by
  simp only [ingests, List.mem_filterMap]
  constructor
  · rintro ⟨l, hl, hc⟩
    cases l with
    | ingest c' => exact Option.some.inj hc ▸ hl
    | core d x taskType p => cases hc
    | other f => cases hc
  · intro h
    exact ⟨_, h, rfl⟩

def IngestCall.isFor (scope : IndexScope) (key : ProjectKey) (c : IngestCall) : Bool :=
  payloadScope c.payload = scope && c.key = key

/-- The run ingests the project, and the last of these calls stores a symbol. -/
def LastIngestStores (jobId : String) (scope : IndexScope) (key : ProjectKey) (db : Database)
    (steps : List WorkerStep) : Prop :=
  ∃ pre c post db₁, steps = pre ++ .ingest c :: post ∧
    (indexMachine jobId).run db pre = some db₁ ∧ c.isFor scope key = true ∧
    (∀ c', WorkerStep.ingest c' ∈ post → c'.isFor scope key = false) ∧ c.stores db₁ = true

section Run

variable {jobId : String} {scope : IndexScope} {key : ProjectKey} {db db₁ db' : Database}
  {l : WorkerStep} {steps : List WorkerStep}

theorem indexMachine_step_integrity (hint : Integrity db)
    (h : (indexMachine jobId).step db l = some db') : Integrity db' := by
  rcases indexMachine_step_cases h with ⟨c, -, hok⟩ | ⟨-, hsame⟩
  · exact integrity_ingest hint hok
  · exact hsame.integrity hint

theorem indexMachine_step_projects (h : (indexMachine jobId).step db l = some db') :
    jobProjects jobId db'.subjobs = jobProjects jobId db.subjobs := by
  rcases indexMachine_step_cases h with ⟨c, -, hok⟩ | ⟨-, hsame⟩
  · exact jobProjects_ingest hok jobId
  · exact hsame.projects

theorem isIndexed_step_elsewhere (hint : Integrity db)
    (h : (indexMachine jobId).step db l = some db')
    (helse : ∀ c, l = .ingest c → payloadScope c.payload ≠ scope) :
    isIndexed db' scope key = true ↔ isIndexed db scope key = true := by
  rcases indexMachine_step_cases h with ⟨c, hl, hok⟩ | ⟨-, hsame⟩
  · rw [isIndexed_ingest hint hok, if_neg fun heq => helse c hl heq.symm]
  · rw [hsame.isIndexed_eq]

theorem isIndexed_step_other_project {c : IngestCall} (hint : Integrity db)
    (h : (indexMachine jobId).step db (.ingest c) = some db')
    (hscope : payloadScope c.payload = scope) (hjob : c.payload.repoIndexingJobId = jobId)
    (hkey : c.key ≠ key) :
    isIndexed db' scope key = true ↔
      isIndexed db scope key = true ∧ (scope, key) ∈ jobProjects jobId db.subjobs := by
  rcases indexMachine_step_cases h with ⟨_, hl, hok⟩ | ⟨hno, -⟩
  · cases hl
    rw [isIndexed_ingest hint hok, if_pos hscope.symm, if_neg fun heq => hkey heq.symm,
      IngestCall.jobKeys, mem_scipKeys, hscope, hjob]
  · exact absurd rfl (hno c)

theorem isIndexed_step_own {c : IngestCall} (hint : Integrity db)
    (h : (indexMachine jobId).step db (.ingest c) = some db') (hfor : c.isFor scope key = true) :
    isIndexed db' scope key = true ↔ c.stores db = true := by
  simp only [IngestCall.isFor, Bool.and_eq_true, decide_eq_true_eq] at hfor
  rcases indexMachine_step_cases h with ⟨_, hl, hok⟩ | ⟨hno, -⟩
  · cases hl
    rw [isIndexed_ingest hint hok, if_pos hfor.1.symm, if_pos hfor.2.symm]
  · exact absurd rfl (hno c)

theorem lastIngestStores_cons (h : (indexMachine jobId).step db l = some db₁) :
    LastIngestStores jobId scope key db (l :: steps) ↔
      LastIngestStores jobId scope key db₁ steps ∨
        ∃ c, l = .ingest c ∧ c.isFor scope key = true ∧ c.stores db = true ∧
          ∀ c', WorkerStep.ingest c' ∈ steps → c'.isFor scope key = false := by
  constructor
  · rintro ⟨pre, c, post, db₂, heq, hrun, hfor, hlast, hstores⟩
    cases pre with
    | nil =>
      obtain ⟨rfl, rfl⟩ := List.cons.inj heq
      cases hrun
      exact .inr ⟨c, rfl, hfor, hstores, hlast⟩
    | cons a pre =>
      obtain ⟨rfl, rfl⟩ := List.cons.inj heq
      obtain ⟨db₃, hstep, hrest⟩ := (Machine.run_cons_eq_some _).1 hrun
      obtain rfl := Option.some.inj (h.symm.trans hstep)
      exact .inl ⟨pre, c, post, db₂, rfl, hrest, hfor, hlast, hstores⟩
  · rintro (⟨pre, c, post, db₂, rfl, hrun, hfor, hlast, hstores⟩ | ⟨c, rfl, hfor, hstores, hlast⟩)
    · exact ⟨l :: pre, c, post, db₂, rfl, (Machine.run_cons_eq_some _).2 ⟨db₁, h, hrun⟩, hfor, hlast,
        hstores⟩
    · exact ⟨[], c, steps, db, rfl, rfl, hfor, hlast, hstores⟩

/-- A project without a subjob of the job loses its rows at the first ingest of the
revision. -/
theorem isIndexed_run_unplanned (hint : Integrity db)
    (hrun : (indexMachine jobId).run db steps = some db')
    (hjob : ∀ c, WorkerStep.ingest c ∈ steps → payloadScope c.payload = scope →
      c.payload.repoIndexingJobId = jobId ∧ c.key ≠ key)
    (hkey : (scope, key) ∉ jobProjects jobId db.subjobs) :
    isIndexed db' scope key = true ↔ isIndexed db scope key = true ∧
      ∀ c, WorkerStep.ingest c ∈ steps → payloadScope c.payload ≠ scope := by
  induction steps generalizing db with
  | nil => simp [Option.some.inj hrun]
  | cons l steps ih =>
    obtain ⟨db₁, hstep, hrest⟩ := (Machine.run_cons_eq_some _).1 hrun
    have htail := ih (indexMachine_step_integrity hint hstep) hrest
      (fun c hc => hjob c (List.mem_cons_of_mem _ hc))
      (by rwa [indexMachine_step_projects hstep])
    rw [htail]
    by_cases hhere : ∃ c, l = .ingest c ∧ payloadScope c.payload = scope
    · obtain ⟨c, rfl, hscope⟩ := hhere
      obtain ⟨hc, hne⟩ := hjob c List.mem_cons_self hscope
      rw [isIndexed_step_other_project hint hstep hscope hc hne]
      refine iff_of_false (fun h => hkey h.1.2) fun h => ?_
      exact h.2 c List.mem_cons_self hscope
    · rw [isIndexed_step_elsewhere hint hstep fun c hc heq => hhere ⟨c, hc, heq⟩]
      refine and_congr_right fun _ => ⟨fun h c hc => ?_, fun h c hc => h c (List.mem_cons_of_mem _ hc)⟩
      rcases List.mem_cons.1 hc with hl | hc
      · exact fun heq => hhere ⟨c, hl.symm, heq⟩
      · exact h c hc

/-- For a project of the job the last ingest of the project decides. -/
theorem isIndexed_run_planned (hint : Integrity db)
    (hrun : (indexMachine jobId).run db steps = some db')
    (hjob : ∀ c, WorkerStep.ingest c ∈ steps → payloadScope c.payload = scope →
      c.payload.repoIndexingJobId = jobId)
    (hkey : (scope, key) ∈ jobProjects jobId db.subjobs) :
    isIndexed db' scope key = true ↔ LastIngestStores jobId scope key db steps ∨
      isIndexed db scope key = true ∧
        ∀ c, WorkerStep.ingest c ∈ steps → c.isFor scope key = false := by
  induction steps generalizing db with
  | nil =>
    cases hrun
    simp [LastIngestStores]
  | cons l steps ih =>
    obtain ⟨db₁, hstep, hrest⟩ := (Machine.run_cons_eq_some _).1 hrun
    rw [ih (indexMachine_step_integrity hint hstep) hrest
      (fun c hc => hjob c (List.mem_cons_of_mem _ hc)) (by rwa [indexMachine_step_projects hstep]),
      lastIngestStores_cons hstep, or_assoc]
    refine or_congr_right ?_
    by_cases hown : ∃ c, l = .ingest c ∧ c.isFor scope key = true
    · obtain ⟨c, rfl, hfor⟩ := hown
      rw [isIndexed_step_own hint hstep hfor]
      constructor
      · rintro ⟨hstores, hlast⟩
        exact .inl ⟨c, rfl, hfor, hstores, hlast⟩
      · rintro (⟨c', heq, -, hstores, hlast⟩ | ⟨-, hnone⟩)
        · cases heq
          exact ⟨hstores, hlast⟩
        · simp [hnone c List.mem_cons_self] at hfor
    · -- the step keeps the project, as the job has a subjob for it
      have hkeep : isIndexed db₁ scope key = true ↔ isIndexed db scope key = true := by
        by_cases hhere : ∃ c, l = .ingest c ∧ payloadScope c.payload = scope
        · obtain ⟨c, rfl, hscope⟩ := hhere
          have hne : c.key ≠ key := fun heq => hown ⟨c, rfl, by simp [IngestCall.isFor, hscope, heq]⟩
          rw [isIndexed_step_other_project hint hstep hscope (hjob c List.mem_cons_self hscope) hne]
          exact and_iff_left hkey
        · exact isIndexed_step_elsewhere hint hstep fun c hc heq => hhere ⟨c, hc, heq⟩
      rw [hkeep]
      constructor
      · rintro ⟨hbefore, hnone⟩
        refine .inr ⟨hbefore, fun c hc => ?_⟩
        rcases List.mem_cons.1 hc with hl | hc
        · exact Bool.eq_false_iff.2 fun hfor => hown ⟨c, hl.symm, hfor⟩
        · exact hnone c hc
      · rintro (⟨c, hl, hfor, -⟩ | ⟨hbefore, hnone⟩)
        · exact absurd ⟨c, hl, hfor⟩ hown
        · exact ⟨hbefore, fun c hc => hnone c (List.mem_cons_of_mem _ hc)⟩

end Run

/-! ## A planned job -/

theorem AddsProjects.isIndexed_eq {new : IndexScope × ProjectKey → Prop}
    (h : AddsProjects jobId new db db') (scope : IndexScope) (key : ProjectKey) :
    isIndexed db' scope key = isIndexed db scope key := by
  simp only [isIndexed, h.indexes, h.languages, h.symbols]

theorem AddsProjects.integrity {new : IndexScope × ProjectKey → Prop}
    (h : AddsProjects jobId new db db') (hint : Integrity db) :
    Integrity db' :=
  hint.congr h.indexes h.languages

/-- The ingests of the revision are those of its kept projects, and every kept
project was ingested: its subjob succeeds only after that. -/
structure ExecutesPlan (jobId : String) (scope : IndexScope) (r : RevisionPlan)
    (steps : List WorkerStep) : Prop where
  planned : ∀ c, WorkerStep.ingest c ∈ steps → payloadScope c.payload = scope →
    c.payload.repoIndexingJobId = jobId ∧ ∃ Q ∈ r.kept, c.key = projectKey Q
  succeeded : ∀ Q ∈ r.kept, ∃ c, WorkerStep.ingest c ∈ steps ∧
    c.isFor scope (projectKey Q) = true

theorem executesPlan_iff {scope : IndexScope} {r : RevisionPlan} :
    ExecutesPlan jobId scope r steps ↔
      (∀ c ∈ ingests steps, payloadScope c.payload = scope →
        c.payload.repoIndexingJobId = jobId ∧ ∃ Q ∈ r.kept, c.key = projectKey Q) ∧
      ∀ Q ∈ r.kept, ∃ c ∈ ingests steps, c.isFor scope (projectKey Q) = true := by
  simp only [mem_ingests]
  exact ⟨fun ⟨h₁, h₂⟩ => ⟨h₁, h₂⟩, fun ⟨h₁, h₂⟩ => ⟨h₁, h₂⟩⟩

instance (jobId : String) (scope : IndexScope) (r : RevisionPlan) (steps : List WorkerStep) :
    Decidable (ExecutesPlan jobId scope r steps) :=
  decidable_of_iff _ executesPlan_iff.symm

/-- A runnable project of a planned revision is indexed after the run of the job
exactly if the plan keeps no project at all and the commit was indexed before, or if
the plan keeps this project and its last ingest stores symbols. -/
theorem project_indexed_after_job_iff {env : PlanEnv} {now : Time} {task : IndexTask}
    {plans : List RevisionPlan} {db₀ db₁ db₂ : Database} {r : RevisionPlan} {P : SCIPProject}
    {steps : List WorkerStep} (hint : Integrity db₀)
    (hfresh : ∀ s ∈ db₀.subjobs, s.repoIndexingJobId ≠ task.jobId)
    (hplan : planSplitIndex env now task db₀ = (.ok plans, db₁)) (hr : r ∈ plans)
    (hP : P ∈ r.projects.runnable) (hrun : (indexMachine task.jobId).run db₁ steps = some db₂)
    (hexec : ExecutesPlan task.jobId (planScope task (planWorkspace task db₀) r) r steps) :
    isIndexed db₂ (planScope task (planWorkspace task db₀) r) (projectKey P) = true ↔
      r.kept = [] ∧
          isIndexed db₀ (planScope task (planWorkspace task db₀) r) (projectKey P) = true ∨
        P ∈ r.kept ∧ LastIngestStores task.jobId (planScope task (planWorkspace task db₀) r)
          (projectKey P) db₁ steps := by
  have hmem := mem_jobProjects_iff_kept hplan hfresh hr hP
  have hadds := (planSplitIndex_ok hplan).1
  generalize planScope task (planWorkspace task db₀) r = scope at *
  by_cases hkept : P ∈ r.kept
  · obtain ⟨c, hc, hfor⟩ := hexec.succeeded P hkept
    rw [isIndexed_run_planned (hadds.integrity hint) hrun
      (fun c hc hscope => (hexec.planned c hc hscope).1) (hmem.2 hkept)]
    constructor
    · rintro (hlast | ⟨-, hnone⟩)
      · exact .inr ⟨hkept, hlast⟩
      · simp [hnone c hc] at hfor
    · rintro (⟨hnil, -⟩ | ⟨-, hlast⟩)
      · simp [hnil] at hkept
      · exact .inl hlast
  · -- an ingest of the same key would stand for a kept project of the same root
    have hother : ∀ c, WorkerStep.ingest c ∈ steps → payloadScope c.payload = scope →
        c.payload.repoIndexingJobId = task.jobId ∧ c.key ≠ projectKey P := by
      intro c hc hscope
      obtain ⟨hjob, Q, hQ, hkey⟩ := hexec.planned c hc hscope
      refine ⟨hjob, fun heq => hkept ?_⟩
      obtain ⟨-, hroot⟩ := projectKey_inj (heq.symm.trans hkey)
      exact filterSCIPProjectsForDelta_of_root_eq hQ hP hroot
    rw [isIndexed_run_unplanned (hadds.integrity hint) hrun hother fun h => hkept (hmem.1 h),
      hadds.isIndexed_eq]
    constructor
    · rintro ⟨hbefore, hnone⟩
      refine .inl ⟨List.eq_nil_iff_forall_not_mem.2 fun Q hQ => ?_, hbefore⟩
      obtain ⟨c, hc, hfor⟩ := hexec.succeeded Q hQ
      simp only [IngestCall.isFor, Bool.and_eq_true, decide_eq_true_eq] at hfor
      exact hnone c hc hfor.1
    · rintro (⟨hnil, hbefore⟩ | ⟨hmem', -⟩)
      · refine ⟨hbefore, fun c hc hscope => ?_⟩
        obtain ⟨-, Q, hQ, -⟩ := hexec.planned c hc hscope
        simp [hnil] at hQ
      · exact absurd hmem' hkept

/-! ## Two Go modules, one changed file -/

def previousCommit : String := "fedcba9876543210fedcba9876543210fedcba98"

def goModule (root : String) : SCIPProject := { rootGoProject with projectRoot := root }

/-- A repository of two Go modules; `hash` is the content of a file of the first one. -/
def moduleTree (hash : String) : List TreeFile :=
  sampleTree [("svc1/go.mod", "m1"), ("svc1/a.go", hash), ("svc2/go.mod", "m2"),
    ("svc2/b.go", "b")]

def moduleEnv : PlanEnv where
  resolveIndexRevisions _ := .ok [⟨"main", sampleCommit⟩]
  distinct := nodup_of_eq_main
  treeOf _ := .ok (moduleTree "2")
  supportsZoektFileDelta := false
  scipConfig := universalConfig
  manifestId _ := "manifest"
  -- the lengths of the inputs are enough to tell the subjobs apart
  sha256Hex s := toString s.utf8ByteSize

def moduleTask : IndexTask := ⟨"job", 1, 7⟩

def previousScope : IndexScope := ⟨1, 7, "ws", "main", "main", previousCommit⟩

def moduleLanguage (root : String) : CodeIntelLanguageIndex where
  id := "previous-" ++ root
  codeIntelIndexId := "previous"
  language := "go"
  projectRoot := root
  indexer := "scip-go"
  workerClass := "scip-go"
  status := .ready
  artifactPath := "artifacts/" ++ root
  createdAt := 0
  updatedAt := 0

def moduleSymbol (root : String) : CodeIntelSymbol where
  symbol := root ++ ".Run"
  orgId := 1
  repoId := 7
  codeIntelIndexId := "previous"
  codeIntelLanguageIndexId := "previous-" ++ root

/-- The previous commit is active, and both modules are indexed there. -/
def indexedDatabase : Database :=
  { sampleDatabase with
    manifests :=
      [{ sampleManifest with id := "previous", commitHash := previousCommit, status := .ready,
                             indexJobId := some "previous-job", activatedAt := some 0 }]
    manifestFiles := (buildManifestFilesForCommit (moduleTree "1")).map
      (manifestFileRecord "previous")
    codeIntelIndexes :=
      [{ id := "previous", status := .ready, workspaceId := "ws", branch := "main",
         revision := "main", commitHash := previousCommit, artifactRoot := "artifacts",
         languageCount := 1, symbolCount := 2, indexedAt := some 0, orgId := 1, repoId := 7,
         createdAt := 0, updatedAt := 0 }]
    languageIndexes := [moduleLanguage "svc1", moduleLanguage "svc2"]
    symbols := [moduleSymbol "svc1", moduleSymbol "svc2"] }

def messageOf (s : Subjob) : Payload where
  id := s.id
  repoIndexingJobId := s.repoIndexingJobId
  orgId := s.orgId
  workspaceId := some s.workspaceId
  repoId := s.repoId
  branch := s.branch
  revision := s.revision
  commitHash := s.commitHash
  layer := s.layer
  language := s.language
  projectRoot := s.projectRoot
  indexer := s.indexer
  workerClass := s.workerClass
  queueName := s.queueName
  attempt := 1

def claimStep (s : Subjob) : WorkerStep :=
  .other fun db => (claimScoped 10 (messageOf s) "worker" "attempt" 1000 db).2

def succeedStep (s : Subjob) : WorkerStep :=
  .other fun db => (markSucceeded 30 ⟨s.id, "worker", "attempt"⟩ db).2

def moduleIngest (s : Subjob) : IngestCall where
  payload := messageOf s
  artifactPath := "artifacts/index.scip"
  artifactSha256 := "sha"
  leaseOwner := "worker"
  attemptId := "attempt"
  load := .ok { symbols := [{ symbol := coalesce s.projectRoot ++ ".Run" }] }
  artifactRoot := "artifacts"
  newIndexId := "current"
  newLanguageId := "current-" ++ coalesce s.projectRoot
  precheckAt := 20
  now := 21

def coreExecution : Core.Execution where
  leaseOwner := "worker"
  attemptId := "attempt"
  claimAt := 40
  claimLease := 1000
  heartbeatAt := 41
  heartbeatLease := 1000
  executeAt := 42
  finishAt := 43
  newId := "graph"

def workOn (s : Subjob) : List WorkerStep :=
  match s.layer with
  | .scip =>
    [claimStep s,
      .other fun db => (markArtifactWritten 15 ⟨s.id, "worker", "attempt"⟩ "tmp"
        "artifacts/index.scip" "sha" db).2,
      .ingest (moduleIngest s), succeedStep s]
  | .graphMerge | .activate => [.core Core.sampleDigests coreExecution s.queueName (messageOf s)]
  | _ => [claimStep s, succeedStep s]

def plannedModules : Reply (List RevisionPlan) :=
  planSplitIndex moduleEnv 5 moduleTask indexedDatabase

def moduleSteps : List WorkerStep := plannedModules.2.subjobs.flatMap workOn

def indexedModules : Option Database :=
  (indexMachine moduleTask.jobId).run plannedModules.2 moduleSteps

def modulePlan : RevisionPlan where
  branch := "main"
  commitHash := sampleCommit
  plan := buildManifestDeltaPlan (buildManifestFilesForCommit (moduleTree "1"))
    (buildManifestFilesForCommit (moduleTree "2")) false
  projects := detectSnapshotPlan (moduleTree "2") universalConfig

def currentScope : IndexScope :=
  planScope moduleTask (planWorkspace moduleTask indexedDatabase) modulePlan

def moduleView (db : Database) : List SubjobStatus × List (String × ManifestStatus) × Bool × Bool :=
  (db.subjobs.map Subjob.status, db.manifests.map fun m => (m.commitHash, m.status),
    isIndexed db currentScope (projectKey (goModule "svc1")),
    isIndexed db currentScope (projectKey (goModule "svc2")))

theorem plannedModules_plans : plannedModules.1 = .ok [modulePlan] := by
  decide +kernel

theorem indexedModules_view :
    indexedModules.map moduleView =
      some ([.succeeded, .succeeded, .succeeded, .succeeded, .succeeded],
        [(previousCommit, .superseded), (sampleCommit, .ready)], true, false) := by
  decide +kernel

/-- The module with the changed file is indexed at the new commit. -/
theorem changed_module_indexed :
    ∃ db, indexedModules = some db ∧
      isIndexed db currentScope (projectKey (goModule "svc1")) = true ∧
      LastIngestStores moduleTask.jobId currentScope (projectKey (goModule "svc1")) plannedModules.2
        moduleSteps := by
  obtain ⟨db, hrun, hview⟩ := Option.map_eq_some_iff.1 indexedModules_view
  simp only [moduleView, Prod.mk.injEq] at hview
  obtain ⟨-, -, hsvc1, -⟩ := hview
  have hint : Integrity indexedDatabase :=
    ⟨by decide, by decide, by decide, by decide, by decide⟩
  have hplan : plannedModules = (.ok [modulePlan], plannedModules.2) := by
    rw [← plannedModules_plans]
  have hP : goModule "svc1" ∈ modulePlan.projects.runnable := by decide
  have hsome : modulePlan.kept ≠ [] := by decide +kernel
  have hexec : ExecutesPlan moduleTask.jobId currentScope modulePlan moduleSteps := by
    decide +kernel
  refine ⟨db, hrun, hsvc1, ?_⟩
  rcases (project_indexed_after_job_iff hint (by decide) hplan List.mem_cons_self hP hrun hexec).1
    hsvc1 with ⟨hnil, -⟩ | ⟨-, hlast⟩
  · exact absurd hnil hsome
  · exact hlast

/-- The other module was indexed at the previous commit and none of its files changed.
All subjobs succeed and the new commit is active, but the module is not indexed there. -/
theorem untouched_module_lost :
    isIndexed indexedDatabase previousScope (projectKey (goModule "svc1")) = true ∧
      isIndexed indexedDatabase previousScope (projectKey (goModule "svc2")) = true ∧
      plannedModules.1 = .ok [modulePlan] ∧ modulePlan.plan.mode = .delta ∧
      goModule "svc2" ∈ modulePlan.projects.runnable ∧
      modulePlan.plan.addedFiles = [] ∧ modulePlan.plan.changedFiles = ["svc1/a.go"] ∧
      modulePlan.plan.deletedFiles = [] ∧
      ∃ db, indexedModules = some db ∧ (∀ s ∈ db.subjobs, s.status = .succeeded) ∧
        (∃ m ∈ db.manifests, m.commitHash = sampleCommit ∧ m.status = .ready) ∧
        isIndexed db currentScope (projectKey (goModule "svc2")) = false := by
  refine ⟨by decide, by decide, plannedModules_plans, by decide, by decide, by decide, by decide,
    by decide, ?_⟩
  obtain ⟨db, hrun, hview⟩ := Option.map_eq_some_iff.1 indexedModules_view
  simp only [moduleView, Prod.mk.injEq] at hview
  obtain ⟨hsubjobs, hmanifests, -, hsvc2⟩ := hview
  refine ⟨db, hrun, fun s hs => ?_, ?_, hsvc2⟩
  · have hstatus := List.mem_map_of_mem (f := Subjob.status) hs
    rw [hsubjobs] at hstatus
    simpa using hstatus
  · have hready : (sampleCommit, ManifestStatus.ready) ∈
        db.manifests.map fun m => (m.commitHash, m.status) := by
      rw [hmanifests]
      decide
    obtain ⟨m, hm, heq⟩ := List.mem_map.1 hready
    exact ⟨m, hm, (Prod.mk.inj heq).1, (Prod.mk.inj heq).2⟩

end CodeIntel.Scip
