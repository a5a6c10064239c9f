import CodeIntel.Planner.PlanRows
import CodeIntel.Planner.Reindex
import CodeIntel.Scip.IngestTables

/-!
# The SCIP projects of a planned job

After planning, the SCIP subjobs of a job stand for exactly the projects its
revisions keep and those they skip, and planning leaves the index rows alone.
-/

namespace CodeIntel.Scip

open Relational Schema Subjobs Planner

def projectKey (P : SCIPProject) : ProjectKey :=
  ⟨P.language, trimProjectRoot P.projectRoot, P.indexer⟩

theorem projectKey_inj {P Q : SCIPProject} (h : projectKey P = projectKey Q) :
    P.language = Q.language ∧ trimProjectRoot P.projectRoot = trimProjectRoot Q.projectRoot := by
  simp only [projectKey, ProjectKey.mk.injEq] at h
  exact ⟨h.1, h.2.1⟩

def planScope (task : IndexTask) (workspaceId : String) (r : RevisionPlan) : IndexScope :=
  ⟨task.orgId, task.repoId, workspaceId, r.branch, r.branch, r.commitHash⟩

/-! ## Storing subjobs -/

def inputProject (jobId : String) (inp : CreateInput) : Option (IndexScope × ProjectKey) :=
  if inp.repoIndexingJobId = jobId ∧ inp.layer = .scip then
    some (⟨inp.orgId, inp.repoId, coalesce inp.workspaceId, inp.branch, inp.revision,
      inp.commitHash⟩, ⟨coalesce inp.language, coalesce inp.projectRoot, coalesce inp.indexer⟩)
  else none

/-- The tables an ingest works on are the same, and the job has these further projects. -/
structure AddsProjects (jobId : String) (new : IndexScope × ProjectKey → Prop)
    (db db' : Database) : Prop where
  indexes : db'.codeIntelIndexes = db.codeIntelIndexes
  languages : db'.languageIndexes = db.languageIndexes
  symbols : db'.symbols = db.symbols
  projects : ∀ x, x ∈ jobProjects jobId db'.subjobs ↔ x ∈ jobProjects jobId db.subjobs ∨ new x

variable {jobId : String} {db db' : Database}

theorem AddsProjects.refl : AddsProjects jobId (fun _ => False) db db :=
  ⟨rfl, rfl, rfl, fun x => by simp⟩

theorem AddsProjects.trans {new₁ new₂ : IndexScope × ProjectKey → Prop} {db₁ db₂ db₃ : Database}
    (h₁ : AddsProjects jobId new₁ db₁ db₂) (h₂ : AddsProjects jobId new₂ db₂ db₃) :
    AddsProjects jobId (fun x => new₁ x ∨ new₂ x) db₁ db₃ :=
  ⟨h₂.indexes.trans h₁.indexes, h₂.languages.trans h₁.languages, h₂.symbols.trans h₁.symbols,
    fun x => by rw [h₂.projects, h₁.projects, or_assoc]⟩

theorem AddsProjects.congr {new new' : IndexScope × ProjectKey → Prop}
    (h : AddsProjects jobId new db db') (hnew : ∀ x, new x ↔ new' x) :
    AddsProjects jobId new' db db' :=
  ⟨h.indexes, h.languages, h.symbols, fun x => by rw [h.projects, hnew]⟩

theorem jobProject_of_sameScope {r new : Subjob} (h : sameScope r new = true) :
    jobProject jobId r = jobProject jobId new := by
  simp only [sameScope, scopeKey, Bool.and_eq_true, decide_eq_true_eq, Prod.mk.injEq,
    List.cons.injEq] at h
  obtain ⟨⟨⟨⟨⟨hjob, hws, hbranch, hrevision, hcommit, -, hlanguage, hroot, hindexer, -⟩, hlayer⟩,
    horg⟩, hrepo⟩, -⟩ := h
  simp only [jobProject, subjobScope, subjobKey, hjob, hws, hbranch, hrevision, hcommit, hlanguage,
    hroot, hindexer, hlayer, horg, hrepo]

theorem upsertWithStatus_addsProjects {now completedAt : Time} {inp : CreateInput}
    {status : SubjobStatus} {code msg : String} (jobId : String)
    (h : upsertWithStatus now completedAt inp status code msg db = (.ok (), db')) :
    AddsProjects jobId (fun x => inputProject jobId inp = some x) db db' := by
  have hdb : (upsertWithStatus now completedAt inp status code msg db).2 = db' := congrArg Prod.snd h
  obtain ⟨r, hr, -, hscope⟩ := upsertWithStatus_ok (congrArg Prod.fst h)
  rw [hdb] at hr
  generalize hcompleted : (if status = .skipped then some completedAt else none) = completed at hscope
  have hnew : jobProject jobId (newSubjob now inp status code msg completed) =
      inputProject jobId inp := rfl
  rcases upsertWithStatus_cases now completedAt inp status code msg db with
    hsame | ⟨-, -, -, -, -, happend⟩
  · -- the row is there already, with the same scope
    obtain rfl := hsame.symm.trans hdb
    refine ⟨rfl, rfl, rfl, fun x => ⟨.inl, fun hx => hx.elim id fun hx => ?_⟩⟩
    exact List.mem_filterMap.2 ⟨r, hr, (jobProject_of_sameScope hscope).trans (hnew.trans hx)⟩
  · rw [hcompleted] at happend
    obtain rfl := happend.symm.trans hdb
    refine ⟨rfl, rfl, rfl, fun x => ?_⟩
    simp [jobProjects, hnew]

theorem persistAll_addsProjects {store : CreateInput → Database → Reply Unit}
    (hstore : ∀ row db db', store row db = (.ok (), db') →
      AddsProjects jobId (fun x => inputProject jobId row = some x) db db')
    {rows : List CreateInput} (h : persistAll store rows db = (.ok (), db')) :
    AddsProjects jobId (fun x => ∃ row ∈ rows, inputProject jobId row = some x) db db' := by
  induction rows generalizing db with
  | nil =>
    cases h
    exact AddsProjects.refl.congr fun x => by simp
  | cons row rows ih =>
    unfold persistAll at h
    split at h
    · cases h
    · rename_i db₁ hrow
      exact ((hstore row db db₁ hrow).trans (ih h)).congr fun x => by simp

/-! ## The rows of a plan -/

def revisionScope (inp : Input) (rev : Revision) : IndexScope :=
  ⟨inp.orgId, inp.repoId, coalesce rev.workspaceId, rev.branch, rev.revision, rev.commitHash⟩

section Build

variable {sha256Hex : String → String} {inp : Input} {rev : Revision}

variable {row : CreateInput} {core : WorkerClass} {rows : List CreateInput}

theorem scipSubjob_ok {P : SCIPProject} (h : scipSubjob sha256Hex inp rev P = .ok row) :
    inputProject inp.repoIndexingJobId row = some (revisionScope inp rev, projectKey P) := by
  obtain ⟨c, -, root, -, -, hroot, rfl⟩ := scipSubjob_row h
  simp [inputProject, scipInput, revisionScope, projectKey, trimProjectRoot, hroot, coalesce]

theorem buildRevision_ok (h : buildRevision sha256Hex inp core rev = .ok rows)
    (x : IndexScope × ProjectKey) :
    (∃ row ∈ rows, inputProject inp.repoIndexingJobId row = some x) ↔
      ∃ P ∈ rev.scipProjects, x = (revisionScope inp rev, projectKey P) := by
  constructor
  · rintro ⟨row, hrow, hx⟩
    obtain ⟨layer, hlayer, rfl⟩ | ⟨P, hP, hrow⟩ := mem_buildRevision_cases h hrow
    · simp [inputProject, coreSubjob, hlayer] at hx
    · exact ⟨P, hP, Option.some.inj (hx.symm.trans (scipSubjob_ok hrow))⟩
  · rintro ⟨P, hP, rfl⟩
    obtain ⟨scip, hscip, rfl, -⟩ := buildRevision_rows h
    obtain ⟨row, hrow, hok⟩ := (mapM_ok hscip).2 P hP
    exact ⟨row, by simp [hrow], scipSubjob_ok hok⟩

theorem build_ok (h : build sha256Hex inp = .ok rows) (x : IndexScope × ProjectKey) :
    (∃ row ∈ rows, inputProject inp.repoIndexingJobId row = some x) ↔
      ∃ rev ∈ inp.revisions, ∃ P ∈ rev.scipProjects, x = (revisionScope inp rev, projectKey P) := by
  obtain ⟨core, parts, hrows, rfl, -⟩ := build_rows h
  obtain ⟨hback, hforth⟩ := mapM_ok hrows
  constructor
  · rintro ⟨row, hrow, hx⟩
    obtain ⟨part, hpart, hmem⟩ := List.mem_flatten.1 hrow
    obtain ⟨rev, hrev, hbuild⟩ := hback part hpart
    exact ⟨rev, hrev, (buildRevision_ok hbuild x).1 ⟨row, hmem, hx⟩⟩
  · rintro ⟨rev, hrev, hP⟩
    obtain ⟨part, hpart, hbuild⟩ := hforth rev hrev
    obtain ⟨row, hrow, hx⟩ := (buildRevision_ok hbuild x).2 hP
    exact ⟨row, List.mem_flatten.2 ⟨part, hpart, hrow⟩, hx⟩

end Build

/-! ## The planning run -/

section Plan

variable {env : PlanEnv} {now : Time} {task : IndexTask} {scope : RepoIndexScope} {jobId : String}

variable {db db' : Database} {workspaceId : String}
  {plans : List RevisionPlan} {r : RevisionPlan}

/-- The plan was made for this revision, from the projects of its tree. -/
def PlannedFor (env : PlanEnv) (selected : ResolvedIndexRevision) (r : RevisionPlan) : Prop :=
  r.branch = selected.branch ∧
    ∃ tree, env.treeOf selected.commitHash = .ok tree ∧
      r.projects = detectSnapshotPlan tree env.scipConfig

theorem planRevision_addsProjects {selected : ResolvedIndexRevision} {planned : Option RevisionPlan}
    (h : planRevision env now task scope selected db = (.ok planned, db')) :
    AddsProjects jobId (fun _ => False) db db' ∧
      ∀ r, planned = some r → PlannedFor env selected r := by
  obtain ⟨tree, -, htree, -, ⟨rfl, hrecord⟩ | ⟨rfl, hinsert⟩⟩ := Planner.planRevision_ok h
  · obtain ⟨repos, rfl⟩ := recordUsableIndexedRevision_ok hrecord
    exact ⟨⟨rfl, rfl, rfl, fun x => by simp⟩, by simp⟩
  · obtain ⟨-, rfl⟩ := insertPendingManifest_ok hinsert
    refine ⟨⟨rfl, rfl, rfl, fun x => by simp⟩, fun r hr => ?_⟩
    cases hr
    exact ⟨rfl, tree, htree, rfl⟩

theorem planRevisions_ok {revisions : List ResolvedIndexRevision}
    (h : planRevisions env now task scope revisions db = (.ok plans, db')) :
    AddsProjects jobId (fun _ => False) db db' ∧
      (plans.map RevisionPlan.branch).Sublist (revisions.map ResolvedIndexRevision.branch) ∧
      ∀ r ∈ plans, ∃ selected ∈ revisions, PlannedFor env selected r := by
  induction revisions generalizing db plans with
  | nil =>
    cases h
    exact ⟨.refl, List.Sublist.refl _, by simp⟩
  | cons selected revisions ih =>
    unfold planRevisions at h
    split at h
    · cases h
    rename_i planned db₁ hfirst
    split at h <;> cases h
    rename_i rest hrest
    obtain ⟨hadds, hplanned⟩ := planRevision_addsProjects hfirst
    obtain ⟨haddsRest, hsub, hfor⟩ := ih hrest
    have hlater : ∀ r ∈ rest, ∃ selected' ∈ selected :: revisions, PlannedFor env selected' r := by
      intro r hr
      obtain ⟨selected', hmem, hr'⟩ := hfor r hr
      exact ⟨selected', List.mem_cons_of_mem _ hmem, hr'⟩
    refine ⟨(hadds.trans haddsRest).congr fun x => by simp, ?_⟩
    cases planned with
    | none => exact ⟨hsub.cons _, hlater⟩
    | some r =>
      have hr := hplanned r rfl
      refine ⟨?_, ?_⟩
      · simp only [Option.toList_some, List.singleton_append, List.map_cons, hr.1]
        exact hsub.cons_cons _
      · simp only [Option.toList_some, List.singleton_append, List.forall_mem_cons]
        exact ⟨⟨selected, List.mem_cons_self, hr⟩, hlater⟩

theorem planAndPersist_addsProjects {inp : Input}
    (h : planAndPersist env.sha256Hex now inp db = (.ok (), db')) :
    AddsProjects inp.repoIndexingJobId (fun x => ∃ rev ∈ inp.revisions, ∃ P ∈ rev.scipProjects,
      x = (revisionScope inp rev, projectKey P)) db db' := by
  unfold planAndPersist at h
  split at h
  · cases h
  · rename_i rows hbuild
    exact (persistAll_addsProjects (fun _ _ _ => upsertWithStatus_addsProjects _) h).congr
      (build_ok hbuild)

theorem persistSkippedSCIPProjects_addsProjects
    (h : persistSkippedSCIPProjects env now task workspaceId r db = (.ok (), db')) :
    AddsProjects task.jobId (fun x => ∃ P ∈ r.projects.skipped,
      x = (planScope task workspaceId r, projectKey P)) db db' := by
  obtain ⟨hnone, rfl⟩ | ⟨rows, hbuild, hrows⟩ := persistSkippedSCIPProjects_ok h
  · exact AddsProjects.refl.congr fun x => by simp [hnone]
  · refine (persistAll_addsProjects (fun row db db' hrow => ?_) hrows).congr fun x => ?_
    · exact upsertWithStatus_addsProjects _ (storeSkipped_eq now row db ▸ hrow)
    rw [show task.jobId = (skippedInput task workspaceId r).repoIndexingJobId from rfl,
      build_ok hbuild]
    simp [skippedInput, revisionScope, planScope, coalesce]

theorem persistSkipped_addsProjects
    (h : persistSkipped env now task workspaceId plans db = (.ok (), db')) :
    AddsProjects task.jobId (fun x => ∃ r ∈ plans, ∃ P ∈ r.projects.skipped,
      x = (planScope task workspaceId r, projectKey P)) db db' := by
  induction plans generalizing db with
  | nil =>
    cases h
    exact AddsProjects.refl.congr fun x => by simp
  | cons r plans ih =>
    unfold persistSkipped at h
    split at h
    · cases h
    · rename_i db₁ hfirst
      exact ((persistSkippedSCIPProjects_addsProjects hfirst).trans (ih h)).congr fun x => by simp

def planWorkspace (task : IndexTask) (db : Database) : String :=
  match fetchRepoIndexScope task.repoId db with
  | .error _ => ""
  | .ok scope => scope.workspaceId

/-- Planning adds the projects that the revisions keep or skip. Every branch is
planned at most once. -/
theorem planSplitIndex_ok (h : planSplitIndex env now task db = (.ok plans, db')) :
    AddsProjects task.jobId (fun x => ∃ r ∈ plans, ∃ P ∈ r.kept ++ r.projects.skipped,
        x = (planScope task (planWorkspace task db) r, projectKey P)) db db' ∧
      (plans.map RevisionPlan.branch).Nodup ∧
      ∀ r ∈ plans, ∃ selected, PlannedFor env selected r := by
  obtain ⟨scope, revisions, db₁, hscope, -, hrevisions, hloop, hpersist⟩ := planSplitIndex_eq_ok h
  have hws : planWorkspace task db = scope.workspaceId := by simp [planWorkspace, hscope]
  rw [hws]
  obtain ⟨hadds, hsub, hfor⟩ : AddsProjects task.jobId _ db db₁ ∧ _ := planRevisions_ok hloop
  have hnodup := (env.distinct scope revisions hrevisions).sublist hsub
  obtain ⟨rfl, rfl⟩ | ⟨db₂, hpersist, hskipped⟩ := hpersist
  · exact ⟨hadds.congr fun x => by simp, by simp, by simp⟩
  refine ⟨?_, hnodup, fun r hr => ?_⟩
  · have hqueued := planAndPersist_addsProjects hpersist
    refine ((hadds.trans hqueued).trans (persistSkipped_addsProjects hskipped)).congr fun x => ?_
    constructor
    · rintro ((hfalse | ⟨rev, hrev, P, hP, rfl⟩) | ⟨r, hr, P, hP, rfl⟩)
      · exact hfalse.elim
      · obtain ⟨r, hr, rfl⟩ := List.mem_map.1 hrev
        exact ⟨r, hr, P, List.mem_append_left _ hP, rfl⟩
      · exact ⟨r, hr, P, List.mem_append_right _ hP, rfl⟩
    · rintro ⟨r, hr, P, hP, rfl⟩
      rcases List.mem_append.1 hP with hP | hP
      · exact .inl (.inr ⟨_, List.mem_map_of_mem hr, P, hP, rfl⟩)
      · exact .inr ⟨r, hr, P, hP, rfl⟩
  · obtain ⟨selected, -, hr'⟩ := hfor r hr
    exact ⟨selected, hr'⟩

/-- In a planned job the SCIP subjobs of a revision stand for a runnable project
exactly if the project was kept. -/
theorem mem_jobProjects_iff_kept (h : planSplitIndex env now task db = (.ok plans, db'))
    (hfresh : ∀ s ∈ db.subjobs, s.repoIndexingJobId ≠ task.jobId) (hr : r ∈ plans)
    {P : SCIPProject} (hP : P ∈ r.projects.runnable) :
    (planScope task (planWorkspace task db) r, projectKey P) ∈
        jobProjects task.jobId db'.subjobs ↔ P ∈ r.kept := by
  obtain ⟨hadds, hnodup, hfor⟩ := planSplitIndex_ok h
  have hnone : jobProjects task.jobId db.subjobs = [] := by
    refine List.filterMap_eq_nil_iff.2 fun s hs => ?_
    simp [jobProject, hfresh s hs]
  rw [hadds.projects, hnone]
  simp only [List.not_mem_nil, false_or, Prod.mk.injEq]
  constructor
  · rintro ⟨r', hr', Q, hQ, hscope, hkey⟩
    have hbranch : r.branch = r'.branch := congrArg IndexScope.branch hscope
    obtain rfl : r = r' := UniqueKey.eq_of_key_eq hnodup hr hr' hbranch
    obtain ⟨hlanguage, hroot⟩ := projectKey_inj hkey
    rcases List.mem_append.1 hQ with hQ | hQ
    · exact filterSCIPProjectsForDelta_of_root_eq hQ hP hroot
    · obtain ⟨selected, -, tree, -, hprojects⟩ := hfor r hr
      rw [hprojects] at hP hQ
      exact absurd hlanguage (runnable_language_ne_skipped hP hQ)
  · intro hkept
    exact ⟨r, hr, P, List.mem_append_left _ hkept, rfl, rfl⟩

end Plan

end CodeIntel.Scip
