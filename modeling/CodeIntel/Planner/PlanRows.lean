import CodeIntel.Planner.Subjobs

/-!
# The rows of a plan, in order

`Build` lists the rows of one revision after those of another. Within a revision the
producers come first, and the row that activates the revision comes last.
-/

namespace CodeIntel.Planner

open Text Relational Schema Subjobs

/-! ## One revision -/

/-- What tells the revisions of a job apart. -/
def Revision.key (rev : Revision) : String × String × String × String :=
  (coalesce rev.workspaceId, rev.branch, rev.revision, rev.commitHash)

def inputRevision (row : CreateInput) : String × String × String × String :=
  (coalesce row.workspaceId, row.branch, row.revision, row.commitHash)

/-- The row carries the scope of the plan and of the revision. -/
structure RowOf (inp : Input) (rev : Revision) (row : CreateInput) : Prop where
  job : row.repoIndexingJobId = inp.repoIndexingJobId
  org : row.orgId = inp.orgId
  repo : row.repoId = inp.repoId
  revision : inputRevision row = rev.key

variable {sha256Hex : String → String} {inp : Input}

section Revision

variable {rev : Revision} {core : WorkerClass}

variable {row : CreateInput} {rows : List CreateInput}

theorem scipSubjob_row {P : SCIPProject} (h : scipSubjob sha256Hex inp rev P = .ok row) :
    ∃ c ∈ classes, ∃ root, P.language ≠ "" ∧ P.indexer ≠ "" ∧
      normalizeProjectRoot P.projectRoot = some root ∧
      row = scipInput sha256Hex inp rev P c root := by
  unfold scipSubjob at h
  split at h
  · cases h
  rename_i hnamed
  split at h
  · cases h
  rename_i c hclass
  split at h
  · cases h
  · rename_i root hroot
    simp only [Bool.or_eq_true, decide_eq_true_eq, not_or] at hnamed
    exact ⟨c, List.mem_of_find?_eq_some hclass, root, hnamed.1.1, hnamed.1.2, hroot,
      (Except.ok.inj h).symm⟩

theorem mem_coreRow {run : Bool} {layer : Layer} :
    row ∈ coreRow sha256Hex inp core rev run layer ↔
      run = true ∧ row = coreSubjob sha256Hex inp rev layer core := by
  unfold coreRow
  split_ifs with hrun <;> simp [hrun]

theorem buildRevision_rows (h : buildRevision sha256Hex inp core rev = .ok rows) :
    ∃ scip, rev.scipProjects.mapM (scipSubjob sha256Hex inp rev) = .ok scip ∧
      rows = coreRow sha256Hex inp core rev rev.runZoekt .zoekt ++
        coreRow sha256Hex inp core rev rev.runASTTreeSitter .astTreeSitter ++ scip ++
        coreRow sha256Hex inp core rev rev.runGraphMerge .graphMerge ++
        coreRow sha256Hex inp core rev rev.runActivate .activate ∧
      rev.branch ≠ "" ∧ rev.revision ≠ "" ∧ coalesce rev.workspaceId ≠ "" := by
  unfold buildRevision at h
  dsimp only at h
  split_ifs at h with hnamed hworkspace
  obtain ⟨scip, hscip, h⟩ := bind_eq_ok.1 h
  cases h
  simp only [Bool.or_eq_true, decide_eq_true_eq, not_or] at hnamed
  exact ⟨scip, hscip, rfl, hnamed.1.1, hnamed.1.2, hworkspace⟩

theorem mem_buildRevision_cases (h : buildRevision sha256Hex inp core rev = .ok rows)
    (hrow : row ∈ rows) :
    (∃ layer, layer ≠ .scip ∧ row = coreSubjob sha256Hex inp rev layer core) ∨
      ∃ P ∈ rev.scipProjects, scipSubjob sha256Hex inp rev P = .ok row := by
  obtain ⟨scip, hscip, rfl, -⟩ := buildRevision_rows h
  simp only [List.mem_append, mem_coreRow] at hrow
  rcases hrow with (((⟨-, rfl⟩ | ⟨-, rfl⟩) | hrow) | ⟨-, rfl⟩) | ⟨-, rfl⟩
  · exact .inl ⟨_, by decide, rfl⟩
  · exact .inl ⟨_, by decide, rfl⟩
  · exact .inr ((mapM_ok hscip).1 row hrow)
  · exact .inl ⟨_, by decide, rfl⟩
  · exact .inl ⟨_, by decide, rfl⟩

theorem mem_buildRevision (h : buildRevision sha256Hex inp core rev = .ok rows)
    (hrow : row ∈ rows) :
    RowOf inp rev row := by
  obtain ⟨layer, -, rfl⟩ | ⟨P, -, hP⟩ := mem_buildRevision_cases h hrow
  · exact ⟨rfl, rfl, rfl, rfl⟩
  · obtain ⟨c, -, root, -, -, -, rfl⟩ := scipSubjob_row hP
    exact ⟨rfl, rfl, rfl, rfl⟩

theorem activate_mem_buildRevision (h : buildRevision sha256Hex inp core rev = .ok rows)
    (hactivate : rev.runActivate = true) :
    ∃ row ∈ rows, row.layer = .activate := by
  obtain ⟨scip, -, rfl, -⟩ := buildRevision_rows h
  refine ⟨coreSubjob sha256Hex inp rev .activate core, ?_, rfl⟩
  exact List.mem_append_right _ (mem_coreRow.2 ⟨hactivate, rfl⟩)

theorem buildRevision_activate_last (h : buildRevision sha256Hex inp core rev = .ok rows) :
    rows.Pairwise fun a _ => a.layer ≠ .activate := by
  obtain ⟨scip, hscip, rfl, -⟩ := buildRevision_rows h
  have hbefore : ∀ a ∈ coreRow sha256Hex inp core rev rev.runZoekt .zoekt ++
      coreRow sha256Hex inp core rev rev.runASTTreeSitter .astTreeSitter ++ scip ++
      coreRow sha256Hex inp core rev rev.runGraphMerge .graphMerge, a.layer ≠ .activate := by
    intro a ha
    simp only [List.mem_append, mem_coreRow] at ha
    rcases ha with ((⟨-, rfl⟩ | ⟨-, rfl⟩) | ha) | ⟨-, rfl⟩
    · simp [coreSubjob]
    · simp [coreSubjob]
    · obtain ⟨P, -, hP⟩ := (mapM_ok hscip).1 a ha
      obtain ⟨c, -, root, -, -, -, rfl⟩ := scipSubjob_row hP
      exact fun hlayer => by cases hlayer
    · simp [coreSubjob]
  rw [List.pairwise_append]
  refine ⟨List.pairwise_of_forall_mem_list fun a ha _ _ => hbefore a ha, ?_,
    fun a ha _ _ => hbefore a ha⟩
  unfold coreRow
  split_ifs <;> simp

end Revision

/-! ## The whole plan -/

section Build

variable {rows : List CreateInput}

theorem build_rows (h : build sha256Hex inp = .ok rows) :
    ∃ core parts, inp.revisions.mapM (buildRevision sha256Hex inp core) = .ok parts ∧
      rows = parts.flatten ∧ rows ≠ [] ∧ core ∈ classes ∧ inp.repoIndexingJobId ≠ "" ∧
      0 < inp.orgId ∧ 0 < inp.repoId := by
  unfold build at h
  split at h
  · cases h
  rename_i hnamed
  split at h
  · cases h
  rename_i core hcore
  obtain ⟨parts, hparts, h⟩ := bind_eq_ok.1 h
  split at h
  · cases h
  · rename_i hne
    cases h
    simp only [Bool.or_eq_true, decide_eq_true_eq, not_or, not_le] at hnamed
    exact ⟨core, parts, hparts, rfl, hne, mem_of_lookup hcore, hnamed.1.1.1, hnamed.1.1.2,
      hnamed.1.2⟩

theorem mem_build (h : build sha256Hex inp = .ok rows) {row : CreateInput} (hrow : row ∈ rows) :
    ∃ rev ∈ inp.revisions, RowOf inp rev row := by
  obtain ⟨core, parts, hparts, rfl, -⟩ := build_rows h
  obtain ⟨part, hpart, hmem⟩ := List.mem_flatten.1 hrow
  obtain ⟨rev, hrev, hbuild⟩ := (mapM_ok hparts).1 part hpart
  exact ⟨rev, hrev, mem_buildRevision hbuild hmem⟩

theorem activate_mem_build (h : build sha256Hex inp = .ok rows) {rev : Revision}
    (hrev : rev ∈ inp.revisions) (hactivate : rev.runActivate = true) :
    ∃ row ∈ rows, row.layer = .activate ∧ RowOf inp rev row := by
  obtain ⟨core, parts, hparts, rfl, -⟩ := build_rows h
  obtain ⟨part, hpart, hbuild⟩ := (mapM_ok hparts).2 rev hrev
  obtain ⟨row, hrow, hlayer⟩ := activate_mem_buildRevision hbuild hactivate
  exact ⟨row, List.mem_flatten.2 ⟨part, hpart, hrow⟩, hlayer, mem_buildRevision hbuild hrow⟩

/-- With distinct revisions no row of a plan follows the activation of its revision. -/
theorem build_activate_last (h : build sha256Hex inp = .ok rows)
    (hdistinct : inp.revisions.Pairwise fun rev rev' => rev.key ≠ rev'.key) :
    rows.Pairwise fun a b => a.layer = .activate → inputRevision a ≠ inputRevision b := by
  obtain ⟨core, parts, hparts, rfl, -⟩ := build_rows h
  rw [List.pairwise_flatten]
  constructor
  · intro part hpart
    obtain ⟨rev, -, hbuild⟩ := (mapM_ok hparts).1 part hpart
    exact (buildRevision_activate_last hbuild).imp fun hlast hactivate => absurd hactivate hlast
  · -- rows of two parts belong to two revisions
    refine pairwise_of_forall₂ ?_ (forall₂_of_mapM_ok hparts) hdistinct
    intro rev part rev' part' hbuild hbuild' hne a ha b hb _ heq
    apply hne
    rw [← (mem_buildRevision hbuild ha).revision, ← (mem_buildRevision hbuild' hb).revision, heq]

end Build

end CodeIntel.Planner
