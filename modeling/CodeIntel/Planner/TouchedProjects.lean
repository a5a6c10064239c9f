import Mathlib.Data.Finset.Dedup
import CodeIntel.Planner.DeltaPlan
import CodeIntel.Planner.ProjectDetect

/-!
# Which projects an incremental run indexes again

The planner keeps a detected project when its root is one of the roots of the
delta plan. Those are the roots of the added and changed files, each file
counting for the nearest marked directory only, and a deleted file counts for
none.
-/

namespace CodeIntel.Planner

open Text Relational

/-- A repository-relative root in normal form, or nothing if it is none. -/
def normalizeProjectRoot (root : String) : Option String :=
  let root := trimSpace root
  if root = "." || root = "" then some ""
  else if hasPrefix root "/" || hasPrefix root "\\" || contains root "\\" then none
  else
    let clean := cleanPath root
    if clean = "." || clean = "" then some ""
    else if clean ≠ root || clean = ".." || hasPrefix clean "../" || contains clean "/../" then none
    else some (trimBoth clean '/')

/-- The normal form, with the empty root in place of an invalid one. -/
def trimProjectRoot (root : String) : String :=
  (normalizeProjectRoot root).getD ""

def filterSCIPProjectsForDelta (projects : List SCIPProject) (plan : Option DeltaReindexPlan) :
    List SCIPProject :=
  match plan with
  | none => projects
  | some plan =>
    match plan.scip.strategy with
    | .fullRepo => projects
    | .noop => []
    | .projectRoots =>
      let roots := plan.scip.projectRoots.map trimProjectRoot
      projects.filter fun project => roots.contains (trimProjectRoot project.projectRoot)

theorem filterSCIPProjectsForDelta_of_root_eq {projects : List SCIPProject}
    {plan : Option DeltaReindexPlan} {P Q : SCIPProject}
    (hQ : Q ∈ filterSCIPProjectsForDelta projects plan) (hP : P ∈ projects)
    (hroot : trimProjectRoot P.projectRoot = trimProjectRoot Q.projectRoot) :
    P ∈ filterSCIPProjectsForDelta projects plan := by
  unfold filterSCIPProjectsForDelta at hQ ⊢
  split
  · exact hP
  · dsimp only at hQ
    split <;> rename_i hstrategy <;> simp only [hstrategy] at hQ
    · exact hP
    · cases hQ
    · exact List.mem_filter.2 ⟨hP, by rw [hroot]; exact (List.mem_filter.1 hQ).2⟩

/-- The paths and contents of the files under a root. -/
def contentsUnder (files : List ManifestFileRow) (root : String) : Finset (String × String) :=
  ((files.filter fun f => fileInRoot f.path root).map fun f => (f.path, f.contentHash)).toFinset

section Kept

variable {previous current : List ManifestFileRow} {zoekt : Bool}

theorem scip_of_no_previous :
    (buildManifestDeltaPlan [] current zoekt).scip.strategy = .fullRepo := rfl

/-- With a previous manifest the plan names roots, or has nothing to do. -/
theorem scip_of_previous (hprevious : previous ≠ []) :
    let scip := (buildManifestDeltaPlan previous current zoekt).scip
    scip.strategy = .projectRoots ∨ scip.strategy = .noop ∧ scip.projectRoots = [] := by
  unfold buildManifestDeltaPlan
  simp only [List.length_eq_zero_iff, hprevious, if_false]
  split
  · exact .inr ⟨rfl, rfl⟩
  · exact .inl rfl

variable {projects : List SCIPProject} {P : SCIPProject}

theorem mem_filterSCIPProjectsForDelta_of_roots (hP : P ∈ projects) {plan : DeltaReindexPlan}
    (hplan : plan.scip.strategy = .projectRoots ∨
      plan.scip.strategy = .noop ∧ plan.scip.projectRoots = []) :
    P ∈ filterSCIPProjectsForDelta projects (some plan) ↔
      ∃ root ∈ plan.scip.projectRoots, trimProjectRoot root = trimProjectRoot P.projectRoot := by
  rcases hplan with hroots | ⟨hnoop, hroots⟩
  · simp [filterSCIPProjectsForDelta, hroots, hP]
  · simp [filterSCIPProjectsForDelta, hnoop, hroots]

theorem mem_filterSCIPProjectsForDelta (hP : P ∈ projects) :
    P ∈ filterSCIPProjectsForDelta projects
        (some (buildManifestDeltaPlan previous current zoekt)) ↔
      previous = [] ∨ ∃ curr ∈ manifestFileMap current, isTouched previous curr = true ∧
        trimProjectRoot (manifestRootOf curr) = trimProjectRoot P.projectRoot := by
  by_cases hprevious : previous = []
  · subst hprevious
    simp only [filterSCIPProjectsForDelta, scip_of_no_previous, hP, true_or]
  · rw [mem_filterSCIPProjectsForDelta_of_roots hP (scip_of_previous hprevious)]
    simp only [mem_scip_projectRoots hprevious, hprevious, false_or]
    constructor
    · rintro ⟨root, ⟨curr, hcurr, htouched, rfl⟩, hroot⟩
      exact ⟨curr, hcurr, htouched, hroot⟩
    · rintro ⟨curr, hcurr, htouched, hroot⟩
      exact ⟨_, ⟨curr, hcurr, htouched, rfl⟩, hroot⟩

end Kept

/-- A detected project whose files differ from the previous commit is indexed
again exactly if there is no previous manifest, or one of the added and changed
files has the project's root as its nearest marked directory. Deleted files and
files below a deeper marker do not count. -/
theorem touched_project_kept_iff (cfg : Config) (before after : List TreeFile) (zoekt : Bool)
    {P : SCIPProject} (hP : P ∈ (detectSnapshotPlan after cfg).runnable) :
    (contentsUnder (buildManifestFilesForCommit before) P.projectRoot ≠
        contentsUnder (buildManifestFilesForCommit after) P.projectRoot →
      P ∈ filterSCIPProjectsForDelta (detectSnapshotPlan after cfg).runnable
        (some (buildManifestDeltaPlan (buildManifestFilesForCommit before)
          (buildManifestFilesForCommit after) zoekt))) ↔
      contentsUnder (buildManifestFilesForCommit before) P.projectRoot =
          contentsUnder (buildManifestFilesForCommit after) P.projectRoot ∨
        buildManifestFilesForCommit before = [] ∨
        ∃ f ∈ manifestFileMap (buildManifestFilesForCommit after),
          isTouched (buildManifestFilesForCommit before) f = true ∧
            trimProjectRoot (manifestRootOf f) = trimProjectRoot P.projectRoot := by
  rw [mem_filterSCIPProjectsForDelta hP]
  exact or_iff_not_imp_left.symm

def sampleTree (files : List (String × String)) : List TreeFile :=
  files.map fun (name, hash) => { name, mode := .regular, hash }

def universalConfig : Config := { workerClasses := "universal", maxProjects := 24 }

def rootGoProject : SCIPProject :=
  { language := "go", projectRoot := "", indexer := "scip-go", scipWorkerClass := "go" }

theorem changed_go_module_kept :
    rootGoProject ∈ filterSCIPProjectsForDelta
      (detectSnapshotPlan (sampleTree [("go.mod", "m"), ("a.go", "2")]) universalConfig).runnable
      (some (buildManifestDeltaPlan
        (buildManifestFilesForCommit (sampleTree [("go.mod", "m"), ("a.go", "1")]))
        (buildManifestFilesForCommit (sampleTree [("go.mod", "m"), ("a.go", "2")])) false)) :=
  (touched_project_kept_iff universalConfig (sampleTree [("go.mod", "m"), ("a.go", "1")])
    (sampleTree [("go.mod", "m"), ("a.go", "2")]) false (by decide)).2
    (.inr (.inr (by decide))) (by decide)

/-- Deleting a file of a module leaves the module out of the run. -/
theorem deleted_file_project_not_kept :
    rootGoProject ∈ (detectSnapshotPlan (sampleTree [("go.mod", "m"), ("a.go", "1")])
        universalConfig).runnable ∧
      contentsUnder (buildManifestFilesForCommit
          (sampleTree [("go.mod", "m"), ("a.go", "1"), ("b.go", "1")])) "" ≠
        contentsUnder (buildManifestFilesForCommit
          (sampleTree [("go.mod", "m"), ("a.go", "1")])) "" ∧
      rootGoProject ∉ filterSCIPProjectsForDelta
        (detectSnapshotPlan (sampleTree [("go.mod", "m"), ("a.go", "1")]) universalConfig).runnable
        (some (buildManifestDeltaPlan
          (buildManifestFilesForCommit
            (sampleTree [("go.mod", "m"), ("a.go", "1"), ("b.go", "1")]))
          (buildManifestFilesForCommit (sampleTree [("go.mod", "m"), ("a.go", "1")])) false)) := by
  decide

-- A changed file is not enough either: `setup.cfg` marks a Python project, but
-- no root of the manifest, so the file counts for the top of the repository.
example :
    (detectSnapshotPlan (sampleTree [("svc/setup.cfg", "s"), ("svc/a.py", "2")])
        universalConfig).runnable.map SCIPProject.projectRoot = ["svc"] ∧
      filterSCIPProjectsForDelta
        (detectSnapshotPlan (sampleTree [("svc/setup.cfg", "s"), ("svc/a.py", "2")])
          universalConfig).runnable
        (some (buildManifestDeltaPlan
          (buildManifestFilesForCommit (sampleTree [("svc/setup.cfg", "s"), ("svc/a.py", "1")]))
          (buildManifestFilesForCommit (sampleTree [("svc/setup.cfg", "s"), ("svc/a.py", "2")]))
          false)) = [] := by
  decide

end CodeIntel.Planner
