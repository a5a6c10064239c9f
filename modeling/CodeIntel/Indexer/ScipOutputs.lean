import CodeIntel.Indexer.ProjectDetect
import CodeIntel.Relational.OverwritingMap

/-!
# Where SCIP artifacts are written

`index_revision_scip` runs one indexer after the other, each with an output file of its
own below one directory. The name of the file is made from the language and the root of
the project, with the slashes of the root replaced.
-/

namespace CodeIntel.Indexer

open Text Relational
open Planner (Definition)

/-- The projects of `index_revision_scip`, after the worker-class filter and the cap. -/
def revisionProjects (allowed : String → Bool) (cap : ℕ) (files : List IndexManifestFile) :
    List ScipProject :=
  ((addInferredTypescriptProjects files (detectScipProjects files)).filter fun p =>
    allowed p.workerClass).take cap

def safeRoot (root : String) : String :=
  if root = "" then "root" else replaceChar root '/' '_'

def scipOutputPath (outputDir : String) (project : ScipProject) : String :=
  outputDir ++ "/" ++ (project.language ++ "_" ++ safeRoot project.projectRoot ++ ".scip")

section Outputs

variable {α : Type} {outputDir : String} {projects : List ScipProject}

/-- The loop of `index_revision_scip`, as what lies at each path afterwards: a run removes the
file at its output path and writes its own outcome there. -/
def indexRevisionScip (run : ScipProject → α) (outputDir : String) (projects : List ScipProject) :
    String → Option α :=
  insertAll (scipOutputPath outputDir) run (fun _ => none) projects

theorem scipOutputPath_eq_iff {p q : ScipProject}
    (hp : p.language ∈ supportedIndexers.map Definition.language)
    (hq : q.language ∈ supportedIndexers.map Definition.language) :
    scipOutputPath outputDir p = scipOutputPath outputDir q ↔
      p.language = q.language ∧ safeRoot p.projectRoot = safeRoot q.projectRoot := by
  have hplain : ∀ language ∈ supportedIndexers.map Definition.language, '_' ∉ language.toList := by
    decide
  constructor
  · intro h
    have hname := (String.append_left_inj _).1 ((String.append_right_inj _).1 h)
    have hchars := congrArg String.toList hname
    simp only [String.toList_append, List.append_assoc] at hchars
    have hlanguage := String.toList_inj.1 ((append_cons_prefix_iff (hplain _ hp) (hplain _ hq)).1
      ⟨[], by rw [List.append_nil]; exact hchars⟩).1
    rw [hlanguage] at hname
    exact ⟨hlanguage, (String.append_right_inj _).1 hname⟩
  · rintro ⟨hlanguage, hroot⟩
    rw [scipOutputPath, scipOutputPath, hlanguage, hroot]

end Outputs

/-- The projects of two Go modules. -/
def goModules (roots : List String) : List ScipProject :=
  revisionProjects (fun _ => true) 10 (roots.map fun root => ⟨root ++ "/go.mod", "hash", none⟩)

end CodeIntel.Indexer
