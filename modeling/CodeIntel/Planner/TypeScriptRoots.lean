import CodeIntel.Planner.ProjectDetect

/-!
# The roots of TypeScript projects

Every source is below the root of a project and no root is found twice. An inferred root is
below no detected one, but it may be below another inferred root.
-/

namespace CodeIntel.Planner

open Text Relational

section Roots

variable {file root outer : String} {files : List String}

theorem fileInRoot_iff : fileInRoot file root = true ↔
    root = "" ∨ root = "." ∨ file = root ∨ hasPrefix file (root ++ "/") = true := by
  simp [fileInRoot, or_assoc]

theorem fileInRoot_trans (h : fileInRoot file root = true) (h' : fileInRoot root outer = true) :
    fileInRoot file outer = true := by
  rw [fileInRoot_iff] at h' ⊢
  rcases h' with rfl | rfl | rfl | hbelow
  · exact .inl rfl
  · exact .inr (.inl rfl)
  · exact fileInRoot_iff.1 h
  · obtain ⟨rest, hrest⟩ := hasPrefix_iff.1 hbelow
    have hslash : '/' ∈ root.toList := by
      rw [← hrest, String.toList_append]
      simp
    rcases fileInRoot_iff.1 h with rfl | rfl | rfl | hfile
    · simp at hslash
    · simp at hslash
    · exact .inr (.inr (.inr hbelow))
    · refine .inr (.inr (.inr (hasPrefix_iff.2 ((hasPrefix_iff.1 hbelow).trans ?_))))
      refine List.IsPrefix.trans ?_ (hasPrefix_iff.1 hfile)
      rw [String.toList_append]
      exact List.prefix_append _ _

/-- What the projects of a revision should satisfy. -/
structure TypeScriptCovered (files : List String) (projects : List Project) : Prop where
  covers : ∀ file ∈ files, isTypeScriptInput file = true →
    ∃ p ∈ projects, p.language = "typescript" ∧ fileInRoot file p.root = true
  once : UniqueKey Project.key projects
  apart : ∀ p ∈ projects, p ∉ detect files → ∀ q ∈ projects, q.language = "typescript" →
    q.root ≠ p.root → fileInRoot p.root q.root = false

theorem uniqueKey_addInferredTypeScriptProjects (files : List String) :
    UniqueKey Project.key (addInferredTypeScriptProjects files (detect files)) := by
  have hsort : ∀ projects, UniqueKey Project.key projects →
      UniqueKey Project.key (sortProjects projects) := fun projects h =>
    ((List.perm_insertionSort _ projects).map Project.key).nodup_iff.2 h
  have hfold : ∀ found out : List Project, UniqueKey Project.key out →
      UniqueKey Project.key (found.foldl addProject out) := fun found out h =>
    h.foldl_insertMissing project_conflict_iff
  exact hsort _ (hfold _ _ (hsort _ (hfold _ _ List.nodup_nil)))

theorem exists_project_of_input (hfile : file ∈ files) (hinput : isTypeScriptInput file = true) :
    ∃ p ∈ addInferredTypeScriptProjects files (detect files),
      p.language = "typescript" ∧ fileInRoot file p.root = true := by
  by_cases hmarked : IsMarked files file
  · obtain ⟨root, hroot, hin⟩ :=
      List.any_eq_true.1 ((coveredByRoot_detect_iff hfile hinput).2 hmarked)
    obtain ⟨p, hp, rfl⟩ := List.mem_map.1 hroot
    obtain ⟨hp, hlanguage⟩ := List.mem_filter.1 hp
    exact ⟨p, mem_addInferredTypeScriptProjects.2 (.inl hp), of_decide_eq_true hlanguage, hin⟩
  · exact ⟨_, mem_addInferredTypeScriptProjects.2 (.inr ⟨file, hfile, hinput, hmarked, rfl⟩), rfl,
      fileInRoot_inferTypeScriptRoot file⟩

/-- A source without a marker above it. -/
def IsUnmarkedInput (files : List String) (file : String) : Prop :=
  file ∈ files ∧ isTypeScriptInput file = true ∧ ¬IsMarked files file

def nestedSources : List TreeFile :=
  [⟨"index.ts", .regular, "1"⟩, ⟨"a/src/x.ts", .regular, "2"⟩]

end Roots

end CodeIntel.Planner
