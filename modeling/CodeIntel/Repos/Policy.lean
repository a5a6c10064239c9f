import CodeIntel.Schema.Database
import CodeIntel.Text.GoString

/-!
# Which indexed revisions a repository shows

The status routes list the indexed revisions of a repository that its branch and
tag policy still allows. Compiling a glob pattern is a parameter: it fails, or
gives the names the pattern matches.
-/

namespace CodeIntel.Repos

open Schema Text

/-- The columns of a `RepoInput` that the policy reads. -/
structure RepoInput where
  metadata : Option RepoMetadata
  defaultBranch : Option String
  deriving DecidableEq, Repr

def repoInput (r : Repo) : RepoInput := ⟨r.metadata, r.defaultBranch⟩

def parseMetadata (repo : RepoInput) : RepoMetadata := repo.metadata.getD {}

def stripBranchRevision (revision : String) : String := trimPrefix revision "refs/heads/"

def filterNonEmpty (values : List String) : List String := values.filter (· ≠ "")

section Policy

variable (glob : String → Option (String → Bool))

/-- Patterns that do not compile are skipped. -/
def matchAnyGlob (name : String) (patterns : List String) : Bool :=
  patterns.any fun pattern => (glob pattern).any fun matches_ => matches_ name

def isBranchAllowedByIndexPolicy (repo : RepoInput) (branch : String) : Bool :=
  let branchName := stripBranchRevision branch
  let patterns := filterNonEmpty (parseMetadata repo).branches
  if patterns.isEmpty then
    match repo.defaultBranch with
    | none => true
    | some default => default = "" || branchName = default
  else patterns.contains "*" || matchAnyGlob glob branchName patterns

def isRevisionAllowedByIndexPolicy (repo : RepoInput) (revision : String) : Bool :=
  if hasPrefix revision "refs/heads/" then isBranchAllowedByIndexPolicy glob repo revision
  else if hasPrefix revision "refs/tags/" then
    let tagPatterns := filterNonEmpty (parseMetadata repo).tags
    !tagPatterns.isEmpty && matchAnyGlob glob (trimPrefix revision "refs/tags/") tagPatterns
  else true

def getPolicyVisibleIndexedRevisions (repo : RepoInput) : List String :=
  (parseMetadata repo).indexedRevisions.filter fun rev =>
    rev ≠ "" && isRevisionAllowedByIndexPolicy glob repo rev

theorem mem_getPolicyVisibleIndexedRevisions {repo : RepoInput} {rev : String} :
    rev ∈ getPolicyVisibleIndexedRevisions glob repo ↔
      rev ∈ (parseMetadata repo).indexedRevisions ∧ rev ≠ "" ∧
        isRevisionAllowedByIndexPolicy glob repo rev = true := by
  simp [getPolicyVisibleIndexedRevisions]

end Policy

end CodeIntel.Repos
