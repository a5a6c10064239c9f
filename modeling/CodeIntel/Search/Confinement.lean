import CodeIntel.Relational.Fallible
import CodeIntel.Search.Normalize

/-!
# Search results stay within the organisation and its visible revisions

Whatever the search engine answers, a file that is returned belongs to a row of
the caller's organisation, and to a branch that names a revision of that row the
policy lets the caller see.
-/

namespace CodeIntel.Search

open Relational Repos Schema Text

/-! ## Names of revisions -/

/-- A name of a revision: the revision itself, or its branch or tag name. -/
def Names (name revision : String) : Prop :=
  name = revision ∨ "refs/heads/" ++ name = revision ∨ "refs/tags/" ++ name = revision

theorem names_of_mem {name revision : String} (h : name ∈ visibleNamesOf revision) :
    Names name revision := by
  unfold visibleNamesOf at h
  split_ifs at h with hempty hhead htag
  · cases h
  · obtain rfl | h := List.mem_cons.1 h
    · exact .inl rfl
    · rw [List.mem_singleton.1 h]
      exact .inr (.inl (append_trimPrefix hhead))
  · obtain rfl | h := List.mem_cons.1 h
    · exact .inl rfl
    · rw [List.mem_singleton.1 h]
      exact .inr (.inr (append_trimPrefix htag))
  · exact .inl (List.mem_singleton.1 h)

section Rows

variable (glob : String → Option (String → Bool)) (row : SearchRepoRow)

/-- A revision of the row that may be shown: an indexed one the policy leaves visible, or the
default branch if there is none and the policy allows it. -/
def Shown (revision : String) : Prop :=
  revision ∈ getPolicyVisibleIndexedRevisions glob (rowInput row) ∨
    getPolicyVisibleIndexedRevisions glob (rowInput row) = [] ∧
      ∃ default, row.defaultBranch = some default ∧ default ≠ "" ∧
        isBranchAllowedByIndexPolicy glob (rowInput row) default = true ∧
        revision = branchRevision default

theorem shown_of_mem {revision : String} (h : revision ∈ shownRevisions glob row) :
    Shown glob row revision := by
  unfold shownRevisions at h
  dsimp only at h
  split_ifs at h with hempty
  · right
    refine ⟨List.isEmpty_iff.1 hempty, ?_⟩
    cases hdefault : row.defaultBranch with
    | none => simp [hdefault] at h
    | some default =>
      simp only [hdefault] at h
      split_ifs at h with hallowed
      · simp only [Bool.and_eq_true, decide_eq_true_eq] at hallowed
        exact ⟨default, rfl, hallowed.1, hallowed.2, List.mem_singleton.1 h⟩
      · cases h
  · exact .inl h

/-- A branch of a file, possibly without its ref prefix, names a shown revision, or is HEAD
while the default branch names one. -/
def ShowsBranch (branch : String) : Prop :=
  ∃ name, (name = branch ∨ name = stripSearchRefPrefix branch) ∧
    ((∃ revision, Shown glob row revision ∧ Names name revision) ∨
      name = "HEAD" ∧ ∃ default revision, row.defaultBranch = some default ∧
        Shown glob row revision ∧ Names default revision)

theorem named_of_mem {name : String} (h : name ∈ (infoOf glob row).visibleRevisionNames) :
    (∃ revision, Shown glob row revision ∧ Names name revision) ∨
      name = "HEAD" ∧ ∃ default revision, row.defaultBranch = some default ∧
        Shown glob row revision ∧ Names default revision := by
  have hnames : ∀ n ∈ (shownRevisions glob row).flatMap visibleNamesOf,
      ∃ revision, Shown glob row revision ∧ Names n revision := by
    intro n hn
    obtain ⟨revision, hrevision, hmem⟩ := List.mem_flatMap.1 hn
    exact ⟨revision, shown_of_mem glob row hrevision, names_of_mem hmem⟩
  unfold infoOf addRevisionVisibility at h
  split_ifs at h with hblocked
  · cases h
  · split at h
    · cases h
    · dsimp only at h
      split_ifs at h with hfree hdefault
      · cases h
      · obtain rfl | h := List.mem_cons.1 h
        · cases hd : row.defaultBranch with
          | none => simp [hd] at hdefault
          | some default =>
            simp only [hd, Option.any_some, Bool.and_eq_true, List.contains_iff_mem] at hdefault
            obtain ⟨revision, hshown, hnamed⟩ := hnames default hdefault.2
            exact .inr ⟨rfl, default, revision, rfl, hshown, hnamed⟩
        · exact .inl (hnames name h)
      · exact .inl (hnames name h)

theorem infoOf_row : (infoOf glob row).id = row.id ∧ (infoOf glob row).name = row.name := by
  unfold infoOf addRevisionVisibility
  split_ifs
  · exact ⟨rfl, rfl⟩
  · split
    · exact ⟨rfl, rfl⟩
    · dsimp only
      split_ifs <;> exact ⟨rfl, rfl⟩

theorem infoOf_hidden (h : searchBlockedByRemoveIndex row = true ∨ row.indexedAt = none) :
    (infoOf glob row).enforceRevisionVisibility = true ∧
      (infoOf glob row).visibleRevisionNames = [] := by
  have hblocked : (searchBlockedByRemoveIndex row || row.indexedAt.isNone) = true := by
    obtain h | h := h <;> simp [h]
  unfold infoOf addRevisionVisibility
  rw [if_pos hblocked]
  exact ⟨rfl, rfl⟩

end Rows

/-! ## One file -/

theorem int32_ne_zero {x : UInt32} (h : 0 < x) : int32 x ≠ 0 := by
  intro hzero
  have hx : x.toInt32 = 0 := Int32.toInt_inj.1 hzero
  have hbits : x = (0 : Int32).toUInt32 := by
    rw [← hx, UInt32.toUInt32_toInt32]
  subst hbits
  exact absurd h (by decide)

theorem toNat_eq_of_int32 {x : UInt32} (h : 0 < int32 x) : (x.toNat : ℤ) = int32 x := by
  have hint : int32 x = x.toBitVec.toInt := rfl
  have hnat : x.toNat = x.toBitVec.toNat := rfl
  rw [hint, BitVec.toInt_eq_toNat_cond] at h ⊢
  split_ifs at h ⊢ with hsmall
  · rfl
  · have := x.toBitVec.isLt
    omega

section Files

variable {glob : String → Option (String → Bool)} {repoLookup : RepoLookup} {orgId : ℤ}
  {orgRows : List SearchRepoRow} {ids : List ℤ} {names : List String}
  {repos : RepoKey → Option RepositoryInfo}

/-- The lookup returns only rows of the caller's organisation. -/
def ReturnsRows (repoLookup : RepoLookup) (orgId : ℤ) (orgRows : List SearchRepoRow) : Prop :=
  ∀ ids names rows, repoLookup orgId ids names = .ok rows → ∀ row ∈ rows, row ∈ orgRows

variable {info : RepositoryInfo} {z : FileMatch} {file : SearchFile}
  {policyFilter : Option (List RepoBranchPair)} {responses : List ZoektResponse}

theorem lookupRepos_row (hrows : ReturnsRows repoLookup orgId orgRows)
    (h : lookupRepos glob (some repoLookup) orgId ids names = .ok repos) {id : ℤ} (hid : id ≠ 0)
    (hinfo : repos ⟨id, ""⟩ = some info) :
    ∃ row ∈ orgRows, row.id = id ∧ info = infoOf glob row := by
  unfold lookupRepos at h
  dsimp only at h
  split at h
  · cases h
  · rename_i rows hlist
    cases h
    obtain ⟨entry, hmem, hkey, hval⟩ := exists_of_insertAll_eq_some rfl hinfo
    obtain ⟨row, hrow, hentry⟩ := List.mem_flatMap.1 hmem
    simp only [List.mem_cons, List.not_mem_nil, or_false] at hentry
    obtain rfl | rfl := hentry
    · exact ⟨row, hrows _ _ _ hlist row hrow, congrArg RepoKey.id hkey, hval.symm⟩
    · exact absurd (congrArg RepoKey.id hkey).symm hid

/-- What a file that is returned owes to its match and to the row of its repository. -/
structure FromRow (glob : String → Option (String → Bool)) (row : SearchRepoRow)
    (z : FileMatch) (file : SearchFile) : Prop where
  id : file.repositoryId = row.id
  origin : int32 z.repositoryId = row.id
  positive : 0 < row.id → (z.repositoryId.toNat : ℤ) = row.id
  name : file.repository = if row.name = "" then z.repository else row.name
  branches : file.branches = z.branches
  passed : fileBranchesVisible file.branches (infoOf glob row) = true
  visible : (infoOf glob row).enforceRevisionVisibility = true →
    ∃ branch ∈ file.branches, ShowsBranch glob row branch

theorem showsBranch_of_visible {branches : List String} {row : SearchRepoRow}
    (henforced : (infoOf glob row).enforceRevisionVisibility = true)
    (h : fileBranchesVisible branches (infoOf glob row) = true) :
    ∃ branch ∈ branches, ShowsBranch glob row branch := by
  unfold fileBranchesVisible at h
  simp only [henforced, Bool.not_true, Bool.false_eq_true, if_false] at h
  split_ifs at h
  obtain ⟨branch, hbranch, hnamed⟩ := List.any_eq_true.1 h
  refine ⟨branch, hbranch, ?_⟩
  simp only [Bool.or_eq_true, List.contains_iff_mem] at hnamed
  obtain hnamed | hnamed := hnamed
  · exact ⟨branch, .inl rfl, named_of_mem glob row hnamed⟩
  · exact ⟨_, .inr rfl, named_of_mem glob row hnamed⟩

theorem normalizeFile_fromRow (hrows : ReturnsRows repoLookup orgId orgRows)
    (hrepos : lookupRepos glob (some repoLookup) orgId ids names = .ok repos)
    (h : normalizeFile z repos true = some (file, info)) :
    ∃ row ∈ orgRows, FromRow glob row z file := by
  unfold normalizeFile at h
  split at h
  · cases h
  · rename_i found hfound
    unfold fileInfo at hfound
    rw [if_pos rfl] at hfound
    split_ifs at hfound with hpos
    obtain ⟨row, hrow, hid, rfl⟩ := lookupRepos_row hrows hrepos (int32_ne_zero hpos) hfound
    dsimp only at h
    split_ifs at h with hvisible
    obtain ⟨rfl, -⟩ := Prod.mk.inj (Option.some.inj h)
    obtain ⟨hrowId, hrowName⟩ := infoOf_row glob row
    have hne : (infoOf glob row).id ≠ 0 := by
      rw [hrowId, hid]
      exact int32_ne_zero hpos
    refine ⟨row, hrow, ?_, hid.symm, ?_, ?_, rfl, hvisible, ?_⟩
    · change (if (infoOf glob row).id = 0 then _ else (infoOf glob row).id) = row.id
      rw [if_neg hne, hrowId]
    · intro hrowpos
      rw [hid] at hrowpos ⊢
      exact toNat_eq_of_int32 hrowpos
    · change (if (infoOf glob row).name = "" then z.repository else (infoOf glob row).name) = _
      rw [hrowName]
    · intro henforced
      exact showsBranch_of_visible henforced hvisible

/-! ## The loops -/

theorem mem_addFile {acc : Normalized} (h : file ∈ (addFile policyFilter repos true acc z).files) :
    file ∈ acc.files ∨ ∃ info, normalizeFile z repos true = some (file, info) := by
  unfold addFile at h
  split_ifs at h
  · exact .inl h
  · split at h
    · exact .inl h
    · rename_i normalized info hnormalized
      obtain h | h := List.mem_append.1 h
      · exact .inl h
      · obtain rfl := List.mem_singleton.1 h
        exact .inr ⟨info, hnormalized⟩

theorem mem_normalized
    (h : file ∈ (responses.foldl (addResponse policyFilter repos true) {}).files) :
    ∃ response ∈ responses, ∃ z ∈ response.files, ∃ info,
      normalizeFile z repos true = some (file, info) := by
  refine List.foldlRecOn responses (addResponse policyFilter repos true)
    (motive := fun acc => file ∈ acc.files → _) ?_ ?_ h
  · intro hnil
    cases hnil
  · intro acc ih response hresponse hfile
    refine List.foldlRecOn response.files (addFile policyFilter repos true)
      (motive := fun acc => file ∈ acc.files → _) ?_ ?_ hfile
    · exact ih
    · intro acc' ih' z hz hfile'
      obtain hold | ⟨info, hnew⟩ := mem_addFile hfile'
      · exact ih' hold
      · exact ⟨response, hresponse, z, hz, info, hnew⟩

theorem normalize_fromRow (hrows : ReturnsRows repoLookup orgId orgRows) {out : SearchResponse}
    (h : normalize glob (some repoLookup) orgId responses policyFilter = .ok out)
    (hfile : file ∈ out.files) :
    ∃ row ∈ orgRows, ∃ response ∈ responses, ∃ z ∈ response.files, FromRow glob row z file := by
  unfold normalize at h
  split at h
  · cases h
  · rename_i repos hrepos
    cases h
    obtain ⟨response, hresponse, z, hz, info, hnormalized⟩ := mem_normalized hfile
    obtain ⟨row, hrow, hfrom⟩ := normalizeFile_fromRow hrows hrepos hnormalized
    exact ⟨row, hrow, response, hresponse, z, hz, hfrom⟩

end Files

/-! ## Confinement -/

def searchRow (name : String) : SearchRepoRow where
  id := 7
  name := name
  defaultBranch := some "main"
  indexedAt := some 1
  metadata := some { indexedRevisions := ["refs/heads/main"] }

def searchLookup (name : String) : RepoLookup := fun _ _ _ => .ok [searchRow name]

theorem searchLookup_returnsRows (name : String) :
    ReturnsRows (searchLookup name) 1 [searchRow name] := by
  intro ids names rows h row hrow
  rw [← Except.ok.inj h] at hrow
  exact hrow

def mixedResponses : List ZoektResponse :=
  [⟨none, [⟨7, "acme/app", ["main"], "a.go", [], "", "Go"⟩,
    ⟨8, "acme/app", ["main"], "b.go", [], "", "Go"⟩]⟩]

end CodeIntel.Search
