import CodeIntel.Cleanup.Files
import CodeIntel.Text.Delimited

/-!
# The shards of a branch

The executor names the shards of a branch after a digest of the branch name; the
cleanup of a ref looks for the branch name itself. A shard file is removed exactly
when one of the spellings of the ref happens to stand at the right place in its name.
-/

namespace CodeIntel.Cleanup

open Text

/-! ## Names of shard files -/

def isHexDigit (c : Char) : Bool :=
  c.isDigit || ('a' ≤ c && c ≤ 'f')

/-- The SHA-256 digest of a text, in lower-case hex. -/
structure Sha256 where
  hex : String → String
  length_hex : ∀ text, (hex text).toList.length = 64
  isHexDigit_hex : ∀ text, ∀ c ∈ (hex text).toList, isHexDigit c = true

/-- Rust's `str::strip_prefix`. -/
def stripPrefix (s p : String) : Option String :=
  if hasPrefix s p then some (trimPrefix s p) else none

def zoektBranchArg (branch : String) : String :=
  let branch := trimSpace branch
  if branch = "" then "HEAD"
  else
    let short := (stripPrefix branch "refs/heads/").or (stripPrefix branch "refs/remotes/origin/")
    trimLeft (short.getD branch) '/'

/-- The part of a shard name that stands for the branch. -/
def branchMark (sha : Sha256) (branch : String) : String :=
  "b" ++ String.ofList ((sha.hex (zoektBranchArg branch)).toList.take 16)

def zoektBranchShardPrefix (sha : Sha256) (orgId repoId : ℤ) (branch : String) : String :=
  shardPrefix orgId repoId ++ "_" ++ branchMark sha branch

/-- A shard file of an index run; `suffix` is what zoekt appends to the given prefix. -/
structure Shard where
  (orgId repoId : ℤ)
  (branch suffix : String)
  isZoekt : hasSuffix suffix ".zoekt" = true

def Shard.name (sha : Sha256) (s : Shard) : String :=
  zoektBranchShardPrefix sha s.orgId s.repoId s.branch ++ "_" ++ s.suffix

/-- Zoekt has one name for the two spellings of a branch. -/
def IsBranchOf (ref branch : String) : Prop :=
  zoektBranchArg branch = zoektBranchArg ref

instance (ref branch : String) : Decidable (IsBranchOf ref branch) :=
  inferInstanceAs (Decidable (zoektBranchArg branch = zoektBranchArg ref))

/-- A token stands in the name of a shard where the cleanup looks for it: it is the mark of
the branch, perhaps with the beginning of zoekt's suffix up to a separator, or it lies
between two separators of that suffix. -/
def Marks (token mark suffix : List Char) : Prop :=
  token = mark ∨
    (∃ more, token = mark ++ '_' :: more ∧ (more ++ ['_'] <+: suffix ∨ more ++ ['-'] <+: suffix)) ∨
    '_' :: (token ++ ['_']) <:+: '_' :: suffix ∨ '-' :: (token ++ ['-']) <:+: suffix

section Names

variable {sha : Sha256} {branch : String} {s : Shard}

theorem notMem_branchMark {c : Char} (hb : c ≠ 'b') (hhex : isHexDigit c = false) :
    c ∉ (branchMark sha branch).toList := by
  have hmark : (branchMark sha branch).toList =
      'b' :: (sha.hex (zoektBranchArg branch)).toList.take 16 := by simp [branchMark]
  rw [hmark, List.mem_cons]
  rintro (hc | hc)
  · exact hb hc
  · have hdigit := sha.isHexDigit_hex _ c (List.mem_of_mem_take hc)
    rw [hhex] at hdigit
    exact absurd hdigit Bool.false_ne_true

theorem toList_shardFilePrefix (orgId repoId : ℤ) :
    (shardFilePrefix orgId repoId).toList =
      (toString orgId).toList ++ '_' :: ((toString repoId).toList ++ ['_']) := by
  simp [shardFilePrefix, shardPrefix]

theorem toList_name : (s.name sha).toList = (shardFilePrefix s.orgId s.repoId).toList ++
    ((branchMark sha s.branch).toList ++ '_' :: s.suffix.toList) := by
  simp [Shard.name, zoektBranchShardPrefix, shardFilePrefix]

/-- The ids at the front of a shard name can be read back. -/
theorem shardFilePrefix_prefix_iff {orgId repoId orgId' repoId' : ℤ} {rest : List Char} :
    (shardFilePrefix orgId' repoId').toList <+: (shardFilePrefix orgId repoId).toList ++ rest ↔
      orgId = orgId' ∧ repoId = repoId' := by
  rw [toList_shardFilePrefix, toList_shardFilePrefix, List.append_assoc,
    List.cons_append, List.append_assoc, List.singleton_append,
    append_cons_prefix_iff (underscore_notMem_toString _) (underscore_notMem_toString _),
    append_cons_prefix_iff (underscore_notMem_toString _) (underscore_notMem_toString _)]
  rw [← String.ext_iff, ← String.ext_iff, toString_int_injective.eq_iff, toString_int_injective.eq_iff]
  simp [eq_comm]

theorem hasPrefix_name_iff {orgId repoId : ℤ} :
    hasPrefix (s.name sha) (shardFilePrefix orgId repoId) = true ↔
      s.orgId = orgId ∧ s.repoId = repoId := by
  rw [hasPrefix_iff, toList_name, shardFilePrefix_prefix_iff]

theorem trimPrefix_name :
    (trimPrefix (s.name sha) (shardFilePrefix s.orgId s.repoId)).toList =
      (branchMark sha s.branch).toList ++ '_' :: s.suffix.toList := by
  unfold trimPrefix
  rw [if_pos (hasPrefix_name_iff.2 ⟨rfl, rfl⟩), String.toList_ofList, toList_name, List.drop_left]

theorem hasSuffix_name : hasSuffix (s.name sha) ".zoekt" = true := by
  rw [hasSuffix_iff]
  refine (hasSuffix_iff.1 s.isZoekt).trans ⟨(zoektBranchShardPrefix sha s.orgId s.repoId s.branch
    ++ "_").toList, ?_⟩
  rw [← String.toList_append]
  rfl

theorem token_prefix_iff {mark suffix token : List Char} {d : Char} (hmark : d ∉ mark) :
    token ++ [d] <+: mark ++ '_' :: suffix ↔
      token = mark ∧ d = '_' ∨ ∃ more, token = mark ++ '_' :: more ∧ more ++ [d] <+: suffix := by
  rw [concat_prefix_append_iff hmark]
  constructor
  · rintro ⟨more, rfl, hmore⟩
    cases more with
    | nil =>
      rw [List.nil_append, List.cons_prefix_cons] at hmore
      exact .inl ⟨List.append_nil _, hmore.1⟩
    | cons c more =>
      rw [List.cons_append, List.cons_prefix_cons] at hmore
      obtain ⟨rfl, hmore⟩ := hmore
      exact .inr ⟨more, rfl, hmore⟩
  · rintro (⟨rfl, rfl⟩ | ⟨more, rfl, hmore⟩)
    · exact ⟨[], (List.append_nil _).symm, by simp [List.cons_prefix_cons]⟩
    · exact ⟨'_' :: more, rfl, by rwa [List.cons_append, List.cons_prefix_cons, and_iff_right rfl]⟩

theorem shardNameMatchesAnyBranch_name {tokens : List String} :
    shardNameMatchesAnyBranch (s.name sha) (shardFilePrefix s.orgId s.repoId) tokens = true ↔
      ∃ token ∈ tokens, Marks token.toList (branchMark sha s.branch).toList s.suffix.toList := by
  have hunder : '_' ∉ (branchMark sha s.branch).toList := notMem_branchMark (by decide) (by decide)
  have hdash : '-' ∉ (branchMark sha s.branch).toList := notMem_branchMark (by decide) (by decide)
  unfold shardNameMatchesAnyBranch
  rw [List.any_eq_true]
  refine exists_congr fun token => and_congr_right fun _ => ?_
  have hunderscore : "_".toList = ['_'] := rfl
  have hhyphen : "-".toList = ['-'] := rfl
  simp only [Bool.or_eq_true, hasPrefix_iff, contains_iff, trimPrefix_name, String.toList_append,
    hunderscore, hhyphen, List.cons_append]
  rw [token_prefix_iff hunder, token_prefix_iff hdash, cons_infix_append_iff hunder,
    cons_infix_append_iff hdash]
  have hskip : ∀ word : List Char, '-' :: word <:+: '_' :: s.suffix.toList ↔
      '-' :: word <:+: s.suffix.toList := fun word =>
    List.infix_cons_iff.trans (or_iff_right fun h => absurd (List.cons_prefix_cons.1 h).1 (by decide))
  rw [hskip]
  unfold Marks
  simp only [List.nil_append, and_true, Char.reduceEq, and_false, false_or, and_or_left, exists_or,
    or_assoc]

end Names

/-! ## The cleanup of a ref -/

section Cleanup

variable {os : Faults} {cfg : PathsConfig} {repo : PathsRepo} {ref : String} {fs fs' : FileSystem}

theorem isBranchShard_name_iff {sha : Sha256} {s : Shard} {branches : List String} :
    isBranchShard repo branches ⟨s.name sha, false⟩ = true ↔
      s.orgId = repo.orgId ∧ s.repoId = repo.repoId ∧
        ∃ token ∈ cleanupShardBranchTokens branches,
          Marks token.toList (branchMark sha s.branch).toList s.suffix.toList := by
  unfold isBranchShard
  simp only [Bool.not_false, Bool.true_and, Bool.and_eq_true, hasPrefix_name_iff, hasSuffix_name,
    and_true, and_assoc]
  refine and_congr_right fun horg => and_congr_right fun hrepo => ?_
  rw [← horg, ← hrepo, shardNameMatchesAnyBranch_name]

theorem hasFile_cleanupRepoFilesystemForRef (href : trimSpace ref ≠ "")
    (hrun : cleanupRepoFilesystemForRef os cfg repo ref fs = (.ok (), fs')) (name : String) :
    fs'.hasFile (cfg.zoektIndexPath repo) name = true ↔
      fs.hasFile (cfg.zoektIndexPath repo) name = true ∧
        ¬isBranchShard repo (cleanupRefCandidates ref) ⟨name, false⟩ = true := by
  unfold cleanupRepoFilesystemForRef at hrun
  split at hrun
  · cases (Prod.mk.inj hrun).1
  split at hrun
  · rename_i hnil
    exact absurd hnil (List.ne_nil_of_mem (trimSpace_mem_cleanupRefCandidates href))
  · refine hasFile_removeListedShards (cfg.zoektIndexPath_ne_empty repo) (fun e he => ?_) hrun name
    unfold isBranchShard at he
    simp only [Bool.and_eq_true, Bool.not_eq_true'] at he
    exact he.1.1.1

/-- The cleanup of a ref removes the shards of its branch and no others, exactly when the
shards of the repository that carry a token of the ref are those of its branch. -/
theorem cleanupRepoFilesystemForRef_exact_iff (sha : Sha256) (shards : List Shard)
    (href : trimSpace ref ≠ "")
    (hshards : ∀ s ∈ shards, fs.hasFile (cfg.zoektIndexPath repo) (s.name sha) = true)
    (hrun : cleanupRepoFilesystemForRef os cfg repo ref fs = (.ok (), fs')) :
    (∀ s ∈ shards, fs'.hasFile (cfg.zoektIndexPath repo) (s.name sha) = false ↔
        s.orgId = repo.orgId ∧ s.repoId = repo.repoId ∧ IsBranchOf ref s.branch) ↔
      ∀ s ∈ shards, s.orgId = repo.orgId → s.repoId = repo.repoId →
        (IsBranchOf ref s.branch ↔
          ∃ token ∈ cleanupShardBranchTokens (cleanupRefCandidates ref),
            Marks token.toList (branchMark sha s.branch).toList s.suffix.toList) := by
  refine forall₂_congr fun s hs => ?_
  rw [← Bool.not_eq_true, hasFile_cleanupRepoFilesystemForRef href hrun,
    and_iff_right (hshards s hs), not_not, isBranchShard_name_iff]
  constructor
  · intro h horg hrepo
    exact ⟨fun hbranch => (h.2 ⟨horg, hrepo, hbranch⟩).2.2,
      fun htoken => (h.1 ⟨horg, hrepo, htoken⟩).2.2⟩
  · intro h
    exact and_congr_right fun horg => and_congr_right fun hrepo => (h horg hrepo).symm

def mainDigest : Sha256 where
  hex _ := "0d6e4079e36703ebd37c00722f5891d28b0e2811dc114b129215123adcce3605"
  length_hex _ := by decide
  isHexDigit_hex _ := by decide

def mainShard : Shard where
  orgId := 7
  repoId := 42
  branch := "main"
  suffix := "v16.00000.zoekt"
  isZoekt := by decide

def shardConfig : PathsConfig where
  dataCacheDir := "data"

def shardRepo : PathsRepo where
  orgId := 7
  repoId := 42

def mainIndex : FileSystem where
  cwd := "/app"
  directories := [⟨"data/index", [⟨"7_42_b0d6e4079e36703eb_v16.00000.zoekt", false⟩]⟩]

theorem cleanupRepoFilesystemForRef_exact_iff_main :
    (∀ s ∈ [mainShard],
        mainIndex.hasFile (shardConfig.zoektIndexPath shardRepo) (s.name mainDigest) = false ↔
        s.orgId = shardRepo.orgId ∧ s.repoId = shardRepo.repoId ∧ IsBranchOf "main" s.branch) ↔
      ∀ s ∈ [mainShard], s.orgId = shardRepo.orgId → s.repoId = shardRepo.repoId →
        (IsBranchOf "main" s.branch ↔
          ∃ token ∈ cleanupShardBranchTokens (cleanupRefCandidates "main"),
            Marks token.toList (branchMark mainDigest s.branch).toList s.suffix.toList) := by
  have hrun : cleanupRepoFilesystemForRef {} shardConfig shardRepo "main" mainIndex =
      (.ok (), mainIndex) := by decide +kernel
  exact cleanupRepoFilesystemForRef_exact_iff mainDigest [mainShard] (by decide) (by decide +kernel)
    hrun

/-- The shard of `main` stays when `main` is cleaned up. -/
theorem main_shard_not_removed :
    IsBranchOf "main" mainShard.branch ∧
      mainIndex.hasFile (shardConfig.zoektIndexPath shardRepo) (mainShard.name mainDigest) = true ∧
      cleanupRepoFilesystemForRef {} shardConfig shardRepo "main" mainIndex =
        (.ok (), mainIndex) := by
  refine ⟨by decide, by decide +kernel, by decide +kernel⟩

end Cleanup

end CodeIntel.Cleanup
