import CodeIntel.Text.GoPath

/-!
# The files of a repository

Where the clone, the Zoekt shards and the revision snapshots of a repository lie
on disk, and what the cleanup of the repository or of one of its refs removes.
The operating system may refuse any call; a refused removal of a directory may
leave part of it behind.
-/

namespace CodeIntel.Cleanup

open Text

/-! ## Paths -/

/-- `filepath.Join`. -/
def joinPath (elements : List String) : String :=
  match elements.dropWhile (· = "") with
  | [] => ""
  | rest => cleanPath ("/".intercalate rest)

theorem cleanPath_ne_empty (s : String) : cleanPath s ≠ "" := by
  have hchars : ∀ cs, cleanChars cs ≠ [] := by
    intro cs
    unfold cleanChars
    dsimp only
    split
    · exact List.cons_ne_nil _ _
    · split
      · exact List.cons_ne_nil _ _
      · assumption
  intro h
  exact hchars s.toList (String.ofList_injective h)

theorem joinPath_ne_empty {elements : List String} {e : String} (he : e ∈ elements) (hne : e ≠ "") :
    joinPath elements ≠ "" := by
  unfold joinPath
  split
  · rename_i hnil
    exact absurd (List.dropWhile_eq_nil_iff.1 hnil e he) (by simpa using hne)
  · exact cleanPath_ne_empty _

/-- `repopaths.Config`. -/
structure PathsConfig where
  dataCacheDir : String
  zoektEFSRoot : String := ""
  zoektStorageLayout : String := ""
  deriving DecidableEq, Repr

/-- `repopaths.Repo`. -/
structure PathsRepo where
  (orgId repoId : ℤ)
  cloneUrl : String := ""
  codeHostType : String := ""
  deriving DecidableEq, Repr

/-- The parts of a parsed URL that select a path. -/
structure CloneUrl where
  (scheme path : String)
  deriving DecidableEq, Repr

namespace PathsConfig

def zoektOrgRootPath (c : PathsConfig) (orgId : ℤ) : String :=
  if c.zoektEFSRoot ≠ "" then joinPath [c.zoektEFSRoot, toString orgId]
  else joinPath [c.dataCacheDir, "zoekt-orgs", toString orgId]

def zoektOrgIndexPath (c : PathsConfig) (orgId : ℤ) : String :=
  joinPath [c.zoektOrgRootPath orgId, "index"]

def zoektOrgReposPath (c : PathsConfig) (orgId : ℤ) : String :=
  joinPath [c.zoektOrgRootPath orgId, "repos"]

/-- The clone directory and whether it is read-only; `parse` is `url.Parse`. -/
def repoPath (parse : String → Option CloneUrl) (c : PathsConfig) (r : PathsRepo) :
    Except String (String × Bool) :=
  let reposRoot :=
    if c.zoektStorageLayout = "org-directory" then c.zoektOrgReposPath r.orgId
    else joinPath [c.dataCacheDir, "repos"]
  let managed := joinPath [reposRoot, toString r.repoId]
  if (r.codeHostType = "genericGitHost" || r.codeHostType = "generic-git-host") && r.cloneUrl ≠ ""
  then match parse r.cloneUrl with
    | none => .error "repopaths: invalid CloneURL"
    | some u => if u.scheme = "file" then .ok (u.path, true) else .ok (managed, false)
  else .ok (managed, false)

def zoektIndexPath (c : PathsConfig) (r : PathsRepo) : String :=
  if c.zoektStorageLayout = "org-directory" then c.zoektOrgIndexPath r.orgId
  else joinPath [c.dataCacheDir, "index"]

theorem zoektIndexPath_ne_empty (c : PathsConfig) (r : PathsRepo) : c.zoektIndexPath r ≠ "" := by
  have hindex : ∀ dir, joinPath [dir, "index"] ≠ "" := fun dir =>
    joinPath_ne_empty (List.mem_cons_of_mem dir List.mem_cons_self) (by decide)
  unfold zoektIndexPath
  split
  · exact hindex _
  · exact hindex _

def revisionSnapshotRepoRoot (c : PathsConfig) (orgId repoId : ℤ) : String :=
  let base :=
    if c.zoektStorageLayout = "org-directory" then c.zoektOrgRootPath orgId else c.dataCacheDir
  joinPath [base, "codeintel", "revision-snapshots", toString repoId]

def revisionSnapshotPath (c : PathsConfig) (orgId repoId : ℤ) (commitHash : String) : String :=
  joinPath [c.revisionSnapshotRepoRoot orgId repoId, commitHash]

end PathsConfig

/-- `repopaths.ShardPrefix`. -/
def shardPrefix (orgId repoId : ℤ) : String :=
  toString orgId ++ "_" ++ toString repoId

/-- `repopaths.ShardFilePrefix`. -/
def shardFilePrefix (orgId repoId : ℤ) : String :=
  shardPrefix orgId repoId ++ "_"

/-! ## Directories -/

structure DirEntry where
  name : String
  isDir : Bool
  deriving DecidableEq, Repr

structure Directory where
  path : String
  entries : List DirEntry := []
  deriving DecidableEq, Repr

def Directory.without (d : Directory) (name : String) : Directory :=
  { d with entries := d.entries.filter fun e => e.name ≠ name }

/-- The directories a process sees from its working directory. -/
structure FileSystem where
  cwd : String
  directories : List Directory
  deriving DecidableEq, Repr

namespace FileSystem

def location (fs : FileSystem) (path : String) : List (List Char) :=
  let full := if hasPrefix path "/" then path else fs.cwd ++ "/" ++ path
  ((splitOnChar '/' full.toList).foldl (cleanComponent true) []).reverse

def covers (fs : FileSystem) (path below : String) : Bool :=
  (fs.location path).isPrefixOf (fs.location below)

def hasPath (fs : FileSystem) (path : String) : Bool :=
  fs.directories.any fun d => fs.covers path d.path

def isAt (fs : FileSystem) (path : String) (d : Directory) : Bool :=
  fs.location d.path = fs.location path

theorem covers_of_isAt {fs : FileSystem} {dir : String} {d : Directory} (hat : fs.isAt dir d = true)
    (path : String) : fs.covers path d.path = fs.covers path dir := by
  unfold covers
  rw [of_decide_eq_true hat]

def hasDirectory (fs : FileSystem) (path : String) : Bool :=
  fs.directories.any (fs.isAt path)

/-- `os.ReadDir`; `none` when there is no such directory. -/
def readDir (fs : FileSystem) (path : String) : Option (List DirEntry) :=
  (fs.directories.find? (fs.isAt path)).map Directory.entries

def hasFile (fs : FileSystem) (dir name : String) : Bool :=
  ((fs.readDir dir).getD []).contains ⟨name, false⟩

/-- `os.Remove` of a file of a directory. -/
def removeFile (fs : FileSystem) (dir name : String) : FileSystem :=
  { fs with
    directories := fs.directories.map fun d => if fs.isAt dir d then d.without name else d }

theorem isAt_comp_without (fs : FileSystem) (path name : String) (cond : Directory → Bool) :
    (fs.isAt path ∘ fun d => if cond d then d.without name else d) = fs.isAt path := by
  funext d
  rw [Function.comp_apply]
  split <;> rfl

theorem readDir_removeFile (fs : FileSystem) (dir name : String) :
    (fs.removeFile dir name).readDir dir =
      (fs.readDir dir).map fun entries => entries.filter fun e => e.name ≠ name := by
  change ((fs.directories.map fun d => if fs.isAt dir d then d.without name else d).find?
    (fs.isAt dir)).map Directory.entries = _
  rw [List.find?_map, isAt_comp_without]
  unfold readDir
  cases hfind : fs.directories.find? (fs.isAt dir) with
  | none => rfl
  | some d =>
    have hat : fs.isAt dir d = true := List.find?_some hfind
    rw [Option.map_some, Option.map_some, if_pos hat]
    rfl

theorem hasDirectory_removeFile (fs : FileSystem) (dir name path : String) :
    (fs.removeFile dir name).hasDirectory path = fs.hasDirectory path := by
  change (fs.directories.map fun d => if fs.isAt dir d then d.without name else d).any
    (fs.isAt path) = _
  rw [List.any_map, isAt_comp_without]
  rfl

/-- `os.RemoveAll`, as far as it got. -/
def removeAll (fs : FileSystem) (path : String) (left : String → Bool) : FileSystem :=
  { fs with
    directories := fs.directories.filter fun d => !fs.covers path d.path || left d.path }

theorem hasDirectory_removeAll (fs : FileSystem) (path : String) (left : String → Bool)
    (dir : String) : (fs.removeAll path left).hasDirectory dir = true ↔
      ∃ d ∈ fs.directories, fs.isAt dir d = true ∧ (fs.covers path dir = true → left d.path = true) := by
  change ((fs.directories.filter fun d => !fs.covers path d.path || left d.path).any
    (fs.isAt dir)) = true ↔ _
  simp only [List.any_eq_true, List.mem_filter, and_assoc]
  refine exists_congr fun d => and_congr_right fun _ => ?_
  rw [and_comm]
  refine and_congr_right fun hat => ?_
  rw [covers_of_isAt hat]
  cases fs.covers path dir <;> simp

end FileSystem

/-- A refused `os.RemoveAll` and the directories it did not get to. -/
structure PartialRemoval where
  text : String
  left : String → Bool

/-- The places where a cleanup looks whether it was cancelled. -/
inductive Checkpoint where
  | scoped | clone | shards | snapshots
  deriving DecidableEq, Repr

/-- What the operating system answers to the calls of a cleanup; `none` is success, where a
missing file or directory is no failure. -/
structure Faults where
  ctx : Checkpoint → Option String := fun _ => none
  stat : String → Option String := fun _ => none
  readDir : String → Option String := fun _ => none
  remove : String → Option String := fun _ => none
  removeAll : String → Option PartialRemoval := fun _ => none
  /-- `url.Parse`. -/
  parse : String → Option CloneUrl := fun _ => none

/-! ## Shard files -/

/-- `os.Stat` and then `os.RemoveAll` of a directory that is there. -/
def removeTree (os : Faults) (caller path : String) (fs : FileSystem) :
    Except String Unit × FileSystem :=
  match os.stat path with
  | some e => (.error (caller ++ ": stat " ++ path ++ ": " ++ e), fs)
  | none =>
    if fs.hasPath path then
      match os.removeAll path with
      | some e => (.error (caller ++ ": rm -rf " ++ path ++ ": " ++ e.text), fs.removeAll path e.left)
      | none => (.ok (), fs.removeAll path fun _ => false)
    else (.ok (), fs)

/-- What the removal of the directories below certain paths does to one directory. -/
structure RemovesTrees (paths : List String) (dir : String) (fs : FileSystem)
    (reply : Except String Unit × FileSystem) : Prop where
  cwd : reply.2.cwd = fs.cwd
  shrinks : reply.2.hasDirectory dir = true → fs.hasDirectory dir = true
  kept : (∀ path ∈ paths, ¬fs.covers path dir = true) → fs.hasDirectory dir = true →
    reply.2.hasDirectory dir = true
  removed : reply.1 = .ok () → (∃ path ∈ paths, fs.covers path dir = true) →
    ¬reply.2.hasDirectory dir = true

variable {fs fs' : FileSystem} {selected : DirEntry → Bool}

theorem FileSystem.covers_of_cwd_eq (h : fs'.cwd = fs.cwd) : fs'.covers = fs.covers := by
  unfold covers location
  rw [h]

theorem RemovesTrees.append {paths more : List String} {dir : String} {fs₁ : FileSystem}
    {reply : Except String Unit × FileSystem} (h : RemovesTrees paths dir fs (.ok (), fs₁))
    (h' : RemovesTrees more dir fs₁ reply) : RemovesTrees (paths ++ more) dir fs reply := by
  have hcovers : fs₁.covers = fs.covers := FileSystem.covers_of_cwd_eq h.cwd
  refine ⟨h'.cwd.trans h.cwd, fun hdir => h.shrinks (h'.shrinks hdir), fun hnone hdir => ?_, ?_⟩
  · refine h'.kept (fun path hpath => ?_)
      (h.kept (fun path hpath => hnone path (List.mem_append_left _ hpath)) hdir)
    rw [hcovers]
    exact hnone path (List.mem_append_right _ hpath)
  · rintro hok ⟨path, hpath, hpathcovers⟩ hdir
    rcases List.mem_append.1 hpath with hfirst | hsecond
    · exact h.removed rfl ⟨path, hfirst, hpathcovers⟩ (h'.shrinks hdir)
    · exact h'.removed hok ⟨path, hsecond, by rwa [hcovers]⟩ hdir

theorem FileSystem.hasPath_of_covers {path dir : String} (hcovers : fs.covers path dir = true)
    (hdir : fs.hasDirectory dir = true) :
    fs.hasPath path = true := by
  obtain ⟨d, hd, hat⟩ := List.any_eq_true.1 hdir
  exact List.any_eq_true.2 ⟨d, hd, (covers_of_isAt hat path).trans hcovers⟩

theorem removeTree_removesTrees (os : Faults) (caller path dir : String) (fs : FileSystem) :
    RemovesTrees [path] dir fs (removeTree os caller path fs) := by
  have hkeep : ∀ left, ¬fs.covers path dir = true → fs.hasDirectory dir = true →
      (fs.removeAll path left).hasDirectory dir = true := by
    intro left hcovers hdir
    obtain ⟨d, hd, hat⟩ := List.any_eq_true.1 hdir
    exact (fs.hasDirectory_removeAll path left dir).2 ⟨d, hd, hat, fun h => absurd h hcovers⟩
  have hshrink : ∀ left, (fs.removeAll path left).hasDirectory dir = true →
      fs.hasDirectory dir = true := by
    intro left h
    obtain ⟨d, hd, hat, -⟩ := (fs.hasDirectory_removeAll path left dir).1 h
    exact List.any_eq_true.2 ⟨d, hd, hat⟩
  unfold removeTree
  split
  · exact ⟨rfl, id, fun _ h => h, fun h => by cases h⟩
  split
  · split
    · exact ⟨rfl, hshrink _, fun h => hkeep _ (h path List.mem_cons_self), fun h => by cases h⟩
    · refine ⟨rfl, hshrink _, fun h => hkeep _ (h path List.mem_cons_self), fun _ h hdir => ?_⟩
      obtain ⟨path', hpath', hcovers⟩ := h
      obtain rfl := List.mem_singleton.1 hpath'
      obtain ⟨d, -, -, hleft⟩ := (fs.hasDirectory_removeAll path' _ dir).1 hdir
      exact absurd (hleft hcovers) Bool.false_ne_true
  · rename_i hmissing
    refine ⟨rfl, id, fun _ h => h, fun _ h hdir => ?_⟩
    obtain ⟨path', hpath', hcovers⟩ := h
    obtain rfl := List.mem_singleton.1 hpath'
    exact hmissing (FileSystem.hasPath_of_covers hcovers hdir)

def removeShards (os : Faults) (indexPath : String) (selected : DirEntry → Bool) :
    List DirEntry → FileSystem → List String × FileSystem
  | [], fs => ([], fs)
  | entry :: rest, fs =>
    if selected entry then
      let path := joinPath [indexPath, entry.name]
      match os.remove path with
      | some e =>
        let (errors, fs') := removeShards os indexPath selected rest fs
        (("rm " ++ path ++ ": " ++ e) :: errors, fs')
      | none => removeShards os indexPath selected rest (fs.removeFile indexPath entry.name)
    else removeShards os indexPath selected rest fs

/-- A loop without errors removes the names of the selected entries and nothing else. -/
theorem readDir_removeShards {os : Faults} {indexPath : String} {listing : List DirEntry}
    (h : removeShards os indexPath selected listing fs = ([], fs')) :
    fs'.readDir indexPath = (fs.readDir indexPath).map fun entries =>
      entries.filter fun e => !listing.any fun x => selected x && x.name = e.name := by
  induction listing generalizing fs with
  | nil =>
    obtain ⟨-, rfl⟩ := Prod.mk.inj h
    cases fs.readDir indexPath <;> simp
  | cons entry rest ih =>
    unfold removeShards at h
    by_cases hsel : selected entry = true
    · rw [if_pos hsel] at h
      dsimp only at h
      split at h
      · cases (Prod.mk.inj h).1
      · rw [ih h, FileSystem.readDir_removeFile, Option.map_map]
        congr 1
        funext entries
        rw [Function.comp_apply, List.filter_filter]
        refine List.filter_congr fun e _ => ?_
        by_cases hname : entry.name = e.name <;> simp [hsel, hname, eq_comm]
    · rw [if_neg hsel] at h
      rw [ih h]
      simp [hsel]

theorem removeShards_directories (os : Faults) (indexPath : String) (selected : DirEntry → Bool)
    (listing : List DirEntry) (fs : FileSystem) :
    (removeShards os indexPath selected listing fs).2.cwd = fs.cwd ∧
      ∀ dir, (removeShards os indexPath selected listing fs).2.hasDirectory dir =
        fs.hasDirectory dir := by
  induction listing generalizing fs with
  | nil => exact ⟨rfl, fun _ => rfl⟩
  | cons entry rest ih =>
    unfold removeShards
    split
    · dsimp only
      split
      · exact ih fs
      · obtain ⟨hcwd, hdirs⟩ := ih (fs.removeFile indexPath entry.name)
        exact ⟨hcwd, fun dir => (hdirs dir).trans (fs.hasDirectory_removeFile _ _ _)⟩
    · exact ih fs

def removeListedShards (os : Faults) (caller indexPath : String) (selected : DirEntry → Bool)
    (fs : FileSystem) : Except String Unit × FileSystem :=
  if indexPath = "" then (.ok (), fs)
  else match os.readDir indexPath with
    | some e => (.error (caller ++ ": readdir " ++ indexPath ++ ": " ++ e), fs)
    | none =>
      match fs.readDir indexPath with
      | none => (.ok (), fs)
      | some entries =>
        match removeShards os indexPath selected entries fs with
        | ([], fs') => (.ok (), fs')
        | (errors, fs') =>
          (.error (caller ++ ": shard removal errors: " ++ "\n".intercalate errors), fs')

theorem hasFile_removeListedShards {os : Faults} {caller indexPath : String}
    (hpath : indexPath ≠ "") (hfile : ∀ e, selected e = true → e.isDir = false)
    (h : removeListedShards os caller indexPath selected fs = (.ok (), fs')) (name : String) :
    fs'.hasFile indexPath name = true ↔
      fs.hasFile indexPath name = true ∧ ¬selected ⟨name, false⟩ = true := by
  unfold removeListedShards at h
  rw [if_neg hpath] at h
  split at h
  · cases (Prod.mk.inj h).1
  split at h
  · rename_i hmissing
    obtain ⟨-, rfl⟩ := Prod.mk.inj h
    simp [FileSystem.hasFile, hmissing]
  rename_i entries hlisted
  split at h
  · rename_i fs₁ hloop
    obtain ⟨-, rfl⟩ := Prod.mk.inj h
    have hafter := readDir_removeShards hloop
    rw [hlisted, Option.map_some] at hafter
    unfold FileSystem.hasFile
    rw [hlisted, hafter, Option.getD_some, Option.getD_some, List.contains_iff_mem,
      List.contains_iff_mem, List.mem_filter]
    refine and_congr_right fun hmem => ?_
    rw [Bool.not_eq_true', ← Bool.not_eq_true, not_iff_not, List.any_eq_true]
    constructor
    · rintro ⟨x, -, hx⟩
      obtain ⟨hsel, hname⟩ := Bool.and_eq_true_iff.1 hx
      have hentry : x = ⟨name, false⟩ := by
        cases x with
        | mk n d =>
          obtain rfl : d = false := hfile _ hsel
          obtain rfl : n = name := of_decide_eq_true hname
          rfl
      rwa [hentry] at hsel
    · intro hsel
      exact ⟨_, hmem, by simp [hsel]⟩
  · cases (Prod.mk.inj h).1

theorem removeListedShards_directories (os : Faults) (caller indexPath : String)
    (selected : DirEntry → Bool) (fs : FileSystem) :
    (removeListedShards os caller indexPath selected fs).2.cwd = fs.cwd ∧
      ∀ dir, (removeListedShards os caller indexPath selected fs).2.hasDirectory dir =
        fs.hasDirectory dir := by
  unfold removeListedShards
  split
  · exact ⟨rfl, fun _ => rfl⟩
  split
  · exact ⟨rfl, fun _ => rfl⟩
  split
  · exact ⟨rfl, fun _ => rfl⟩
  · rename_i entries hlisted
    have h := removeShards_directories os indexPath selected entries fs
    split <;> rename_i hloop <;> rwa [hloop] at h

/-- The clone and every shard of the repository. -/
def cleanupRepoFilesystem (os : Faults) (cfg : PathsConfig) (repo : PathsRepo) (fs : FileSystem) :
    Except String Unit × FileSystem :=
  let caller := "CleanupRepoFilesystem"
  match os.ctx .clone with
  | some e => (.error e, fs)
  | none =>
    match cfg.repoPath os.parse repo with
    | .error e => (.error (caller ++ ": resolve RepoPath: " ++ e), fs)
    | .ok (repoPath, isReadOnly) =>
      let clone :=
        if !isReadOnly && repoPath ≠ "" then removeTree os caller repoPath fs else (.ok (), fs)
      match clone with
      | (.error e, fs₁) => (.error e, fs₁)
      | (.ok (), fs₁) =>
        match os.ctx .shards with
        | some e => (.error e, fs₁)
        | none =>
          let pre := shardFilePrefix repo.orgId repo.repoId
          removeListedShards os caller (cfg.zoektIndexPath repo)
            (fun entry => !entry.isDir && hasPrefix entry.name pre) fs₁

/-- `add` of `cleanupRefCandidates`. -/
def addCandidate (out : List String) (v : String) : List String :=
  let v := trimSpace v
  if v ≠ "" && !out.contains v then out ++ [v] else out

/-- The spellings of a ref under which its rows are stored. -/
def cleanupRefCandidates (ref : String) : List String :=
  let ref := trimSpace ref
  if ref = "" then []
  else
    let out := addCandidate (addCandidate [] ref) (trimPrefix ref "refs/heads/")
    if !hasPrefix ref "refs/heads/" && !hasPrefix ref "refs/tags/" then
      addCandidate out ("refs/heads/" ++ trimPrefix ref "/")
    else out

theorem mem_addCandidate_of_mem {out : List String} {v : String} (w : String) (h : v ∈ out) :
    v ∈ addCandidate out w := by
  unfold addCandidate
  dsimp only
  split
  · exact List.mem_append_left _ h
  · exact h

theorem trimSpace_mem_cleanupRefCandidates {ref : String} (h : trimSpace ref ≠ "") :
    trimSpace ref ∈ cleanupRefCandidates ref := by
  have hfirst : trimSpace ref ∈ addCandidate [] (trimSpace ref) := by
    simp [addCandidate, trimSpace_trimSpace, h]
  unfold cleanupRefCandidates
  rw [if_neg h]
  split
  · exact mem_addCandidate_of_mem _ (mem_addCandidate_of_mem _ hfirst)
  · exact mem_addCandidate_of_mem _ hfirst

/-- The texts a shard of one of the branches is recognised by. -/
def cleanupShardBranchTokens (branches : List String) : List String :=
  let spellings (branch : String) : List String :=
    let branch := trimSpace branch
    if branch = "" then []
    else
      let short := trimPrefix branch "refs/heads/"
      [branch, short, replaceChar branch '/' '_', replaceChar short '/' '_',
        replaceChar branch '/' '-', replaceChar short '/' '-']
  (((branches.flatMap spellings).map fun t => trimCutset t "_- /").filter (· ≠ "")).dedup

def shardNameMatchesAnyBranch (name pre : String) (tokens : List String) : Bool :=
  let suffix := trimPrefix name pre
  tokens.any fun token =>
    hasPrefix suffix (token ++ "_") || hasPrefix suffix (token ++ "-") ||
      contains suffix ("_" ++ token ++ "_") || contains suffix ("-" ++ token ++ "-")

/-- The entries that the cleanup of a ref takes for shards of its branch. -/
def isBranchShard (repo : PathsRepo) (branches : List String) (entry : DirEntry) : Bool :=
  let pre := shardFilePrefix repo.orgId repo.repoId
  !entry.isDir && hasPrefix entry.name pre && hasSuffix entry.name ".zoekt" &&
    shardNameMatchesAnyBranch entry.name pre (cleanupShardBranchTokens branches)

def cleanupRepoFilesystemForRef (os : Faults) (cfg : PathsConfig) (repo : PathsRepo) (ref : String)
    (fs : FileSystem) : Except String Unit × FileSystem :=
  match os.ctx .scoped with
  | some e => (.error e, fs)
  | none =>
    match cleanupRefCandidates ref with
    | [] => cleanupRepoFilesystem os cfg repo fs
    | branches =>
      removeListedShards os "CleanupRepoFilesystemForRef" (cfg.zoektIndexPath repo)
        (isBranchShard repo branches) fs

/-! ## Revision snapshots -/

def cleanupRepoSnapshots (os : Faults) (cfg : PathsConfig) (repo : PathsRepo) (fs : FileSystem) :
    Except String Unit × FileSystem :=
  match os.ctx .snapshots with
  | some e => (.error e, fs)
  | none =>
    let root := cfg.revisionSnapshotRepoRoot repo.orgId repo.repoId
    if trimSpace root = "" then (.ok (), fs)
    else removeTree os "CleanupRepoSnapshots" root fs

/-- The loop of `CleanupRepoSnapshotsForCommits`; `seen` are the commits done so far. -/
def removeCommitSnapshots (os : Faults) (cfg : PathsConfig) (repo : PathsRepo) :
    List String → List String → FileSystem → Except String Unit × FileSystem
  | _, [], fs => (.ok (), fs)
  | seen, commit :: rest, fs =>
    let commit := trimSpace commit
    if commit = "" || seen.contains commit then removeCommitSnapshots os cfg repo seen rest fs
    else
      match removeTree os "CleanupRepoSnapshotsForCommits"
          (cfg.revisionSnapshotPath repo.orgId repo.repoId commit) fs with
      | (.error e, fs') => (.error e, fs')
      | (.ok (), fs') => removeCommitSnapshots os cfg repo (commit :: seen) rest fs'

def cleanupRepoSnapshotsForCommits (os : Faults) (cfg : PathsConfig) (repo : PathsRepo)
    (commits : List String) (fs : FileSystem) : Except String Unit × FileSystem :=
  removeCommitSnapshots os cfg repo [] commits fs

/-- The directories that `CleanupRepoSnapshotsForCommits` goes for. -/
def commitSnapshotPaths (cfg : PathsConfig) (repo : PathsRepo) (commits : List String) :
    List String :=
  ((commits.map trimSpace).filter (· ≠ "")).map (cfg.revisionSnapshotPath repo.orgId repo.repoId)

theorem removeCommitSnapshots_removesTrees (os : Faults) (cfg : PathsConfig) (repo : PathsRepo)
    (dir : String) (commits seen : List String) (fs : FileSystem)
    (hseen : ∀ commit ∈ seen,
      fs.covers (cfg.revisionSnapshotPath repo.orgId repo.repoId commit) dir = true →
        ¬fs.hasDirectory dir = true) :
    RemovesTrees (commitSnapshotPaths cfg repo commits) dir fs
      (removeCommitSnapshots os cfg repo seen commits fs) := by
  induction commits generalizing seen fs with
  | nil =>
    refine ⟨rfl, id, fun _ h => h, fun _ h => ?_⟩
    obtain ⟨path, hpath, -⟩ := h
    cases hpath
  | cons commit rest ih =>
    unfold removeCommitSnapshots
    by_cases hblank : trimSpace commit = ""
    · have hpaths : commitSnapshotPaths cfg repo (commit :: rest) = commitSnapshotPaths cfg repo rest := by
        simp [commitSnapshotPaths, hblank]
      rw [if_pos (by simp [hblank]), hpaths]
      exact ih seen fs hseen
    have hpaths : commitSnapshotPaths cfg repo (commit :: rest) =
        [cfg.revisionSnapshotPath repo.orgId repo.repoId (trimSpace commit)] ++
          commitSnapshotPaths cfg repo rest := by
      simp [commitSnapshotPaths, hblank]
    rw [hpaths]
    by_cases hmem : trimSpace commit ∈ seen
    · rw [if_pos (by simp [hmem])]
      -- the directory of a commit seen before is gone
      refine RemovesTrees.append ⟨rfl, id, fun _ h => h, fun _ h => ?_⟩ (ih seen fs hseen)
      obtain ⟨path, hpath, hcovers⟩ := h
      obtain rfl := List.mem_singleton.1 hpath
      exact hseen _ hmem hcovers
    rw [if_neg (by simp [hblank, hmem])]
    have htree := removeTree_removesTrees os "CleanupRepoSnapshotsForCommits"
      (cfg.revisionSnapshotPath repo.orgId repo.repoId (trimSpace commit)) dir fs
    split
    · rename_i e fs₁ herror
      rw [herror] at htree
      exact ⟨htree.cwd, htree.shrinks, fun h => htree.kept fun path hpath =>
        h path (List.mem_append_left _ hpath), fun h => by cases h⟩
    · rename_i fs₁ hok
      rw [hok] at htree
      have hcovers : fs₁.covers = fs.covers := FileSystem.covers_of_cwd_eq htree.cwd
      refine htree.append (ih (trimSpace commit :: seen) fs₁ fun commit' hmem' hcovers' => ?_)
      rw [hcovers] at hcovers'
      rcases List.mem_cons.1 hmem' with rfl | hold
      · exact htree.removed rfl ⟨_, List.mem_cons_self, hcovers'⟩
      · exact fun hdir => hseen _ hold hcovers' (htree.shrinks hdir)

theorem cleanupRepoSnapshotsForCommits_removesTrees (os : Faults) (cfg : PathsConfig)
    (repo : PathsRepo) (commits : List String) (dir : String) (fs : FileSystem) :
    RemovesTrees (commitSnapshotPaths cfg repo commits) dir fs
      (cleanupRepoSnapshotsForCommits os cfg repo commits fs) :=
  removeCommitSnapshots_removesTrees os cfg repo dir commits [] fs fun _ h => by cases h

end CodeIntel.Cleanup
