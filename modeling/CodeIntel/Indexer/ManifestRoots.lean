import CodeIntel.Indexer.DetectionAgreement

/-!
# The project root of a file in the manifest

Both services look for the first marked directory above the file in a list ordered by length.
The repository stands in that list as `.` and ahead of every other name of one byte.
-/

namespace CodeIntel.Indexer

open Text

def rootMarkers : List String :=
  ["package.json", "tsconfig.json", "jsconfig.json", "go.mod", "pyproject.toml", "setup.py",
    "requirements.txt", "pom.xml", "build.gradle", "build.sbt", "compile_commands.json",
    "Cargo.toml", "Gemfile", "pubspec.yaml"]

def rootMarkerSuffixes : List String := [".csproj", ".vbproj", ".fsproj", ".sln", ".gemspec"]

def dirnameOrDot (filePath : String) : String :=
  match rsplitOnce filePath with
  | some (dir, _) => dir
  | none => "."

def isMarker (basename : String) : Bool :=
  rootMarkers.any (· = basename) || rootMarkerSuffixes.any (hasSuffix basename)

def detectProjectRoots (paths : List String) : List String :=
  let marked := (paths.filter fun path => isMarker (basename path)).map dirnameOrDot
  ("." :: marked).eraseDups.insertionSort fun a b => b.utf8ByteSize ≤ a.utf8ByteSize

def nearestProjectRoot (filePath : String) (projectRoots : List String) : String :=
  (projectRoots.find? fun root =>
    root = "." || filePath = root || hasPrefix filePath (root ++ "/")).getD "."

end CodeIntel.Indexer

namespace CodeIntel.Planner

open Text Indexer

/-! ## The marked directories -/

variable {paths : List String}

section Marked

variable {path root p : String}

/-- A marker of the list stands directly in the directory. -/
def MarkedDir (paths : List String) (root : String) : Prop :=
  ∃ base, isManifestRootMarker base = true ∧ '/' ∉ base.toList ∧
    (root ++ "/" ++ base ∈ paths ∨ root = "." ∧ base ∈ paths)

theorem parts_of_notMem (hclean : IsCleanPath path) (h : '/' ∉ path.toList) :
    basePath path = path ∧ manifestMarkerRoot path = "." := by
  refine ⟨basePath_of_notMem hclean h, ?_⟩
  rw [manifestMarkerRoot, dirPath_of_notMem h]
  rfl

theorem parts_of_append {dir base : List Char} (hclean : IsCleanPath path)
    (hcut : path.toList = dir ++ '/' :: base) (hbase : '/' ∉ base) :
    basePath path = String.ofList base ∧ manifestMarkerRoot path = String.ofList dir := by
  refine ⟨basePath_append hclean hcut hbase, ?_⟩
  have hslash : String.ofList dir ≠ "/" := by
    intro hdir
    have hempty : [] ∈ splitOnChar '/' path.toList := by
      rw [hcut, String.ofList_injective (hdir.trans (rfl : "/" = String.ofList ['/']))]
      exact List.mem_cons_self
    exact (hclean [] hempty).1 rfl
  rw [manifestMarkerRoot, dirPath_append hclean hcut hbase]
  simp only [hslash, decide_false, Bool.or_false, decide_eq_true_eq]
  split_ifs with hdot
  · exact hdot.symm
  · rfl

theorem markedDir_iff (hclean : ∀ q ∈ paths, IsCleanPath q) :
    MarkedDir paths root ↔
      root ∈ (paths.filter fun q => isManifestRootMarker (basePath q)).map manifestMarkerRoot := by
  simp only [List.mem_map, List.mem_filter]
  constructor
  · rintro ⟨base, hmarker, hbase, hin | ⟨rfl, hin⟩⟩
    · obtain ⟨hbaseEq, hroot⟩ := @parts_of_append _ root.toList base.toList (hclean _ hin)
        (by simp) hbase
      rw [String.ofList_toList] at hbaseEq hroot
      refine ⟨_, ⟨hin, ?_⟩, hroot⟩
      rw [hbaseEq]
      exact hmarker
    · obtain ⟨hbaseEq, hroot⟩ := parts_of_notMem (hclean _ hin) hbase
      refine ⟨base, ⟨hin, ?_⟩, hroot⟩
      rw [hbaseEq]
      exact hmarker
  · rintro ⟨q, ⟨hin, hmarker⟩, rfl⟩
    rcases notMem_or_eq_append_cons '/' q.toList with hno | ⟨dir, base, hcut, hbase⟩
    · obtain ⟨hbaseEq, hroot⟩ := parts_of_notMem (hclean q hin) hno
      rw [hbaseEq] at hmarker
      exact ⟨q, hmarker, hno, .inr ⟨hroot, hin⟩⟩
    · obtain ⟨hbaseEq, hroot⟩ := parts_of_append (hclean q hin) hcut hbase
      rw [hbaseEq] at hmarker
      refine ⟨_, hmarker, by rwa [String.toList_ofList], .inl ?_⟩
      have hq : String.ofList dir ++ "/" ++ String.ofList base = q := by
        refine String.toList_injective ?_
        simp [hcut]
      rwa [hroot, hq]

theorem detectProjectRoots_eq (hclean : ∀ q ∈ paths, IsCleanPath q) :
    detectProjectRoots paths = detectManifestProjectRoots paths := by
  have hparts : ∀ q ∈ paths, basename q = basePath q ∧ dirnameOrDot q = manifestMarkerRoot q := by
    intro q hq
    refine ⟨basename_eq_basePath (hclean q hq), ?_⟩
    rcases notMem_or_eq_append_cons '/' q.toList with hno | ⟨dir, base, hcut, hbase⟩
    · rw [dirnameOrDot, rsplitOnce_of_notMem hno, (parts_of_notMem (hclean q hq) hno).2]
    · rw [dirnameOrDot, rsplitOnce_append hcut hbase, (parts_of_append (hclean q hq) hcut hbase).2]
  have hmarker : ∀ base, isMarker base = isManifestRootMarker base := by
    intro base
    rw [Bool.eq_iff_iff]
    simp only [isMarker, isManifestRootMarker, hasAnySuffix, Bool.or_eq_true, List.any_eq_true,
      List.contains_iff_mem, decide_eq_true_eq, exists_eq_right]
    rfl
  unfold detectProjectRoots detectManifestProjectRoots
  have hfilter : (paths.filter fun q => isMarker (basename q)) =
      paths.filter fun q => isManifestRootMarker (basePath q) :=
    List.filter_congr fun q hq => by rw [(hparts q hq).1, hmarker]
  have hmap : (paths.filter fun q => isManifestRootMarker (basePath q)).map dirnameOrDot =
      (paths.filter fun q => isManifestRootMarker (basePath q)).map manifestMarkerRoot :=
    List.map_congr_left fun q hq => (hparts q (List.mem_of_mem_filter hq)).2
  rw [hfilter, hmap]

end Marked

/-! ## The first match -/

section Nearest

variable {paths marked : List String} {p root r : String}

/-- The longer names, then the repository, then the other names of at most one byte. -/
theorem exists_split_roots (marked : List String) : ∃ long short : List String,
    (("." :: marked).eraseDups.insertionSort fun a b => b.utf8ByteSize ≤ a.utf8ByteSize) =
        long ++ "." :: short ∧
      (∀ r ∈ long, 1 < r.utf8ByteSize) ∧ (∀ r ∈ short, r.utf8ByteSize ≤ 1) ∧
      (long.Pairwise fun a b => b.utf8ByteSize ≤ a.utf8ByteSize) ∧
      ∀ r, r ∈ long ++ short ↔ r ∈ marked ∧ r ≠ "." := by
  have htotal : Std.Total (fun a b : String => b.utf8ByteSize ≤ a.utf8ByteSize) :=
    ⟨fun a b => Nat.le_total _ _⟩
  have htrans : IsTrans String (fun a b : String => b.utf8ByteSize ≤ a.utf8ByteSize) :=
    ⟨fun _ _ _ hab hbc => Nat.le_trans hbc hab⟩
  have hsorted := List.pairwise_insertionSort
    (fun a b : String => b.utf8ByteSize ≤ a.utf8ByteSize) ("." :: marked).eraseDups
  rw [List.eraseDups_cons, List.insertionSort_cons_eq_take_drop] at hsorted ⊢
  refine ⟨_, _, rfl, fun r hr => ?_, fun r hr => ?_, (List.pairwise_append.1 hsorted).1, ?_⟩
  · have hsize := List.mem_takeWhile_imp hr
    exact Nat.lt_of_not_le (of_decide_eq_true hsize)
  · exact (List.pairwise_cons.1 (List.pairwise_append.1 hsorted).2.1).1 r hr
  · intro r
    simp

/-- The root is the file or a directory above it. -/
def IsAbove (p root : String) : Prop := p = root ∨ hasPrefix p (root ++ "/") = true

theorem isAbove_iff : IsAbove p root ↔ root.toList ++ ['/'] <+: p.toList ++ ['/'] := by
  rw [IsAbove, hasPrefix_iff, String.toList_append, List.prefix_concat_iff,
    List.append_left_inj, String.toList_inj, eq_comm]
  rfl

theorem IsAbove.size_lt (h : IsAbove p root) (hne : p ≠ root) :
    root.utf8ByteSize < p.utf8ByteSize := by
  obtain ⟨rest, hrest⟩ := hasPrefix_iff.1 (h.resolve_left hne)
  have hp : p = root ++ "/" ++ String.ofList rest := by
    refine String.toList_injective ?_
    rw [← hrest]
    simp
  rw [hp, String.utf8ByteSize_append, String.utf8ByteSize_append]
  have : "/".utf8ByteSize = 1 := rfl
  omega

/-- Of two directories above a file the longer one is below the other. -/
theorem IsAbove.of_size_le (h : IsAbove p root) (h' : IsAbove p r)
    (hle : r.utf8ByteSize ≤ root.utf8ByteSize) : IsAbove root r := by
  rcases List.prefix_or_prefix_of_prefix (isAbove_iff.1 h') (isAbove_iff.1 h) with hr | hroot
  · exact isAbove_iff.2 hr
  · have habove : IsAbove r root := isAbove_iff.2 hroot
    by_cases heq : r = root
    · exact .inl heq.symm
    · exact absurd (habove.size_lt heq) (Nat.not_lt.2 hle)

theorem nearest_cases (hfound : nearestManifestProjectRoot p (("." :: marked).eraseDups.insertionSort
      fun a b => b.utf8ByteSize ≤ a.utf8ByteSize) = root) :
    (root ∈ marked ∧ root ≠ "." ∧ IsAbove p root ∧ 1 < root.utf8ByteSize ∧
        ∀ r ∈ marked, r ≠ "." → IsAbove p r → r.utf8ByteSize ≤ root.utf8ByteSize) ∨
      (root = "." ∧ ∀ r ∈ marked, r ≠ "." → IsAbove p r → r.utf8ByteSize ≤ 1) := by
  obtain ⟨long, short, hsplit, hlong, hshort, hsorted, hmem⟩ := exists_split_roots marked
  have hmatch : ∀ r, r ≠ "." → ((decide (r = ".") || decide (p = r) ||
      hasPrefix p (r ++ "/")) = true ↔ IsAbove p r) := by
    intro r hr
    simp [hr, IsAbove]
  have hdot : ∀ r ∈ long, r ≠ "." := fun r hr => ((hmem r).1 (List.mem_append_left _ hr)).2
  rw [nearestManifestProjectRoot, hsplit, List.find?_append] at hfound
  cases hfind : long.find? (fun r => decide (r = ".") || decide (p = r) || hasPrefix p (r ++ "/"))
    with
  | none =>
    rw [hfind] at hfound
    refine .inr ⟨by simpa using hfound.symm, fun r hr hne habove => ?_⟩
    rcases List.mem_append.1 ((hmem r).2 ⟨hr, hne⟩) with hin | hin
    · exact absurd ((hmatch r hne).2 habove) (List.find?_eq_none.1 hfind r hin)
    · exact hshort r hin
  | some first =>
    rw [hfind] at hfound
    obtain rfl : first = root := hfound
    obtain ⟨hcond, front, back, rfl, hfront⟩ := List.find?_eq_some_iff_append.1 hfind
    have hin : first ∈ front ++ first :: back := by simp
    have hroot := (hmem first).1 (List.mem_append_left _ hin)
    refine .inl ⟨hroot.1, hroot.2, (hmatch first hroot.2).1 hcond, hlong first hin, ?_⟩
    intro r hr hne habove
    rcases List.mem_append.1 ((hmem r).2 ⟨hr, hne⟩) with hr | hr
    · rcases List.mem_append.1 hr with hr | hr
      · exact absurd ((hmatch r hne).2 habove) (by simpa using hfront r hr)
      · rcases List.mem_cons.1 hr with rfl | hr
        · exact Nat.le_refl _
        · exact (List.pairwise_cons.1 (List.pairwise_append.1 hsorted).2.1).1 r hr
    · exact (hshort r hr).trans (hlong first hin).le

end Nearest

/-! ## The deepest root -/

section Deepest

/-- The repository, or a marked directory above the file. -/
def IsCandidate (paths : List String) (p root : String) : Prop :=
  root = "." ∨ MarkedDir paths root ∧ IsAbove p root

/-- A candidate that is below every other one; the repository is above them all. -/
def IsDeepest (paths : List String) (p root : String) : Prop :=
  IsCandidate paths p root ∧ ∀ r, IsCandidate paths p r → r ≠ "." → IsAbove root r

/-- Both services choose the deepest marked directory above a file exactly if a marked
directory with a name of one byte is never the only one above it. -/
theorem deepest_root_iff (hclean : ∀ q ∈ paths, IsCleanPath q) (p : String) :
    IsDeepest paths p (nearestManifestProjectRoot p (detectManifestProjectRoots paths)) ∧
        IsDeepest paths p (nearestProjectRoot p (detectProjectRoots paths)) ↔
      ∀ root, MarkedDir paths root → root ≠ "." → IsAbove p root → root.utf8ByteSize ≤ 1 →
        ∃ longer, MarkedDir paths longer ∧ IsAbove p longer ∧ 1 < longer.utf8ByteSize := by
  have hrust : nearestProjectRoot p (detectProjectRoots paths) =
      nearestManifestProjectRoot p (detectManifestProjectRoots paths) := by
    rw [detectProjectRoots_eq hclean]
    rfl
  rw [hrust, and_self]
  generalize hfound : nearestManifestProjectRoot p (detectManifestProjectRoots paths) = found
  have hcases := nearest_cases hfound
  simp only [← markedDir_iff hclean] at hcases
  constructor
  · rintro ⟨-, hdeepest⟩ root hroot hne habove hsize
    rcases hcases with ⟨hmarked, -, habove', hlong, -⟩ | ⟨rfl, -⟩
    · exact ⟨found, hmarked, habove', hlong⟩
    · -- the repository is below no other directory
      have hbelow := (hdeepest root (.inr ⟨hroot, habove⟩) hne).resolve_left hne.symm
      have hslash : '/' ∈ ".".toList := (hasPrefix_iff.1 hbelow).subset (by simp)
      exact absurd hslash (by decide)
  · intro h
    rcases hcases with ⟨hmarked, -, habove, -, hmax⟩ | ⟨rfl, hshort⟩
    · refine ⟨.inr ⟨hmarked, habove⟩, fun r hr hne => ?_⟩
      obtain ⟨hr, hr'⟩ := hr.resolve_left hne
      exact habove.of_size_le hr' (hmax r hr hne hr')
    · refine ⟨.inl rfl, fun r hr hne => ?_⟩
      obtain ⟨hr, hr'⟩ := hr.resolve_left hne
      obtain ⟨longer, hlonger, habove, hsize⟩ := h r hr hne hr' (hshort r hr hne hr')
      have hdot : longer ≠ "." := by
        rintro rfl
        exact absurd hsize (by decide)
      exact absurd (hshort longer hlonger hdot habove) (Nat.not_le.2 hsize)

/-- A marked directory of two letters is found. -/
theorem deepest_root_of_pkg :
    IsDeepest ["pkg/go.mod", "pkg/x.go"] "pkg/x.go" (nearestManifestProjectRoot "pkg/x.go"
          (detectManifestProjectRoots ["pkg/go.mod", "pkg/x.go"])) ∧
        IsDeepest ["pkg/go.mod", "pkg/x.go"] "pkg/x.go" (nearestProjectRoot "pkg/x.go"
          (detectProjectRoots ["pkg/go.mod", "pkg/x.go"])) ↔
      ∀ root, MarkedDir ["pkg/go.mod", "pkg/x.go"] root → root ≠ "." → IsAbove "pkg/x.go" root →
        root.utf8ByteSize ≤ 1 → ∃ longer, MarkedDir ["pkg/go.mod", "pkg/x.go"] longer ∧
          IsAbove "pkg/x.go" longer ∧ 1 < longer.utf8ByteSize :=
  deepest_root_iff (by decide +kernel) "pkg/x.go"

/-- The module in the directory `a` is passed over for the repository. -/
theorem one_letter_root_missed :
    nearestManifestProjectRoot "a/x.go" (detectManifestProjectRoots ["a/go.mod", "a/x.go"]) = "." ∧
      nearestProjectRoot "a/x.go" (detectProjectRoots ["a/go.mod", "a/x.go"]) = "." ∧
      isManifestRootMarker "go.mod" = true ∧ hasPrefix "a/x.go" ("a" ++ "/") = true := by
  decide +kernel

end Deepest

end CodeIntel.Planner
