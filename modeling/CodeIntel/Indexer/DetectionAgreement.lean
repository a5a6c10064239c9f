import CodeIntel.Indexer.ProjectDetect

/-!
# The two project detections

The indexer finds its projects in a manifest that holds every file of the tree,
the planner in the checked-out files outside the ignored directories. What each
of them finds is described by marked directories, a test of what lies in such a
directory, and the roots inferred for unmarked sources; the descriptions are then
compared.
-/

namespace CodeIntel.Indexer

open Text Relational
open Planner (Definition TreeFile supported typescript snapshotFiles IsMarkerRoot IsMarked)

/-! ## Paths in the two services -/

section Paths

variable {path : String} {dir base : List Char}

theorem rsplitOnce_of_notMem (h : '/' ∉ path.toList) : rsplitOnce path = none := by
  simp [rsplitOnce, h]

theorem rsplitOnce_append (hcut : path.toList = dir ++ '/' :: base) (hbase : '/' ∉ base) :
    rsplitOnce path = some (String.ofList dir, String.ofList base) := by
  simp [rsplitOnce, hcut, splitPath_append_cons hbase]

theorem basename_eq_basePath (hpath : IsCleanPath path) : basename path = basePath path := by
  rcases notMem_or_eq_append_cons '/' path.toList with hno | ⟨dir, base, hcut, hbase⟩
  · rw [basename, rsplitOnce_of_notMem hno, basePath_of_notMem hpath hno]
  · rw [basename, rsplitOnce_append hcut hbase, basePath_append hpath hcut hbase]

theorem projectRoot_eq_fileRoot (hpath : IsCleanPath path) :
    projectRoot path = Planner.fileRoot path := by
  rcases notMem_or_eq_append_cons '/' path.toList with hno | ⟨dir, base, hcut, hbase⟩
  · rw [projectRoot, rsplitOnce_of_notMem hno, Planner.fileRoot, dirPath_of_notMem hno, if_pos rfl]
  · have hdot : String.ofList dir ≠ "." := fun heq => by
      have hdir : dir = ['.'] := by simpa using congrArg String.toList heq
      refine (hpath ['.'] ?_).2.1 rfl
      rw [hcut, hdir]
      exact List.mem_cons_self
    rw [projectRoot, rsplitOnce_append hcut hbase, Planner.fileRoot, dirPath_append hpath hcut hbase,
      if_neg hdot]

theorem slash_notMem_defaultIgnores : ∀ ignored ∈ defaultIgnores, '/' ∉ ignored.toList := by
  decide

theorem hasPrefix_or_contains_iff {ignored : String} :
    hasPrefix path (ignored ++ "/") = true ∨ contains path ("/" ++ ignored ++ "/") = true ↔
      '/' :: (ignored.toList ++ ['/']) <:+: '/' :: path.toList := by
  rw [hasPrefix_iff, contains_iff, List.infix_cons_iff, List.cons_prefix_cons, and_iff_right rfl]
  simp

theorem pathIsIgnored_of_notMem (h : '/' ∉ path.toList) : pathIsIgnored path = false := by
  rw [Bool.eq_false_iff]
  intro hignored
  obtain ⟨ignored, -, hfound⟩ := List.any_eq_true.1 hignored
  rw [Bool.or_eq_true, hasPrefix_or_contains_iff] at hfound
  -- the search text has two slashes
  have hcount := hfound.sublist.count_le '/'
  simp [List.count_eq_zero.2 h] at hcount

theorem pathIsIgnored_append (hcut : path.toList = dir ++ '/' :: base) (hbase : '/' ∉ base) :
    pathIsIgnored path = true ↔
      ∃ ignored ∈ defaultIgnores, ignored.toList ∈ splitOnChar '/' dir := by
  unfold pathIsIgnored
  rw [List.any_eq_true]
  refine exists_congr fun ignored => and_congr_right fun hmem => ?_
  rw [Bool.or_eq_true, hasPrefix_or_contains_iff, hcut, List.append_cons dir '/' base,
    ← List.cons_append, ← List.cons_append, concat_infix_append_iff hbase,
    List.cons_append, delimited_infix_iff_mem (slash_notMem_defaultIgnores ignored hmem)]

theorem planner_pathIsIgnored_iff : Planner.pathIsIgnored path = true ↔
    ∃ ignored ∈ defaultIgnores, ignored.toList ∈ splitOnChar '/' path.toList := by
  unfold Planner.pathIsIgnored split
  rw [List.any_map, List.any_eq_true]
  constructor
  · rintro ⟨segment, hsegment, hignored⟩
    refine ⟨String.ofList segment, List.contains_iff_mem.1 hignored, ?_⟩
    rwa [String.toList_ofList]
  · rintro ⟨ignored, hignored, hsegment⟩
    refine ⟨ignored.toList, hsegment, List.contains_iff_mem.2 ?_⟩
    rwa [String.ofList_toList]

theorem planner_pathIsIgnored_eq : Planner.pathIsIgnored path = true ↔
    pathIsIgnored path = true ∨ basename path ∈ defaultIgnores := by
  rw [planner_pathIsIgnored_iff]
  rcases notMem_or_eq_append_cons '/' path.toList with hno | ⟨dir, base, hcut, hbase⟩
  · rw [splitOnChar_of_notMem hno, pathIsIgnored_of_notMem hno, basename, rsplitOnce_of_notMem hno]
    simp [String.toList_inj]
  · rw [pathIsIgnored_append hcut hbase, basename, rsplitOnce_append hcut hbase, hcut,
      splitOnChar_append_cons, splitOnChar_of_notMem hbase]
    simp only [List.mem_append, List.mem_singleton, and_or_left, exists_or]
    refine or_congr_right ⟨?_, fun h => ⟨_, h, String.toList_ofList⟩⟩
    rintro ⟨ignored, hignored, rfl⟩
    rwa [String.ofList_toList]

theorem mem_splitOnChar_of_fileInProjectRoot {root : String} {segment : List Char}
    (hroot : IsCleanPath root) (hin : fileInProjectRoot path root = true)
    (hsegment : segment ∈ splitOnChar '/' root.toList) : segment ∈ splitOnChar '/' path.toList := by
  have hempty : root ≠ "" := by
    rintro rfl
    exact (hroot [] (by decide)).1 rfl
  have hdot : root ≠ "." := by
    rintro rfl
    exact (hroot ['.'] (by decide)).2.1 rfl
  simp only [fileInProjectRoot, Bool.or_eq_true, decide_eq_true_iff, hempty, hdot, false_or,
    hasPrefix_iff] at hin
  rcases hin with rfl | ⟨rest, hrest⟩
  · exact hsegment
  · have hpath : path.toList = root.toList ++ '/' :: rest := by
      rw [← hrest, String.toList_append, List.append_assoc]
      rfl
    rw [hpath, splitOnChar_append_cons]
    exact List.mem_append_left _ hsegment

end Paths

/-! ## TypeScript sources -/

section Sources

variable {path word : String}

/-- An ending is the same under two letter maps that agree wherever the first one gives a
letter of the ending. -/
theorem suffix_map_of_agree {f g : Char → Char} {word cs : List Char} (h : word <:+ cs.map f)
    (hagree : ∀ c, f c ∈ word → g c = f c) : word <:+ cs.map g := by
  obtain ⟨front, hfront⟩ := h
  obtain ⟨left, right, rfl, -, hright⟩ := List.map_eq_append_iff.1 hfront.symm
  have hsame : right.map g = right.map f := List.map_congr_left fun c hc =>
    hagree c (hright ▸ List.mem_map_of_mem hc)
  rw [List.map_append, hsame, hright]
  exact List.suffix_append _ _

theorem hasSuffix_toLower (hplain : ∀ c ∈ word.toList, c.toNat ≠ 0x130 ∧ c.toNat ≠ 0x212A)
    (h : hasSuffix (toAsciiLowercase path) word = true) : hasSuffix (toLower path) word = true := by
  rw [hasSuffix_iff, toAsciiLowercase, String.toList_ofList] at h
  rw [hasSuffix_iff, toLower, String.toList_ofList]
  refine suffix_map_of_agree h fun c hc => ?_
  -- neither letter is the lower case of an ASCII letter
  have hkept : ∀ n, n = 0x130 ∨ n = 0x212A → c.toNat = n → c.toLower.toNat = n := by
    rintro n hn hc
    have hlower : c.toLower = c := by
      refine dif_neg ?_
      rintro ⟨-, hz⟩
      have hle : c.toNat ≤ 90 := hz
      omega
    rw [hlower, hc]
  obtain ⟨hi, hk⟩ := hplain _ hc
  rw [if_neg fun h => hi (hkept _ (.inl rfl) h), if_neg fun h => hk (hkept _ (.inr rfl) h)]

theorem hasSuffix_toAsciiLowercase (hi : 'i' ∉ word.toList) (hk : 'k' ∉ word.toList)
    (h : hasSuffix (toLower path) word = true) : hasSuffix (toAsciiLowercase path) word = true := by
  rw [hasSuffix_iff, toLower, String.toList_ofList] at h
  rw [hasSuffix_iff, toAsciiLowercase, String.toList_ofList]
  refine suffix_map_of_agree h fun c hc => ?_
  split_ifs at hc ⊢
  · exact absurd hc hi
  · exact absurd hc hk
  · rfl

theorem isIndexableTypescriptInput_of_planner (h : Planner.isTypeScriptInput path = true) :
    isIndexableTypescriptInput path = true := by
  have hplain : ∀ word ∈ [".d.ts", ".min.js"], ∀ c ∈ word.toList,
      c.toNat ≠ 0x130 ∧ c.toNat ≠ 0x212A := by decide
  have hletters : ∀ word ∈ typescriptExtensions, 'i' ∉ word.toList ∧ 'k' ∉ word.toList := by decide
  simp only [Planner.isTypeScriptInput, isIndexableTypescriptInput, Bool.and_eq_true,
    Bool.not_eq_true', Bool.eq_false_iff] at h ⊢
  obtain ⟨⟨⟨⟨⟨hsuffix, hdts⟩, hmin⟩, hname⟩, hlead⟩, hinner⟩ := h
  obtain ⟨word, hword, hend⟩ := List.any_eq_true.1 hsuffix
  obtain ⟨hi, hk⟩ := hletters word hword
  refine ⟨⟨⟨⟨⟨?_, ?_⟩, ?_⟩, hname⟩, hlead⟩, hinner⟩
  · exact List.any_eq_true.2 ⟨word, hword, hasSuffix_toAsciiLowercase hi hk hend⟩
  · exact mt (hasSuffix_toLower (hplain _ (by decide))) hdts
  · exact mt (hasSuffix_toLower (hplain _ (by decide))) hmin

theorem basename_notMem_of_isIndexable (h : isIndexableTypescriptInput path = true) :
    basename path ∉ defaultIgnores := by
  have hnames : ∀ ignored ∈ defaultIgnores, ∀ word ∈ typescriptExtensions, '/' ∉ word.toList ∧
      ¬word.toList <:+ ignored.toList.map Char.toLower := by decide
  simp only [isIndexableTypescriptInput, Bool.and_eq_true] at h
  obtain ⟨word, hword, hend⟩ := List.any_eq_true.1 h.1.1.1.1.1
  rw [hasSuffix_iff, toAsciiLowercase, String.toList_ofList] at hend
  intro hignored
  obtain ⟨hslash, hno⟩ := hnames _ hignored word hword
  rcases notMem_or_eq_append_cons '/' path.toList with hone | ⟨dir, base, hcut, hbase⟩
  · rw [basename, rsplitOnce_of_notMem hone] at hno
    exact hno hend
  · rw [basename, rsplitOnce_append hcut hbase] at hno
    rw [hcut, List.map_append, List.map_cons] at hend
    refine hno ?_
    rw [String.toList_ofList]
    exact suffix_of_suffix_append_cons hslash hend

theorem isInferenceSource_iff : isInferenceSource path = true ↔
    pathIsIgnored path = false ∧ isIndexableTypescriptInput path = true := by
  have hlower : ∀ word : String, word.toList.map Char.toLower = word.toList →
      hasSuffix path word = true → hasSuffix (toAsciiLowercase path) word = true := by
    intro word hword h
    rw [hasSuffix_iff] at h
    rw [hasSuffix_iff, toAsciiLowercase, String.toList_ofList, ← hword]
    exact h.map Char.toLower
  simp only [isInferenceSource, Bool.and_eq_true, Bool.not_eq_true']
  refine ⟨fun h => ⟨h.1.1.1, h.2⟩, fun ⟨hkept, hinput⟩ => ⟨⟨⟨hkept, ?_⟩, ?_⟩, hinput⟩⟩
  all_goals
    simp only [isIndexableTypescriptInput, Bool.and_eq_true, Bool.not_eq_true', Bool.eq_false_iff]
      at hinput ⊢
    obtain ⟨⟨⟨⟨⟨-, hdts⟩, hmin⟩, -⟩, hlead⟩, hinner⟩ := hinput
  · exact ⟨mt (hlower ".d.ts" (by decide)) hdts, mt (hlower ".min.js" (by decide)) hmin⟩
  · exact ⟨hlead, hinner⟩

theorem inferTypescriptProjectRoot_eq_ite (path : String) : inferTypescriptProjectRoot path =
    if "src" ∈ split path '/' then
      String.intercalate "/" ((split path '/').takeWhile (· ≠ "src"))
    else "" := by
  unfold inferTypescriptProjectRoot
  dsimp only
  split
  · rename_i idx hfound
    obtain ⟨hlt, hidx⟩ := List.findIdx?_eq_some_iff_findIdx_eq.1 hfound
    have hmem : "src" ∈ split path '/' := by
      by_contra hno
      refine absurd hlt (not_lt.2 (hidx ▸ (List.findIdx_eq_length.2 fun part hpart => ?_).ge))
      exact decide_eq_false fun heq => hno (heq ▸ hpart)
    rw [if_pos hmem, List.takeWhile_eq_take_findIdx_not]
    simp only [ne_eq, decide_not, Bool.not_not, hidx]
    split_ifs with hpos
    · rfl
    · rw [Nat.eq_zero_of_not_pos hpos]
      rfl
  · rename_i hnone
    exact (if_neg fun hmem => by simpa using List.findIdx?_eq_none_iff.1 hnone _ hmem).symm

theorem fileInProjectRoot_inferTypescriptProjectRoot (path : String) :
    fileInProjectRoot path (inferTypescriptProjectRoot path) = true := by
  rw [inferTypescriptProjectRoot_eq_ite]
  split_ifs with hsrc
  · by_cases hfront : (split path '/').takeWhile (· ≠ "src") = []
    · rw [hfront]
      rfl
    · refine Planner.fileInRoot_of_hasPrefix
        (hasPrefix_intercalate List.takeWhile_append_dropWhile.symm hfront fun hback => ?_)
      simpa using List.dropWhile_eq_nil_iff.1 hback _ hsrc
  · rfl

/-- The file lies in a `src` directory below a `src` directory at the top. -/
def HasNestedSrc (path : String) : Prop :=
  (split path '/').head? = some "src" ∧ "src" ∈ (split path '/').tail

instance : DecidablePred HasNestedSrc := fun path =>
  inferInstanceAs (Decidable ((split path '/').head? = some "src" ∧ "src" ∈ (split path '/').tail))

theorem inferTypescriptProjectRoot_eq (h : ¬HasNestedSrc path) :
    inferTypescriptProjectRoot path = Planner.inferTypeScriptRoot path := by
  unfold HasNestedSrc at h
  obtain ⟨part, parts, hsplit⟩ : ∃ part parts, split path '/' = part :: parts :=
    List.exists_cons_of_ne_nil (mt List.map_eq_nil_iff.1 (splitOnChar_ne_nil _ _))
  rw [hsplit, List.head?_cons, List.tail_cons] at h
  rw [inferTypescriptProjectRoot_eq_ite, Planner.inferTypeScriptRoot, hsplit]
  by_cases hpart : part = "src"
  · have hno : "src" ∉ parts := fun hmem => h ⟨congrArg some hpart, hmem⟩
    simp [hpart, hno]
  · simp [hpart, Ne.symm hpart]

/-- The indexer infers no root below a `src` directory at the top. -/
theorem inferTypescriptProjectRoot_ne (h : HasNestedSrc path) (other : String) :
    inferTypescriptProjectRoot other ≠ Planner.inferTypeScriptRoot path := by
  obtain ⟨hhead, htail⟩ := h
  obtain ⟨parts, hsplit⟩ := List.head?_eq_some_iff.1 hhead
  rw [hsplit, List.tail_cons] at htail
  have hplanner : (split (Planner.inferTypeScriptRoot path) '/').head? = some "src" := by
    rw [Planner.inferTypeScriptRoot, hsplit]
    dsimp only
    rw [if_pos (List.contains_iff_mem.2 htail), split_intercalate _ (List.cons_ne_nil _ _)]
    · rfl
    · intro part hpart
      have hmem : part ∈ split path '/' := by
        rw [hsplit]
        exact List.mem_cons.2 ((List.mem_cons.1 hpart).imp_right fun h =>
          (List.takeWhile_sublist _).subset h)
      exact slash_notMem_of_mem_split hmem
  intro heq
  rw [← heq, inferTypescriptProjectRoot_eq_ite] at hplanner
  split_ifs at hplanner
  · by_cases hfront : (split other '/').takeWhile (· ≠ "src") = []
    · rw [hfront] at hplanner
      exact absurd hplanner (by decide)
    · rw [split_intercalate (fun part hpart =>
        slash_notMem_of_mem_split ((List.takeWhile_sublist _).subset hpart)) hfront] at hplanner
      simpa using List.mem_takeWhile_imp (List.mem_of_mem_head? hplanner)
  · exact absurd hplanner (by decide)

end Sources

/-! ## Directories with a marker -/

variable {files : List IndexManifestFile} {tree : List TreeFile}

section Markers

/-- The manifest and the tree have the same files, at paths below the repository. -/
structure IsManifestOf (files : List IndexManifestFile) (tree : List TreeFile) : Prop where
  same : ∀ path, path ∈ files.map IndexManifestFile.path ↔ path ∈ tree.map TreeFile.name
  clean : ∀ path ∈ files.map IndexManifestFile.path, IsCleanPath path

variable {root path : String}

theorem mem_typescriptMarkerRoots : root ∈ typescriptMarkerRoots files ↔
    ∃ path ∈ files.map IndexManifestFile.path, isMatched typescript (basename path) = true ∧
      projectRoot path = root := by
  have hmatched : ∀ base, isMatched typescript base =
      ["package.json", "tsconfig.json", "jsconfig.json"].contains base :=
    Planner.matchesBase_typescript
  unfold typescriptMarkerRoots
  rw [List.mem_insertionSort, List.mem_eraseDups]
  simp only [List.mem_map (f := projectRoot), List.mem_filter, hmatched, and_assoc]

variable (hmanifest : IsManifestOf files tree)
include hmanifest

theorem mem_snapshotFiles : path ∈ snapshotFiles tree ↔
    path ∈ files.map IndexManifestFile.path ∧ pathIsIgnored path = false ∧
      basename path ∉ defaultIgnores := by
  unfold snapshotFiles
  rw [List.mem_insertionSort, List.mem_filter, ← hmanifest.same, Bool.not_eq_true', Bool.eq_false_iff,
    ne_eq, planner_pathIsIgnored_eq, not_or, Bool.not_eq_true]

theorem isMarkerRoot_iff {d : Definition} (hd : d ∈ supported) :
    IsMarkerRoot (snapshotFiles tree) d root ↔ ∃ path ∈ files.map IndexManifestFile.path,
      pathIsIgnored path = false ∧ isMatched d (basename path) = true ∧ projectRoot path = root := by
  have hnames : ∀ d ∈ supported, ∀ ignored ∈ defaultIgnores, isMatched d ignored = false := by
    decide
  constructor
  · rintro ⟨path, hpath, hmatch, rfl⟩
    obtain ⟨hmem, hkept, -⟩ := (mem_snapshotFiles hmanifest).1 hpath
    have hclean := hmanifest.clean path hmem
    exact ⟨path, hmem, hkept, basename_eq_basePath hclean ▸ hmatch, projectRoot_eq_fileRoot hclean⟩
  · rintro ⟨path, hmem, hkept, hmatch, rfl⟩
    have hclean := hmanifest.clean path hmem
    have hname : basename path ∉ defaultIgnores := fun hignored =>
      Bool.false_ne_true ((hnames d hd _ hignored).symm.trans hmatch)
    refine ⟨path, (mem_snapshotFiles hmanifest).2 ⟨hmem, hkept, hname⟩, ?_,
      (projectRoot_eq_fileRoot hclean).symm⟩
    rw [← basename_eq_basePath hclean]
    exact hmatch

/-- The marked directories above a source that is not ignored are not ignored either. -/
theorem isMarkerRoot_of_fileInRoot (hkept : pathIsIgnored path = false)
    (hinput : isIndexableTypescriptInput path = true) (hroot : root ∈ typescriptMarkerRoots files)
    (hin : fileInProjectRoot path root = true) :
    IsMarkerRoot (snapshotFiles tree) typescript root := by
  obtain ⟨marker, hmarker, hmatch, rfl⟩ := mem_typescriptMarkerRoots.1 hroot
  refine (isMarkerRoot_iff hmanifest Planner.typescript_mem_supported).2
    ⟨marker, hmarker, ?_, hmatch, rfl⟩
  rw [Bool.eq_false_iff]
  intro hmarker_ignored
  rcases notMem_or_eq_append_cons '/' marker.toList with hno | ⟨dir, base, hcut, hbase⟩
  · exact Bool.false_ne_true ((pathIsIgnored_of_notMem hno).symm.trans hmarker_ignored)
  · obtain ⟨ignored, hignored, hsegment⟩ := (pathIsIgnored_append hcut hbase).1 hmarker_ignored
    have hdir : (projectRoot marker).toList = dir := by
      rw [projectRoot, rsplitOnce_append hcut hbase, String.toList_ofList]
    have hclean : IsCleanPath (projectRoot marker) := by
      intro segment hmem
      refine hmanifest.clean marker hmarker segment ?_
      rw [hcut, splitOnChar_append_cons, ← hdir]
      exact List.mem_append_left _ hmem
    have hpath_ignored : Planner.pathIsIgnored path = true := planner_pathIsIgnored_iff.2
      ⟨ignored, hignored, mem_splitOnChar_of_fileInProjectRoot hclean hin (hdir ▸ hsegment)⟩
    rcases planner_pathIsIgnored_eq.1 hpath_ignored with h | h
    · exact Bool.false_ne_true (hkept.symm.trans h)
    · exact basename_notMem_of_isIndexable hinput h

theorem containedByNestedProjectRoot_eq (hkept : pathIsIgnored path = false)
    (hinput : isIndexableTypescriptInput path = true) (root : String) :
    containedByNestedProjectRoot path root (typescriptMarkerRoots files) =
      Planner.containedByNestedRoot path root (Planner.typeScriptMarkerRoots (snapshotFiles tree)) := by
  have hstep : ∀ child, (if child = root || child = "" then false
      else if root ≠ "" && !hasPrefix child (root ++ "/") then false
      else fileInProjectRoot path child) = (child ≠ root && child ≠ "" &&
        (root = "" || hasPrefix child (root ++ "/")) && Planner.fileInRoot path child) := by
    intro child
    by_cases hsame : child = root
    · simp [hsame]
    by_cases hempty : child = ""
    · simp [hempty]
    by_cases htop : root = ""
    · simp [hempty, htop, fileInProjectRoot, Planner.fileInRoot]
    · cases hasPrefix child (root ++ "/") <;>
        simp [hsame, hempty, htop, fileInProjectRoot, Planner.fileInRoot]
  unfold containedByNestedProjectRoot Planner.containedByNestedRoot
  simp only [hstep]
  rw [Bool.eq_iff_iff, List.any_eq_true, List.any_eq_true]
  refine exists_congr fun child => and_congr_left fun hnested => ?_
  have hin := (Bool.and_eq_true_iff.1 hnested).2
  rw [Planner.mem_typeScriptMarkerRoots]
  constructor
  · intro hchild
    exact isMarkerRoot_of_fileInRoot hmanifest hkept hinput hchild hin
  · intro hchild
    obtain ⟨marker, hmarker, -, hmatch, hroot⟩ :=
      (isMarkerRoot_iff hmanifest Planner.typescript_mem_supported).1 hchild
    exact mem_typescriptMarkerRoots.2 ⟨marker, hmarker, hmatch, hroot⟩

end Markers

/-! ## What each service finds -/

section Found

/-- A project, whichever service found it. -/
structure FoundProject where
  (language indexer projectRoot : String)
  inferred : Bool
  deriving DecidableEq, Repr

def ScipProject.found (p : ScipProject) : FoundProject :=
  { language := p.language, indexer := p.indexer, projectRoot := p.projectRoot,
    inferred := p.inferred }

def manifestProjects (files : List IndexManifestFile) : List FoundProject :=
  (addInferredTypescriptProjects files (detectScipProjects files)).map ScipProject.found

/-- The projects that the planner finds in a revision. It does not mark the inferred ones:
they are those that its detection has not found. -/
def snapshotProjects (tree : List TreeFile) : List FoundProject :=
  let files := snapshotFiles tree
  let detected := Planner.detect files
  (Planner.addInferredTypeScriptProjects files detected).map fun p =>
    { language := p.language, indexer := p.indexer, projectRoot := p.root,
      inferred := !detected.contains p }

def detectedProject (d : Definition) (root : String) : FoundProject :=
  { language := d.language, indexer := d.indexer, projectRoot := root, inferred := false }

def inferredAt (root : String) : FoundProject :=
  { language := "typescript", indexer := "scip-typescript", projectRoot := root, inferred := true }

/-- The projects given by the marked directories that have some input, and by some roots
for the sources without a marker. -/
def IsFound (marked : List String) (input : Definition → String → Bool) (inferred : String → Prop)
    (v : FoundProject) : Prop :=
  (∃ d ∈ supported, ∃ root, IsMarkerRoot marked d root ∧ input d root = true ∧
    v = detectedProject d root) ∨ ∃ root, inferred root ∧ v = inferredAt root

/-- Two such descriptions give the same projects only if their parts agree. -/
theorem isFound_congr_iff {marked : List String} {input input' : Definition → String → Bool}
    {inferred inferred' : String → Prop} :
    (∀ v, IsFound marked input inferred v ↔ IsFound marked input' inferred' v) ↔
      (∀ d ∈ supported, ∀ root, IsMarkerRoot marked d root → input d root = input' d root) ∧
        ∀ root, inferred root ↔ inferred' root := by
  have hdetected : ∀ (input : Definition → String → Bool) (inferred : String → Prop),
      ∀ d ∈ supported, ∀ root, IsFound marked input inferred (detectedProject d root) ↔
        IsMarkerRoot marked d root ∧ input d root = true := by
    intro input inferred d hd root
    constructor
    · rintro (⟨d', hd', root', hmarker, hinput, heq⟩ | ⟨root', -, heq⟩)
      · obtain rfl := Planner.supported_eq_of_language d hd d' hd'
          (congrArg FoundProject.language heq)
        obtain rfl : root = root' := congrArg FoundProject.projectRoot heq
        exact ⟨hmarker, hinput⟩
      · exact absurd (congrArg FoundProject.inferred heq) Bool.false_ne_true
    · exact fun ⟨hmarker, hinput⟩ => .inl ⟨d, hd, root, hmarker, hinput, rfl⟩
  have hinferred : ∀ (input : Definition → String → Bool) (inferred : String → Prop) (root : String),
      IsFound marked input inferred (inferredAt root) ↔ inferred root := by
    simp [IsFound, detectedProject, inferredAt]
  constructor
  · intro h
    refine ⟨fun d hd root hmarker => ?_, fun root => ?_⟩
    · have hd_iff := h (detectedProject d root)
      rwa [hdetected _ _ d hd, hdetected _ _ d hd, and_congr_right_iff, imp_iff_right hmarker,
        ← Bool.eq_iff_iff] at hd_iff
    · have hroot_iff := h (inferredAt root)
      rwa [hinferred, hinferred] at hroot_iff
  · rintro ⟨hinput, hroots⟩ v
    unfold IsFound
    simp only [hroots]
    refine or_congr_left (exists_congr fun d => and_congr_right fun hd => exists_congr fun root =>
      and_congr_right fun hmarker => ?_)
    rw [hinput d hd root hmarker]

/-- The planner infers the root for a source without a marker. -/
def PlannerInfers (tree : List TreeFile) (root : String) : Prop :=
  ∃ path ∈ snapshotFiles tree, Planner.isTypeScriptInput path = true ∧
    ¬IsMarked (snapshotFiles tree) path ∧ Planner.inferTypeScriptRoot path = root

/-- The indexer infers the root for a source without a marker. -/
def IndexerInfers (files : List IndexManifestFile) (tree : List TreeFile) (root : String) : Prop :=
  ∃ path ∈ files.map IndexManifestFile.path, pathIsIgnored path = false ∧
    isIndexableTypescriptInput path = true ∧ ¬IsMarked (snapshotFiles tree) path ∧
    inferTypescriptProjectRoot path = root

variable {v : FoundProject}

theorem mem_snapshotProjects : v ∈ snapshotProjects tree ↔
    IsFound (snapshotFiles tree) (Planner.hasInput (snapshotFiles tree)) (PlannerInfers tree) v := by
  have hold : ∀ p ∈ Planner.detect (snapshotFiles tree),
      (Planner.detect (snapshotFiles tree)).contains p = true := fun p => List.contains_iff_mem.2
  have hnew : ∀ path, ¬IsMarked (snapshotFiles tree) path →
      (Planner.detect (snapshotFiles tree)).contains
        (typescript.project (Planner.inferTypeScriptRoot path)) = false := by
    intro path hunmarked
    rw [Bool.eq_false_iff, ne_eq, List.contains_iff_mem]
    exact Planner.project_inferTypeScriptRoot_notMem_detect hunmarked
  unfold snapshotProjects
  simp only [List.mem_map, Planner.mem_addInferredTypeScriptProjects]
  constructor
  · rintro ⟨p, hp | ⟨path, hpath, hinput, hunmarked, rfl⟩, rfl⟩
    · rw [hold p hp]
      obtain ⟨d, hd, root, hmarker, hinput, rfl⟩ := Planner.mem_detect.1 hp
      exact .inl ⟨d, hd, root, hmarker, hinput, rfl⟩
    · rw [hnew path hunmarked]
      exact .inr ⟨_, ⟨path, hpath, hinput, hunmarked, rfl⟩, rfl⟩
  · rintro (⟨d, hd, root, hmarker, hinput, rfl⟩ | ⟨_, ⟨path, hpath, hinput, hunmarked, rfl⟩, rfl⟩)
    · have hp := Planner.mem_detect.2 ⟨d, hd, root, hmarker, hinput, rfl⟩
      exact ⟨_, .inl hp, by rw [hold _ hp]; rfl⟩
    · exact ⟨_, .inr ⟨path, hpath, hinput, hunmarked, rfl⟩, by rw [hnew path hunmarked]; rfl⟩

/-- The directory has what the indexer of the definition needs besides a marker. -/
def hasInput (files : List IndexManifestFile) (d : Definition) (root : String) : Bool :=
  (d.language ≠ "typescript" ||
      hasTypescriptInputInRoot files root (typescriptMarkerRoots files)) &&
    (d.language ≠ "java" || hasJvmSourceSetInputInRoot files root)

def ScipProject.key (p : ScipProject) : String × String := (p.language, p.projectRoot)

theorem sameProject_iff (new p : ScipProject) : sameProject new p = true ↔ p.key = new.key := by
  simp [sameProject, ScipProject.key]

theorem mem_map_sortProjects {projects : List ScipProject} :
    v ∈ (sortProjects projects).map ScipProject.found ↔ v ∈ projects.map ScipProject.found := by
  unfold sortProjects
  simp only [List.mem_map, List.mem_insertionSort]

variable (hmanifest : IsManifestOf files tree)
include hmanifest

theorem mem_map_detectScipProjects : v ∈ (detectScipProjects files).map ScipProject.found ↔
    ∃ d ∈ supported, ∃ root, IsMarkerRoot (snapshotFiles tree) d root ∧
      hasInput files d root = true ∧ v = detectedProject d root := by
  have hsplit : ∀ path d, isDetected files path d =
      (isMatched d (basename path) && hasInput files d (projectRoot path)) :=
    fun path d => Bool.and_assoc _ _ _
  unfold detectScipProjects
  rw [mem_map_sortProjects, mem_map_foldl_insertMissing sameProject_iff]
  · simp only [List.map_nil, List.not_mem_nil, not_false_eq_true, and_true, false_or,
      List.mem_flatMap, List.mem_filter, Bool.not_eq_true']
    constructor
    · rintro ⟨_, ⟨path, ⟨hpath, hkept⟩, hp⟩, rfl⟩
      obtain ⟨d, hd, rfl⟩ := List.mem_map.1 hp
      obtain ⟨hd, hdetected⟩ := List.mem_filter.1 hd
      rw [hsplit, Bool.and_eq_true] at hdetected
      exact ⟨d, hd, projectRoot path, (isMarkerRoot_iff hmanifest hd).2
        ⟨path, hpath, hkept, hdetected.1, rfl⟩, hdetected.2, rfl⟩
    · rintro ⟨d, hd, root, hmarker, hinput, rfl⟩
      obtain ⟨path, hpath, hkept, hmatch, rfl⟩ := (isMarkerRoot_iff hmanifest hd).1 hmarker
      have hdetected : isDetected files path d = true := by
        rw [hsplit, hmatch, hinput]
        rfl
      exact ⟨_, ⟨path, ⟨hpath, hkept⟩, List.mem_map_of_mem (List.mem_filter.2 ⟨hd, hdetected⟩)⟩,
        rfl⟩
  · -- the language and the root determine the rest of what is compared
    intro p hp q hq hkey
    obtain ⟨path, -, hp⟩ := List.mem_flatMap.1 hp
    obtain ⟨path', -, hq⟩ := List.mem_flatMap.1 hq
    obtain ⟨d, hd, rfl⟩ := List.mem_map.1 hp
    obtain ⟨d', hd', rfl⟩ := List.mem_map.1 hq
    simp only [ScipProject.key, Prod.mk.injEq] at hkey
    have heq := Planner.supported_eq_of_language d (List.mem_filter.1 hd).1 d'
      (List.mem_filter.1 hd').1 hkey.1
    simp only [ScipProject.found, heq, hkey.2]

theorem mem_existing_roots {root : String} :
    root ∈ ((detectScipProjects files).filter (·.language = "typescript")).map
        ScipProject.projectRoot ↔
      root ∈ Planner.typeScriptMarkerRoots (snapshotFiles tree) ∧
        hasTypescriptInputInRoot files root (typescriptMarkerRoots files) = true := by
  have hinput : hasInput files typescript root =
      hasTypescriptInputInRoot files root (typescriptMarkerRoots files) :=
    (Bool.and_true _).trans (Bool.false_or _)
  simp only [List.mem_map (f := ScipProject.projectRoot), List.mem_filter, decide_eq_true_iff,
    Planner.mem_typeScriptMarkerRoots]
  constructor
  · rintro ⟨p, ⟨hp, hlanguage⟩, rfl⟩
    obtain ⟨d, hd, root, hmarker, hdinput, hfound⟩ :=
      (mem_map_detectScipProjects hmanifest).1 (List.mem_map_of_mem hp)
    have hd_language : d.language = p.language := (congrArg FoundProject.language hfound).symm
    have hroot : p.projectRoot = root := congrArg FoundProject.projectRoot hfound
    obtain rfl := Planner.supported_eq_of_language d hd typescript Planner.typescript_mem_supported
      (hd_language.trans hlanguage)
    rw [← hinput, hroot]
    exact ⟨hmarker, hdinput⟩
  · rintro ⟨hmarker, hgate⟩
    obtain ⟨p, hp, hfound⟩ := List.mem_map.1 ((mem_map_detectScipProjects hmanifest).2
      ⟨typescript, Planner.typescript_mem_supported, root, hmarker, hinput.trans hgate, rfl⟩)
    exact ⟨p, ⟨hp, congrArg FoundProject.language hfound⟩,
      congrArg FoundProject.projectRoot hfound⟩

theorem mem_manifestProjects : v ∈ manifestProjects files ↔
    IsFound (snapshotFiles tree) (hasInput files) (IndexerInfers files tree) v := by
  have hcovered : ∀ path ∈ files.map IndexManifestFile.path, pathIsIgnored path = false →
      isIndexableTypescriptInput path = true → (isCoveredByProjectRoot path
        (((detectScipProjects files).filter (·.language = "typescript")).map
          ScipProject.projectRoot) = true ↔ IsMarked (snapshotFiles tree) path) := by
    intro path hpath hkept hinput
    refine Planner.coveredByRoot_iff (fun root => mem_existing_roots hmanifest)
      fun root _ hin hnested => List.any_eq_true.2 ⟨path, hpath, ?_⟩
    have hpath_in : fileInProjectRoot path root = true := hin
    rw [containedByNestedProjectRoot_eq hmanifest hkept hinput, hnested, hinput, hpath_in]
    rfl
  unfold manifestProjects addInferredTypescriptProjects
  rw [mem_map_sortProjects, mem_map_foldl_insertMissing sameProject_iff,
    mem_map_detectScipProjects hmanifest]
  · refine or_congr_right ?_
    simp only [List.mem_map (f := inferredProject), List.mem_insertionSort, List.mem_eraseDups,
      List.mem_map (f := inferTypescriptProjectRoot), List.mem_filter, Bool.not_eq_true']
    constructor
    · rintro ⟨_, ⟨_, ⟨path, ⟨⟨hpath, hsource⟩, huncovered⟩, rfl⟩, rfl⟩, rfl, -⟩
      obtain ⟨hkept, hinput⟩ := isInferenceSource_iff.1 hsource
      have hunmarked := mt (hcovered path hpath hkept hinput).2 (Bool.eq_false_iff.1 huncovered)
      exact ⟨_, ⟨path, hpath, hkept, hinput, hunmarked, rfl⟩, rfl⟩
    · rintro ⟨_, ⟨path, hpath, hkept, hinput, hunmarked, rfl⟩, rfl⟩
      have huncovered := mt (hcovered path hpath hkept hinput).1 hunmarked
      refine ⟨_, ⟨_, ⟨path, ⟨⟨hpath, isInferenceSource_iff.2 ⟨hkept, hinput⟩⟩,
        Bool.eq_false_iff.2 huncovered⟩, rfl⟩, rfl⟩, rfl, ?_⟩
      -- a project at the inferred root would cover the file
      intro hold
      obtain ⟨q, hq, hkey⟩ := List.mem_map.1 hold
      obtain ⟨hlanguage, hroot⟩ := Prod.mk.inj hkey
      refine huncovered (List.any_eq_true.2 ⟨q.projectRoot, ?_, ?_⟩)
      · exact List.mem_map_of_mem (List.mem_filter.2 ⟨hq, decide_eq_true hlanguage⟩)
      · rw [hroot]
        exact fileInProjectRoot_inferTypescriptProjectRoot path
  · intro p hp q hq hkey
    obtain ⟨root, -, rfl⟩ := List.mem_map.1 hp
    obtain ⟨root', -, rfl⟩ := List.mem_map.1 hq
    have hroot : root = root' := (Prod.mk.inj hkey).2
    rw [hroot]

end Found

/-! ## Agreement -/

section Agreement

/-- What makes no difference between the two detections: the ignored files and the letters
outside ASCII in the tests of the marked directories, a nested `src` directory, and a source
of the indexer that is none of the planner. -/
structure SeesSameProjects (files : List IndexManifestFile) (tree : List TreeFile) : Prop where
  typescript : ∀ root ∈ Planner.typeScriptMarkerRoots (snapshotFiles tree),
    hasTypescriptInputInRoot files root (typescriptMarkerRoots files) =
      Planner.hasTypeScriptInputInRoot (snapshotFiles tree) root
        (Planner.typeScriptMarkerRoots (snapshotFiles tree))
  jvm : ∀ d ∈ supported, d.language = "java" → ∀ root, IsMarkerRoot (snapshotFiles tree) d root →
    hasJvmSourceSetInputInRoot files root =
      Planner.hasJVMSourceSetInputInRoot (snapshotFiles tree) root
  nestedSrc : ∀ path ∈ snapshotFiles tree, Planner.isTypeScriptInput path = true →
    ¬IsMarked (snapshotFiles tree) path → ¬HasNestedSrc path
  sources : ∀ path ∈ files.map IndexManifestFile.path, pathIsIgnored path = false →
    isIndexableTypescriptInput path = true → Planner.isTypeScriptInput path = false →
    ¬IsMarked (snapshotFiles tree) path → PlannerInfers tree (inferTypescriptProjectRoot path)

theorem SeesSameProjects.hasInput_eq (h : SeesSameProjects files tree) {d : Definition}
    (hd : d ∈ supported) {root : String} (hmarker : IsMarkerRoot (snapshotFiles tree) d root) :
    hasInput files d root = Planner.hasInput (snapshotFiles tree) d root := by
  unfold hasInput Planner.hasInput
  by_cases htypescript : d.language = "typescript"
  · obtain rfl := Planner.supported_eq_of_language d hd Planner.typescript
      Planner.typescript_mem_supported htypescript
    rw [h.typescript root (Planner.mem_typeScriptMarkerRoots.2 hmarker)]
    rfl
  by_cases hjava : d.language = "java"
  · rw [h.jvm d hd hjava root hmarker]
    simp [hjava]
  · simp [htypescript, hjava]

theorem seesSameProjects_of_agree
    (hinput : ∀ d ∈ supported, ∀ root, IsMarkerRoot (snapshotFiles tree) d root →
      hasInput files d root = Planner.hasInput (snapshotFiles tree) d root)
    (hinfers : ∀ root, IndexerInfers files tree root ↔ PlannerInfers tree root) :
    SeesSameProjects files tree where
  typescript root hroot := by
    have hts := hinput typescript Planner.typescript_mem_supported root
      (Planner.mem_typeScriptMarkerRoots.1 hroot)
    simpa [hasInput, Planner.hasInput, typescript] using hts
  jvm d hd hlanguage root hmarker := by
    simpa [hasInput, Planner.hasInput, hlanguage] using hinput d hd root hmarker
  nestedSrc path hpath hsource hunmarked hnested := by
    obtain ⟨other, -, -, -, -, hroot⟩ := (hinfers _).2 ⟨path, hpath, hsource, hunmarked, rfl⟩
    exact inferTypescriptProjectRoot_ne hnested other hroot
  sources path hpath hkept hsource _ hunmarked :=
    (hinfers _).1 ⟨path, hpath, hkept, hsource, hunmarked, rfl⟩

variable (hmanifest : IsManifestOf files tree)
include hmanifest

theorem SeesSameProjects.infers_iff (h : SeesSameProjects files tree) (root : String) :
    IndexerInfers files tree root ↔ PlannerInfers tree root := by
  constructor
  · rintro ⟨path, hpath, hkept, hinput, hunmarked, rfl⟩
    cases hplanner : Planner.isTypeScriptInput path with
    | false => exact h.sources path hpath hkept hinput hplanner hunmarked
    | true =>
      have hmem := (mem_snapshotFiles hmanifest).2
        ⟨hpath, hkept, basename_notMem_of_isIndexable hinput⟩
      refine ⟨path, hmem, hplanner, hunmarked, ?_⟩
      rw [inferTypescriptProjectRoot_eq (h.nestedSrc path hmem hplanner hunmarked)]
  · rintro ⟨path, hpath, hinput, hunmarked, rfl⟩
    obtain ⟨hmem, hkept, -⟩ := (mem_snapshotFiles hmanifest).1 hpath
    exact ⟨path, hmem, hkept, isIndexableTypescriptInput_of_planner hinput, hunmarked,
      inferTypescriptProjectRoot_eq (h.nestedSrc path hpath hinput hunmarked)⟩

/-- The two services find the same projects in a repository exactly if what only one of
them looks at makes no difference there. -/
theorem manifestProjects_agree_iff :
    {v | v ∈ manifestProjects files} = {v | v ∈ snapshotProjects tree} ↔
      SeesSameProjects files tree := by
  simp only [Set.ext_iff, Set.mem_ofPred_eq, mem_manifestProjects hmanifest, mem_snapshotProjects]
  rw [isFound_congr_iff]
  exact ⟨fun ⟨hinput, hinfers⟩ => seesSameProjects_of_agree hinput hinfers,
    fun h => ⟨fun d hd root => h.hasInput_eq hd, h.infers_iff hmanifest⟩⟩

omit hmanifest

def manifestAt (paths : List String) : List IndexManifestFile :=
  paths.map fun path => { path, contentHash := path }

def treeAt (paths : List String) : List TreeFile :=
  paths.map fun path => { name := path, mode := .regular, hash := path }

theorem isManifestOf_at {paths : List String} (h : ∀ path ∈ paths, IsCleanPath path) :
    IsManifestOf (manifestAt paths) (treeAt paths) := by
  have hmanifest : (manifestAt paths).map IndexManifestFile.path = paths := by
    simp [manifestAt, Function.comp_def]
  have htree : (treeAt paths).map TreeFile.name = paths := by
    simp [treeAt, Function.comp_def]
  exact ⟨fun path => by rw [hmanifest, htree], by rwa [hmanifest]⟩

def serviceRepo : List String :=
  ["package.json", "src/index.ts", "services/api/go.mod", "tools/src/run.js", "dist/x/package.json"]

theorem manifestProjects_agree_serviceRepo :
    {v | v ∈ manifestProjects (manifestAt serviceRepo)} =
        {v | v ∈ snapshotProjects (treeAt serviceRepo)} ∧
      SeesSameProjects (manifestAt serviceRepo) (treeAt serviceRepo) := by
  have hlist : manifestProjects (manifestAt serviceRepo) = snapshotProjects (treeAt serviceRepo) := by
    decide +kernel
  have hset := congrArg (fun projects : List FoundProject => {v | v ∈ projects}) hlist
  exact ⟨hset, (manifestProjects_agree_iff (isManifestOf_at (by decide +kernel))).1 hset⟩

/-- Sources in `src/app/src`: the indexer infers the repository as the root of their project,
the planner the directory `src/app`. -/
theorem nested_src_projects_differ :
    IsManifestOf (manifestAt ["src/app/src/x.ts"]) (treeAt ["src/app/src/x.ts"]) ∧
      {v | v ∈ manifestProjects (manifestAt ["src/app/src/x.ts"])} = {inferredAt ""} ∧
      {v | v ∈ snapshotProjects (treeAt ["src/app/src/x.ts"])} = {inferredAt "src/app"} ∧
      {v | v ∈ manifestProjects (manifestAt ["src/app/src/x.ts"])} ≠
        {v | v ∈ snapshotProjects (treeAt ["src/app/src/x.ts"])} := by
  have hindexer : manifestProjects (manifestAt ["src/app/src/x.ts"]) = [inferredAt ""] := by
    decide +kernel
  have hplanner : snapshotProjects (treeAt ["src/app/src/x.ts"]) = [inferredAt "src/app"] := by
    decide +kernel
  rw [hindexer, hplanner]
  refine ⟨isManifestOf_at (by decide +kernel), by simp, by simp, ?_⟩
  intro h
  have hmem := (Set.ext_iff.1 h (inferredAt "")).1 List.mem_cons_self
  exact absurd (List.mem_singleton.1 hmem) (by decide)

end Agreement

end CodeIntel.Indexer
