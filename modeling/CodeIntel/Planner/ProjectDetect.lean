import CodeIntel.Planner.ManifestFiles
import CodeIntel.Relational.Table
import CodeIntel.Text.Segments

/-!
# SCIP projects of a revision

`DetectSnapshotPlan` looks for build markers in the checked-out files of a
revision and infers TypeScript projects where sources have no marker. The
worker classes a deployment runs divide the projects into runnable and skipped.
-/

namespace CodeIntel.Planner

open Text Relational

structure Config where
  workerClasses : String
  maxProjects : ℤ
  deriving DecidableEq, Repr

def defaultMax : ℤ := 24

/-- A SCIP project as the planner takes it; detection sets no digests. -/
structure SCIPProject where
  (language projectRoot indexer scipWorkerClass : String)
  deriving DecidableEq, Repr

/-- The projects that are indexed and those without a worker. -/
structure ProjectPlan where
  (runnable skipped : List SCIPProject)
  deriving DecidableEq, Repr

structure Definition where
  (language indexer workerClass : String)
  markers : List String
  deriving DecidableEq, Repr

def supported : List Definition :=
  [{ language := "typescript", indexer := "scip-typescript", workerClass := "ts-js",
     markers := ["tsconfig.json", "jsconfig.json", "package.json"] },
   { language := "go", indexer := "scip-go", workerClass := "go", markers := ["go.mod"] },
   { language := "python", indexer := "scip-python", workerClass := "python",
     markers := ["pyproject.toml", "setup.py", "setup.cfg", "requirements.txt", "Pipfile"] },
   { language := "java", indexer := "scip-java", workerClass := "jvm",
     markers := ["pom.xml", "build.gradle", "build.gradle.kts", "settings.gradle",
       "settings.gradle.kts", "build.sbt"] },
   { language := "cpp", indexer := "scip-clang", workerClass := "cpp",
     markers := ["compile_commands.json"] },
   { language := "dotnet", indexer := "scip-dotnet", workerClass := "dotnet", markers := [] },
   { language := "ruby", indexer := "scip-ruby", workerClass := "ruby", markers := ["Gemfile"] },
   { language := "rust", indexer := "rust-analyzer", workerClass := "rust-dart",
     markers := ["Cargo.toml"] },
   { language := "dart", indexer := "dart", workerClass := "rust-dart",
     markers := ["pubspec.yaml"] }]

def ignoredSegments : List String :=
  [".git", "node_modules", ".next", "dist", "build", "target", ".venv", "venv", "__pycache__",
    "vendor"]

def dotnetSuffixes : List String := [".sln", ".csproj", ".vbproj", ".fsproj"]

def rubySuffixes : List String := [".gemspec"]

def typescriptSuffix : List String :=
  [".ts", ".tsx", ".js", ".jsx", ".mts", ".cts", ".mjs", ".cjs"]

def jvmSourceSuffixes : List String := [".java", ".scala", ".kt"]

def defaultClassAllow : String := "all"

structure Project where
  (language indexer workerClass root : String)
  deriving DecidableEq, Repr

def pathIsIgnored (rel : String) : Bool :=
  (split rel '/').any ignoredSegments.contains

/-- The checked-out files of a revision, without the ignored directories. -/
def snapshotFiles (tree : List TreeFile) : List String :=
  ((tree.map TreeFile.name).filter fun rel => !pathIsIgnored rel).insertionSort (· ≤ ·)

def fileInRoot (file root : String) : Bool :=
  root = "" || root = "." || file = root || hasPrefix file (root ++ "/")

/-- The directory of a file, with the repository itself written as the empty root. -/
def fileRoot (file : String) : String :=
  if dirPath file = "." then "" else dirPath file

def typeScriptMarkerRoots (files : List String) : List String :=
  (((files.filter fun file =>
    ["package.json", "tsconfig.json", "jsconfig.json"].contains (basePath file)).map
      fileRoot).eraseDups).insertionSort (· ≤ ·)

def matchesBase (d : Definition) (base : String) : Bool :=
  d.markers.contains base || (d.language = "dotnet" && hasAnySuffix base dotnetSuffixes) ||
    (d.language = "ruby" && hasAnySuffix base rubySuffixes)

/-- A source file that `scip-typescript` would index. -/
def isTypeScriptInput (file : String) : Bool :=
  let lower := toLower file
  hasAnySuffix lower typescriptSuffix && !hasSuffix lower ".d.ts" && !hasSuffix lower ".min.js" &&
    file ≠ "coverage" && !hasPrefix file "coverage/" && !contains file "/coverage/"

def containedByNestedRoot (file root : String) (markerRoots : List String) : Bool :=
  markerRoots.any fun child =>
    child ≠ root && child ≠ "" && (root = "" || hasPrefix child (root ++ "/")) &&
      fileInRoot file child

def hasTypeScriptInputInRoot (files : List String) (root : String) (markerRoots : List String) :
    Bool :=
  files.any fun file =>
    fileInRoot file root && !containedByNestedRoot file root markerRoots && isTypeScriptInput file

def hasJVMSourceSetInputInRoot (files : List String) (root : String) : Bool :=
  files.any fun file =>
    let rel := if root = "" || root = "." then file else trimPrefix file (root ++ "/")
    let lower := toLower rel
    fileInRoot file root && hasAnySuffix lower jvmSourceSuffixes &&
      (hasPrefix lower "src/" || contains lower "/src/")

/-- The definition applies to the directory of the marker. -/
def isDetected (files : List String) (file : String) (d : Definition) : Bool :=
  matchesBase d (basePath file) &&
    (d.language ≠ "typescript" ||
      hasTypeScriptInputInRoot files (fileRoot file) (typeScriptMarkerRoots files)) &&
    (d.language ≠ "java" || hasJVMSourceSetInputInRoot files (fileRoot file))

/-- Append a project unless its language and root are there already. -/
def addProject (out : List Project) (p : Project) : List Project :=
  if out.any fun q => q.language = p.language && q.root = p.root then out else out ++ [p]

def sortProjects (projects : List Project) : List Project :=
  projects.insertionSort fun p q => if p.root = q.root then p.language ≤ q.language
    else p.root ≤ q.root

def detect (files : List String) : List Project :=
  let found := files.flatMap fun file =>
    (supported.filter (isDetected files file)).map fun d =>
      { language := d.language, indexer := d.indexer, workerClass := d.workerClass,
        root := fileRoot file }
  sortProjects (found.foldl addProject [])

def coveredByRoot (file : String) (roots : List String) : Bool :=
  roots.any (fileInRoot file)

/-- The directory above the first `src` directory, if that has a parent. -/
def inferTypeScriptRoot (file : String) : String :=
  match split file '/' with
  | [] => ""
  | part :: parts =>
    if parts.contains "src" then
      String.intercalate "/" (part :: parts.takeWhile (· ≠ "src"))
    else ""

def addInferredTypeScriptProjects (files : List String) (projects : List Project) :
    List Project :=
  let roots := (projects.filter (·.language = "typescript")).map Project.root
  let inferred := (files.filter fun file =>
    isTypeScriptInput file && !coveredByRoot file roots).map inferTypeScriptRoot
  let inferredRoots := inferred.eraseDups.insertionSort (· ≤ ·)
  sortProjects ((inferredRoots.map fun root =>
    { language := "typescript", indexer := "scip-typescript", workerClass := "ts-js",
      root }).foldl addProject projects)

def parseWorkerClasses (raw : String) : List String :=
  let raw := if isBlank raw then defaultClassAllow else raw
  let out := ((split raw ',').map trimSpace).filter (· ≠ "")
  if out = [] then [defaultClassAllow] else out

/-- The runnable projects and the skipped ones. -/
def splitWorkerClasses (projects : List Project) (raw : String) : List Project × List Project :=
  let allowed := parseWorkerClasses raw
  if allowed.contains "none" then ([], projects)
  else if allowed.contains "all" || allowed.contains "universal" then (projects, [])
  else projects.partition fun p => allowed.contains p.workerClass

def toPlannerProjects (projects : List Project) : List SCIPProject :=
  projects.map fun p =>
    { language := p.language, projectRoot := p.root, indexer := p.indexer,
      scipWorkerClass := p.workerClass }

section WorkerClasses

def classOfLanguage (language : String) : Option String :=
  (supported.find? fun d => d.language = language).map Definition.workerClass

/-- The worker class of the project is the one of its language. -/
def HasLanguageClass (p : Project) : Prop :=
  classOfLanguage p.language = some p.workerClass

theorem classOfLanguage_supported : ∀ d ∈ supported,
    classOfLanguage d.language = some d.workerClass := by
  decide

variable {p : Project} {files : List String}

theorem splitWorkerClasses_ne {projects : List Project} {raw : String} {q : Project}
    (hp : p ∈ (splitWorkerClasses projects raw).1) (hq : q ∈ (splitWorkerClasses projects raw).2) :
    p.workerClass ≠ q.workerClass ∧ p ∈ projects ∧ q ∈ projects := by
  unfold splitWorkerClasses at hp hq
  dsimp only at hp hq
  split_ifs at hp hq
  · cases hp
  · cases hq
  · rw [List.partition_eq_filter_filter] at hp hq
    obtain ⟨hp, hallowed⟩ := List.mem_filter.1 hp
    obtain ⟨hq, hother⟩ := List.mem_filter.1 hq
    refine ⟨fun heq => ?_, hp, hq⟩
    rw [heq] at hallowed
    rw [Function.comp, hallowed] at hother
    cases hother

end WorkerClasses

/-! ## What is found -/

section Found

/-- What a project is found by: its language and its root. -/
def Project.key (p : Project) : String × String := (p.language, p.root)

variable {files : List String} {p : Project}

theorem project_conflict_iff (new q : Project) :
    (q.language = new.language && q.root = new.root) = true ↔ q.key = new.key := by
  rw [Bool.and_eq_true, decide_eq_true_iff, decide_eq_true_iff, Project.key, Project.key,
    Prod.mk.injEq]

theorem mem_foldl_addProject_iff {found out : List Project}
    (hfound : ∀ p ∈ found, ∀ q ∈ found, p.key = q.key → p = q) :
    p ∈ found.foldl addProject out ↔ p ∈ out ∨ p ∈ found ∧ p.key ∉ out.map Project.key := by
  have h : p ∈ (found.foldl addProject out).map id ↔
      p ∈ out.map id ∨ ∃ q ∈ found, id q = p ∧ q.key ∉ out.map Project.key :=
    mem_map_foldl_insertMissing project_conflict_iff hfound
  rw [List.map_id, List.map_id] at h
  rw [h]
  refine or_congr_right ⟨?_, fun ⟨hp, hno⟩ => ⟨p, hp, rfl, hno⟩⟩
  rintro ⟨q, hq, rfl, hno⟩
  exact ⟨hq, hno⟩

theorem supported_eq_of_language : ∀ d ∈ supported, ∀ d' ∈ supported,
    d.language = d'.language → d = d' := by
  decide

/-- A file of the directory is a marker of the definition. -/
def IsMarkerRoot (files : List String) (d : Definition) (root : String) : Prop :=
  ∃ file ∈ files, matchesBase d (basePath file) = true ∧ fileRoot file = root

/-- The directory has what the indexer of the definition needs besides a marker. -/
def hasInput (files : List String) (d : Definition) (root : String) : Bool :=
  (d.language ≠ "typescript" ||
      hasTypeScriptInputInRoot files root (typeScriptMarkerRoots files)) &&
    (d.language ≠ "java" || hasJVMSourceSetInputInRoot files root)

def Definition.project (d : Definition) (root : String) : Project :=
  { language := d.language, indexer := d.indexer, workerClass := d.workerClass, root }

theorem mem_detect : p ∈ detect files ↔ ∃ d ∈ supported, ∃ root,
    IsMarkerRoot files d root ∧ hasInput files d root = true ∧ p = d.project root := by
  have hfold : p ∈ detect files ↔ ∃ file ∈ files, ∃ d ∈ supported,
      isDetected files file d = true ∧ d.project (fileRoot file) = p := by
    unfold detect sortProjects
    rw [List.mem_insertionSort, mem_foldl_addProject_iff]
    · simp only [List.not_mem_nil, List.map_nil, not_false_eq_true, and_true, false_or,
        List.mem_flatMap, List.mem_map, List.mem_filter, and_assoc]
      rfl
    · simp only [List.mem_flatMap, List.mem_map, List.mem_filter]
      rintro _ ⟨file, -, d, ⟨hd, -⟩, rfl⟩ _ ⟨file', -, d', ⟨hd', -⟩, rfl⟩ hkey
      simp only [Project.key, Prod.mk.injEq] at hkey
      have heq := supported_eq_of_language d hd d' hd' hkey.1
      rw [heq, hkey.2]
  have hsplit : ∀ file d, isDetected files file d =
      (matchesBase d (basePath file) && hasInput files d (fileRoot file)) :=
    fun file d => Bool.and_assoc _ _ _
  rw [hfold]
  constructor
  · rintro ⟨file, hfile, d, hd, hdetected, rfl⟩
    rw [hsplit, Bool.and_eq_true] at hdetected
    exact ⟨d, hd, fileRoot file, ⟨file, hfile, hdetected.1, rfl⟩, hdetected.2, rfl⟩
  · rintro ⟨d, hd, _, ⟨file, hfile, hmatch, rfl⟩, hinput, rfl⟩
    exact ⟨file, hfile, d, hd, by rw [hsplit, hmatch, hinput]; rfl, rfl⟩

def typescript : Definition :=
  { language := "typescript", indexer := "scip-typescript", workerClass := "ts-js",
    markers := ["tsconfig.json", "jsconfig.json", "package.json"] }

theorem typescript_mem_supported : typescript ∈ supported := List.mem_cons_self

theorem matchesBase_typescript (base : String) : matchesBase typescript base =
    ["package.json", "tsconfig.json", "jsconfig.json"].contains base := by
  have hmarkers : matchesBase typescript base = typescript.markers.contains base := by
    simp [matchesBase, typescript]
  rw [hmarkers, Bool.eq_iff_iff]
  simp only [typescript, List.contains_iff_mem, List.mem_cons, List.not_mem_nil, or_false]
  tauto

variable {root file : String} {roots : List String}

theorem mem_typeScriptMarkerRoots :
    root ∈ typeScriptMarkerRoots files ↔ IsMarkerRoot files typescript root := by
  simp only [typeScriptMarkerRoots, List.mem_insertionSort, List.mem_eraseDups, List.mem_map,
    List.mem_filter, IsMarkerRoot, matchesBase_typescript, and_assoc]

theorem mem_typescript_roots :
    root ∈ ((detect files).filter (·.language = "typescript")).map Project.root ↔
      root ∈ typeScriptMarkerRoots files ∧
        hasTypeScriptInputInRoot files root (typeScriptMarkerRoots files) = true := by
  simp only [List.mem_map, List.mem_filter, decide_eq_true_iff, mem_detect,
    mem_typeScriptMarkerRoots]
  have hinput : ∀ root, hasInput files typescript root =
      hasTypeScriptInputInRoot files root (typeScriptMarkerRoots files) := fun root =>
    (Bool.and_true _).trans (Bool.false_or _)
  constructor
  · rintro ⟨_, ⟨⟨d, hd, root, hmarker, hd_input, rfl⟩, hlanguage⟩, rfl⟩
    obtain rfl := supported_eq_of_language d hd typescript typescript_mem_supported hlanguage
    exact ⟨hmarker, hinput root ▸ hd_input⟩
  · rintro ⟨hmarker, hgate⟩
    exact ⟨_, ⟨⟨typescript, typescript_mem_supported, root, hmarker, (hinput root).trans hgate,
      rfl⟩, rfl⟩, rfl⟩

/-- Of the marked directories above a file, the nearest contains no other one. -/
theorem exists_nearest_root (hroot : root ∈ roots) (hin : fileInRoot file root = true) :
    ∃ near ∈ roots, fileInRoot file near = true ∧
      containedByNestedRoot file near roots = false := by
  -- a directory below another one has the longer path
  have hmem : root ∈ roots.filter (fileInRoot file) := List.mem_filter.2 ⟨hroot, hin⟩
  obtain ⟨near, hnear⟩ : ∃ near,
      near ∈ List.argmax (fun r : String => r.length) (roots.filter (fileInRoot file)) := by
    cases hmax : List.argmax (fun r : String => r.length) (roots.filter (fileInRoot file)) with
    | none => exact absurd (List.argmax_eq_none.1 hmax ▸ hmem) List.not_mem_nil
    | some near => exact ⟨near, rfl⟩
  obtain ⟨hnear_mem, hnear_in⟩ := List.mem_filter.1 (List.argmax_mem hnear)
  refine ⟨near, hnear_mem, hnear_in, ?_⟩
  rw [Bool.eq_false_iff]
  intro hnested
  obtain ⟨child, hchild, h⟩ := List.any_eq_true.1 hnested
  simp only [Bool.and_eq_true, Bool.or_eq_true, decide_eq_true_iff] at h
  obtain ⟨⟨⟨hne, hempty⟩, hbelow⟩, hchild_in⟩ := h
  have hle := List.le_of_mem_argmax (List.mem_filter.2 ⟨hchild, hchild_in⟩) hnear
  rcases hbelow with rfl | hbelow
  · exact hempty (String.length_eq_zero_iff.1 (Nat.le_zero.1 hle))
  · have hlen := (hasPrefix_iff.1 hbelow).length_le
    rw [String.toList_append, List.length_append, String.length_toList, String.length_toList]
      at hlen
    exact absurd (hlen.trans hle) (by simp)

/-- A source of the directories is covered as soon as one of them is above it. -/
theorem coveredByRoot_iff {markerRoots : List String} {input : String → Prop}
    (hroots : ∀ root, root ∈ roots ↔ root ∈ markerRoots ∧ input root)
    (hinput : ∀ root ∈ markerRoots, fileInRoot file root = true →
      containedByNestedRoot file root markerRoots = false → input root) :
    coveredByRoot file roots = true ↔ ∃ root ∈ markerRoots, fileInRoot file root = true := by
  unfold coveredByRoot
  rw [List.any_eq_true]
  constructor
  · rintro ⟨root, hroot, hin⟩
    exact ⟨root, ((hroots root).1 hroot).1, hin⟩
  · rintro ⟨root, hroot, hin⟩
    obtain ⟨near, hnear, hnear_in, hnested⟩ := exists_nearest_root hroot hin
    exact ⟨near, (hroots near).2 ⟨hnear, hinput near hnear hnear_in hnested⟩, hnear_in⟩

theorem fileInRoot_of_hasPrefix (h : hasPrefix file (root ++ "/") = true) :
    fileInRoot file root = true := by
  unfold fileInRoot
  rw [h, Bool.or_true]

theorem fileInRoot_inferTypeScriptRoot (file : String) :
    fileInRoot file (inferTypeScriptRoot file) = true := by
  unfold inferTypeScriptRoot
  split
  · rfl
  · rename_i part parts hsplit
    split_ifs with hsrc
    · have hparts : split file '/' = (part :: parts.takeWhile (· ≠ "src")) ++
          parts.dropWhile (· ≠ "src") := by
        rw [hsplit, List.cons_append, List.takeWhile_append_dropWhile]
      have hrest : parts.dropWhile (· ≠ "src") ≠ [] := fun hnil => by
        have hall := List.dropWhile_eq_nil_iff.1 hnil "src" (List.contains_iff_mem.1 hsrc)
        simp at hall
      exact fileInRoot_of_hasPrefix (hasPrefix_intercalate hparts (List.cons_ne_nil _ _) hrest)
    · rfl

/-- The directory of a TypeScript marker is above the file. -/
def IsMarked (files : List String) (file : String) : Prop :=
  ∃ root ∈ typeScriptMarkerRoots files, fileInRoot file root = true

theorem coveredByRoot_detect_iff (hfile : file ∈ files) (hinput : isTypeScriptInput file = true) :
    coveredByRoot file (((detect files).filter (·.language = "typescript")).map Project.root) =
      true ↔ IsMarked files file :=
  coveredByRoot_iff (fun root => mem_typescript_roots) fun root _ hin hnested =>
    List.any_eq_true.2 ⟨file, hfile, by rw [hin, hnested, hinput]; rfl⟩

theorem mem_addInferredTypeScriptProjects :
    p ∈ addInferredTypeScriptProjects files (detect files) ↔ p ∈ detect files ∨
      ∃ file ∈ files, isTypeScriptInput file = true ∧ ¬IsMarked files file ∧
        p = typescript.project (inferTypeScriptRoot file) := by
  unfold addInferredTypeScriptProjects sortProjects
  rw [List.mem_insertionSort, mem_foldl_addProject_iff]
  · simp only [List.mem_map, List.mem_insertionSort, List.mem_eraseDups, List.mem_filter,
      Bool.and_eq_true, Bool.not_eq_true']
    refine or_congr_right ⟨?_, ?_⟩
    · rintro ⟨⟨_, ⟨file, ⟨hfile, hinput, huncovered⟩, rfl⟩, rfl⟩, -⟩
      have hunmarked := mt (coveredByRoot_detect_iff hfile hinput).2 (Bool.not_eq_true _ ▸ huncovered)
      exact ⟨file, hfile, hinput, hunmarked, rfl⟩
    · rintro ⟨file, hfile, hinput, hunmarked, rfl⟩
      have huncovered := mt (coveredByRoot_detect_iff hfile hinput).1 hunmarked
      refine ⟨⟨_, ⟨file, ⟨hfile, hinput, Bool.eq_false_iff.2 huncovered⟩, rfl⟩, rfl⟩, ?_⟩
      -- a project at the inferred root would cover the file
      rintro ⟨q, hq, hkey⟩
      obtain ⟨hlanguage, hroot⟩ := Prod.mk.inj hkey
      refine huncovered (List.any_eq_true.2 ⟨q.root, ?_, ?_⟩)
      · exact List.mem_map_of_mem (List.mem_filter.2 ⟨hq, decide_eq_true hlanguage⟩)
      · rw [hroot]
        exact fileInRoot_inferTypeScriptRoot file
  · simp only [List.mem_map]
    rintro _ ⟨root, -, rfl⟩ _ ⟨root', -, rfl⟩ hkey
    simp only [Project.key, Prod.mk.injEq] at hkey
    rw [hkey.2]

theorem hasLanguageClass_of_mem (h : p ∈ addInferredTypeScriptProjects files (detect files)) :
    HasLanguageClass p := by
  rcases mem_addInferredTypeScriptProjects.1 h with hdetected | ⟨file, -, -, -, rfl⟩
  · obtain ⟨d, hd, root, -, -, rfl⟩ := mem_detect.1 hdetected
    exact classOfLanguage_supported d hd
  · exact classOfLanguage_supported typescript (by decide)

theorem project_inferTypeScriptRoot_notMem_detect (h : ¬IsMarked files file) :
    typescript.project (inferTypeScriptRoot file) ∉ detect files := by
  intro hdetected
  have hroot : inferTypeScriptRoot file ∈
      ((detect files).filter (·.language = "typescript")).map Project.root :=
    List.mem_map.2 ⟨_, List.mem_filter.2 ⟨hdetected, rfl⟩, rfl⟩
  exact h ⟨_, (mem_typescript_roots.1 hroot).1, fileInRoot_inferTypeScriptRoot file⟩

end Found

def detectSnapshotPlan (tree : List TreeFile) (cfg : Config) : ProjectPlan :=
  let files := snapshotFiles tree
  let projects := addInferredTypeScriptProjects files (detect files)
  let runnable := (splitWorkerClasses projects cfg.workerClasses).1
  let skipped := (splitWorkerClasses projects cfg.workerClasses).2
  let maxProjects := (if cfg.maxProjects ≤ 0 then defaultMax else cfg.maxProjects).toNat
  { runnable := toPlannerProjects (runnable.take maxProjects),
    skipped := toPlannerProjects (skipped.take maxProjects) }

theorem runnable_language_ne_skipped {tree : List TreeFile} {cfg : Config} {P Q : SCIPProject}
    (hP : P ∈ (detectSnapshotPlan tree cfg).runnable)
    (hQ : Q ∈ (detectSnapshotPlan tree cfg).skipped) : P.language ≠ Q.language := by
  unfold detectSnapshotPlan toPlannerProjects at hP hQ
  obtain ⟨p, hp, rfl⟩ := List.mem_map.1 hP
  obtain ⟨q, hq, rfl⟩ := List.mem_map.1 hQ
  obtain ⟨hne, hpmem, hqmem⟩ :=
    splitWorkerClasses_ne (List.mem_of_mem_take hp) (List.mem_of_mem_take hq)
  intro heq
  have hpclass := hasLanguageClass_of_mem hpmem
  have hqclass := hasLanguageClass_of_mem hqmem
  unfold HasLanguageClass at hpclass hqclass
  dsimp only at heq
  rw [heq, hqclass] at hpclass
  exact hne (Option.some.inj hpclass).symm

end CodeIntel.Planner
