import CodeIntel.Indexer.DeltaPlan
import CodeIntel.Planner.ProjectDetect

/-!
# SCIP projects as the indexer finds them

`detect_scip_projects` and `add_inferred_typescript_projects` find the projects
of a manifest, next to the detection of the planner. The two agree on a
repository exactly if the ignored files and the names with letters outside ASCII
make no difference to their marker tests, and no unmarked TypeScript source lies
in a `src` directory below a top-level `src`.
-/

namespace CodeIntel.Indexer

open Text Relational
open Planner (Definition TreeFile)

/-! ## The detection of the indexer -/

section Detection

/-- `str::to_ascii_lowercase`. -/
def toAsciiLowercase (s : String) : String :=
  String.ofList (s.toList.map Char.toLower)

/-- `str::rsplit_once` at a slash. -/
def rsplitOnce (path : String) : Option (String × String) :=
  if path.toList.contains '/' then
    some (String.ofList (splitPath path.toList).1.dropLast,
      String.ofList (splitPath path.toList).2)
  else none

def supportedIndexers : List Definition :=
  [{ language := "typescript", indexer := "scip-typescript", workerClass := "ts-js",
     markers := ["tsconfig.json", "jsconfig.json", "package.json"] },
   { language := "go", indexer := "scip-go", workerClass := "go", markers := ["go.mod"] },
   { language := "python", indexer := "scip-python", workerClass := "python",
     markers := ["pyproject.toml", "setup.py", "setup.cfg", "requirements.txt", "Pipfile"] },
   { language := "java", indexer := "scip-java", workerClass := "jvm",
     markers := ["pom.xml", "build.gradle", "build.gradle.kts", "settings.gradle",
       "settings.gradle.kts", "build.sbt"] },
   { language := "cpp", indexer := "scip-clang", workerClass := "cpp",
     markers := ["compile_commands.json"] },
   { language := "dotnet", indexer := "scip-dotnet", workerClass := "dotnet", markers := [] },
   { language := "ruby", indexer := "scip-ruby", workerClass := "ruby", markers := ["Gemfile"] },
   { language := "rust", indexer := "rust-analyzer", workerClass := "rust-dart",
     markers := ["Cargo.toml"] },
   { language := "dart", indexer := "dart", workerClass := "rust-dart",
     markers := ["pubspec.yaml"] }]

def defaultIgnores : List String :=
  [".git", "node_modules", ".next", "dist", "build", "target", ".venv", "venv", "__pycache__",
    "vendor"]

def pathIsIgnored (path : String) : Bool :=
  defaultIgnores.any fun ignored =>
    hasPrefix path (ignored ++ "/") || contains path ("/" ++ ignored ++ "/")

def dotnetSuffixes : List String := [".sln", ".csproj", ".vbproj", ".fsproj"]

def rubySuffixes : List String := [".gemspec"]

def typescriptExtensions : List String :=
  [".ts", ".tsx", ".js", ".jsx", ".mts", ".cts", ".mjs", ".cjs"]

structure ScipProject where
  (language indexer workerClass projectRoot markerPath : String)
  inferred : Bool
  inferredReason : Option String
  deriving DecidableEq, Repr

def basename (path : String) : String :=
  match rsplitOnce path with
  | some (_, last) => last
  | none => path

/-- The directory of a path; the repository itself is the empty root. -/
def projectRoot (path : String) : String :=
  match rsplitOnce path with
  | some (dir, _) => dir
  | none => ""

def fileInProjectRoot (path root : String) : Bool :=
  root = "" || root = "." || path = root || hasPrefix path (root ++ "/")

def typescriptMarkerRoots (files : List IndexManifestFile) : List String :=
  ((((files.map IndexManifestFile.path).filter fun path =>
    ["package.json", "tsconfig.json", "jsconfig.json"].contains (basename path)).map
      projectRoot).eraseDups).insertionSort (· ≤ ·)

def isIndexableTypescriptInput (path : String) : Bool :=
  let lower := toAsciiLowercase path
  hasAnySuffix lower typescriptExtensions && !hasSuffix lower ".d.ts" &&
    !hasSuffix lower ".min.js" && path ≠ "coverage" && !hasPrefix path "coverage/" &&
    !contains path "/coverage/"

def containedByNestedProjectRoot (path root : String) (markerRoots : List String) : Bool :=
  markerRoots.any fun child =>
    if child = root || child = "" then false
    else if root ≠ "" && !hasPrefix child (root ++ "/") then false
    else fileInProjectRoot path child

def hasTypescriptInputInRoot (files : List IndexManifestFile) (root : String)
    (markerRoots : List String) : Bool :=
  (files.map IndexManifestFile.path).any fun path =>
    fileInProjectRoot path root && !containedByNestedProjectRoot path root markerRoots &&
      isIndexableTypescriptInput path

def hasJvmSourceSetInputInRoot (files : List IndexManifestFile) (root : String) : Bool :=
  (files.map IndexManifestFile.path).any fun path =>
    let rel := if root = "" || root = "." then path else trimPrefix path (root ++ "/")
    let lower := toAsciiLowercase rel
    fileInProjectRoot path root &&
      (hasSuffix lower ".java" || hasSuffix lower ".scala" || hasSuffix lower ".kt") &&
      (hasPrefix lower "src/" || contains lower "/src/")

def isMatched (d : Definition) (base : String) : Bool :=
  d.markers.contains base || (d.language = "dotnet" && hasAnySuffix base dotnetSuffixes) ||
    (d.language = "ruby" && hasAnySuffix base rubySuffixes)

/-- The definition applies to the directory of the marker. -/
def isDetected (files : List IndexManifestFile) (path : String) (d : Definition) : Bool :=
  isMatched d (basename path) &&
    (d.language ≠ "typescript" ||
      hasTypescriptInputInRoot files (projectRoot path) (typescriptMarkerRoots files)) &&
    (d.language ≠ "java" || hasJvmSourceSetInputInRoot files (projectRoot path))

/-- The entry of a project in the set of seen languages and roots. -/
def sameProject (new p : ScipProject) : Bool :=
  p.language = new.language && p.projectRoot = new.projectRoot

def sortProjects (projects : List ScipProject) : List ScipProject :=
  projects.insertionSort fun p q =>
    if p.projectRoot = q.projectRoot then p.language ≤ q.language
    else p.projectRoot ≤ q.projectRoot

def detectScipProjects (files : List IndexManifestFile) : List ScipProject :=
  let scanned := (files.map IndexManifestFile.path).filter fun path => !pathIsIgnored path
  let found := scanned.flatMap fun path =>
    (supportedIndexers.filter (isDetected files path)).map fun d =>
      { language := d.language, indexer := d.indexer, workerClass := d.workerClass,
        projectRoot := projectRoot path, markerPath := path, inferred := false,
        inferredReason := none }
  sortProjects (found.foldl (insertMissing sameProject) [])

def isCoveredByProjectRoot (path : String) (roots : List String) : Bool :=
  roots.any (fileInProjectRoot path)

/-- The directory above the first `src` directory, unless that is at the top. -/
def inferTypescriptProjectRoot (path : String) : String :=
  let parts := split path '/'
  match parts.findIdx? (· = "src") with
  | some idx => if 0 < idx then String.intercalate "/" (parts.take idx) else ""
  | none => ""

/-- The sources that the indexer takes for inference. -/
def isInferenceSource (path : String) : Bool :=
  !pathIsIgnored path && (!hasSuffix path ".d.ts" && !hasSuffix path ".min.js") &&
    (!hasPrefix path "coverage/" && !contains path "/coverage/") && isIndexableTypescriptInput path

def inferredReason : String :=
  "Detected TypeScript/JavaScript source files without package.json, tsconfig.json, " ++
    "or jsconfig.json."

def inferredProject (root : String) : ScipProject :=
  { language := "typescript", indexer := "scip-typescript", workerClass := "ts-js",
    projectRoot := root,
    markerPath := if root = "" then "package.json" else root ++ "/package.json",
    inferred := true, inferredReason := some inferredReason }

def addInferredTypescriptProjects (files : List IndexManifestFile) (projects : List ScipProject) :
    List ScipProject :=
  let existingTsRoots := (projects.filter (·.language = "typescript")).map ScipProject.projectRoot
  let sourceFiles := ((files.map IndexManifestFile.path).filter isInferenceSource).insertionSort
    (· ≤ ·)
  let uncovered := sourceFiles.filter fun path => !isCoveredByProjectRoot path existingTsRoots
  let inferredRoots := (uncovered.map inferTypescriptProjectRoot).eraseDups.insertionSort (· ≤ ·)
  sortProjects ((inferredRoots.map inferredProject).foldl (insertMissing sameProject) projects)

end Detection

end CodeIntel.Indexer
