import Mathlib.Data.List.Sort
import CodeIntel.Text.GoPath

/-!
# The files of a commit

`buildManifestFilesForCommit` lists the files of a commit tree with their blob
hashes and assigns every file the nearest directory that holds a build marker.
-/

namespace CodeIntel.Planner

open Text

/-- The modes under which a tree lists a file. -/
inductive FileMode
  | regular
  | executable
  | symlink
  | deprecated
  deriving DecidableEq, Repr

/-- A file of a commit tree; `hash` is the hash of its blob. -/
structure TreeFile where
  name : String
  mode : FileMode
  hash : String
  deriving DecidableEq, Repr

structure ManifestFileRow where
  (path contentHash : String)
  (language projectRoot : Option String)
  (generated vendor test : Bool)
  deriving DecidableEq, Repr

def isManifestFileMode (mode : FileMode) : Bool :=
  mode = .regular || mode = .executable || mode = .symlink

def normalizeManifestPath (value : String) : String :=
  trimLeft (replaceChar value '\\' '/') '/'

def manifestRootMarkers : List String :=
  ["package.json", "tsconfig.json", "jsconfig.json", "go.mod", "pyproject.toml", "setup.py",
    "requirements.txt", "pom.xml", "build.gradle", "build.sbt", "compile_commands.json",
    "Cargo.toml", "Gemfile", "pubspec.yaml"]

def manifestRootMarkerSuffixes : List String :=
  [".csproj", ".vbproj", ".fsproj", ".sln", ".gemspec"]

def isManifestRootMarker (base : String) : Bool :=
  manifestRootMarkers.contains base || hasAnySuffix base manifestRootMarkerSuffixes

/-- The directory a marker file stands for. -/
def manifestMarkerRoot (p : String) : String :=
  let root := dirPath p
  if root = "." || root = "/" then "." else root

/-- The marked directories, the longest first; the repository itself is one of them. -/
def detectManifestProjectRoots (paths : List String) : List String :=
  let marked := (paths.filter fun p => isManifestRootMarker (basePath p)).map manifestMarkerRoot
  ("." :: marked).eraseDups.insertionSort fun r r' => r'.utf8ByteSize ≤ r.utf8ByteSize

def nearestManifestProjectRoot (filePath : String) (roots : List String) : String :=
  (roots.find? fun root =>
    root = "." || filePath = root || hasPrefix filePath (root ++ "/")).getD "."

def inferManifestLanguage (filePath : String) : String :=
  let ext := toLower (extPath filePath)
  if [".ts", ".tsx", ".js", ".jsx", ".mjs", ".cjs"].contains ext then "typescript"
  else if ext = ".go" then "go"
  else if ext = ".py" then "python"
  else if [".java", ".kt", ".scala"].contains ext then "jvm"
  else if [".c", ".cc", ".cpp", ".cxx", ".h", ".hpp", ".hh"].contains ext then "cpp"
  else if [".cs", ".vb", ".fs"].contains ext then "dotnet"
  else if ext = ".rb" then "ruby"
  else if ext = ".rs" then "rust"
  else if ext = ".dart" then "dart"
  else if [".md", ".mdx", ".rst", ".txt"].contains ext then "docs"
  else if [".json", ".yaml", ".yml", ".toml", ".xml", ".gradle", ".sbt"].contains ext then "config"
  else ""

def hasManifestDirSegment (filePath segment : String) : Bool :=
  hasPrefix filePath (segment ++ "/") || contains filePath ("/" ++ segment ++ "/")

/-- A path of several segments is found the same way as one of them. -/
def hasManifestDirPathPrefix (filePath pathPrefix : String) : Bool :=
  hasManifestDirSegment filePath pathPrefix

def isGeneratedManifestPath (filePath : String) : Bool :=
  (["dist", "build", "coverage", "target", "generated", "gen"].any
      (hasManifestDirSegment filePath)) ||
    hasManifestDirPathPrefix filePath "vendor/bundle" ||
    contains filePath ".generated." || hasSuffix filePath ".min.js"

def isVendorManifestPath (filePath : String) : Bool :=
  ["node_modules", "vendor", "third_party", ".venv", "venv"].any (hasManifestDirSegment filePath)

def isTestManifestPath (filePath : String) : Bool :=
  ["__tests__", "test", "tests", "spec"].any (hasManifestDirSegment filePath) ||
    match (split (basePath filePath) '.').reverse with
    | last :: category :: _ :: _ => (category = "test" || category = "spec") && last ≠ ""
    | _ => false

def stringPtr (value : String) : Option String :=
  if value = "" then none else some value

def rawManifestFile (file : TreeFile) : Option ManifestFileRow :=
  let p := normalizeManifestPath file.name
  if !isManifestFileMode file.mode || p = "" then none
  else some
    { path := p, contentHash := file.hash, language := stringPtr (inferManifestLanguage p),
      projectRoot := none, generated := isGeneratedManifestPath p,
      vendor := isVendorManifestPath p, test := isTestManifestPath p }

def buildManifestFilesForCommit (tree : List TreeFile) : List ManifestFileRow :=
  let raw := tree.filterMap rawManifestFile
  let projectRoots := detectManifestProjectRoots (raw.map ManifestFileRow.path)
  (raw.map fun f =>
    { f with projectRoot := some (nearestManifestProjectRoot f.path projectRoots) }).insertionSort
    fun f f' => f.path ≤ f'.path

end CodeIntel.Planner
