import CodeIntel.Relational.OverwritingMap
import CodeIntel.Relational.Table
import CodeIntel.Repos.Policy

/-!
# Normalising search results

The search engine answers with files of any repository it has shards for. The
backend looks up the repositories of the caller's organisation, decides which of
their revisions may be shown, and keeps the files that pass both checks. Bytes
are strings and counters are unbounded here.
-/

namespace CodeIntel.Search

open Relational Repos Schema Text

/-! ## Messages of the search engine -/

structure Location where
  (byteOffset lineNumber column : UInt32)
  deriving DecidableEq, Repr

/-- `webserver.v1.Range`. -/
structure ZoektRange where
  (start stop : Option Location)
  deriving DecidableEq, Repr

/-- `webserver.v1.SymbolInfo`. -/
structure ZoektSymbol where
  (sym kind parent parentKind : String)
  deriving DecidableEq, Repr

/-- `webserver.v1.ChunkMatch`. -/
structure ChunkMatch where
  content : String
  contentStart : Option Location
  fileName : Bool
  ranges : List ZoektRange
  symbolInfo : List (Option ZoektSymbol)
  deriving DecidableEq, Repr

/-- `webserver.v1.FileMatch`. -/
structure FileMatch where
  repositoryId : UInt32
  repository : String
  branches : List String
  fileName : String := ""
  chunkMatches : List ChunkMatch := []
  content : String := ""
  language : String := ""
  deriving DecidableEq, Repr

/-- The counters that `webserver.v1.Stats` and `searchStats` have in common. -/
structure EngineStats where
  duration : ℤ := 0
  filesSkipped : ℤ := 0
  contentBytesLoaded : ℤ := 0
  indexBytesLoaded : ℤ := 0
  crashes : ℤ := 0
  shardFilesConsidered : ℤ := 0
  filesConsidered : ℤ := 0
  filesLoaded : ℤ := 0
  shardsScanned : ℤ := 0
  shardsSkipped : ℤ := 0
  shardsSkippedFilter : ℤ := 0
  ngramMatches : ℤ := 0
  ngramLookups : ℤ := 0
  wait : ℤ := 0
  matchTreeConstruction : ℤ := 0
  matchTreeSearch : ℤ := 0
  regexpsConsidered : ℤ := 0
  flushReason : String := ""
  deriving DecidableEq, Repr

/-- `webserver.v1.Stats`. -/
structure ZoektStats extends EngineStats where
  matchCount : ℤ := 0
  deriving DecidableEq, Repr

/-- `webserver.v1.SearchResponse`. -/
structure ZoektResponse where
  stats : Option ZoektStats := none
  files : List FileMatch
  deriving DecidableEq, Repr

/-! ## Results -/

structure SymbolName where
  (symbol kind : String)
  deriving DecidableEq, Repr

/-- A parent has no parent of its own. -/
structure SymbolInfo where
  (symbol kind : String)
  parent : Option SymbolName := none
  deriving DecidableEq, Repr

structure SourceRange where
  (start stop : Location)
  deriving DecidableEq, Repr

structure SearchChunk where
  content : String
  matchRanges : List SourceRange
  contentStart : Location
  symbols : List SymbolInfo
  deriving DecidableEq, Repr

structure SearchFile where
  fileName : String
  fileNameRanges : List SourceRange
  repository : String
  repositoryId : ℤ
  language : String
  chunks : List SearchChunk
  branches : List String
  content : Option String
  deriving DecidableEq, Repr

structure SearchStats extends EngineStats where
  actualMatchCount : ℤ := 0
  totalMatchCount : ℤ := 0
  fileCount : ℤ := 0
  deriving DecidableEq, Repr

/-- The set of names holds the keys of the map. -/
structure RepositoryInfo where
  id : ℤ
  (codeHostType name : String)
  (displayName webUrl : Option String)
  enforceRevisionVisibility : Bool := false
  visibleRevisionNames : List String := []
  deriving DecidableEq, Repr

structure SearchResponse where
  stats : SearchStats
  files : List SearchFile
  repositoryInfo : List RepositoryInfo
  isSearchExhaustive : Bool
  deriving DecidableEq, Repr

/-- `db.SearchRepoRow`: a repository with its latest job. -/
structure SearchRepoRow where
  id : ℤ
  name : String
  displayName : Option String := none
  codeHostType : String := ""
  webUrl : Option String := none
  defaultBranch : Option String := none
  indexedAt : Option Time := none
  metadata : Option RepoMetadata := none
  latestJobType : Option JobType := none
  latestJobStatus : Option JobStatus := none
  deriving DecidableEq, Repr

/-! ## Converting a match -/

/-- The conversion `int32(x)`. -/
def int32 (x : UInt32) : ℤ := x.toInt32.toInt

def convertLocation : Option Location → Location
  | none => ⟨0, 1, 1⟩
  | some l =>
    { byteOffset := l.byteOffset
      lineNumber := if l.lineNumber = 0 then 1 else l.lineNumber
      column := if l.column = 0 then 1 else l.column }

def convertRanges (ranges : List ZoektRange) : List SourceRange :=
  ranges.map fun r => ⟨convertLocation r.start, convertLocation r.stop⟩

def convertSymbols (symbols : List (Option ZoektSymbol)) : List SymbolInfo :=
  symbols.reduceOption.map fun s =>
    { symbol := s.sym
      kind := s.kind
      parent := if s.parent ≠ "" || s.parentKind ≠ "" then some ⟨s.parent, s.parentKind⟩ else none }

def countActualMatches (files : List SearchFile) : ℤ :=
  (files.map fun file => (file.fileNameRanges.length : ℤ) +
    (file.chunks.map fun chunk => (chunk.matchRanges.length : ℤ)).sum).sum

/-- The two counts of matches are set by `normalize`. -/
def accumulateStats (acc : SearchStats) : Option ZoektStats → SearchStats
  | none => acc
  | some stats =>
    { acc with
      totalMatchCount := acc.totalMatchCount + stats.matchCount
      duration := acc.duration + stats.duration
      filesSkipped := acc.filesSkipped + stats.filesSkipped
      contentBytesLoaded := acc.contentBytesLoaded + stats.contentBytesLoaded
      indexBytesLoaded := acc.indexBytesLoaded + stats.indexBytesLoaded
      crashes := acc.crashes + stats.crashes
      shardFilesConsidered := acc.shardFilesConsidered + stats.shardFilesConsidered
      filesConsidered := acc.filesConsidered + stats.filesConsidered
      filesLoaded := acc.filesLoaded + stats.filesLoaded
      shardsScanned := acc.shardsScanned + stats.shardsScanned
      shardsSkipped := acc.shardsSkipped + stats.shardsSkipped
      shardsSkippedFilter := acc.shardsSkippedFilter + stats.shardsSkippedFilter
      ngramMatches := acc.ngramMatches + stats.ngramMatches
      ngramLookups := acc.ngramLookups + stats.ngramLookups
      wait := acc.wait + stats.wait
      matchTreeConstruction := acc.matchTreeConstruction + stats.matchTreeConstruction
      matchTreeSearch := acc.matchTreeSearch + stats.matchTreeSearch
      regexpsConsidered := acc.regexpsConsidered + stats.regexpsConsidered
      flushReason := stats.flushReason }

def stripSearchRefPrefix (ref : String) : String :=
  trimPrefix (trimPrefix ref "refs/heads/") "refs/tags/"

/-! ## The two filters -/

structure RepoBranchPair where
  (repoName branch : String)
  deriving DecidableEq, Repr

/-- `branchPolicyFilter.allows`; `none` is the nil filter. -/
def policyAllows (filter : Option (List RepoBranchPair)) (repoName : String)
    (branches : List String) : Bool :=
  match filter with
  | none => true
  | some pairs =>
    if pairs.isEmpty then true
    else if repoName = "" || branches.isEmpty then false
    else pairs.any fun pair => pair.repoName = repoName &&
      branches.any fun branch => pair.branch = branch || pair.branch = stripSearchRefPrefix branch

def searchBlockedByRemoveIndex (row : SearchRepoRow) : Bool :=
  row.latestJobType = some .removeIndex &&
    (row.latestJobStatus = some .pending || row.latestJobStatus = some .inProgress ||
      row.latestJobStatus = some .failed)

/-- `addVisibleRevisionName`: the names a revision adds to the set. -/
def visibleNamesOf (revision : String) : List String :=
  if revision = "" then []
  else if hasPrefix revision "refs/heads/" then [revision, trimPrefix revision "refs/heads/"]
  else if hasPrefix revision "refs/tags/" then [revision, trimPrefix revision "refs/tags/"]
  else [revision]

def branchRevision (branch : String) : String :=
  if hasPrefix branch "refs/heads/" then branch else "refs/heads/" ++ branch

def rowInput (row : SearchRepoRow) : RepoInput := ⟨row.metadata, row.defaultBranch⟩

def plainInfo (row : SearchRepoRow) : RepositoryInfo where
  id := row.id
  codeHostType := row.codeHostType
  name := row.name
  displayName := row.displayName
  webUrl := row.webUrl

section Visibility

variable (glob : String → Option (String → Bool))

/-- The revisions of an indexed row that may be shown: those its policy leaves visible, and
without any its default branch, if the policy allows it. -/
def shownRevisions (row : SearchRepoRow) : List String :=
  let visible := getPolicyVisibleIndexedRevisions glob (rowInput row)
  if visible.isEmpty then
    match row.defaultBranch with
    | none => []
    | some default =>
      if default ≠ "" && isBranchAllowedByIndexPolicy glob (rowInput row) default then
        [branchRevision default]
      else []
  else visible

def addRevisionVisibility (info : RepositoryInfo) (row : SearchRepoRow) : RepositoryInfo :=
  if searchBlockedByRemoveIndex row || row.indexedAt.isNone then
    { info with enforceRevisionVisibility := true, visibleRevisionNames := [] }
  else match row.metadata with
    | none => info
    | some md =>
      let visible := shownRevisions glob row
      if visible.isEmpty && md.branches.isEmpty && row.defaultBranch.isNone then info
      else
        let names := visible.flatMap visibleNamesOf
        { info with
          enforceRevisionVisibility := true
          visibleRevisionNames :=
            if row.defaultBranch.any fun default => default ≠ "" && names.contains default then
              "HEAD" :: names
            else names }

/-- The entry `lookupRepos` stores for a row. -/
def infoOf (row : SearchRepoRow) : RepositoryInfo := addRevisionVisibility glob (plainInfo row) row

end Visibility

def fileBranchesVisible (branches : List String) (info : RepositoryInfo) : Bool :=
  if !info.enforceRevisionVisibility then true
  else if info.visibleRevisionNames.isEmpty || branches.isEmpty then false
  else branches.any fun branch => info.visibleRevisionNames.contains branch ||
    info.visibleRevisionNames.contains (stripSearchRefPrefix branch)

/-! ## Looking up repositories -/

structure RepoKey where
  id : ℤ := 0
  name : String := ""
  deriving DecidableEq, Repr

/-- `ListOrgSearchRepos` of the configured lookup: organisation, ids, names. -/
abbrev RepoLookup := ℤ → List ℤ → List String → Except String (List SearchRepoRow)

def collectRepoRefs (responses : List ZoektResponse) : List ℤ × List String :=
  let files := responses.flatMap ZoektResponse.files
  (((files.filter fun file => 0 < file.repositoryId).map fun file => int32 file.repositoryId).eraseDups,
    ((files.filter fun file => !(0 < file.repositoryId) && file.repository ≠ "").map
      FileMatch.repository).eraseDups)

/-- Each repository under its id and under its name. -/
def lookupRepos (glob : String → Option (String → Bool)) (repoLookup : Option RepoLookup)
    (orgId : ℤ) (repoIds : List ℤ) (repoNames : List String) :
    Except String (RepoKey → Option RepositoryInfo) :=
  match repoLookup with
  | none =>
    .ok (insertAll Prod.fst Prod.snd (fun _ => none)
      (repoIds.map (fun id => (⟨id, ""⟩, ⟨id, "generic-git-host", "", none, none, false, []⟩)) ++
        repoNames.map fun name =>
          (⟨0, name⟩, ⟨0, "generic-git-host", name, none, none, false, []⟩)))
  | some listOrgSearchRepos =>
    match listOrgSearchRepos orgId repoIds repoNames with
    | .error e => .error e
    | .ok rows =>
      .ok (insertAll Prod.fst Prod.snd (fun _ => none)
        (rows.flatMap fun row =>
          [(⟨row.id, ""⟩, infoOf glob row), (⟨0, row.name⟩, infoOf glob row)]))

/-! ## Normalising files -/

/-- The repository entry of a file: the id is authoritative, and required when a lookup is
configured. -/
def fileInfo (file : FileMatch) (repos : RepoKey → Option RepositoryInfo)
    (requireRepositoryId : Bool) : Option RepositoryInfo :=
  if 0 < file.repositoryId then repos ⟨int32 file.repositoryId, ""⟩
  else if requireRepositoryId then none
  else repos ⟨0, file.repository⟩

/-- The defaults `normalizeFile` fills in. -/
def completeInfo (file : FileMatch) (info : RepositoryInfo) : RepositoryInfo :=
  { info with
    id := if info.id = 0 then int32 file.repositoryId else info.id
    name := if info.name = "" then file.repository else info.name
    codeHostType := if info.codeHostType = "" then "generic-git-host" else info.codeHostType }

def searchFileOf (file : FileMatch) (info : RepositoryInfo) : SearchFile where
  fileName := file.fileName
  fileNameRanges := (file.chunkMatches.filter ChunkMatch.fileName).flatMap fun chunk =>
    convertRanges chunk.ranges
  repository := info.name
  repositoryId := info.id
  language := file.language
  chunks := (file.chunkMatches.filter fun chunk => !chunk.fileName).map fun chunk =>
    { content := chunk.content
      matchRanges := convertRanges chunk.ranges
      contentStart := convertLocation chunk.contentStart
      symbols := convertSymbols chunk.symbolInfo }
  branches := file.branches
  content := if file.content = "" then none else some file.content

def normalizeFile (file : FileMatch) (repos : RepoKey → Option RepositoryInfo)
    (requireRepositoryId : Bool) : Option (SearchFile × RepositoryInfo) :=
  match fileInfo file repos requireRepositoryId with
  | none => none
  | some found =>
    let info := completeInfo file found
    if fileBranchesVisible file.branches info then some (searchFileOf file info, info) else none

def repositoryInfoKey (info : RepositoryInfo) : String :=
  if 0 < info.id then "id:" ++ toString info.id else "name:" ++ info.name

/-- The variables of the loop in `normalize`. -/
structure Normalized where
  stats : SearchStats := {}
  files : List SearchFile := []
  repoInfoByKey : List RepositoryInfo := []
  filtered : Bool := false

def addFile (policyFilter : Option (List RepoBranchPair)) (repos : RepoKey → Option RepositoryInfo)
    (requireRepositoryId : Bool) (acc : Normalized) (file : FileMatch) : Normalized :=
  if !policyAllows policyFilter file.repository file.branches then { acc with filtered := true }
  else match normalizeFile file repos requireRepositoryId with
    | none => { acc with filtered := true }
    | some (normalized, info) =>
      { acc with
        files := acc.files ++ [normalized]
        repoInfoByKey := upsert (fun old => repositoryInfoKey old = repositoryInfoKey info)
          (fun _ => info) info acc.repoInfoByKey }

def addResponse (policyFilter : Option (List RepoBranchPair))
    (repos : RepoKey → Option RepositoryInfo) (requireRepositoryId : Bool) (acc : Normalized)
    (response : ZoektResponse) : Normalized :=
  response.files.foldl (addFile policyFilter repos requireRepositoryId)
    { acc with stats := accumulateStats acc.stats response.stats }

def finishStats (acc : Normalized) : SearchStats :=
  let actual := countActualMatches acc.files
  { acc.stats with
    actualMatchCount := actual
    totalMatchCount :=
      if acc.filtered || acc.stats.totalMatchCount = 0 then actual else acc.stats.totalMatchCount
    fileCount := acc.files.length }

/-- The repositories stand in the order of their first file. -/
def normalize (glob : String → Option (String → Bool)) (repoLookup : Option RepoLookup) (orgId : ℤ)
    (responses : List ZoektResponse) (policyFilter : Option (List RepoBranchPair)) :
    Except String SearchResponse :=
  match lookupRepos glob repoLookup orgId (collectRepoRefs responses).1
      (collectRepoRefs responses).2 with
  | .error e => .error e
  | .ok repos =>
    let acc := responses.foldl (addResponse policyFilter repos repoLookup.isSome) {}
    .ok
      { stats := finishStats acc
        files := acc.files
        repositoryInfo := acc.repoInfoByKey
        isSearchExhaustive := (finishStats acc).totalMatchCount ≤ (finishStats acc).actualMatchCount }

end CodeIntel.Search
