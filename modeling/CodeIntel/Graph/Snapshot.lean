import CodeIntel.Subjobs.Store

/-!
# The SCIP projection of the code graph

The merge handler loads the SCIP rows of one revision and projects them to a
graph snapshot: one vertex for each symbol and importing file, one edge for each
relationship and reference. Vertex identifiers hash the tenant, the repository,
the commit and the builder; the revision only enters the properties. The digest
functions are parameters.
-/

namespace CodeIntel.Graph

open Relational Schema Subjobs Text

/-- The task payload carries the same scope a claim does. -/
abbrev Payload := ClaimScope

def workspaceOf (p : Payload) : String := coalesce p.workspaceId

def defaultSchemaVersion : ℤ := 1

def defaultBuilder : String := "codeintel-code-graph-v7"

/-- `graphschema.SpaceName`. -/
def graphSpaceName : String := "codeintel"

/-- The digests the writers use: hexadecimal SHA-256 and the edge rank. -/
structure Digests where
  sha256Hex : String → String
  edgeRank : String → ℤ

/-- A property value; absent values are not stored. -/
inductive Primitive where
  | str (value : String)
  | int (value : ℤ)
  | hundredths (value : ℕ)
  deriving DecidableEq, Repr

/-- A property map, one entry for each key. -/
abbrev Props := List (String × Primitive)

structure Vertex where
  (vid kind : String)
  props : Props
  deriving DecidableEq, Repr

structure Edge where
  (fromVid toVid kind : String)
  rank : ℤ
  props : Props
  deriving DecidableEq, Repr

/-- The first `n` hex digits of the digest of the NUL-joined parts. -/
def hashParts (d : Digests) (parts : List String) (n : ℕ) : String :=
  String.ofList ((d.sha256Hex ("\x00".intercalate parts)).toList.take n)

def codeGraphVID (d : Digests) (p : Payload) (kind key : String) : String :=
  "cg:o" ++ toString p.orgId ++ ":w" ++ hashParts d [workspaceOf p] 8 ++ ":r" ++
    toString p.repoId ++ ":c" ++ String.ofList (p.commitHash.toList.take 12) ++ ":s" ++
    toString defaultSchemaVersion ++ ":b" ++ hashParts d [defaultBuilder] 8 ++ ":" ++ kind ++
    ":" ++ hashParts d [toString p.orgId, workspaceOf p, toString p.repoId, p.commitHash,
      toString defaultSchemaVersion, defaultBuilder, kind, key] 32

/-- The properties that scope a vertex or an edge. -/
def scopeProps (p : Payload) : Props :=
  [("orgId", .int p.orgId), ("workspaceId", .str (workspaceOf p)), ("repoId", .int p.repoId),
    ("revision", .str p.revision), ("commitHash", .str p.commitHash),
    ("schemaVersion", .int defaultSchemaVersion), ("builderVersion", .str defaultBuilder)]

/-- Missing and empty values are dropped, the rest is laid over the scope. -/
def scopedProps (p : Payload) (props : List (String × Option Primitive)) : Props :=
  let kept := props.filterMap fun (k, v) =>
    match v with
    | none => none
    | some (.str "") => none
    | some v => some (k, v)
  (scopeProps p).filter (fun (k, _) => !kept.any fun (k', _) => k' = k) ++ kept

/-! ## Loading the rows of a revision -/

structure SymbolProjection where
  (symbol displayName kind language filePath : String)
  (startLine endLine : Option ℤ)
  deriving DecidableEq, Repr

structure RelationshipProjection where
  (sourceSymbol targetSymbol : String)
  (isReference isImplementation isTypeDefinition isDefinition : Bool)
  sourceFile : String
  (startLine endLine : Option ℤ)
  deriving DecidableEq, Repr

structure OccurrenceProjection where
  (symbol filePath : String)
  (startLine endLine : Option ℤ)
  role : OccurrenceRole
  (syntaxKind lineContent enclosingSymbol : String)
  deriving DecidableEq, Repr

structure ScipRows where
  symbols : List SymbolProjection
  relationships : List RelationshipProjection
  occurrences : List OccurrenceProjection
  deriving DecidableEq, Repr

def ScipRows.isEmpty (rows : ScipRows) : Bool :=
  rows.symbols.isEmpty && rows.relationships.isEmpty && rows.occurrences.isEmpty

/-- The index belongs to the revision and may be projected. -/
def indexOfRevision (p : Payload) (ci : CodeIntelIndex) : Bool :=
  ci.orgId = p.orgId && ci.repoId = p.repoId && ci.workspaceId = workspaceOf p &&
    ci.branch = p.branch && ci.revision = p.revision && ci.commitHash = p.commitHash &&
    (ci.status = .ready || ci.status = .partialReady)

/-- The joins on index and language index shared by the three queries. -/
def projectable (p : Payload) (db : Database) (orgId repoId : ℤ)
    (indexId languageIndexId : String) : Bool :=
  db.codeIntelIndexes.any fun ci =>
    ci.id = indexId && ci.orgId = orgId && ci.repoId = repoId && indexOfRevision p ci &&
      db.languageIndexes.any fun li =>
        li.id = languageIndexId && li.codeIntelIndexId = ci.id && li.status = .ready

/-- An `ORDER BY` key for a nullable column with `NULLS LAST`. -/
def nullsLast {κ : Type} (default : κ) (column : Option κ) : ℕ ×ₗ κ :=
  match column with
  | some value => toLex (0, value)
  | none => toLex (1, default)

/-- The first query of `loadSCIPProjectionRows`. -/
def loadSymbols (p : Payload) (db : Database) : List SymbolProjection :=
  let rows := db.symbols.filter fun s =>
    projectable p db s.orgId s.repoId s.codeIntelIndexId s.codeIntelLanguageIndexId
  let key := fun s : CodeIntelSymbol =>
    toLex (nullsLast "" s.filePath, toLex (nullsLast 0 s.startLine, s.symbol))
  (rows.insertionSort fun s s' => key s ≤ key s').map fun s =>
    { symbol := s.symbol
      displayName := coalesce s.displayName
      kind := coalesce s.kind
      language := coalesce s.language
      filePath := coalesce s.filePath
      startLine := s.startLine
      endLine := s.endLine }

/-- The second query of `loadSCIPProjectionRows`. -/
def loadRelationships (p : Payload) (db : Database) : List RelationshipProjection :=
  let rows := db.relationships.filter fun r =>
    projectable p db r.orgId r.repoId r.codeIntelIndexId r.codeIntelLanguageIndexId
  let key := fun r : CodeIntelRelationship => toLex (r.sourceSymbol, r.targetSymbol)
  (rows.insertionSort fun r r' => key r ≤ key r').map fun r =>
    let src := db.symbols.find? fun s =>
      s.codeIntelIndexId = r.codeIntelIndexId && s.symbol = r.sourceSymbol
    { sourceSymbol := r.sourceSymbol
      targetSymbol := r.targetSymbol
      isReference := r.isReference
      isImplementation := r.isImplementation
      isTypeDefinition := r.isTypeDefinition
      isDefinition := r.isDefinition
      sourceFile := coalesce (src.bind CodeIntelSymbol.filePath)
      startLine := src.bind CodeIntelSymbol.startLine
      endLine := src.bind CodeIntelSymbol.endLine }

/-- The occurrence and file limits read from the environment. -/
structure ProjectionCaps where
  occurrences : ℕ := 30000
  files : ℕ := 600

def roleOrder : OccurrenceRole → ℕ
  | .imported => 0
  | .reference => 1
  | _ => 2

/-- The third query of `loadSCIPProjectionRows`: references and imports of the
first `files` files. -/
def loadOccurrences (caps : ProjectionCaps) (p : Payload) (db : Database) :
    List OccurrenceProjection :=
  let rows := db.occurrences.filter fun o =>
    projectable p db o.orgId o.repoId o.codeIntelIndexId o.codeIntelLanguageIndexId &&
      (o.role = .reference || o.role = .imported || o.role = .read) && o.symbol ≠ "" &&
      (o.role = .imported || coalesce o.enclosingSymbol ≠ "")
  let files := (((rows.map CodeIntelOccurrence.filePath).dedup).insertionSort (· ≤ ·)).take
    caps.files
  let key := fun o : CodeIntelOccurrence =>
    toLex (roleOrder o.role, toLex (o.filePath, toLex (nullsLast 0 o.startLine,
      toLex (nullsLast 0 o.startCharacter, o.symbol))))
  let picked := ((rows.filter fun o => files.contains o.filePath).insertionSort
    fun o o' => key o ≤ key o').take caps.occurrences
  picked.map fun o =>
    { symbol := o.symbol
      filePath := o.filePath
      startLine := o.startLine
      endLine := o.endLine
      role := o.role
      syntaxKind := coalesce o.syntaxKind
      lineContent := coalesce o.lineContent
      enclosingSymbol := coalesce o.enclosingSymbol }

def loadSCIPProjectionRows (caps : ProjectionCaps) (p : Payload) (db : Database) : ScipRows where
  symbols := loadSymbols p db
  relationships := loadRelationships p db
  occurrences := loadOccurrences caps p db

/-! ## Reading occurrences -/

def lowerAscii (s : String) : String := String.ofList (s.toList.map Char.toLower)

def nonEmpty (value fallback : String) : String := if isBlank value then fallback else value

/-- The last descriptor of a symbol. -/
def scipDisplayNameFromSymbol (symbol : String) : String :=
  let body := (trimSpaceChars symbol.toList).reverse.dropWhile
    fun c => ['.', '#', ')', '(', ']'].contains c
  String.ofList (body.takeWhile fun c =>
    !(['/', '#', '.', ' ', '(', '[', ':'].contains c)).reverse

/-- Some match of `name`, scanning past each match, is followed by an opening
parenthesis. `fuel` bounds the scanned characters. -/
def callFollows (name : List Char) : ℕ → List Char → Bool
  | 0, _ => false
  | _ + 1, [] => false
  | fuel + 1, c :: cs =>
    if name.isPrefixOf (c :: cs) then
      let after := (c :: cs).drop name.length
      ['('].isPrefixOf (after.dropWhile fun c => c = ' ' || c = '\t') ||
        callFollows name fuel after
    else callFollows name fuel cs

def looksLikeCallExpression (line symbolName : String) : Bool :=
  symbolName ≠ "" && callFollows symbolName.toList (line.toList.length + 1) line.toList

def looksLikeImportOccurrence (occ : OccurrenceProjection) : Bool :=
  let line := trimSpace occ.lineContent
  let lower := lowerAscii line
  if line = "" then false
  else if hasPrefix lower "import " || hasPrefix lower "from " || hasPrefix lower "require(" ||
      contains lower " require(" then true
  else if contains line "\"" && !contains line "(" && !contains line "=" then
    let symbol := lowerAscii occ.symbol
    contains symbol " gomod " || contains symbol " npm " || contains symbol " pypi " ||
      contains symbol " maven " || contains line " "
  else false

def scipOccurrenceReferenceKind (occ : OccurrenceProjection) : String × String :=
  if contains (lowerAscii (trimSpace occ.syntaxKind)) "function" ||
      looksLikeCallExpression (trimSpace occ.lineContent) (scipDisplayNameFromSymbol occ.symbol)
  then ("CALLS", "call")
  else ("REFERENCES", "reference")

/-- The grave accent that quotes a descriptor. -/
def graveAccent : Char := Char.ofNat 96

/-- The first quoted descriptor with the text after the last quote, or the display name. -/
def formatSCIPSymbolForEvidence (symbol : String) : String :=
  let pieces := splitOnChar graveAccent (trimSpaceChars symbol.toList)
  match (pieces.drop 1).dropLast.find? (· ≠ []) with
  | none => scipDisplayNameFromSymbol symbol
  | some base =>
    let suffix := trimSpaceChars (pieces.getLastD [])
    String.ofList (if suffix ≠ [] && suffix ≠ ['/'] then base ++ suffix else base)

def scipRelationKinds (rel : RelationshipProjection) : List (String × String) :=
  (if rel.isReference then [("REFERENCES", "reference")] else []) ++
    (if rel.isImplementation then [("IMPLEMENTS", "inherits")] else []) ++
    (if rel.isTypeDefinition then [("TYPE_DEFINES", "type")] else []) ++
    (if rel.isDefinition then [("DEFINES", "definition")] else [])

/-! ## Building the snapshot -/

/-- The vertex map and the edge list of `buildSCIPSnapshot`. -/
structure SnapshotBuild where
  vertices : List Vertex := []
  edges : List Edge := []
  deriving DecidableEq, Repr

/-- Lines are stored one-based. -/
def oneBasedLine (line : Option ℤ) : Option Primitive := line.map fun n => .int (n + 1)

/-- `seenVertices[v.VID] = v`. -/
def SnapshotBuild.put (b : SnapshotBuild) (v : Vertex) : SnapshotBuild :=
  { b with vertices := upsert (fun v' => v'.vid = v.vid) (fun _ => v) v b.vertices }

/-- Store a vertex unless its identifier is taken. -/
def SnapshotBuild.ensure (b : SnapshotBuild) (v : Vertex) : SnapshotBuild :=
  if b.vertices.any fun v' => v'.vid = v.vid then b
  else { b with vertices := b.vertices ++ [v] }

def symbolVertex (d : Digests) (p : Payload) (s : SymbolProjection) : Vertex where
  vid := codeGraphVID d p "symbol" s.symbol
  kind := "symbol"
  props := scopedProps p
    [("kind", some (.str "symbol")), ("key", some (.str s.symbol)),
      ("label", some (.str (nonEmpty s.displayName s.symbol))),
      ("symbol", some (.str s.symbol)), ("symbolKind", some (.str s.kind)),
      ("language", some (.str s.language)), ("path", some (.str s.filePath)),
      ("evidenceFilePath", some (.str s.filePath)), ("startLine", oneBasedLine s.startLine),
      ("endLine", oneBasedLine s.endLine), ("confidence", some (.hundredths 95)),
      ("confidenceTier", some (.str "EXTRACTED")), ("source", some (.str "scip")),
      ("provenance", some (.str "scip"))]

def bareSymbolVertex (d : Digests) (p : Payload) (symbol : String) : Vertex where
  vid := codeGraphVID d p "symbol" symbol
  kind := "symbol"
  props := scopedProps p
    [("kind", some (.str "symbol")), ("key", some (.str symbol)), ("label", some (.str symbol)),
      ("symbol", some (.str symbol)), ("confidence", some (.hundredths 90)),
      ("confidenceTier", some (.str "EXTRACTED")), ("source", some (.str "scip")),
      ("provenance", some (.str "scip"))]

def fileVertex (d : Digests) (p : Payload) (path : String) : Vertex where
  vid := codeGraphVID d p "file" path
  kind := "file"
  props := scopedProps p
    [("kind", some (.str "file")), ("key", some (.str path)), ("label", some (.str path)),
      ("path", some (.str path)), ("evidenceFilePath", some (.str path)),
      ("confidence", some (.hundredths 95)), ("confidenceTier", some (.str "EXTRACTED")),
      ("source", some (.str "scip")), ("provenance", some (.str "scip"))]

structure EdgeEvidence where
  (kind context sourceFile : String)
  (startLine endLine : Option ℤ)
  normalizedKey : String

def scipEdge (d : Digests) (p : Payload) (fromVid toVid : String) (e : EdgeEvidence) : Edge where
  fromVid := fromVid
  toVid := toVid
  kind := e.kind
  rank := d.edgeRank (fromVid ++ "->" ++ toVid ++ ":" ++ e.kind ++ ":scip")
  props := scopedProps p
    [("kind", some (.str e.kind)), ("normalizedKey", some (.str e.normalizedKey)),
      ("evidenceFilePath", some (.str e.sourceFile)), ("startLine", oneBasedLine e.startLine),
      ("endLine", oneBasedLine e.endLine), ("confidence", some (.hundredths 95)),
      ("confidenceTier", some (.str "EXTRACTED")), ("source", some (.str "scip")),
      ("provenance", some (.str "scip")), ("context", some (.str e.context))]

/-- One edge for each source, target and kind. -/
def SnapshotBuild.addEdge (d : Digests) (p : Payload) (b : SnapshotBuild)
    (fromVid toVid : String) (e : EdgeEvidence) : SnapshotBuild :=
  if fromVid = "" || toVid = "" || e.kind = "" ||
      b.edges.any fun e' => e'.fromVid = fromVid && e'.toVid = toVid && e'.kind = e.kind then b
  else { b with edges := b.edges ++ [scipEdge d p fromVid toVid e] }

def addRelationship (d : Digests) (p : Payload) (b : SnapshotBuild)
    (rel : RelationshipProjection) : SnapshotBuild :=
  let source := bareSymbolVertex d p rel.sourceSymbol
  let target := bareSymbolVertex d p rel.targetSymbol
  (scipRelationKinds rel).foldl
    (fun b item => b.addEdge d p source.vid target.vid
      { kind := item.1, context := item.2, sourceFile := rel.sourceFile
        startLine := rel.startLine, endLine := rel.endLine
        normalizedKey := rel.sourceSymbol ++ "->" ++ rel.targetSymbol })
    ((b.ensure source).ensure target)

/-- The import edge from the file of an occurrence. -/
def addImport (d : Digests) (p : Payload) (b : SnapshotBuild) (occ : OccurrenceProjection) :
    SnapshotBuild :=
  let sourcePath := trimSpace occ.filePath
  if sourcePath = "" then b
  else (b.ensure (fileVertex d p sourcePath)).addEdge d p (fileVertex d p sourcePath).vid
    (bareSymbolVertex d p occ.symbol).vid
    { kind := "IMPORTS", context := "import", sourceFile := sourcePath
      startLine := occ.startLine, endLine := occ.endLine
      normalizedKey := sourcePath ++ " imports " ++ formatSCIPSymbolForEvidence occ.symbol }

/-- The edge from the enclosing symbol of a reference. -/
def addReference (d : Digests) (p : Payload) (b : SnapshotBuild) (occ : OccurrenceProjection) :
    SnapshotBuild :=
  let sourceSymbol := trimSpace occ.enclosingSymbol
  if sourceSymbol = "" || sourceSymbol = occ.symbol then b
  else
    let kind := scipOccurrenceReferenceKind occ
    (b.ensure (bareSymbolVertex d p sourceSymbol)).addEdge d p
      (bareSymbolVertex d p sourceSymbol).vid (bareSymbolVertex d p occ.symbol).vid
      { kind := kind.1, context := kind.2, sourceFile := occ.filePath
        startLine := occ.startLine, endLine := occ.endLine
        normalizedKey := formatSCIPSymbolForEvidence sourceSymbol ++ " " ++ kind.1 ++ " " ++
          formatSCIPSymbolForEvidence occ.symbol }

def addOccurrence (d : Digests) (p : Payload) (b : SnapshotBuild) (occ : OccurrenceProjection) :
    SnapshotBuild :=
  let b := b.ensure (bareSymbolVertex d p occ.symbol)
  match occ.role with
  | .imported => addImport d p b occ
  | .reference | .read =>
    if looksLikeImportOccurrence occ then addImport d p b occ else addReference d p b occ
  | _ => b

def buildSCIPSnapshot (d : Digests) (p : Payload) (rows : ScipRows) : SnapshotBuild :=
  let symbols := rows.symbols.foldl (fun b s => b.put (symbolVertex d p s)) {}
  let related := rows.relationships.foldl (addRelationship d p) symbols
  rows.occurrences.foldl (addOccurrence d p) related

/-! ## Semantic rows -/

/-- `ON CONFLICT ("graphIndexId", "dedupeKey") DO UPDATE` for one fact. -/
def upsertFact (rows : List SemanticFact) (new : SemanticFact) : List SemanticFact :=
  upsert (fun r => r.graphIndexId = new.graphIndexId && r.dedupeKey = new.dedupeKey)
    (fun r =>
      { r with
        kind := new.kind
        label := new.label
        sourceFile := new.sourceFile
        startLine := new.startLine
        endLine := new.endLine
        evidence := new.evidence
        confidenceTier := new.confidenceTier
        source := new.source
        updatedAt := new.updatedAt })
    new rows

end CodeIntel.Graph
