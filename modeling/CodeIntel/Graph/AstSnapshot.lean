import CodeIntel.Graph.Snapshot

/-!
# The AST graph of a revision

The syntactic indexer turns the facts of its extractors into a graph: a vertex
for each file and each side of a fact, an edge for each fact, and bounded anchor
links between named vertices. The maps of the accumulator are tables in
insertion order; where the source iterates over one, the rows are sorted by key.
-/

namespace CodeIntel.Graph

open Relational Schema Subjobs Text

/-! ## Scopes and identifiers -/

structure CodeGraphScope where
  (orgId repoId : ℤ)
  (revision commitHash workspaceId : String)
  schemaVersion : Option ℤ := none
  builderVersion : Option String := none
  deriving DecidableEq, Repr

def assertValidScope (scope : CodeGraphScope) : Except String Unit :=
  if scope.orgId ≤ 0 then .error ("Invalid code graph orgId: " ++ toString scope.orgId)
  else if scope.repoId ≤ 0 then .error ("Invalid code graph repoId: " ++ toString scope.repoId)
  else if isBlank scope.revision then .error "Code graph revision is required."
  else if isBlank scope.workspaceId then .error "Code graph workspaceId is required."
  else if !isCommitHash scope.commitHash then
    .error ("Code graph commitHash must be a 40 character SHA: " ++ scope.commitHash)
  else match scope.schemaVersion.filter (· ≤ 0) with
    | some v => .error ("Invalid code graph schemaVersion: " ++ toString v)
    | none =>
      if scope.builderVersion.any isBlank then .error "Code graph builderVersion cannot be blank."
      else .ok ()

def getSchemaVersion (scope : CodeGraphScope) : ℤ := scope.schemaVersion.getD defaultSchemaVersion

def getBuilderVersion (scope : CodeGraphScope) : String :=
  scope.builderVersion.getD defaultBuilder

/-- The revision does not enter. -/
def buildCodeGraphVertexId (d : Digests) (scope : CodeGraphScope) (kind key : String) :
    Except String String := do
  assertValidScope scope
  pure ("cg:o" ++ toString scope.orgId ++ ":w" ++ hashParts d [scope.workspaceId] 8 ++ ":r" ++
    toString scope.repoId ++ ":c" ++ String.ofList (scope.commitHash.toList.take 12) ++ ":s" ++
    toString (getSchemaVersion scope) ++ ":b" ++ hashParts d [getBuilderVersion scope] 8 ++ ":" ++
    kind ++ ":" ++ hashParts d [toString scope.orgId, scope.workspaceId, toString scope.repoId,
      scope.commitHash, toString (getSchemaVersion scope), getBuilderVersion scope, kind, key] 32)

/-- Runs of other characters collapse to one underscore. -/
def collapseChars : Bool → List Char → List Char
  | _, [] => []
  | inRun, c :: cs =>
    if c.isAlphanum || c = '_' || c = '.' || c = ':' || c = '-' then
      c.toLower :: collapseChars false cs
    else if inRun then collapseChars true cs
    else '_' :: collapseChars true cs

def normalizeToken (value : String) : String :=
  String.ofList (collapseChars false (trimSpaceChars value.toList))

/-! ## The accumulator -/

/-- Vertices by identifier, edges by `from|to|kind|rank`. The anchors of a snapshot are
stored in Postgres and left out. -/
structure GraphAccumulator where
  vertices : List (String × Vertex) := []
  edges : List (String × Edge) := []
  deriving DecidableEq, Repr

def sortedEntries {α : Type} (entries : List (String × α)) : List (String × α) :=
  entries.insertionSort fun a b => a.1 ≤ b.1

/-- `bag.insert` for every entry of a second map. -/
def layProps (bag extra : Props) : Props :=
  bag.filter (fun entry => !extra.any fun entry' => entry'.1 = entry.1) ++ extra

/-- An entry of a bag; null values are absent. -/
def optionalProp (key : String) (value : Option Primitive) : Props :=
  (value.map fun v => (key, v)).toList

def scopeTags (scope : CodeGraphScope) (kind : String) : Props :=
  [("kind", .str kind), ("orgId", .int scope.orgId), ("workspaceId", .str scope.workspaceId),
    ("repoId", .int scope.repoId), ("revision", .str scope.revision),
    ("commitHash", .str scope.commitHash), ("schemaVersion", .int (getSchemaVersion scope)),
    ("builderVersion", .str (getBuilderVersion scope))]

/-- The edge options; `confidence` counts hundredths. -/
structure AddEdgeOptions where
  confidence : Option ℕ := none
  confidenceTier : Option String := none
  evidenceFilePath : Option String := none
  startLine : Option ℤ := none
  endLine : Option ℤ := none
  provenance : Option String := none
  context : Option String := none
  normalizedKey : Option String := none

def defaultContextForEdgeKind (kind : String) : Option String :=
  if kind = "CALLS" then some "call"
  else if kind = "DEFINES" then some "definition"
  else if kind = "REFERENCES" then some "reference"
  else if kind = "IMPORTS_FROM" then some "import"
  else if kind = "EXTENDS" || kind = "IMPLEMENTS" then some "inherits"
  else if kind = "TYPE_DEFINES" then some "type"
  else if kind = "CONTAINS" then some "containment"
  else none

def astVertex (scope : CodeGraphScope) (vid kind : String) (properties : Props) : Vertex where
  vid := vid
  kind := kind
  props := layProps (scopeTags scope kind ++ [("provenance", .str "heuristic")]) properties

/-- The first vertex of an identifier stays. -/
def addVertex (d : Digests) (scope : CodeGraphScope) (kind key : String) (properties : Props)
    (graph : GraphAccumulator) : Except String (String × GraphAccumulator) := do
  let vid ← buildCodeGraphVertexId d scope kind key
  if graph.vertices.any fun entry => entry.1 = vid then pure (vid, graph)
  else pure (vid,
    { graph with vertices := graph.vertices ++ [(vid, astVertex scope vid kind properties)] })

def astEdge (d : Digests) (scope : CodeGraphScope) (fromVid toVid kind source : String)
    (options : AddEdgeOptions) : Edge where
  fromVid := fromVid
  toVid := toVid
  kind := kind
  rank := d.edgeRank (fromVid ++ "->" ++ toVid ++ ":" ++ kind ++ ":" ++ source)
  props := scopeTags scope kind ++
    [("confidence", .hundredths (options.confidence.getD 100)),
      ("confidenceTier", .str (options.confidenceTier.getD "EXTRACTED"))] ++
    optionalProp "evidenceFilePath" (options.evidenceFilePath.map .str) ++
    optionalProp "startLine" (options.startLine.map .int) ++
    optionalProp "endLine" (options.endLine.map .int) ++ [("source", .str source)] ++
    optionalProp "normalizedKey" (options.normalizedKey.map .str) ++
    [("provenance", .str (options.provenance.getD "heuristic"))] ++
    optionalProp "context" ((options.context.or (defaultContextForEdgeKind kind)).map .str)

def edgeKey (e : Edge) : String :=
  e.fromVid ++ "|" ++ e.toVid ++ "|" ++ e.kind ++ "|" ++ toString e.rank

/-- The first edge of a key stays. -/
def addEdge (d : Digests) (scope : CodeGraphScope) (fromVid toVid kind source : String)
    (options : AddEdgeOptions) (graph : GraphAccumulator) : GraphAccumulator :=
  let edge := astEdge d scope fromVid toVid kind source options
  if graph.edges.any fun entry => entry.1 = edgeKey edge then graph
  else { graph with edges := graph.edges ++ [(edgeKey edge, edge)] }

def addFileVertex (d : Digests) (scope : CodeGraphScope) (repoVid filePath : String)
    (graph : GraphAccumulator) : Except String (String × GraphAccumulator) := do
  let added ← addVertex d scope "file" ("file:" ++ filePath)
    [("key", .str filePath), ("label", .str filePath), ("path", .str filePath),
      ("source", .str "scip")] graph
  pure (added.1, addEdge d scope repoVid added.1 "CONTAINS" "scip" {} added.2)

/-! ## Facts -/

inductive FactKind where
  | calls | importsFrom | defines | extends_ | implements
  deriving DecidableEq, Repr

inductive SymbolKind where
  | function | method | class_ | module | external | symbol | interface
  deriving DecidableEq, Repr

/-- `confidence` counts hundredths. -/
structure SyntacticAstFact where
  kind : FactKind
  (sourceSymbol sourceDisplayName : String)
  sourceKind : SymbolKind
  (targetSymbol targetDisplayName : String)
  targetKind : SymbolKind
  filePath : String
  (startLine endLine : ℤ)
  confidence : ℕ
  deriving DecidableEq, Repr

def sourceVertexKind : SymbolKind → String
  | .class_ => "class"
  | .method => "method"
  | _ => "function"

def targetVertexKind : SymbolKind → String
  | .external => "package"
  | .interface => "class"
  | .module => "file"
  | .function => "function"
  | .method => "method"
  | .class_ => "class"
  | .symbol => "symbol"

def factEdgeKind : FactKind → String
  | .defines => "DEFINES"
  | .calls => "CALLS"
  | .importsFrom => "IMPORTS_FROM"
  | .extends_ => "EXTENDS"
  | .implements => "IMPLEMENTS"

def factProps (language source tier : String) (fact : SyntacticAstFact) (key label : String) :
    Props :=
  [("key", .str key), ("label", .str label), ("language", .str language), ("source", .str source),
    ("confidence", .hundredths fact.confidence), ("confidenceTier", .str tier),
    ("evidenceFilePath", .str fact.filePath)]

/-- The file vertex of a fact, created when its path is seen first. -/
def ensureFile (d : Digests) (scope : CodeGraphScope) (repoVid filePath : String)
    (fileVids : List (String × String)) (graph : GraphAccumulator) :
    Except String (String × List (String × String) × GraphAccumulator) :=
  match fileVids.lookup filePath with
  | some vid => .ok (vid, fileVids, graph)
  | none => do
    let added ← addFileVertex d scope repoVid filePath graph
    pure (added.1, (filePath, added.1) :: fileVids, added.2)

/-- The vertex of the source side; a module is its file. -/
def addSource (d : Digests) (scope : CodeGraphScope) (language source tier fileVid : String)
    (fact : SyntacticAstFact) (graph : GraphAccumulator) :
    Except String (String × GraphAccumulator) :=
  if fact.sourceKind = .module then .ok (fileVid, graph)
  else addVertex d scope (sourceVertexKind fact.sourceKind) ("ast:" ++ fact.sourceSymbol)
    (factProps language source tier fact fact.sourceSymbol fact.sourceDisplayName ++
      [("path", .str fact.filePath)]) graph

/-- The vertex of the target side; an external one has no path. -/
def addTarget (d : Digests) (scope : CodeGraphScope) (language source tier : String)
    (fact : SyntacticAstFact) (graph : GraphAccumulator) :
    Except String (String × GraphAccumulator) :=
  addVertex d scope (targetVertexKind fact.targetKind) ("ast:" ++ fact.targetSymbol)
    (factProps language source tier fact fact.targetSymbol fact.targetDisplayName ++
      if fact.targetKind = .external then [] else [("path", .str fact.filePath)]) graph

/-- The loop of `add_syntactic_language_ast_facts`. -/
def addFacts (d : Digests) (scope : CodeGraphScope) (repoVid language source tier : String) :
    List SyntacticAstFact → List (String × String) → GraphAccumulator →
      Except String GraphAccumulator
  | [], _, graph => .ok graph
  | fact :: facts, fileVids, graph => do
    let file ← ensureFile d scope repoVid fact.filePath fileVids graph
    let src ← addSource d scope language source tier file.1 fact file.2.2
    let dst ← addTarget d scope language source tier fact src.2
    addFacts d scope repoVid language source tier facts file.2.1
      (addEdge d scope src.1 dst.1 (factEdgeKind fact.kind) source
        { confidence := some fact.confidence, confidenceTier := some tier,
          evidenceFilePath := some fact.filePath, startLine := some fact.startLine,
          endLine := some fact.endLine, provenance := some "heuristic" } dst.2)

def addSyntacticLanguageAstFacts (d : Digests) (scope : CodeGraphScope) (repoVid language : String)
    (facts : List SyntacticAstFact) (graph : GraphAccumulator) : Except String GraphAccumulator :=
  let tier := if facts.head?.any fun fact => 80 ≤ fact.confidence then "EXTRACTED" else "INFERRED"
  addFacts d scope repoVid language ("ast-" ++ language) tier facts [] graph

/-! ## Reconciling edges -/

def edgeScore (e : Edge) : ℕ :=
  let confidence := match e.props.lookup "confidence" with
    | some (.hundredths value) => 10 * value
    | _ => 0
  let bonus := match e.props.lookup "provenance" with
    | some (.str s) =>
      if s = "scip" then 5 else if s = "tree-sitter" then 3 else if s = "heuristic" then 1 else 0
    | _ => 0
  confidence * 10 + bonus

def winnerKey (entries : List (String × Edge)) (e : Edge) : Option String :=
  let peers := entries.filter fun entry =>
    entry.2.fromVid = e.fromVid && entry.2.toVid = e.toVid && entry.2.kind = e.kind
  (peers.foldl (fun best entry => match best with
    | some (key, score) => if score ≥ edgeScore entry.2 then some (key, score)
      else some (entry.1, edgeScore entry.2)
    | none => some (entry.1, edgeScore entry.2)) none).map Prod.fst

def reconcileEdgeProvenance (graph : GraphAccumulator) : GraphAccumulator :=
  { graph with
    edges := graph.edges.filter fun entry =>
      winnerKey (sortedEntries graph.edges) entry.2 = some entry.1 }

/-! ## Anchor links -/

def textProp (props : Props) (key : String) : Option String :=
  match props.lookup key with
  | some (.str value) => if isBlank value then none else some value
  | _ => none

def intProp (props : Props) (key : String) : Option ℤ :=
  match props.lookup key with
  | some (.int value) => some value
  | _ => none

/-- A number as hundredths. -/
def doubleProp (props : Props) (key : String) : Option ℕ :=
  match props.lookup key with
  | some (.hundredths value) => some value
  | some (.int value) => some (value.toNat * 100)
  | _ => none

def isAnchorKind (kind : String) : Bool :=
  ["file", "function", "method", "class", "symbol"].contains kind

def anchorKeyForVertex (v : Vertex) : String :=
  (((textProp v.props "label").or (textProp v.props "key")).or (textProp v.props "path")).getD ""

def isLowSignalAnchorKey (normalized : String) : Bool :=
  ["print", "println", "len", "format", "string", "logger", "log", "error"].contains normalized

/-- The normalized key of a vertex that is an anchor. -/
def primaryAnchor (v : Vertex) : Option String :=
  let key := anchorKeyForVertex v
  let normalized := normalizeToken key
  if !isAnchorKind v.kind || key = "" || normalized = "" || isLowSignalAnchorKey normalized then
    none
  else some normalized

def edgeKindCanEmitAnchorLink (kind : String) : Bool :=
  ["CALLS", "REFERENCES", "IMPORTS", "IMPORTS_FROM", "EXTENDS", "IMPLEMENTS", "TYPE_DEFINES",
    "HANDLES", "EMITS", "PROVIDES", "CONSUMES"].contains kind

def scopeFromEdge (e : Edge) : CodeGraphScope where
  orgId := (intProp e.props "orgId").getD 0
  repoId := (intProp e.props "repoId").getD 0
  revision := (textProp e.props "revision").getD ""
  commitHash := (textProp e.props "commitHash").getD ""
  workspaceId := (textProp e.props "workspaceId").getD ""
  schemaVersion := intProp e.props "schemaVersion"
  builderVersion := textProp e.props "builderVersion"

def anchorEnds (vertices : List (String × Vertex)) (e : Edge) : Option (String × String) :=
  if !edgeKindCanEmitAnchorLink e.kind then none
  else match (vertices.lookup e.fromVid).bind primaryAnchor,
      (vertices.lookup e.toVid).bind primaryAnchor with
    | some fromKey, some toKey => if fromKey = toKey then none else some (fromKey, toKey)
    | _, _ => none

def anchorLinkOptions (e : Edge) (ends : String × String) : AddEdgeOptions :=
  let confidence := min ((doubleProp e.props "confidence").getD 75) 90
  { confidence := some confidence
    confidenceTier := some ((textProp e.props "confidenceTier").getD
      (if 80 ≤ confidence then "EXTRACTED" else "INFERRED"))
    evidenceFilePath := textProp e.props "evidenceFilePath"
    startLine := intProp e.props "startLine"
    endLine := intProp e.props "endLine"
    provenance := some "anchor-linker"
    context := textProp e.props "context"
    normalizedKey := some (ends.1 ++ "->" ++ ends.2 ++ ":" ++ lowerAscii e.kind) }

def maxAnchorLinkEdges : ℕ := 10000

/-- The first `maxAnchorLinkEdges` edges that may be linked emit a link. -/
def materializeGraphAnchors (d : Digests) (graph : GraphAccumulator) : GraphAccumulator :=
  let linkable := (sortedEntries graph.edges).filterMap fun entry =>
    (anchorEnds graph.vertices entry.2).map fun ends => (entry.2, ends)
  (linkable.take maxAnchorLinkEdges).foldl (fun graph link =>
    addEdge d (scopeFromEdge link.1) link.1.fromVid link.1.toVid "ANCHOR_LINK" "anchor-linker"
      (anchorLinkOptions link.1 link.2) graph) graph

/-- The AST layer of the executor: the facts of all languages, one graph. -/
def buildAstSnapshot (d : Digests) (scope : CodeGraphScope)
    (results : List (String × List SyntacticAstFact)) : Except String SnapshotBuild := do
  let repoVid ← buildCodeGraphVertexId d scope "repo" ("repo:" ++ toString scope.repoId)
  let graph ← results.foldlM (fun graph (language, facts) =>
    if facts.isEmpty then pure graph
    else addSyntacticLanguageAstFacts d scope repoVid language facts graph) {}
  let final := materializeGraphAnchors d (reconcileEdgeProvenance graph)
  pure ⟨(sortedEntries final.vertices).map Prod.snd, (sortedEntries final.edges).map Prod.snd⟩

end CodeIntel.Graph
