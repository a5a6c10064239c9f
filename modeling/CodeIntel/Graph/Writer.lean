import CodeIntel.Graph.Snapshot

/-!
# The code graph writer

`writePayload` stores a rendered graph snapshot: it checks the payload and its
manifest, marks the graph index BUILDING, replaces the semantic rows and marks
the index PARTIAL or READY. Every SQL statement is a function on the database;
what a writer still has to issue after `markBuilding` is a list of statements.
The graph database and the parser of the rendered statements are parameters.
-/

namespace CodeIntel.Graph.Writer

open Relational Schema Subjobs Text

def maxPostgresInt : ℤ := 2 ^ 31 - 1

def maxStatementCount : ℕ := 20000

def maxStatementBytes : ℕ := 2 ^ 20

def semanticRowBatchSize : ℕ := 500

structure PayloadAnchor where
  (kind direction key normalizedKey nodeVid : String)
  evidenceFilePath : Option String := none
  startLine : Option ℤ := none
  endLine : Option ℤ := none
  confidence : Rat
  (confidenceTier source : String)
  deriving DecidableEq

structure WritePayload where
  orgId : ℤ
  workspaceId : String
  repoId : ℤ
  (branch revision commitHash : String)
  schemaVersion : ℤ
  (builderVersion indexJobId manifestId : String)
  providerConnectionId : Option String := none
  source : String
  statements : List String
  anchors : List PayloadAnchor := []
  deriving DecidableEq

structure WriteOptions where
  (allowPendingManifest activateRevision partialOnly : Bool)
  deriving DecidableEq, Repr

/-- The options of `WritePendingPayload`, the writer of an AST subjob. -/
def pendingOptions : WriteOptions := ⟨true, false, true⟩

/-- The options of the queue consumer. -/
def queueOptions : WriteOptions := ⟨false, true, false⟩

structure RenderedVertexRow where
  vid : String
  props : List (String × String)
  deriving DecidableEq, Repr

structure RenderedEdgeRow where
  (fromVid toVid rank : String)
  props : List (String × String)
  deriving DecidableEq, Repr

/-- The parts of the graph store that read the rendered statements. -/
structure RenderedStore where
  validateRenderedStatementWrite : WritePayload → Option String
  extractRenderedRows :
    WritePayload → Except String (List RenderedVertexRow × List RenderedEdgeRow)

/-! ## Admission -/

/-- The message of the first failing check. -/
def firstFailure (checks : List (Bool × String)) : Option String :=
  (checks.find? Prod.fst).map Prod.snd

/-- The last message leaves out the number. -/
def PayloadAnchor.validate (a : PayloadAnchor) : Option String :=
  firstFailure
    [(isBlank a.kind, "kind is required"),
      (!(["PROVIDES", "CONSUMES", "REFERENCES"].contains (toUpper (trimSpace a.direction))),
        "invalid direction \"" ++ a.direction ++ "\""),
      (isBlank a.key, "key is required"),
      (isBlank a.normalizedKey, "normalizedKey is required"),
      (isBlank a.nodeVid, "nodeVid is required"),
      (isBlank a.source, "source is required"),
      (isBlank a.confidenceTier, "confidenceTier is required"),
      (a.confidence < 0 || 1 < a.confidence, "confidence is outside 0..1")]

def anchorBelongsToPayloadScope (a : PayloadAnchor) (w : WritePayload) : Bool :=
  hasPrefix a.nodeVid ("cg:o" ++ toString w.orgId ++ ":") &&
    contains a.nodeVid (":r" ++ toString w.repoId ++ ":")

def validateAnchors (w : WritePayload) : Option String :=
  w.anchors.zipIdx.findSome? fun (a, i) =>
    match a.validate with
    | some e => some ("anchor " ++ toString i ++ ": " ++ e)
    | none =>
      if anchorBelongsToPayloadScope a w then none
      else some ("anchor " ++ toString i ++ ": nodeVid is outside payload org/repo scope")

/-- `Payload.Validate`. -/
def WritePayload.validate (w : WritePayload) : Option String :=
  let scope := firstFailure
    [(w.orgId ≤ 0 || maxPostgresInt < w.orgId, "invalid orgId " ++ toString w.orgId),
      (w.repoId ≤ 0 || maxPostgresInt < w.repoId, "invalid repoId " ++ toString w.repoId),
      (isBlank w.workspaceId, "workspaceId is required"),
      (isBlank w.revision, "revision is required"),
      (!isCommitHash w.commitHash, "commitHash must be a 40-character SHA"),
      (w.schemaVersion ≤ 0 || maxPostgresInt < w.schemaVersion,
        "invalid schemaVersion " ++ toString w.schemaVersion),
      (isBlank w.builderVersion, "builderVersion is required"),
      (isBlank w.indexJobId, "indexJobId is required"),
      (isBlank w.manifestId, "manifestId is required"),
      (w.providerConnectionId.any isBlank,
        "providerConnectionId must be non-empty when present"),
      (isBlank w.source, "source is required"),
      (w.statements.isEmpty, "statements are required"),
      (maxStatementCount < w.statements.length, "statement count " ++
        toString w.statements.length ++ " exceeds " ++ toString maxStatementCount)]
  let sizes := w.statements.zipIdx.findSome? fun (stmt, i) =>
    if maxStatementBytes < stmt.utf8ByteSize then
      some ("statement " ++ toString i ++ " size " ++ toString stmt.utf8ByteSize ++
        " exceeds " ++ toString maxStatementBytes ++ " bytes")
    else none
  scope.or (sizes.or (validateAnchors w))

/-- Errors marked with `asynq.SkipRetry`. -/
def skipRetry (message : String) : String := message ++ ": skip retry for the task"

/-- The workspace the repository's organisation resolves to. -/
def resolveScope (w : WritePayload) (db : Database) : Option String :=
  if db.repos.any fun r => r.id = w.repoId && r.orgId = w.orgId then
    (db.orgs.find? fun o => o.id = w.orgId).map fun o => o.atomWorkspaceId.getD o.domain
  else none

def manifestBranch (w : WritePayload) : String :=
  if isBlank w.branch then w.revision else w.branch

/-- The manifest the payload names. -/
def manifestOf (w : WritePayload) (m : RepoIndexManifest) : Bool :=
  m.orgId = w.orgId && m.repoId = w.repoId && m.workspaceId = w.workspaceId &&
    m.branch = manifestBranch w && m.commitHash = w.commitHash && m.id = w.manifestId &&
    m.indexJobId = some w.indexJobId && m.providerConnectionId = w.providerConnectionId

/-- `manifestStatus`. -/
def manifestStatusOf (w : WritePayload) (db : Database) : Option ManifestStatus :=
  (db.manifests.find? (manifestOf w)).map RepoIndexManifest.status

/-- The checks of `writePayload` before its first write: `none` lets it proceed. -/
def refuseWrite (store : RenderedStore) (opts : WriteOptions) (w : WritePayload)
    (db : Database) : Option String :=
  match w.validate, store.validateRenderedStatementWrite w with
  | some e, _ => some (skipRetry ("payload validation: " ++ e))
  | none, some e => some (skipRetry ("rendered statement validation: " ++ e))
  | none, none =>
    match resolveScope w db with
    | none => some (skipRetry ("scope validation: repo " ++ toString w.repoId ++
        " does not belong to org " ++ toString w.orgId))
    | some workspaceId =>
      if workspaceId ≠ w.workspaceId then
        some (skipRetry ("scope validation: workspaceId \"" ++ w.workspaceId ++
          "\" does not match org-resolved workspaceId \"" ++ workspaceId ++ "\""))
      else match manifestStatusOf w db with
        | none => some (skipRetry ("manifest validation: no manifest for repo=" ++
            toString w.repoId ++ " revision=\"" ++ w.revision ++ "\" commit=" ++ w.commitHash))
        | some .ready => none
        | some .pending =>
          if opts.allowPendingManifest then none
          else some ("manifest " ++ w.revision ++ "/" ++ w.commitHash ++
            " is still PENDING; retry graph write later")
        | some .superseded => some (skipRetry
            "manifest validation: manifest is SUPERSEDED; stale graph write will not be applied")
        | some .failed => some (skipRetry
            "manifest validation: manifest is FAILED; stale graph write will not be applied")

/-! ## Statements on the graph index -/

/-- `countToPostgresInt` accepts the count. -/
def countFits (value : ℤ) : Bool := 0 ≤ value && value ≤ maxPostgresInt

inductive WriteStatus where
  | ready | skipped | failed | unknown (text : String)
  deriving DecidableEq, Repr

/-- `CodeGraphWriteResult`. -/
structure WriteResult where
  status : WriteStatus
  vertexCount : ℤ := 0
  edgeCount : ℤ := 0
  anchorCount : ℤ := 0
  linkedEdgeCount : ℤ := 0
  errorMessage : String := ""
  deriving DecidableEq, Repr

def WriteResult.countsFit (r : WriteResult) : Bool :=
  countFits r.vertexCount && countFits r.edgeCount && countFits r.anchorCount &&
    countFits r.linkedEdgeCount

structure GraphBuildState where
  id : String
  status : GraphIndexStatus
  deriving DecidableEq, Repr

/-- The conflict target of `markBuilding`. -/
def writesSnapshot (w : WritePayload) (g : CodeGraphIndex) : Bool :=
  g.repoId = w.repoId && g.workspaceId = w.workspaceId && g.commitHash = w.commitHash &&
    g.schemaVersion = w.schemaVersion && g.builderVersion = w.builderVersion

def buildingGraphIndex (now : Time) (newId : String) (w : WritePayload) : CodeGraphIndex where
  id := newId
  status := .building
  sourceRevision := w.revision
  commitHash := w.commitHash
  graphSpace := graphSpaceName
  workspaceId := w.workspaceId
  schemaVersion := w.schemaVersion
  builderVersion := w.builderVersion
  indexRunId := some w.indexJobId
  orgId := w.orgId
  repoId := w.repoId
  createdAt := now
  updatedAt := now

/-- The row is finished for every later writer. -/
def sealed (g : CodeGraphIndex) : Bool := g.status = .ready || g.status = .skipped

/-- The conflict branch of `markBuilding`: a finished row keeps every column. -/
def rebuildGraphIndex (now : Time) (w : WritePayload) (g : CodeGraphIndex) : CodeGraphIndex :=
  if sealed g then g
  else
    { g with
      status := .building
      sourceRevision := w.revision
      graphSpace := graphSpaceName
      indexRunId := some w.indexJobId
      vertexCount := 0
      edgeCount := 0
      anchorCount := 0
      linkedEdgeCount := 0
      indexedAt := none
      errorMessage := none
      updatedAt := now }

/-- `markBuilding` with its `RETURNING` columns. -/
def markBuilding (now : Time) (newId : String) (w : WritePayload) (db : Database) :
    GraphBuildState × Database :=
  let rows := upsert (writesSnapshot w) (rebuildGraphIndex now w) (buildingGraphIndex now newId w)
    db.graphIndexes
  (((rows.find? (writesSnapshot w)).map fun g => ⟨g.id, g.status⟩).getD ⟨newId, .building⟩,
    { db with graphIndexes := rows })

/-- The `WHERE` clause of the statements that finish a write. -/
def writesRow (graphIndexId : String) (w : WritePayload) (g : CodeGraphIndex) : Bool :=
  g.id = graphIndexId && g.orgId = w.orgId && g.repoId = w.repoId

def partialRow (now : Time) (r : WriteResult) (g : CodeGraphIndex) : CodeGraphIndex :=
  { g with
    status := .partialReady
    graphSpace := graphSpaceName
    vertexCount := r.vertexCount
    edgeCount := r.edgeCount
    anchorCount := r.anchorCount
    linkedEdgeCount := r.linkedEdgeCount
    indexedAt := none
    errorMessage := none
    updatedAt := now }

def readyRow (now : Time) (r : WriteResult) (g : CodeGraphIndex) : CodeGraphIndex :=
  { partialRow now r g with status := .ready, indexedAt := some now }

/-- The columns `markSkipped` and `markFailed` set. -/
def emptiedRow (now : Time) (status : GraphIndexStatus) (reason : String)
    (g : CodeGraphIndex) : CodeGraphIndex :=
  { g with
    status
    vertexCount := 0
    edgeCount := 0
    anchorCount := 0
    linkedEdgeCount := 0
    indexedAt := some now
    errorMessage := some reason
    updatedAt := now }

def updateGraphIndexes (cond : CodeGraphIndex → Bool) (set : CodeGraphIndex → CodeGraphIndex)
    (db : Database) : Database :=
  { db with graphIndexes := updateWhere cond set db.graphIndexes }

def markPartial (now : Time) (graphIndexId : String) (w : WritePayload) (r : WriteResult) :
    Database → Database :=
  updateGraphIndexes (writesRow graphIndexId w) (partialRow now r)

def markReady (now : Time) (graphIndexId : String) (w : WritePayload) (r : WriteResult) :
    Database → Database :=
  updateGraphIndexes (writesRow graphIndexId w) (readyRow now r)

def markSkipped (now : Time) (graphIndexId : String) (w : WritePayload) (reason : String) :
    Database → Database :=
  updateGraphIndexes (writesRow graphIndexId w) (emptiedRow now .skipped reason)

/-- `markFailed`, the only one of the four that spares a finished row. -/
def markFailed (now : Time) (graphIndexId : String) (w : WritePayload) (reason : String) :
    Database → Database :=
  updateGraphIndexes (fun g => writesRow graphIndexId w g && !sealed g)
    (emptiedRow now .failed reason)

/-! ## Semantic rows -/

/-- The value of a rendered property; absent properties read as empty. -/
def renderedProp (props : List (String × String)) (key : String) : String :=
  (props.lookup key).getD ""

def optionalInt (value : String) : Option ℤ :=
  if isBlank value then none else parseInt32 (trimSpace value)

def optionalInt64 (value : Option ℤ) : Option ℤ :=
  value.filter fun n => -2 ^ 31 ≤ n && n < 2 ^ 31

def nullableString (value : String) : Option String :=
  if isBlank value then none else some value

def normalizeConfidenceTier (value : String) : String :=
  let tier := toUpper (trimSpace value)
  if ["EXTRACTED", "INFERRED", "AMBIGUOUS"].contains tier then tier else "INFERRED"

def renderedEdgeDedupeKey (d : Digests) (fromVid toVid relation rank : String) : String :=
  "rendered-edge:" ++ d.sha256Hex ("\x00".intercalate [fromVid, toVid, relation, rank])

def anchorRow (now : Time) (graphIndexId : String) (w : WritePayload) (a : PayloadAnchor) :
    Anchor where
  kind := a.kind
  direction := toUpper (trimSpace a.direction)
  key := a.key
  normalizedKey := a.normalizedKey
  nodeVid := a.nodeVid
  workspaceId := w.workspaceId
  commitHash := w.commitHash
  schemaVersion := w.schemaVersion
  builderVersion := w.builderVersion
  evidenceFilePath := a.evidenceFilePath.filter fun path => !isBlank path
  startLine := optionalInt64 a.startLine
  endLine := optionalInt64 a.endLine
  source := a.source
  orgId := w.orgId
  repoId := w.repoId
  graphIndexId := graphIndexId
  updatedAt := now

def renderedFact (now : Time) (graphIndexId : String) (w : WritePayload)
    (row : RenderedVertexRow) : SemanticFact :=
  let label := nonEmpty (renderedProp row.props "label")
    (nonEmpty (renderedProp row.props "key") row.vid)
  { externalId := row.vid
    dedupeKey := "rendered-node:" ++ row.vid
    kind := nonEmpty (renderedProp row.props "kind") "node"
    label
    workspaceId := w.workspaceId
    commitHash := w.commitHash
    schemaVersion := w.schemaVersion
    builderVersion := w.builderVersion
    sourceFile := nonEmpty (renderedProp row.props "path")
      (renderedProp row.props "evidenceFilePath")
    startLine := optionalInt (renderedProp row.props "startLine")
    endLine := optionalInt (renderedProp row.props "endLine")
    evidence := label
    confidenceTier := normalizeConfidenceTier (renderedProp row.props "confidenceTier")
    source := nonEmpty (renderedProp row.props "source") w.source
    orgId := w.orgId
    repoId := w.repoId
    graphIndexId
    updatedAt := now }

def renderedEdge (d : Digests) (now : Time) (graphIndexId : String) (w : WritePayload)
    (row : RenderedEdgeRow) : SemanticEdge :=
  let relation := nonEmpty (renderedProp row.props "kind") "RELATES_TO"
  { sourceExternalId := row.fromVid
    targetExternalId := row.toVid
    dedupeKey := renderedEdgeDedupeKey d row.fromVid row.toVid relation row.rank
    relation
    workspaceId := w.workspaceId
    commitHash := w.commitHash
    schemaVersion := w.schemaVersion
    builderVersion := w.builderVersion
    sourceFile := renderedProp row.props "evidenceFilePath"
    startLine := optionalInt (renderedProp row.props "startLine")
    endLine := optionalInt (renderedProp row.props "endLine")
    evidence := nullableString (renderedProp row.props "normalizedKey")
    confidenceTier := normalizeConfidenceTier (renderedProp row.props "confidenceTier")
    source := nonEmpty (renderedProp row.props "source") w.source
    orgId := w.orgId
    repoId := w.repoId
    graphIndexId
    updatedAt := now }

/-- `ON CONFLICT ("graphIndexId", kind, direction, "normalizedKey", "nodeVid") DO UPDATE`. -/
def upsertAnchor (rows : List Anchor) (new : Anchor) : List Anchor :=
  upsert
    (fun r => r.graphIndexId = new.graphIndexId && r.kind = new.kind &&
      r.direction = new.direction && r.normalizedKey = new.normalizedKey &&
      r.nodeVid = new.nodeVid)
    (fun r =>
      { r with
        key := new.key
        evidenceFilePath := new.evidenceFilePath
        startLine := new.startLine
        endLine := new.endLine
        source := new.source
        updatedAt := new.updatedAt })
    new rows

/-- `ON CONFLICT ("graphIndexId", "dedupeKey") DO UPDATE` for one rendered edge; the
rationale column is left alone. -/
def upsertRenderedEdge (rows : List SemanticEdge) (new : SemanticEdge) : List SemanticEdge :=
  upsert (fun r => r.graphIndexId = new.graphIndexId && r.dedupeKey = new.dedupeKey)
    (fun r =>
      { r with
        relation := new.relation
        sourceFile := new.sourceFile
        startLine := new.startLine
        endLine := new.endLine
        evidence := new.evidence
        confidenceTier := new.confidenceTier
        source := new.source
        updatedAt := new.updatedAt })
    new rows

def countRenderedAnchorLinks (edges : List RenderedEdgeRow) (anchors : List PayloadAnchor) : ℕ :=
  let anchored := (anchors.map fun a => trimSpace a.nodeVid).filter fun vid => vid ≠ ""
  edges.countP fun e =>
    equalFold (trimSpace (renderedProp e.props "source")) "anchor-linker" ||
      anchored.contains e.fromVid || anchored.contains e.toVid

/-! ## What a writer issues after `markBuilding` -/

inductive WriteStatement where
  | deleteAnchors
  | deleteEdges
  | deleteFacts
  | insertRenderedAnchors (batch : List PayloadAnchor)
  | insertRenderedSemanticFacts (batch : List RenderedVertexRow)
  | insertRenderedSemanticEdges (batch : List RenderedEdgeRow)
  | markPartial (result : WriteResult)
  | markReady (result : WriteResult)
  | markSkipped (reason : String)
  | markFailed (reason : String)
  | upsertRevisionIfManifestReady (newId : String)
  | repairReadyGraphCounts
  deriving DecidableEq

/-- The `WHERE` clause of `upsertRevisionIfManifestReady`. -/
def manifestReady (w : WritePayload) (db : Database) : Bool :=
  db.manifests.any fun m => manifestOf w m && m.status = .ready

def revisionRow (now : Time) (newId graphIndexId : String) (w : WritePayload) :
    CodeGraphRevision where
  id := newId
  revision := w.revision
  workspaceId := w.workspaceId
  commitHash := w.commitHash
  schemaVersion := w.schemaVersion
  builderVersion := w.builderVersion
  orgId := w.orgId
  repoId := w.repoId
  codeGraphIndexId := graphIndexId
  activatedAt := now
  updatedAt := now

def upsertRevision (new : CodeGraphRevision) (rows : List CodeGraphRevision) :
    List CodeGraphRevision :=
  upsert
    (fun r => r.repoId = new.repoId && r.workspaceId = new.workspaceId &&
      r.revision = new.revision && r.schemaVersion = new.schemaVersion &&
      r.builderVersion = new.builderVersion)
    (fun r =>
      { r with
        commitHash := new.commitHash
        codeGraphIndexId := new.codeGraphIndexId
        activatedAt := new.activatedAt
        updatedAt := new.updatedAt })
    new rows

/-- The counts `repairReadyGraphCounts` reads off the semantic rows. -/
def storedCounts (graphIndexId : String) (w : WritePayload) (db : Database) : ℕ × ℕ :=
  let anchors := db.anchors.filter fun a =>
    a.graphIndexId = graphIndexId && a.orgId = w.orgId && a.repoId = w.repoId
  (anchors.length,
    db.semanticEdges.countP fun e =>
      e.graphIndexId = graphIndexId && e.orgId = w.orgId && e.repoId = w.repoId &&
        (equalFold e.source "anchor-linker" ||
          anchors.any fun a => a.nodeVid = e.sourceExternalId || a.nodeVid = e.targetExternalId))

def repairedRow (now : Time) (counts : ℕ × ℕ) (g : CodeGraphIndex) : CodeGraphIndex :=
  { g with anchorCount := counts.1, linkedEdgeCount := counts.2, updatedAt := now }

/-- The effect of one statement. -/
def WriteStatement.exec (d : Digests) (now : Time) (graphIndexId : String) (w : WritePayload)
    (db : Database) : WriteStatement → Database
  | .deleteAnchors =>
    { db with anchors := deleteWhere (fun a => a.graphIndexId = graphIndexId &&
        a.orgId = w.orgId && a.repoId = w.repoId) db.anchors }
  | .deleteEdges =>
    { db with semanticEdges := deleteWhere (fun e => e.graphIndexId = graphIndexId &&
        e.orgId = w.orgId && e.repoId = w.repoId) db.semanticEdges }
  | .deleteFacts =>
    { db with semanticFacts := deleteWhere (fun f => f.graphIndexId = graphIndexId &&
        f.orgId = w.orgId && f.repoId = w.repoId) db.semanticFacts }
  | .insertRenderedAnchors batch =>
    { db with anchors := batch.foldl (fun rows a =>
        upsertAnchor rows (anchorRow now graphIndexId w a)) db.anchors }
  | .insertRenderedSemanticFacts batch =>
    { db with semanticFacts := batch.foldl (fun rows v =>
        upsertFact rows (renderedFact now graphIndexId w v)) db.semanticFacts }
  | .insertRenderedSemanticEdges batch =>
    { db with semanticEdges := batch.foldl (fun rows e =>
        upsertRenderedEdge rows (renderedEdge d now graphIndexId w e)) db.semanticEdges }
  | .markPartial result => Writer.markPartial now graphIndexId w result db
  | .markReady result => Writer.markReady now graphIndexId w result db
  | .markSkipped reason => Writer.markSkipped now graphIndexId w reason db
  | .markFailed reason => Writer.markFailed now graphIndexId w reason db
  | .upsertRevisionIfManifestReady newId =>
    if manifestReady w db then
      { db with graphRevisions :=
          upsertRevision (revisionRow now newId graphIndexId w) db.graphRevisions }
    else db
  | .repairReadyGraphCounts =>
    let counts := storedCounts graphIndexId w db
    updateGraphIndexes
      (fun g => writesRow graphIndexId w g && g.status = .ready &&
        (g.anchorCount ≠ counts.1 || g.linkedEdgeCount ≠ counts.2))
      (repairedRow now counts) db

/-- The statement ends its execution: the manifest of the revision is stale. -/
def WriteStatement.halts (w : WritePayload) (db : Database) : WriteStatement → Bool
  | .upsertRevisionIfManifestReady _ => !manifestReady w db
  | _ => false

/-- The statements of `persistRenderedSemanticRows`. -/
def persistRenderedSemanticRows (w : WritePayload) (vertices : List RenderedVertexRow)
    (edges : List RenderedEdgeRow) : List WriteStatement :=
  [.deleteAnchors, .deleteEdges, .deleteFacts] ++
    (w.anchors.toChunks semanticRowBatchSize).map .insertRenderedAnchors ++
    (vertices.toChunks semanticRowBatchSize).map .insertRenderedSemanticFacts ++
    (edges.toChunks semanticRowBatchSize).map .insertRenderedSemanticEdges

/-- The mark that closes a successful write; counts out of range issue no statement. -/
def finishWrite (opts : WriteOptions) (newId : String) (r : WriteResult) : List WriteStatement :=
  if !r.countsFit then []
  else if opts.partialOnly then [.markPartial r]
  else .markReady r ::
    if opts.activateRevision then [.upsertRevisionIfManifestReady newId] else []

/-- The rest of `writePayload` for a row that is to be built, after the answer of the
graph store. -/
def rebuildStatements (store : RenderedStore) (opts : WriteOptions) (newId : String)
    (w : WritePayload) : Except String WriteResult → List WriteStatement
  | .error e => [.markFailed e]
  | .ok r =>
    match r.status with
    | .ready =>
      match store.extractRenderedRows w with
      | .error e => [.markFailed e]
      | .ok (vertices, edges) =>
        persistRenderedSemanticRows w vertices edges ++
          finishWrite opts newId
            { r with
              anchorCount := w.anchors.length
              linkedEdgeCount := countRenderedAnchorLinks edges w.anchors }
    | .skipped => [.markSkipped r.errorMessage]
    | .failed => [.markFailed r.errorMessage]
    | .unknown text => [.markFailed ("unknown graph write status " ++ text)]

/-- The rest of `writePayload`, from the state `markBuilding` returned. -/
def writeStatements (store : RenderedStore) (opts : WriteOptions) (newId : String)
    (w : WritePayload) (build : GraphBuildState) (outcome : Except String WriteResult) :
    List WriteStatement :=
  match build.status with
  | .building | .partialReady => rebuildStatements store opts newId w outcome
  | .ready =>
    (if opts.activateRevision then [.upsertRevisionIfManifestReady newId] else []) ++
      [.repairReadyGraphCounts]
  | _ => []

end CodeIntel.Graph.Writer
