import CodeIntel.Graph.Snapshot

/-!
# GRAPH_MERGE

The merge handler finds the graph snapshot of a revision, or creates one when
only SCIP evidence exists, projects the SCIP rows onto it and promotes the
snapshot from PARTIAL to READY. Each SQL statement is a definition of its own;
`mergeGraph` strings them together.
-/

namespace CodeIntel.Core

open Relational Schema Subjobs CodeIntel.Graph

def graphOfRevision (p : Payload) (g : CodeGraphIndex) : Bool :=
  g.orgId = p.orgId && g.repoId = p.repoId && g.workspaceId = workspaceOf p &&
    g.sourceRevision = p.revision && g.commitHash = p.commitHash &&
    g.schemaVersion = defaultSchemaVersion && g.builderVersion = defaultBuilder

def dependencyOf (p : Payload) (dep : Subjob) : Bool :=
  dep.repoIndexingJobId = p.repoIndexingJobId && dep.workspaceId = workspaceOf p &&
    dep.repoId = p.repoId && dep.branch = p.branch && dep.revision = p.revision &&
    dep.commitHash = p.commitHash

/-- A dependency no longer holds its successors back; SCIP may also have failed. -/
def depFinished (dep : Subjob) : Bool :=
  dep.status = .succeeded || dep.status = .skipped ||
    (dep.layer = .scip && (dep.status = .failed || dep.status = .canceled))

/-- PARTIAL rows first, then the most recent one. -/
def resolvePartialGraphIndex (p : Payload) (db : Database) : Option CodeGraphIndex :=
  (db.graphIndexes.filter fun g =>
    graphOfRevision p g && (g.status = .partialReady || g.status = .ready)).argmax
      fun g => toLex (if g.status = .partialReady then 1 else 0, toLex (g.updatedAt, g.id))

/-- The conflict target of the graph index inserts. -/
def sameSnapshotKey (p : Payload) (g : CodeGraphIndex) : Bool :=
  g.repoId = p.repoId && g.workspaceId = workspaceOf p && g.commitHash = p.commitHash &&
    g.schemaVersion = defaultSchemaVersion && g.builderVersion = defaultBuilder

def scipOnlyGraphIndex (now : Time) (newId : String) (p : Payload) : CodeGraphIndex where
  id := newId
  status := .partialReady
  sourceRevision := p.revision
  commitHash := p.commitHash
  graphSpace := graphSpaceName
  workspaceId := workspaceOf p
  schemaVersion := defaultSchemaVersion
  builderVersion := defaultBuilder
  indexRunId := some p.repoIndexingJobId
  orgId := p.orgId
  repoId := p.repoId
  createdAt := now
  updatedAt := now

/-- What the conflict branch does to the row of the commit: a READY row keeps its
status, but every row is handed to the new revision. -/
def adoptGraphIndex (now : Time) (p : Payload) (g : CodeGraphIndex) : CodeGraphIndex :=
  { g with
    status := if g.status = .ready then .ready else .partialReady
    sourceRevision := p.revision
    graphSpace := graphSpaceName
    indexRunId := some p.repoIndexingJobId
    errorMessage := none
    updatedAt := now }

def createPartialGraphIndexForSCIPOnly (now : Time) (newId : String) (p : Payload)
    (db : Database) : Database :=
  { db with
    graphIndexes := upsert (sameSnapshotKey p) (adoptGraphIndex now p)
      (scipOnlyGraphIndex now newId p) db.graphIndexes }

/-! ## Projecting SCIP rows -/

def stringProp (props : Props) (key fallback : String) : String :=
  match props.lookup key with
  | none => fallback
  | some (.str value) => nonEmpty value fallback
  | some (.int value) => toString value
  | some (.hundredths value) => "0." ++ toString value

def optionalPropInt (props : Props) (key : String) : Option ℤ :=
  match props.lookup key with
  | some (.int value) => some value
  | some (.hundredths _) => some 0
  | _ => none

def scipFact (now : Time) (graphIndexId : String) (p : Payload) (v : Vertex) : SemanticFact where
  externalId := v.vid
  dedupeKey := "scip-node:" ++ v.vid
  kind := stringProp v.props "kind" v.kind
  label := stringProp v.props "label" v.vid
  workspaceId := workspaceOf p
  commitHash := p.commitHash
  schemaVersion := defaultSchemaVersion
  builderVersion := defaultBuilder
  sourceFile := stringProp v.props "evidenceFilePath" (stringProp v.props "path" "")
  startLine := optionalPropInt v.props "startLine"
  endLine := optionalPropInt v.props "endLine"
  evidence := stringProp v.props "label" v.vid
  confidenceTier := "EXTRACTED"
  source := "scip"
  orgId := p.orgId
  repoId := p.repoId
  graphIndexId := graphIndexId
  updatedAt := now

def scipEdgeDedupeKey (d : Digests) (e : Edge) : String :=
  "scip-edge:" ++ d.sha256Hex
    ("\x00".intercalate [e.fromVid, e.toVid, e.kind, toString e.rank])

def scipSemanticEdge (d : Digests) (now : Time) (graphIndexId : String) (p : Payload)
    (e : Edge) : SemanticEdge where
  sourceExternalId := e.fromVid
  targetExternalId := e.toVid
  dedupeKey := scipEdgeDedupeKey d e
  relation := e.kind
  workspaceId := workspaceOf p
  commitHash := p.commitHash
  schemaVersion := defaultSchemaVersion
  builderVersion := defaultBuilder
  sourceFile := stringProp e.props "evidenceFilePath" ""
  startLine := optionalPropInt e.props "startLine"
  endLine := optionalPropInt e.props "endLine"
  evidence := some (stringProp e.props "normalizedKey" "")
  rationale := some (stringProp e.props "context" "")
  confidenceTier := "EXTRACTED"
  source := "scip"
  orgId := p.orgId
  repoId := p.repoId
  graphIndexId := graphIndexId
  updatedAt := now

/-- `ON CONFLICT ("graphIndexId", "dedupeKey") DO UPDATE` for one projected edge. -/
def upsertScipEdge (rows : List SemanticEdge) (new : SemanticEdge) : List SemanticEdge :=
  upsert (fun r => r.graphIndexId = new.graphIndexId && r.dedupeKey = new.dedupeKey)
    (fun r =>
      { r with
        relation := new.relation
        sourceFile := new.sourceFile
        startLine := new.startLine
        endLine := new.endLine
        evidence := new.evidence
        rationale := new.rationale
        confidenceTier := new.confidenceTier
        source := new.source
        updatedAt := new.updatedAt })
    new rows

def insertSCIPSemanticFacts (now : Time) (graphIndexId : String) (p : Payload)
    (vertices : List Vertex) (db : Database) : Database :=
  { db with
    semanticFacts :=
      vertices.foldl (fun rows v => upsertFact rows (scipFact now graphIndexId p v))
        db.semanticFacts }

def insertSCIPSemanticEdges (d : Digests) (now : Time) (graphIndexId : String) (p : Payload)
    (edges : List Edge) (db : Database) : Database :=
  { db with
    semanticEdges :=
      edges.foldl (fun rows e => upsertScipEdge rows (scipSemanticEdge d now graphIndexId p e))
        db.semanticEdges }

/-- `graphError` is the error of the graph write. -/
def projectSCIPSemanticGraphRows (d : Digests) (graphError : Option String) (now : Time)
    (graphIndexId : String) (p : Payload) (rows : ScipRows) (db : Database) : Reply Unit :=
  if rows.isEmpty then (.ok (), db)
  else
    let snapshot := buildSCIPSnapshot d p rows
    if snapshot.vertices.isEmpty && snapshot.edges.isEmpty then (.ok (), db)
    else match graphError with
      | some e => (.error e, db)
      | none =>
        (.ok (), insertSCIPSemanticEdges d now graphIndexId p snapshot.edges
          (insertSCIPSemanticFacts now graphIndexId p snapshot.vertices db))

/-! ## Promotion -/

def mergeBlocked (p : Payload) (db : Database) : Bool :=
  db.subjobs.any fun dep =>
    dependencyOf p dep && (dep.layer = .astTreeSitter || dep.layer = .scip) && !depFinished dep

def partialGraphIndex (p : Payload) (db : Database) : Option CodeGraphIndex :=
  (db.graphIndexes.filter fun g => graphOfRevision p g && g.status = .partialReady).argmax
    fun g => toLex (g.updatedAt, g.id)

/-- The `WHERE` clause of the promotion. -/
def promotable (p : Payload) (db : Database) (g : CodeGraphIndex) : Bool :=
  (partialGraphIndex p db).any (fun picked => g.id = picked.id) && !mergeBlocked p db

def promoteRow (now : Time) (g : CodeGraphIndex) : CodeGraphIndex :=
  { g with
    status := .ready
    indexedAt := some now
    errorMessage := none
    updatedAt := now }

/-- The promotion statement of `mergeGraph`. -/
def promotePartialGraph (now : Time) (p : Payload) (db : Database) : Reply ℕ :=
  (.ok (affected (promotable p db) db.graphIndexes),
    { db with graphIndexes := updateWhere (promotable p db) (promoteRow now) db.graphIndexes })

def graphSnapshotAlreadyReady (p : Payload) (db : Database) : Bool :=
  (db.graphIndexes.any fun g => graphOfRevision p g && g.status = .ready) && !mergeBlocked p db

def errNothingToMerge : String :=
  "indexcore: no completed PARTIAL graph snapshot available to merge"

/-- The end of `mergeGraph`: promote, or accept a snapshot that is READY already. -/
def promoteOrAccept (now : Time) (p : Payload) (db : Database) : Reply Unit :=
  let db' := (promotePartialGraph now p db).2
  if affected (promotable p db) db.graphIndexes = 1 then (.ok (), db')
  else if graphSnapshotAlreadyReady p db' then (.ok (), db')
  else (.error errNothingToMerge, db')

def mergeGraph (d : Digests) (caps : ProjectionCaps) (graphError : Option String) (now : Time)
    (newId : String) (p : Payload) (db : Database) : Reply Unit :=
  let rows := loadSCIPProjectionRows caps p db
  match resolvePartialGraphIndex p db with
  | some g =>
    match projectSCIPSemanticGraphRows d graphError now g.id p rows db with
    | (.error e, db') => (.error e, db')
    | (.ok (), db') => promoteOrAccept now p db'
  | none =>
    if rows.isEmpty then (.ok (), db)
    else
      let created := createPartialGraphIndexForSCIPOnly now newId p db
      let graphIndexId := ((created.graphIndexes.find? (sameSnapshotKey p)).map
        CodeGraphIndex.id).getD newId
      match projectSCIPSemanticGraphRows d graphError now graphIndexId p rows created with
      | (.error e, db') => (.error e, db')
      | (.ok (), db') => promoteOrAccept now p db'

end CodeIntel.Core
