import CodeIntel.Core.Activate

/-!
# Storing a SCIP artifact

`Ingest` replaces the rows of one language index by those of a published
artifact, inside the index row of the revision and in one transaction. Reading
and parsing the artifact file is a parameter of the call.
-/

namespace CodeIntel.Scip

open Text Relational Schema Subjobs CodeIntel.Graph

structure SymbolRow where
  symbol : String
  displayName : Option String := none
  kind : Option String := none
  language : Option String := none
  filePath : Option String := none
  startLine : Option ℤ := none
  endLine : Option ℤ := none
  deriving DecidableEq, Repr

structure OccurrenceRow where
  (symbol filePath : String)
  startLine : Option ℤ := none
  startCharacter : Option ℤ := none
  endLine : Option ℤ := none
  role : OccurrenceRole
  syntaxKind : Option String := none
  lineContent : Option String := none
  enclosingSymbol : Option String := none
  deriving DecidableEq, Repr

structure RelationshipRow where
  (sourceSymbol targetSymbol : String)
  (isReference isImplementation isTypeDefinition isDefinition : Bool)
  deriving DecidableEq, Repr

/-- The rows of a parsed artifact. -/
structure Rows where
  symbols : List SymbolRow
  occurrences : List OccurrenceRow := []
  relationships : List RelationshipRow := []
  deriving DecidableEq, Repr

/-- One call of `Ingest`: the task payload, what the executor reports, the lease
it presents, what loading the artifact gives, and the identifiers and clock
readings it draws. -/
structure IngestCall where
  payload : Payload
  (artifactPath artifactSha256 : String)
  durationMs : Option ℤ := none
  (leaseOwner attemptId : String)
  load : Except String Rows
  (artifactRoot newIndexId newLanguageId : String)
  (precheckAt now : Time)

/-- The dereferenced project columns of a validated payload. -/
def IngestCall.language (c : IngestCall) : String := coalesce c.payload.language

def IngestCall.projectRoot (c : IngestCall) : String := coalesce c.payload.projectRoot

def IngestCall.indexer (c : IngestCall) : String := coalesce c.payload.indexer

/-! ## Index rows -/

/-- The columns of the unique index `CodeIntelIndex_scope_revision_commit_kind_key`. -/
structure IndexScope where
  (orgId repoId : ℤ)
  (workspaceId branch revision commitHash : String)
  deriving DecidableEq, Repr

def indexScope (ci : CodeIntelIndex) : IndexScope :=
  ⟨ci.orgId, ci.repoId, ci.workspaceId, ci.branch, ci.revision, ci.commitHash⟩

def payloadScope (p : Payload) : IndexScope :=
  ⟨p.orgId, p.repoId, workspaceOf p, p.branch, p.revision, p.commitHash⟩

def freshIndex (c : IngestCall) : CodeIntelIndex where
  id := c.newIndexId
  status := .indexing
  workspaceId := workspaceOf c.payload
  branch := c.payload.branch
  revision := c.payload.revision
  commitHash := c.payload.commitHash
  artifactRoot := c.artifactRoot
  orgId := c.payload.orgId
  repoId := c.payload.repoId
  createdAt := c.now
  updatedAt := c.now

/-- The conflict branch of `upsertCodeIntelIndex`: a READY row is opened again. -/
def reopenIndex (c : IngestCall) (ci : CodeIntelIndex) : CodeIntelIndex :=
  { ci with
    status := if ci.status = .ready then .indexing else ci.status
    artifactRoot := c.artifactRoot
    errorMessage := none
    indexedAt := if ci.status = .ready then none else ci.indexedAt
    updatedAt := c.now }

/-- The id of the row of the scope, and the table with it. -/
def upsertCodeIntelIndex (c : IngestCall) (rows : List CodeIntelIndex) :
    Except String (String × List CodeIntelIndex) :=
  match lookup indexScope (payloadScope c.payload) rows with
  | some ci =>
    .ok (ci.id, updateWhere (fun r => indexScope r = payloadScope c.payload) (reopenIndex c) rows)
  | none =>
    if rows.any fun ci => ci.id = c.newIndexId then
      .error ("upsert CodeIntelIndex: duplicate key value violates unique constraint " ++
        "CodeIntelIndex_pkey")
    else .ok (c.newIndexId, rows ++ [freshIndex c])

/-! ## Language rows -/

/-- What identifies a project inside an index row. -/
structure ProjectKey where
  (language projectRoot indexer : String)
  deriving DecidableEq, Repr

def IngestCall.key (c : IngestCall) : ProjectKey := ⟨c.language, c.projectRoot, c.indexer⟩

def languageKey (li : CodeIntelLanguageIndex) : ProjectKey :=
  ⟨li.language, li.projectRoot, li.indexer⟩

def subjobKey (s : Subjob) : ProjectKey :=
  ⟨coalesce s.language, coalesce s.projectRoot, coalesce s.indexer⟩

def subjobScope (s : Subjob) : IndexScope :=
  ⟨s.orgId, s.repoId, s.workspaceId, s.branch, s.revision, s.commitHash⟩

def isScipSubjob (jobId : String) (scope : IndexScope) (s : Subjob) : Bool :=
  s.repoIndexingJobId = jobId && subjobScope s = scope && s.layer = .scip

/-- The SCIP projects a job has subjobs for at a revision. -/
def scipKeys (jobId : String) (scope : IndexScope) (subjobs : List Subjob) : List ProjectKey :=
  (subjobs.filter (isScipSubjob jobId scope)).map subjobKey

/-- A language row of the index that no SCIP subjob of the job stands for. -/
def isStale (c : IngestCall) (indexId : String) (subjobs : List Subjob)
    (li : CodeIntelLanguageIndex) : Bool :=
  li.codeIntelIndexId = indexId &&
    !(scipKeys c.payload.repoIndexingJobId (payloadScope c.payload) subjobs).contains
      (languageKey li)

def staleIds (c : IngestCall) (indexId : String) (db : Database) : List String :=
  (db.languageIndexes.filter (isStale c indexId db.subjobs)).map CodeIntelLanguageIndex.id

/-- The stale rows with everything stored for them. -/
def deleteStaleLanguageIndexes (c : IngestCall) (indexId : String) (db : Database) : Database :=
  let stale := staleIds c indexId db
  { db with
    relationships := deleteWhere (fun r => stale.contains r.codeIntelLanguageIndexId)
      db.relationships
    occurrences := deleteWhere (fun o => stale.contains o.codeIntelLanguageIndexId) db.occurrences
    symbols := deleteWhere (fun s => stale.contains s.codeIntelLanguageIndexId) db.symbols
    languageIndexes := deleteWhere (isStale c indexId db.subjobs) db.languageIndexes }

def commandFromPayload (p : Payload) : Option String :=
  match p.indexer, p.projectRoot with
  | some indexer, some root =>
    some (trimSpace indexer ++ if isBlank root then "" else " --project-root " ++ trimSpace root)
  | _, _ => none

def freshLanguage (c : IngestCall) (indexId : String) : CodeIntelLanguageIndex where
  id := c.newLanguageId
  codeIntelIndexId := indexId
  language := c.language
  projectRoot := c.projectRoot
  indexer := c.indexer
  workerClass := c.payload.workerClass
  status := .indexing
  artifactPath := c.artifactPath
  command := commandFromPayload c.payload
  durationMs := c.durationMs
  createdAt := c.now
  updatedAt := c.now

/-- The conflict branch of `upsertLanguageIndex`. -/
def reopenLanguage (c : IngestCall) (li : CodeIntelLanguageIndex) : CodeIntelLanguageIndex :=
  { li with
    workerClass := c.payload.workerClass
    status := .indexing
    artifactPath := c.artifactPath
    command := commandFromPayload c.payload
    durationMs := c.durationMs
    errorMessage := none
    updatedAt := c.now }

/-- The columns of the unique index on language rows. -/
def languageScope (li : CodeIntelLanguageIndex) : String × ProjectKey :=
  (li.codeIntelIndexId, languageKey li)

def upsertLanguageIndex (c : IngestCall) (indexId : String) (rows : List CodeIntelLanguageIndex) :
    Except String (String × List CodeIntelLanguageIndex) :=
  match lookup languageScope (indexId, c.key) rows with
  | some li =>
    .ok (li.id, updateWhere (fun r => languageScope r = (indexId, c.key)) (reopenLanguage c) rows)
  | none =>
    if rows.any fun li => li.id = c.newLanguageId then
      .error ("upsert CodeIntelLanguageIndex: duplicate key value violates unique constraint " ++
        "CodeIntelLanguageIndex_pkey")
    else .ok (c.newLanguageId, rows ++ [freshLanguage c indexId])

def deleteLanguageRows (languageId : String) (db : Database) : Database :=
  { db with
    relationships := deleteWhere (fun r => r.codeIntelLanguageIndexId = languageId)
      db.relationships
    occurrences := deleteWhere (fun o => o.codeIntelLanguageIndexId = languageId) db.occurrences
    symbols := deleteWhere (fun s => s.codeIntelLanguageIndexId = languageId) db.symbols }

/-! ## Semantic rows -/

def storedSymbol (c : IngestCall) (indexId languageId : String) (row : SymbolRow) :
    CodeIntelSymbol :=
  { symbol := row.symbol, displayName := row.displayName, kind := row.kind,
    language := row.language, filePath := row.filePath, startLine := row.startLine,
    endLine := row.endLine, orgId := c.payload.orgId, repoId := c.payload.repoId,
    codeIntelIndexId := indexId, codeIntelLanguageIndexId := languageId }

def storedOccurrence (c : IngestCall) (indexId languageId : String) (row : OccurrenceRow) :
    CodeIntelOccurrence :=
  { symbol := row.symbol, filePath := row.filePath, startLine := row.startLine,
    startCharacter := row.startCharacter, endLine := row.endLine, role := row.role,
    syntaxKind := row.syntaxKind, lineContent := row.lineContent,
    enclosingSymbol := row.enclosingSymbol, orgId := c.payload.orgId, repoId := c.payload.repoId,
    codeIntelIndexId := indexId, codeIntelLanguageIndexId := languageId }

def storedRelationship (c : IngestCall) (indexId languageId : String) (row : RelationshipRow) :
    CodeIntelRelationship :=
  { sourceSymbol := row.sourceSymbol, targetSymbol := row.targetSymbol,
    isReference := row.isReference, isImplementation := row.isImplementation,
    isTypeDefinition := row.isTypeDefinition, isDefinition := row.isDefinition,
    orgId := c.payload.orgId, repoId := c.payload.repoId, codeIntelIndexId := indexId,
    codeIntelLanguageIndexId := languageId }

/-- The conflict target `("codeIntelIndexId", symbol)`. -/
def sameSymbol (new s : CodeIntelSymbol) : Bool :=
  s.codeIntelIndexId = new.codeIntelIndexId && s.symbol = new.symbol

/-- The conflict target of relationships. -/
def sameRelationship (new r : CodeIntelRelationship) : Bool :=
  r.codeIntelIndexId = new.codeIntelIndexId && r.sourceSymbol = new.sourceSymbol &&
    r.targetSymbol = new.targetSymbol && r.isReference = new.isReference &&
    r.isImplementation = new.isImplementation && r.isTypeDefinition = new.isTypeDefinition &&
    r.isDefinition = new.isDefinition

/-- The bulk inserts. `ON CONFLICT DO NOTHING` also skips a row the same
statement has stored already, so the division into statements does not matter. -/
def insertRows (c : IngestCall) (indexId languageId : String) (rows : Rows) (db : Database) :
    Database :=
  { db with
    symbols := (rows.symbols.map (storedSymbol c indexId languageId)).foldl
      (insertMissing sameSymbol) db.symbols
    occurrences := db.occurrences ++ rows.occurrences.map (storedOccurrence c indexId languageId)
    relationships := (rows.relationships.map (storedRelationship c indexId languageId)).foldl
      (insertMissing sameRelationship) db.relationships }

def readyLanguage (now : Time) (li : CodeIntelLanguageIndex) : CodeIntelLanguageIndex :=
  { li with status := .ready, errorMessage := none, updatedAt := now }

def markLanguageReady (now : Time) (languageId : String) (db : Database) : Database :=
  { db with
    languageIndexes := updateWhere (fun li => li.id = languageId) (readyLanguage now)
      db.languageIndexes }

def refreshCodeIntelIndexCounts (now : Time) (indexId : String) (p : Payload) (db : Database) :
    Database :=
  let languages := db.languageIndexes.filter fun li => li.codeIntelIndexId = indexId
  let ready := languages.filter fun li => li.status = .ready
  let subjobs := db.subjobs.filter (isScipSubjob p.repoIndexingJobId (payloadScope p))
  let hasUnready := subjobs.any fun s =>
    s.status ≠ .skipped && !ready.any fun li => languageKey li = subjobKey s
  let hasReady := !ready.isEmpty
  let incomplete := (languages.any fun li => li.status = .failed) ||
    subjobs.any fun s => s.status = .failed || s.status = .skipped
  let refresh (ci : CodeIntelIndex) : CodeIntelIndex :=
    { ci with
      languageCount := (ready.map CodeIntelLanguageIndex.language).dedup.length
      symbolCount := db.symbols.countP fun s => s.codeIntelIndexId = indexId
      occurrenceCount := db.occurrences.countP fun o => o.codeIntelIndexId = indexId
      relationshipCount := db.relationships.countP fun r => r.codeIntelIndexId = indexId
      status := if incomplete && hasReady then .partialReady else if hasUnready then .indexing
        else if hasReady then .ready else ci.status
      indexedAt := if !hasUnready && hasReady then some (ci.indexedAt.getD now) else ci.indexedAt
      errorMessage := if !hasUnready && hasReady then none else ci.errorMessage
      updatedAt := now }
  { db with
    codeIntelIndexes := updateWhere (fun ci => ci.id = indexId) refresh db.codeIntelIndexes }

/-! ## The call -/

def errLeaseLost : String := "scipartifact: live subjob lease not found or no longer valid"

/-- `validateLiveSubjobLease` with the columns of the call. -/
def IngestCall.validateLease (c : IngestCall) (now : Time) (db : Database) : Reply Bool :=
  validateLiveSubjobLease now c.payload c.leaseOwner c.attemptId c.artifactPath c.artifactSha256 db

/-- The state of the transaction after the rows of the project were removed,
with the two row ids. -/
def prepare (c : IngestCall) (db : Database) : Except String (String × String × Database) := do
  let (indexId, indexes) ← upsertCodeIntelIndex c db.codeIntelIndexes
  let pruned := deleteStaleLanguageIndexes c indexId { db with codeIntelIndexes := indexes }
  let (languageId, languages) ← upsertLanguageIndex c indexId pruned.languageIndexes
  pure (indexId, languageId,
    deleteLanguageRows languageId { pruned with languageIndexes := languages })

/-- The statements of the transaction after the lease check. -/
def replaceRows (c : IngestCall) (rows : Rows) (db : Database) : Except String Database := do
  let (indexId, languageId, cleared) ← prepare c db
  pure (refreshCodeIntelIndexCounts c.now indexId c.payload
    (markLanguageReady c.now languageId (insertRows c indexId languageId rows cleared)))

/-- The argument checks of `Ingest`. -/
def refuseIngest (c : IngestCall) : Option String :=
  if !Core.validPayload c.payload then some "scipartifact: payload: indexsubjobtask: invalid payload"
  else if isBlank c.leaseOwner || isBlank c.attemptId then
    some "scipartifact: leaseOwner and attemptID are required"
  else if c.payload.layer ≠ .scip then some "scipartifact: unsupported artifact layer"
  else if isBlank c.language then some "scipartifact: SCIP language is required"
  else if c.payload.projectRoot = none then some "scipartifact: SCIP projectRoot is required"
  else if isBlank c.indexer then some "scipartifact: SCIP indexer is required"
  else if isBlank c.artifactPath then some "scipartifact: artifactPath is required"
  else none

/-- `validateSemanticRows` after loading the artifact. -/
def loadRows (c : IngestCall) : Except String Rows :=
  match c.load with
  | .error e => .error e
  | .ok rows =>
    if rows.symbols = [] && rows.occurrences = [] && rows.relationships = [] then
      .error ("scipartifact: artifact " ++ c.artifactPath ++
        " has no semantic rows: 0 symbols, 0 occurrences, 0 relationships")
    else .ok rows

/-- The transaction of `Ingest`; an error rolls it back. -/
def ingestTransaction (c : IngestCall) (rows : Rows) (db : Database) : Reply Unit :=
  match c.validateLease c.now db with
  | (.ok true, db') => match replaceRows c rows db' with
    | .error e => (.error e, db)
    | .ok db'' => (.ok (), db'')
  | _ => (.error errLeaseLost, db)

/-- The first lease check commits on its own. -/
def ingest (c : IngestCall) (db : Database) : Reply Unit :=
  match refuseIngest c with
  | some e => (.error e, db)
  | none => match c.validateLease c.precheckAt db with
    | (.ok true, db') => match loadRows c with
      | .error e => (.error e, db')
      | .ok rows => ingestTransaction c rows db'
    | _ => (.error errLeaseLost, db)

end CodeIntel.Scip
