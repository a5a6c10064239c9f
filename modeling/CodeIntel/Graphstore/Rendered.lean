import CodeIntel.Relational.Fallible
import CodeIntel.Graph.Writer
import CodeIntel.Graphschema.Render
import CodeIntel.Graphstore.Scan

/-!
# The validator of rendered statements

The backend accepts nGQL rendered by the indexer only if it begins with its own
schema statements and every further statement is an INSERT into the code graph whose
rows carry the scope of the payload. The same scanners read the rows back for the
semantic tables. The digests are parameters.
-/

namespace CodeIntel.Graphstore

open Relational Text Graph Subjobs

structure RenderedStatementWrite where
  orgId : ℤ
  workspaceId : String
  repoId : ℤ
  (revision commitHash : String)
  schemaVersion : ℤ
  (builderVersion source : String)
  statements : List String
  deriving DecidableEq, Repr

/-- The error wraps `ErrRenderedStatementValidation`. -/
def renderedValidation (message : Message) : Message :=
  .text "graphstore: rendered statement validation: " :: message

/-- `fmt.Errorf("<context>%w", err)`. -/
def withContext {α : Type} (context : String) (result : Except Message α) : Except Message α :=
  result.mapError (.text context :: ·)

def validateRenderedScope (input : RenderedStatementWrite) : Except Message Unit :=
  if input.orgId ≤ 0 then failure ("invalid orgId " ++ toString input.orgId)
  else if input.repoId ≤ 0 then failure ("invalid repoId " ++ toString input.repoId)
  else if isBlank input.workspaceId then failure "workspaceId is required"
  else if isBlank input.revision then failure "revision is required"
  else if !isCommitHash input.commitHash then failure "commitHash must be a 40-character SHA"
  else if input.schemaVersion ≤ 0 then
    failure ("invalid schemaVersion " ++ toString input.schemaVersion)
  else if isBlank input.builderVersion then failure "builderVersion is required"
  else if isBlank input.source then failure "source is required"
  else .ok ()

def quoteIdentifierLocal (s : String) : String :=
  "\x60" ++ Graphschema.doubleTicks s ++ "\x60"

def insertPrefix (kind name : String) (props : List String) : String :=
  "INSERT " ++ kind ++ " " ++ quoteIdentifierLocal name ++ "(" ++
    ", ".intercalate (props.map quoteIdentifierLocal) ++ ") VALUES "

def renderStringLiteral (s : String) : String := jsonLiteral true s

/-- The values a row of the payload's scope must have, by column. -/
def wantedValues (input : RenderedStatementWrite) : List (String × String) :=
  [("orgId", toString input.orgId), ("workspaceId", renderStringLiteral input.workspaceId),
    ("repoId", toString input.repoId), ("revision", renderStringLiteral input.revision),
    ("commitHash", renderStringLiteral input.commitHash),
    ("schemaVersion", toString input.schemaVersion),
    ("builderVersion", renderStringLiteral input.builderVersion)]

/-- The check of one column. -/
def validateScopeValue (input : RenderedStatementWrite) (prop : String) (value : List Char) :
    Except Message Unit :=
  match (wantedValues input).lookup prop with
  | none => .ok ()
  | some expected =>
    let got := String.ofList (trimSpaceChars value)
    if got = expected then .ok ()
    else failure ("scope property " ++ prop ++ " got " ++ got ++ ", want " ++ expected)

def validateScopeValues (values : List (List Char)) (props : List String)
    (input : RenderedStatementWrite) : Except Message Unit :=
  if values.length ≠ props.length then
    failure ("value count got " ++ toString values.length ++ ", want " ++ toString props.length)
  else (props.zip values).forM fun column => validateScopeValue input column.1 column.2

def parseInsertRows (valuesPart : List Char) : Except Message (List (List Char)) := do
  let rows ← splitTopLevel valuesPart ','
  if rows = [] then failure "INSERT has no rows" else pure rows

def parseInsertRowValues (row : List Char) : Except Message (List (List Char)) := do
  let idx ← indexOutside row ':'
  let valueTuple := trimSpaceChars (row.drop (idx + 1))
  if valueTuple.head? ≠ some '(' ∨ valueTuple.getLast? ≠ some ')' then
    .error [.text "row values are not a tuple: ", .text (String.ofList row)]
  else splitTopLevel valueTuple.tail.dropLast ','

/-! ## Identities -/

def isLowerHex (s : List Char) : Bool :=
  s ≠ [] && s.all fun c => ('0' ≤ c && c ≤ '9') || ('a' ≤ c && c ≤ 'f')

/-- The beginning of every vertex identifier of the scope. -/
def scopedVidPrefix (d : Digests) (input : RenderedStatementWrite) : String :=
  ":".intercalate ["cg", "o" ++ toString input.orgId, "w" ++ hashParts d [input.workspaceId] 8,
    "r" ++ toString input.repoId, "c" ++ String.ofList (input.commitHash.toList.take 12),
    "s" ++ toString input.schemaVersion, "b" ++ hashParts d [input.builderVersion] 8] ++ ":"

def validateScopedVID (d : Digests) (vid expectedKind : String) (input : RenderedStatementWrite) :
    Except Message Unit :=
  let pre := scopedVidPrefix d input
  if !hasPrefix vid pre then
    .error [.text "VID ", .quoted vid, .text " does not start with scoped prefix ", .quoted pre]
  else
    let rest := vid.toList.drop pre.toList.length
    let kind := String.ofList (rest.takeWhile (· ≠ ':'))
    match rest.dropWhile (· ≠ ':') with
    | [] => .error [.text "VID ", .quoted vid, .text " missing kind/key hash"]
    | _ :: key =>
      if expectedKind ≠ "" ∧ kind ≠ expectedKind then
        .error [.text "VID kind got ", .quoted kind, .text ", want ", .quoted expectedKind]
      else if expectedKind = "" ∧ kind = "" then failure "VID kind is empty"
      else if key.contains ':' then
        .error [.text "VID key hash ", .quoted (String.ofList key), .text " contains ':'"]
      else if key.length ≠ 32 ∨ isLowerHex key = false then
        .error [.text "VID key hash ", .quoted (String.ofList key),
          .text " is not 32 lowercase hex chars"]
      else .ok ()

def validateVertexRowIdentity (d : Digests) (row : List Char) (values : List (List Char))
    (input : RenderedStatementWrite) : Except Message Unit := do
  let idx ← indexOutside row ':'
  let vid ← withContext "vertex VID: " (parseStringLiteral (trimSpaceChars (row.take idx)))
  match values with
  | [] => failure "vertex values are empty"
  | first :: _ =>
    let kind ← withContext "vertex kind: " (parseStringLiteral (trimSpaceChars first))
    validateScopedVID d vid kind input

/-- `strconv.ParseInt(s, 10, 64)`. -/
def parseInt64 (s : List Char) : Option ℤ :=
  let value : Option ℤ := match s with
    | '-' :: cs => (parseDigits cs).map fun n => -(n : ℤ)
    | '+' :: cs => (parseDigits cs).map fun n => (n : ℤ)
    | cs => (parseDigits cs).map fun n => (n : ℤ)
  value.filter fun n => -2 ^ 63 ≤ n && n < 2 ^ 63

def edgePropsIndex (name : String) : Option ℕ :=
  Graphschema.edgeProps.idxOf? name

/-- The two ends and the rank of an edge row, before they are decoded. -/
structure EdgeTarget where
  (fromText toText rankText : List Char)
  deriving DecidableEq, Repr

/-- The part of an edge row before its colon; `target` and `rank` introduce the errors of
the two searches. -/
def splitEdgeTarget (targetContext rankContext : String) (target : List Char) :
    Except Message EdgeTarget := do
  let arrowIdx ← withContext targetContext (indexTokenOutside target "->")
  let targetAndRank := target.drop (arrowIdx + 2)
  let rankIdx ← withContext rankContext (indexTokenOutside targetAndRank "@")
  pure ⟨trimSpaceChars (target.take arrowIdx), trimSpaceChars (targetAndRank.take rankIdx),
    trimSpaceChars (targetAndRank.drop (rankIdx + 1))⟩

def parseRank (rankText : List Char) : Except Message ℤ :=
  match (parseInt64 rankText).filter fun rank => 0 ≤ rank && rank ≤ 0xFFFFFFFF with
  | some rank => .ok rank
  | none => .error [.text "edge rank ", .quoted (String.ofList rankText),
      .text " is outside uint32 range"]

def edgeSource (values : List (List Char)) : Except Message String :=
  match (edgePropsIndex "source").bind fun i => values[i]? with
  | some value => withContext "edge source: " (parseStringLiteral (trimSpaceChars value))
  | none =>
    let sourceIdx := (edgePropsIndex "source").elim "-1" toString
    failure ("edge source: column index out of range (sourceIdx=" ++ sourceIdx ++ ", values=" ++
      toString values.length ++ ")")

def validateEdgeRowIdentity (d : Digests) (row : List Char) (values : List (List Char))
    (input : RenderedStatementWrite) : Except Message Unit := do
  let idx ← indexOutside row ':'
  match values with
  | [] => failure "edge values are empty"
  | first :: _ =>
    let target ← splitEdgeTarget "edge target: " "edge rank: " (trimSpaceChars (row.take idx))
    let fromVid ← withContext "edge from VID: " (parseStringLiteral target.fromText)
    let toVid ← withContext "edge to VID: " (parseStringLiteral target.toText)
    let rank ← parseRank target.rankText
    let kind ← withContext "edge kind: " (parseStringLiteral (trimSpaceChars first))
    let source ← edgeSource values
    let expectedRank := d.edgeRank (fromVid ++ "->" ++ toVid ++ ":" ++ kind ++ ":" ++ source)
    if rank ≠ expectedRank then
      failure ("edge rank got " ++ toString rank ++ ", want " ++ toString expectedRank)
    else
      withContext "from VID: " (validateScopedVID d fromVid "" input)
      withContext "to VID: " (validateScopedVID d toVid "" input)

/-! ## Statements -/

/-- One of the two INSERT statements: its prefix, its columns and the check of its rows. -/
structure InsertKind where
  (keyword name : String)
  props : List String
  context : String
  identity : Digests → List Char → List (List Char) → RenderedStatementWrite → Except Message Unit

def InsertKind.pre (kind : InsertKind) : String := insertPrefix kind.keyword kind.name kind.props

def vertexInsert : InsertKind :=
  ⟨"VERTEX", Graphschema.nodeTag, Graphschema.nodeProps, "vertex statement ",
    validateVertexRowIdentity⟩

def edgeInsert : InsertKind :=
  ⟨"EDGE", Graphschema.edgeType, Graphschema.edgeProps, "edge statement ", validateEdgeRowIdentity⟩

/-- The values of an INSERT: without the prefix and the semicolon. -/
def InsertKind.valuesPart (kind : InsertKind) (stmt : String) : List Char :=
  let rest := stmt.toList.drop kind.pre.toList.length
  if rest.getLast? = some ';' then rest.dropLast else rest

def InsertKind.validateRow (kind : InsertKind) (d : Digests) (input : RenderedStatementWrite)
    (row : List Char) : Except Message Unit := do
  let values ← parseInsertRowValues row
  kind.identity d row values input
  validateScopeValues values kind.props input

/-- Checks the rows of an INSERT and counts them. -/
def InsertKind.validateRows (kind : InsertKind) (d : Digests) (input : RenderedStatementWrite)
    (stmt : String) : Except Message ℕ := do
  let rows ← parseInsertRows (kind.valuesPart stmt)
  rows.forM (kind.validateRow d input)
  pure rows.length

/-- One turn of the loop: the vertex and edge rows the statement adds. -/
def validateStatement (d : Digests) (input : RenderedStatementWrite) (i : ℕ) (stmt : String) :
    Except Message (ℕ × ℕ) :=
  match validateSingleTerminatedStatement stmt.toList with
  | .error e => .error (renderedValidation (.text ("statement " ++ toString i ++ ": ") :: e))
  | .ok () =>
    let run (kind : InsertKind) : Except Message ℕ :=
      (withContext (kind.context ++ toString i ++ ": ") (kind.validateRows d input stmt)).mapError
        renderedValidation
    if hasPrefix stmt vertexInsert.pre then (run vertexInsert).map fun n => (n, 0)
    else if hasPrefix stmt edgeInsert.pre then (run edgeInsert).map fun n => (0, n)
    else .error (renderedValidation
      [.text ("statement " ++ toString i ++ " is not an allowed graph INSERT")])

def validateStatements (d : Digests) (input : RenderedStatementWrite) :
    ℕ → List String → Except Message (ℕ × ℕ)
  | _, [] => .ok (0, 0)
  | i, stmt :: rest => do
    let here ← validateStatement d input i stmt
    let later ← validateStatements d input (i + 1) rest
    pure (here.1 + later.1, here.2 + later.2)

/-- The position of the first schema statement that is not byte-equal. -/
def schemaMismatch (statements : List String) : Option ℕ :=
  (Graphschema.renderSchemaStatements.zip statements).findIdx? fun pair => pair.1 ≠ pair.2

/-- The numbers of vertex and edge rows. -/
def validateRenderedStatementWrite (d : Digests) (input : RenderedStatementWrite) :
    Except Message (ℕ × ℕ) := do
  (validateRenderedScope input).mapError renderedValidation
  let schema := Graphschema.renderSchemaStatements
  if input.statements.length < schema.length then
    .error (renderedValidation [.text ("expected at least " ++ toString schema.length ++
      " schema statements, got " ++ toString input.statements.length)])
  else match schemaMismatch input.statements with
    | some i => .error (renderedValidation [.text ("schema statement " ++ toString i ++ " mismatch")])
    | none => validateStatements d input schema.length (input.statements.drop schema.length)

/-! ## Reading the rows back -/

def decodeRenderedValue (value : List Char) : String :=
  let value := trimSpaceChars value
  if value = [] || equalFold (String.ofList value) "NULL" then ""
  else if value.head? = some '"' then
    match parseStringLiteral value with
    | .ok decoded => decoded
    | .error _ => String.ofList value
  else String.ofList value

def renderedProps (keys : List String) (values : List (List Char)) : List (String × String) :=
  keys.zip (values.map decodeRenderedValue)

def parseRenderedVertexRow (row : List Char) : Except Message Writer.RenderedVertexRow := do
  let idx ← indexOutside row ':'
  let vid ← parseStringLiteral (trimSpaceChars (row.take idx))
  let values ← parseInsertRowValues row
  pure ⟨vid, renderedProps Graphschema.nodeProps values⟩

def parseRenderedEdgeRow (row : List Char) : Except Message Writer.RenderedEdgeRow := do
  let idx ← indexOutside row ':'
  let target ← splitEdgeTarget "" "" (trimSpaceChars (row.take idx))
  let fromVid ← parseStringLiteral target.fromText
  let toVid ← parseStringLiteral target.toText
  let values ← parseInsertRowValues row
  pure ⟨fromVid, toVid, String.ofList target.rankText, renderedProps Graphschema.edgeProps values⟩

/-- The rows of one statement; the loop passes over other statements. -/
def extractStatement (stmt : String) :
    Except Message (List Writer.RenderedVertexRow × List Writer.RenderedEdgeRow) :=
  if hasPrefix stmt vertexInsert.pre then do
    let rows ← parseInsertRows (vertexInsert.valuesPart stmt)
    let vertices ← rows.mapM parseRenderedVertexRow
    pure (vertices, [])
  else if hasPrefix stmt edgeInsert.pre then do
    let rows ← parseInsertRows (edgeInsert.valuesPart stmt)
    let edges ← rows.mapM parseRenderedEdgeRow
    pure ([], edges)
  else pure ([], [])

def extractStatements (statements : List String) :
    Except Message (List Writer.RenderedVertexRow × List Writer.RenderedEdgeRow) := do
  let rows ← statements.mapM extractStatement
  pure (rows.flatMap Prod.fst, rows.flatMap Prod.snd)

def extractRenderedRows (d : Digests) (input : RenderedStatementWrite) :
    Except Message (List Writer.RenderedVertexRow × List Writer.RenderedEdgeRow) := do
  let _ ← validateRenderedStatementWrite d input
  extractStatements (input.statements.drop Graphschema.renderSchemaStatements.length)

/-- The statement writer of a payload. -/
def renderedStatementWrite (w : Writer.WritePayload) : RenderedStatementWrite where
  orgId := w.orgId
  workspaceId := w.workspaceId
  repoId := w.repoId
  revision := w.revision
  commitHash := w.commitHash
  schemaVersion := w.schemaVersion
  builderVersion := w.builderVersion
  source := w.source
  statements := w.statements

/-- The parts of the graph store that the code graph writer calls. -/
def renderedStore (d : Digests) (isPrint : Char → Bool) : Writer.RenderedStore where
  validateRenderedStatementWrite w :=
    match validateRenderedStatementWrite d (renderedStatementWrite w) with
    | .ok _ => none
    | .error e => some (e.render isPrint)
  extractRenderedRows w :=
    (extractRenderedRows d (renderedStatementWrite w)).mapError (Message.render isPrint)

/-! ## What acceptance means -/

section Accepted

variable {α β ε : Type} {d : Digests} {input : RenderedStatementWrite}

theorem withContext_eq_ok {context : String} {x : Except Message α} {a : α} :
    withContext context x = .ok a ↔ x = .ok a :=
  mapError_eq_ok

theorem forM_eq_ok {f : α → Except ε Unit} {as : List α} :
    as.forM f = .ok () ↔ ∀ a ∈ as, f a = .ok () := by
  induction as with
  | nil => simp [List.forM, pure, Except.pure]
  | cons a as ih =>
    change (f a >>= fun _ => as.forM f) = .ok () ↔ _
    rw [bind_eq_ok, List.forall_mem_cons, ← ih]
    constructor
    · rintro ⟨⟨⟩, ha, has⟩
      exact ⟨ha, has⟩
    · rintro ⟨ha, has⟩
      exact ⟨(), ha, has⟩

theorem schemaMismatch_eq_none {statements : List String}
    (hlen : Graphschema.renderSchemaStatements.length ≤ statements.length) :
    schemaMismatch statements = none ↔ Graphschema.renderSchemaStatements <+: statements := by
  unfold schemaMismatch
  generalize Graphschema.renderSchemaStatements = schema at hlen ⊢
  induction schema generalizing statements with
  | nil => simp
  | cons want schema ih =>
    cases statements with
    | nil => simp at hlen
    | cons stmt statements =>
      have hlater := ih (by simpa using hlen)
      rw [List.zip_cons_cons, List.findIdx?_cons, List.cons_prefix_cons, ← hlater]
      by_cases heq : want = stmt
      · simp [heq]
      · simp [heq]

variable {counts : ℕ × ℕ}

theorem validateRenderedStatementWrite_eq_ok :
    validateRenderedStatementWrite d input = .ok counts ↔
      validateRenderedScope input = .ok () ∧
      ∃ inserts, input.statements = Graphschema.renderSchemaStatements ++ inserts ∧
        validateStatements d input Graphschema.renderSchemaStatements.length inserts = .ok counts := by
  unfold validateRenderedStatementWrite
  rw [bind_eq_ok]
  simp only [mapError_eq_ok]
  constructor
  · rintro ⟨⟨⟩, hscope, h⟩
    refine ⟨hscope, ?_⟩
    split_ifs at h with hlen
    split at h
    · simp at h
    · rename_i hnone
      obtain ⟨inserts, hinserts⟩ := (schemaMismatch_eq_none (not_lt.1 hlen)).1 hnone
      rw [← hinserts, List.drop_left] at h
      exact ⟨inserts, hinserts.symm, h⟩
  · rintro ⟨hscope, inserts, hinserts, h⟩
    refine ⟨(), hscope, ?_⟩
    have hlen : Graphschema.renderSchemaStatements.length ≤ input.statements.length := by
      rw [hinserts, List.length_append]
      omega
    have hnone := (schemaMismatch_eq_none hlen).2 ⟨inserts, hinserts.symm⟩
    rw [if_neg (not_lt.2 hlen), hnone]
    rw [hinserts, List.drop_left]
    exact h

theorem validateStatement_eq_ok {i : ℕ} {stmt : String}
    (h : validateStatement d input i stmt = .ok counts) :
    validateSingleTerminatedStatement stmt.toList = .ok () ∧
      ((hasPrefix stmt vertexInsert.pre = true ∧
          ∃ n, vertexInsert.validateRows d input stmt = .ok n ∧ counts = (n, 0)) ∨
        (hasPrefix stmt edgeInsert.pre = true ∧
          ∃ n, edgeInsert.validateRows d input stmt = .ok n ∧ counts = (0, n))) := by
  have hmap : ∀ {x : Except Message ℕ} {f : ℕ → ℕ × ℕ}, x.map f = .ok counts →
      ∃ n, x = .ok n ∧ f n = counts := by
    intro x f hx
    cases x with
    | error e => simp [Except.map] at hx
    | ok n => exact ⟨n, rfl, by simpa [Except.map] using hx⟩
  unfold validateStatement at h
  split at h
  · simp at h
  · rename_i hsingle
    refine ⟨hsingle, ?_⟩
    split_ifs at h with hvertex hedge
    · obtain ⟨n, hn, rfl⟩ := hmap h
      rw [mapError_eq_ok, withContext_eq_ok] at hn
      exact .inl ⟨hvertex, n, hn, rfl⟩
    · obtain ⟨n, hn, rfl⟩ := hmap h
      rw [mapError_eq_ok, withContext_eq_ok] at hn
      exact .inr ⟨hedge, n, hn, rfl⟩

theorem validateRows_eq_ok {kind : InsertKind} {stmt : String} {n : ℕ} :
    kind.validateRows d input stmt = .ok n ↔
      ∃ rows, splitTopLevel (kind.valuesPart stmt) ',' = .ok rows ∧ rows ≠ [] ∧
        (∀ row ∈ rows, kind.validateRow d input row = .ok ()) ∧ n = rows.length := by
  unfold InsertKind.validateRows parseInsertRows
  simp only [bind_eq_ok]
  constructor
  · rintro ⟨rows, ⟨rows', hsplit, hrows⟩, ⟨⟩, hchecked, hn⟩
    split_ifs at hrows with hnil
    · simp [failure] at hrows
    · obtain rfl := Except.ok.inj hrows
      exact ⟨rows', hsplit, hnil, forM_eq_ok.1 hchecked, (Except.ok.inj hn).symm⟩
  · rintro ⟨rows, hsplit, hnil, hchecked, rfl⟩
    exact ⟨rows, ⟨rows, hsplit, by rw [if_neg hnil]; rfl⟩, (), forM_eq_ok.2 hchecked, rfl⟩

theorem validateStatements_eq_ok {i : ℕ} {stmts : List String}
    (h : validateStatements d input i stmts = .ok counts) :
    ∀ stmt ∈ stmts, ∃ j here, validateStatement d input j stmt = .ok here := by
  induction stmts generalizing i counts with
  | nil => simp
  | cons stmt stmts ih =>
    obtain ⟨here, hhere, h⟩ := bind_eq_ok.1 h
    obtain ⟨later, hlater, -⟩ := bind_eq_ok.1 h
    intro stmt' hmem
    rcases List.mem_cons.1 hmem with rfl | hmem
    · exact ⟨i, here, hhere⟩
    · exact ih hlater stmt' hmem

end Accepted

end CodeIntel.Graphstore
