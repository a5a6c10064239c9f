import CodeIntel.Relational.Table
import CodeIntel.Schema.Database
import CodeIntel.Text.GoString

/-!
# The store of the LLM gateway

Chat requests, the responses stored for them and the statements of the request store. JSON
columns are kept as the values they encode; free-form parts (tool schemas, metadata values)
as their texts.
-/

namespace CodeIntel.LlmGateway

open Relational Schema Text

/-! ## Requests and responses -/

structure OpenAICompatibleConfig where
  (model baseUrl : String)
  token : String := ""
  headers : List (String × String) := []
  queryParams : List (String × String) := []
  maxTokens : ℤ := 0
  deriving DecidableEq, Repr

structure ToolCall where
  (id type name arguments : String)
  deriving DecidableEq, Repr

structure ChatMessage where
  role : String
  content : String := ""
  toolCallId : String := ""
  toolCalls : List ToolCall := []
  deriving DecidableEq, Repr

structure ToolInfo where
  (name description inputSchema : String)
  deriving DecidableEq, Repr

structure LanguageModelInfo where
  provider : String := ""
  model : String := ""
  displayName : String := ""
  deriving DecidableEq, Repr

structure AnswerBudget where
  mode : String := ""
  maxOutputTokens : ℤ := 0
  maxAnswerBytes : ℤ := 0
  deriving DecidableEq, Repr

structure ChatRequest where
  requestId : String
  orgId : ℤ
  provider : String
  model : LanguageModelInfo := {}
  openAI : OpenAICompatibleConfig
  messages : List ChatMessage
  tools : List ToolInfo := []
  maxAttempts : ℤ := 0
  stream : Bool := false
  budget : AnswerBudget := {}
  metadata : List (String × String) := []
  deriving DecidableEq, Repr

/-- The `status` column. -/
inductive RequestStatus where
  | inProgress | succeeded | failed
  deriving DecidableEq, Repr

/-- A response; without a status the text of the field is empty. -/
structure ChatResponse where
  requestId : String := ""
  status : Option RequestStatus := none
  content : String := ""
  toolCalls : List ToolCall := []
  durationMs : ℕ := 0
  error : String := ""
  model : LanguageModelInfo := {}
  isPartial : Bool := false
  updatedAt : Option Time := none
  budget : AnswerBudget := {}
  metadata : List (String × String) := []
  deriving DecidableEq, Repr

/-- What the language model answers. -/
structure Completion where
  content : String
  toolCalls : List ToolCall := []
  deriving DecidableEq, Repr

/-- The `response` column. The request whose completion gave the response is not stored; it
is kept here to speak about it. -/
structure StoredResponse where
  body : ChatResponse
  origin : ChatRequest
  deriving DecidableEq, Repr

structure LLMRequest where
  id : String
  orgId : ℤ
  status : RequestStatus
  (provider model : String)
  request : ChatRequest
  response : Option StoredResponse := none
  error : Option String := none
  attempts : ℤ := 0
  (createdAt updatedAt : Time)
  completedAt : Option Time := none
  deriving DecidableEq, Repr

/-! ## Statements -/

def isRow (orgId : ℤ) (id : String) (row : LLMRequest) : Bool :=
  row.orgId = orgId && row.id = id

def get (orgId : ℤ) (id : String) (rows : List LLMRequest) : Option LLMRequest :=
  rows.find? (isRow orgId id)

/-- The age in seconds at which a request in progress may be claimed again. -/
def staleSeconds (staleAfter : ℤ) : ℤ := if staleAfter ≤ 0 then 360 else staleAfter

def claimedRow (now : Time) (req : ChatRequest) : LLMRequest where
  id := req.requestId
  orgId := req.orgId
  status := .inProgress
  provider := req.provider
  model := req.model.model
  request := req
  createdAt := now
  updatedAt := now

/-- The row after a claim of an existing one; the attempts are kept. -/
def reclaimRow (now : Time) (req : ChatRequest) (row : LLMRequest) : LLMRequest :=
  { row with
    status := .inProgress
    provider := req.provider
    model := req.model.model
    request := req
    response := none
    error := none
    updatedAt := now
    completedAt := none }

/-- The `WHERE` clause of the conflict update. -/
def claimable (now : Time) (staleAfter : ℤ) (req : ChatRequest) (row : LLMRequest) : Bool :=
  row.orgId = req.orgId && (row.status = .failed || row.request ≠ req ||
    (row.status = .inProgress && (row.updatedAt : ℤ) + 1000 * staleSeconds staleAfter < now))

/-- The row and whether it was claimed; `none` is the missing row. -/
def claimStarted (now : Time) (staleAfter : ℤ) (req : ChatRequest) (rows : List LLMRequest) :
    Option (LLMRequest × Bool) × List LLMRequest :=
  match lookup LLMRequest.id req.requestId rows with
  | none => (some (claimedRow now req, true), rows ++ [claimedRow now req])
  | some row =>
    if claimable now staleAfter req row then
      (some (reclaimRow now req row, true),
        updateWhere (fun r => r.id = req.requestId) (reclaimRow now req) rows)
    else ((get req.orgId req.requestId rows).map fun existing => (existing, false), rows)

/-- An update that reports whether it found a row. -/
def updateRow (cond : LLMRequest → Bool) (set : LLMRequest → LLMRequest)
    (rows : List LLMRequest) : Bool × List LLMRequest :=
  (affected cond rows ≠ 0, updateWhere cond set rows)

def succeedRow (now : Time) (resp : StoredResponse) (row : LLMRequest) : LLMRequest :=
  { row with
    status := .succeeded
    response := some resp
    error := none
    attempts := row.attempts + 1
    updatedAt := now
    completedAt := some now }

def flushRow (now : Time) (resp : StoredResponse) (row : LLMRequest) : LLMRequest :=
  { row with
    response := some resp
    error := none
    updatedAt := now }

def retryRow (now : Time) (message : String) (row : LLMRequest) : LLMRequest :=
  { row with
    error := some message
    attempts := row.attempts + 1
    updatedAt := now }

def failRow (now : Time) (message : String) (row : LLMRequest) : LLMRequest :=
  { row with
    status := .failed
    error := some message
    attempts := row.attempts + 1
    updatedAt := now
    completedAt := some now }

def markSucceeded (now : Time) (orgId : ℤ) (id : String) (resp : StoredResponse) :
    List LLMRequest → Bool × List LLMRequest :=
  updateRow (isRow orgId id) (succeedRow now resp)

/-- `MarkPartial`, guarded by the status. -/
def markPartial (now : Time) (orgId : ℤ) (id : String) (resp : StoredResponse) :
    List LLMRequest → Bool × List LLMRequest :=
  updateRow (fun row => isRow orgId id row && row.status = .inProgress) (flushRow now resp)

/-- `MarkRetryableError`, guarded by the status. -/
def markRetryableError (now : Time) (orgId : ℤ) (id message : String) :
    List LLMRequest → Bool × List LLMRequest :=
  updateRow (fun row => isRow orgId id row && row.status = .inProgress) (retryRow now message)

def markFailed (now : Time) (orgId : ℤ) (id message : String) :
    List LLMRequest → Bool × List LLMRequest :=
  updateRow (isRow orgId id) (failRow now message)

/-- What pgx reports when a statement finds no row. -/
def errNoRows : String := "no rows in result set"

/-! ## Lemmas about the statements -/

section Lemmas

variable {orgId : ℤ} {id : String} {rows : List LLMRequest} {row : LLMRequest}

theorem isRow_iff : isRow orgId id row = true ↔ row.orgId = orgId ∧ row.id = id := by
  simp [isRow]

theorem mem_of_get (h : get orgId id rows = some row) :
    row ∈ rows ∧ row.orgId = orgId ∧ row.id = id :=
  ⟨List.mem_of_find?_eq_some h, isRow_iff.1 (List.find?_some h)⟩

theorem get_eq_some (hunique : UniqueKey LLMRequest.id rows) (hrow : row ∈ rows) :
    get row.orgId row.id rows = some row := by
  cases hget : get row.orgId row.id rows with
  | none =>
    have hno := List.find?_eq_none.1 hget row hrow
    simp [isRow] at hno
  | some found =>
    obtain ⟨hmem, -, hid⟩ := mem_of_get hget
    rw [hunique.eq_of_key_eq hmem hrow hid]

end Lemmas

end CodeIntel.LlmGateway
