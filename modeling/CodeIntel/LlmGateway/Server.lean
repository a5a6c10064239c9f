import CodeIntel.LlmGateway.Store
import CodeIntel.Relational.Run

/-!
# Server and processor of the LLM gateway

`handlePost` claims the row of a request and enqueues a task, `Handle` reads the row, asks the
language model and writes its progress and its result back. Every statement of the store is
one step, tasks may be delivered late and more than once, and each party may stop between any
two of its steps.
-/

namespace CodeIntel.LlmGateway

open Relational Schema Text

/-! ## The server -/

structure HttpReply where
  code : ℕ
  body : ChatResponse
  deriving DecidableEq, Repr

structure TaskPayload where
  orgId : ℤ
  requestId : String
  deriving DecidableEq, Repr

def validateChatRequest (req : ChatRequest) : Except String Unit :=
  if req.orgId ≤ 0 then .error "orgId is required"
  else if req.provider ≠ "openai-compatible" then
    .error ("provider " ++ req.provider.quote ++ " is not supported by the LLM gateway")
  else if trimSpace req.openAI.model = "" || trimSpace req.openAI.baseUrl = "" then
    .error "openai-compatible model and baseUrl are required"
  else if req.messages.length = 0 then .error "messages are required"
  else .ok ()

/-- The decoded request with its id; `freshId` is the generated one. -/
def withRequestId (freshId : String) (req : ChatRequest) : ChatRequest :=
  let id := trimSpace req.requestId
  { req with requestId := if id = "" then "llm-" ++ freshId else id }

def postedRequest (freshId : String) (req : ChatRequest) : Option ChatRequest :=
  match validateChatRequest (withRequestId freshId req) with
  | .error _ => none
  | .ok () => some (withRequestId freshId req)

def firstModel (primary fallback : LanguageModelInfo) : LanguageModelInfo :=
  if trimSpace primary.model ≠ "" || trimSpace primary.provider ≠ "" ||
      trimSpace primary.displayName ≠ "" then primary
  else fallback

/-- The model named by the stored request, or by the columns of the row. -/
def rowModel (row : LLMRequest) : LanguageModelInfo :=
  firstModel row.request.model { provider := row.provider, model := row.model }

/-- The stored response, completed from the row. -/
def chatResponseFromRow (row : LLMRequest) : ChatResponse :=
  let resp := (row.response.map StoredResponse.body).getD {}
  { resp with
    requestId := if resp.requestId = "" then row.id else resp.requestId
    status := resp.status.or (some row.status)
    error := if resp.error = "" then row.error.getD "" else resp.error
    model := firstModel resp.model (rowModel row)
    budget := if resp.budget.mode = "" then row.request.budget else resp.budget
    metadata := if resp.metadata.length = 0 then row.request.metadata else resp.metadata }

/-- The answer to a claim that was not granted. -/
def existingReply (req : ChatRequest) (row : LLMRequest) : HttpReply :=
  if row.status = .succeeded && row.response.isSome then ⟨200, chatResponseFromRow row⟩
  else
    { code := if row.status = .failed then 502 else 202
      body :=
        { requestId := req.requestId, status := some row.status, error := row.error.getD ""
          model := req.model, budget := req.budget, metadata := req.metadata } }

def failedBody (req : ChatRequest) (message : String) : ChatResponse where
  requestId := req.requestId
  status := some .failed
  error := message
  model := req.model

/-- `handlePost` for a decoded body: the reply, the task to enqueue after a granted claim, and
the table after the claim. `enqueue` is what the queue answers. -/
def handlePost (now : Time) (freshId : String) (staleAfter : ℤ) (enqueue : Except String Unit)
    (req : ChatRequest) (rows : List LLMRequest) :
    HttpReply × Option TaskPayload × List LLMRequest :=
  let req := withRequestId freshId req
  match validateChatRequest req with
  | .error message => (⟨400, failedBody req message⟩, none, rows)
  | .ok () => match claimStarted now staleAfter req rows with
    | (none, rows) => (⟨404, failedBody req "llm request state not found after claim"⟩, none, rows)
    | (some (row, false), rows) => (existingReply req row, none, rows)
    | (some (_, true), rows) =>
      let reply : HttpReply := match enqueue with
        | .error _ => ⟨503, failedBody req "enqueue llm completion failed"⟩
        | .ok () =>
          ⟨202, { requestId := req.requestId, status := some .inProgress, model := req.model
                  budget := req.budget, metadata := req.metadata }⟩
      (reply, some ⟨req.orgId, req.requestId⟩, rows)

/-- Fifteen seconds, in the milliseconds of the clock. -/
def orphanedRequestGrace : ℕ := 15000

/-- The request was claimed, but no attempt was counted for some time. -/
def orphaned (now : Time) (row : LLMRequest) : Bool :=
  row.response.isNone && row.status = .inProgress && row.attempts = 0 &&
    row.updatedAt + orphanedRequestGrace < now

def statusBody (row : LLMRequest) : ChatResponse :=
  if row.response.isSome then chatResponseFromRow row
  else
    { requestId := row.id, status := some row.status, error := row.error.getD ""
      model := rowModel row, budget := row.request.budget, metadata := row.request.metadata }

/-- `handleGet` from the read of the row on. -/
def readChat (now : Time) (orgId : ℤ) (id : String) (enqueue : Except String Unit)
    (rows : List LLMRequest) : HttpReply :=
  match get orgId id rows with
  | none => ⟨404, { requestId := id, status := some .failed, error := "llm request not found" }⟩
  | some row =>
    if orphaned now row && enqueue.isOk = false then
      ⟨503, { requestId := id, status := some .failed
              error := "rescue orphaned llm request failed" }⟩
    else ⟨200, statusBody row⟩

/-- The path after `/internal/llm/chat/` and the `orgId` parameter. -/
def handleGet (now : Time) (path orgParam : String) (enqueue : Except String Unit)
    (rows : List LLMRequest) : HttpReply :=
  let id := trimBoth path '/'
  let refused : HttpReply :=
    ⟨400, { requestId := id, status := some .failed, error := "orgId query parameter is required" }⟩
  match parseInt32 (trimSpace orgParam) with
  | none => refused
  | some orgId => if orgId ≤ 0 then refused else readChat now orgId id enqueue rows

/-- What one iteration of `pollChat` does with a response. -/
inductive PollResult where
  | done (resp : ChatResponse)
  | failed (message : String)
  | again
  deriving DecidableEq, Repr

def pollStep (resp : ChatResponse) : PollResult :=
  if resp.status = some .succeeded then .done resp
  else if resp.status = some .failed then
    .failed ("llm gateway failed: " ++
      (if resp.error = "" then "llm request failed" else resp.error))
  else .again

/-! ## The processor -/

def partialFlushBytes : ℕ := 2048

/-- Two seconds, in the milliseconds of the clock. -/
def partialFlushInterval : ℕ := 2000

/-- Where a `Handle` stands after it has read its row. -/
inductive Phase where
  | invalid (message : String)
  | running (content : String) (lastBytes : ℕ) (lastFlush : Time)
  | aborting (message content : String)
  | flushing (completion : Completion)
  | failed (message : String)
  | completed (completion : Completion)
  deriving DecidableEq, Repr

structure Worker where
  task : TaskPayload
  req : ChatRequest
  started : Time
  phase : Phase
  deriving DecidableEq, Repr

def Worker.partialResponse (w : Worker) (now : Time) (content : String) : StoredResponse where
  origin := w.req
  body :=
    { requestId := w.req.requestId, status := some .inProgress, content
      durationMs := now - w.started, model := w.req.model, isPartial := true
      updatedAt := some now, budget := w.req.budget, metadata := w.req.metadata }

def Worker.response (w : Worker) (now : Time) (completion : Completion) : StoredResponse where
  origin := w.req
  body :=
    { requestId := w.req.requestId, status := some .succeeded, content := completion.content
      toolCalls := completion.toolCalls, durationMs := now - w.started, model := w.req.model
      budget := w.req.budget, metadata := w.req.metadata }

def flushDue (now : Time) (content : String) (lastBytes : ℕ) (lastFlush : Time) : Bool :=
  partialFlushBytes ≤ content.utf8ByteSize - lastBytes || partialFlushInterval ≤ now - lastFlush

/-- The state of the gateway: the table, the calls that are about to enqueue, the tasks
enqueued so far and the handlers at work. -/
structure Gateway where
  rows : List LLMRequest := []
  pending : List TaskPayload := []
  tasks : List TaskPayload := []
  workers : List Worker := []
  deriving DecidableEq, Repr

/-- The start of `Handle`: nothing is done unless the row is in progress. -/
def Gateway.deliver (s : Gateway) (now : Time) (task : TaskPayload) : Gateway :=
  match get task.orgId task.requestId s.rows with
  | none => s
  | some row =>
    if row.status = .inProgress then
      let phase := match validateChatRequest row.request with
        | .error message => Phase.invalid message
        | .ok () => .running "" 0 now
      { s with workers := s.workers ++ [⟨task, row.request, now, phase⟩] }
    else s

/-- `MarkPartial` for the worker. -/
def Worker.flush (w : Worker) (now : Time) (content : String) :
    List LLMRequest → Bool × List LLMRequest :=
  markPartial now w.req.orgId w.req.requestId (w.partialResponse now content)

/-- A piece of the stream. A flush that finds no row in progress breaks the stream off. -/
def Gateway.delta (s : Gateway) (now : Time) (i : ℕ) (w : Worker) (text : String) :
    Option Gateway :=
  match w.phase with
  | .running content lastBytes lastFlush =>
    if !w.req.stream || text = "" then none
    else
      let content := content ++ text
      if flushDue now content lastBytes lastFlush then
        match w.flush now content s.rows with
        | (true, rows) => some { s with
            rows := rows
            workers := s.workers.set i
              { w with phase := .running content content.utf8ByteSize now } }
        | (false, rows) => some { s with
            rows := rows
            workers := s.workers.set i { w with phase := .aborting errNoRows content } }
      else some { s with
        workers := s.workers.set i { w with phase := .running content lastBytes lastFlush } }
  | _ => none

/-- The forced flush at the end of a stream. -/
def Gateway.flushEnd (s : Gateway) (now : Time) (i : ℕ) (w : Worker) : Option Gateway :=
  match w.phase with
  | .aborting message content =>
    some { s with
      rows := if content = "" then s.rows else (w.flush now content s.rows).2
      workers := s.workers.set i { w with phase := .failed message } }
  | .flushing completion =>
    if completion.content = "" then
      some { s with workers := s.workers.set i { w with phase := .completed completion } }
    else match w.flush now completion.content s.rows with
      | (true, rows) => some { s with
          rows := rows
          workers := s.workers.set i { w with phase := .completed completion } }
      | (false, rows) => some { s with
          rows := rows
          workers := s.workers.set i { w with phase := .failed errNoRows } }
  | _ => none

def Worker.answered (w : Worker) (completion : Completion) : Option Worker :=
  match w.phase with
  | .running .. =>
    some { w with phase := if w.req.stream then .flushing completion else .completed completion }
  | _ => none

def Worker.broke (w : Worker) (message : String) : Option Worker :=
  match w.phase with
  | .running content .. =>
    some { w with phase := if w.req.stream then .aborting message content else .failed message }
  | _ => none

def Worker.completion (w : Worker) : Option Completion :=
  match w.phase with
  | .completed completion => some completion
  | _ => none

/-- The failure a worker is about to store and the row it stores it in. -/
def Worker.failure (w : Worker) (final : Bool) : Option (TaskPayload × Bool × String) :=
  match w.phase with
  | .invalid message => some (w.task, true, message)
  | .failed message => some (⟨w.req.orgId, w.req.requestId⟩, final, message)
  | _ => none

inductive GatewayStep where
  | post (now : Time) (freshId : String) (staleAfter : ℤ) (req : ChatRequest)
  | poll (now : Time) (orgId : ℤ) (id : String)
  | enqueued (i : ℕ)
  | refused (now : Time) (i : ℕ) (message : String)
  | deliver (now : Time) (task : TaskPayload)
  | delta (now : Time) (i : ℕ) (text : String)
  | answered (i : ℕ) (completion : Completion)
  | broke (i : ℕ) (message : String)
  | flushEnd (now : Time) (i : ℕ)
  | finish (now : Time) (i : ℕ)
  | fail (now : Time) (i : ℕ) (final : Bool)
  | leave (i : ℕ)
  | hangUp (i : ℕ)

/-- `post` is `handlePost` up to its claim and `poll` the read of `handleGet`; both leave a
pending call, which enqueues its task or marks the request as failed. `fail` records the
error of a worker, as final or as retryable. -/
def gatewayMachine : Machine Gateway GatewayStep where
  step s
    | .post now freshId staleAfter req =>
      let outcome := (handlePost now freshId staleAfter (.ok ()) req s.rows).2
      some { s with
        rows := outcome.2
        pending := s.pending ++ outcome.1.toList }
    | .poll now orgId id =>
      let orphan := (get orgId id s.rows).filter (orphaned now)
      some { s with
        pending := s.pending ++ (orphan.map fun row => ⟨row.orgId, row.id⟩).toList }
    | .enqueued i => s.pending[i]?.map fun task =>
      { s with
        pending := s.pending.eraseIdx i
        tasks := s.tasks ++ [task] }
    | .refused now i message => s.pending[i]?.map fun task =>
      { s with
        rows := (markFailed now task.orgId task.requestId message s.rows).2
        pending := s.pending.eraseIdx i }
    | .deliver now task => if s.tasks.contains task then some (s.deliver now task) else none
    | .delta now i text => s.workers[i]?.bind fun w => s.delta now i w text
    | .answered i completion => s.workers[i]?.bind fun w =>
      (w.answered completion).map fun w' => { s with workers := s.workers.set i w' }
    | .broke i message => s.workers[i]?.bind fun w =>
      (w.broke message).map fun w' => { s with workers := s.workers.set i w' }
    | .flushEnd now i => s.workers[i]?.bind (s.flushEnd now i)
    | .finish now i => s.workers[i]?.bind fun w => w.completion.map fun completion =>
      { s with
        rows := (markSucceeded now w.req.orgId w.req.requestId (w.response now completion)
          s.rows).2
        workers := s.workers.eraseIdx i }
    | .fail now i final => s.workers[i]?.bind fun w =>
      (w.failure final).map fun (task, ends, message) =>
        { s with
          rows := if ends then (markFailed now task.orgId task.requestId message s.rows).2
            else (markRetryableError now task.orgId task.requestId message s.rows).2
          workers := s.workers.eraseIdx i }
    | .leave i => some { s with workers := s.workers.eraseIdx i }
    | .hangUp i => some { s with pending := s.pending.eraseIdx i }

end CodeIntel.LlmGateway
