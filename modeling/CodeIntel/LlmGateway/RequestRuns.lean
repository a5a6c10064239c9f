import CodeIntel.LlmGateway.Server

/-!
# Runs of the LLM gateway

The status guards of `MarkPartial` and `MarkRetryableError` keep late workers from touching a
settled row. `MarkSucceeded` and `MarkFailed` have no guard and no worker compares its copy of
the request with the row. What the rows promise in a run therefore depends on what these two
statements find.
-/

namespace CodeIntel.LlmGateway

open Relational Schema Text

/-! ## What a step does to the rows -/

def marksSucceeded (s : Gateway) : GatewayStep → Option StoredResponse
  | .finish now i => s.workers[i]?.bind fun w => w.completion.map (w.response now)
  | _ => none

def marksFailed (s : Gateway) : GatewayStep → Option TaskPayload
  | .refused _ i _ => s.pending[i]?
  | .fail _ i final => s.workers[i]?.bind fun w =>
    (w.failure final).bind fun (task, ends, _) => if ends then some task else none
  | _ => none

def claims : GatewayStep → Option ChatRequest
  | .post _ freshId _ req => postedRequest freshId req
  | _ => none

/-- Everything a step can do to a row. -/
inductive Change (s : Gateway) (a : GatewayStep) (row : LLMRequest) : LLMRequest → Prop
  | keep : Change s a row row
  | claim (now : Time) (req : ChatRequest) (hclaims : claims a = some req)
      (horg : row.orgId = req.orgId) (hid : row.id = req.requestId)
      (hopen : row.status = .succeeded → row.request ≠ req) : Change s a row (reclaimRow now req row)
  | flush (now : Time) (resp : StoredResponse) (hstatus : row.status = .inProgress)
      (hresp : resp.body.status = some .inProgress) : Change s a row (flushRow now resp row)
  | retry (now : Time) (message : String) (hstatus : row.status = .inProgress) :
      Change s a row (retryRow now message row)
  | succeed (now : Time) (resp : StoredResponse) (hmarks : marksSucceeded s a = some resp)
      (hrow : isRow resp.origin.orgId resp.origin.requestId row = true) :
      Change s a row (succeedRow now resp row)
  | fail (now : Time) (task : TaskPayload) (message : String) (hmarks : marksFailed s a = some task)
      (hrow : isRow task.orgId task.requestId row = true) :
      Change s a row (failRow now message row)

/-- The rows after a step: each row changes as above, and a claim may add one. -/
inductive RowsAfter (s : Gateway) (a : GatewayStep) : List LLMRequest → Prop
  | update (f : LLMRequest → LLMRequest) (h : ∀ row ∈ s.rows, Change s a row (f row)) :
      RowsAfter s a (s.rows.map f)
  | insert (now : Time) (req : ChatRequest) (hclaims : claims a = some req)
      (hfresh : ∀ row ∈ s.rows, row.id ≠ req.requestId) :
      RowsAfter s a (s.rows ++ [claimedRow now req])

section Steps

variable {s s' : Gateway} {a : GatewayStep}

theorem RowsAfter.same : RowsAfter s a s.rows := by
  have h := RowsAfter.update (s := s) (a := a) id fun _ _ => .keep
  rwa [List.map_id] at h

variable {cond : LLMRequest → Bool} {set : LLMRequest → LLMRequest} {req : ChatRequest} {now : Time}
  {row : LLMRequest} {resp : StoredResponse} {rows' : List LLMRequest}

theorem RowsAfter.updateWhere (h : ∀ row ∈ s.rows, cond row = true → Change s a row (set row)) :
    RowsAfter s a (updateWhere cond set s.rows) := by
  refine .update (fun row => if cond row then set row else row) fun row hrow => ?_
  split_ifs with hcond
  · exact h row hrow hcond
  · exact .keep

theorem claimStarted_rowsAfter (hunique : UniqueKey LLMRequest.id s.rows) (now : Time)
    (staleAfter : ℤ) (hclaims : claims a = some req) :
    RowsAfter s a (claimStarted now staleAfter req s.rows).2 := by
  unfold claimStarted
  split
  · rename_i hnone
    refine .insert now req hclaims fun row hrow hid => ?_
    have hno := List.find?_eq_none.1 hnone row hrow
    simp [hid] at hno
  · rename_i row hlookup
    split_ifs with hclaimable
    · refine .updateWhere fun r hr hid => ?_
      have hid := of_decide_eq_true hid
      obtain rfl : r = row := hunique.eq_of_key_eq hr (mem_of_lookup hlookup)
        (hid.trans (key_of_lookup hlookup).symm)
      simp only [claimable, Bool.and_eq_true, Bool.or_eq_true, decide_eq_true_eq] at hclaimable
      obtain ⟨horg, (hfailed | hother) | ⟨hprogress, -⟩⟩ := hclaimable
      · exact .claim now req hclaims horg hid fun hdone => by rw [hfailed] at hdone; cases hdone
      · exact .claim now req hclaims horg hid fun _ => hother
      · exact .claim now req hclaims horg hid fun hdone => by rw [hprogress] at hdone; cases hdone
    · exact .same

theorem flush_rowsAfter (w : Worker) (now : Time) (content : String) :
    RowsAfter s a (w.flush now content s.rows).2 := by
  refine .updateWhere fun row _ hcond => ?_
  rw [Bool.and_eq_true, decide_eq_true_eq] at hcond
  exact .flush now _ hcond.2 rfl

theorem delta_rowsAfter {i : ℕ} {w : Worker} {text : String} (h : s.delta now i w text = some s') :
    RowsAfter s a s'.rows := by
  unfold Gateway.delta at h
  split at h
  · rename_i content lastBytes lastFlush hphase
    have hrows := flush_rowsAfter (s := s) (a := a) w now (content ++ text)
    split_ifs at h
    dsimp only at h
    split_ifs at h
    · split at h <;> rename_i heq <;> rw [heq] at hrows <;> obtain rfl := Option.some.inj h
      · exact hrows
      · exact hrows
    · cases h
      exact .same
  · cases h

theorem flushEnd_rowsAfter {i : ℕ} {w : Worker} (h : s.flushEnd now i w = some s') :
    RowsAfter s a s'.rows := by
  unfold Gateway.flushEnd at h
  split at h
  · rename_i message content hphase
    cases h
    split_ifs
    · exact .same
    · exact flush_rowsAfter w now content
  · rename_i completion hphase
    have hrows := flush_rowsAfter (s := s) (a := a) w now completion.content
    split_ifs at h
    · cases h
      exact .same
    · split at h <;> rename_i heq <;> rw [heq] at hrows <;> obtain rfl := Option.some.inj h
      · exact hrows
      · exact hrows
  · cases h

theorem handlePost_rowsAfter (hunique : UniqueKey LLMRequest.id s.rows) {freshId : String}
    {staleAfter : ℤ} {enqueue : Except String Unit} :
    RowsAfter s (.post now freshId staleAfter req)
      (handlePost now freshId staleAfter enqueue req s.rows).2.2 := by
  unfold handlePost
  dsimp only
  split
  · exact .same
  · rename_i hvalid
    have hclaims : claims (.post now freshId staleAfter req) = some (withRequestId freshId req) := by
      simp only [claims, postedRequest, hvalid]
    have hrows := claimStarted_rowsAfter hunique now staleAfter hclaims
    split <;> rename_i heq <;> rw [heq] at hrows <;> exact hrows

/-- Every step changes the rows in one of these ways. -/
theorem step_rowsAfter (hunique : UniqueKey LLMRequest.id s.rows)
    (h : gatewayMachine.step s a = some s') : RowsAfter s a s'.rows := by
  cases a with
  | post now freshId staleAfter req =>
    cases h
    exact handlePost_rowsAfter hunique
  | poll now orgId id | leave i | hangUp i =>
    cases h
    exact .same
  | enqueued i =>
    obtain ⟨task, -, rfl⟩ := Option.map_eq_some_iff.1 h
    exact .same
  | refused now i message =>
    obtain ⟨task, htask, rfl⟩ := Option.map_eq_some_iff.1 h
    exact .updateWhere fun row _ hrow => .fail now task message htask hrow
  | deliver now task =>
    have h : (if s.tasks.contains task then some (s.deliver now task) else none) = some s' := h
    split_ifs at h
    cases h
    have hrows : (s.deliver now task).rows = s.rows := by
      unfold Gateway.deliver
      split
      · rfl
      · split_ifs <;> rfl
    rw [hrows]
    exact .same
  | delta now i text =>
    obtain ⟨w, -, hdelta⟩ := Option.bind_eq_some_iff.1 h
    exact delta_rowsAfter hdelta
  | answered i completion | broke i message =>
    obtain ⟨w, -, hw⟩ := Option.bind_eq_some_iff.1 h
    obtain ⟨w', -, rfl⟩ := Option.map_eq_some_iff.1 hw
    exact .same
  | flushEnd now i =>
    obtain ⟨w, -, hflush⟩ := Option.bind_eq_some_iff.1 h
    exact flushEnd_rowsAfter hflush
  | finish now i =>
    obtain ⟨w, hw, hfinish⟩ := Option.bind_eq_some_iff.1 h
    obtain ⟨completion, hcompletion, rfl⟩ := Option.map_eq_some_iff.1 hfinish
    have hmarks : marksSucceeded s (.finish now i) = some (w.response now completion) := by
      simp [marksSucceeded, hw, hcompletion]
    exact .updateWhere fun row _ hrow => .succeed now _ hmarks hrow
  | fail now i final =>
    obtain ⟨w, hw, hfail⟩ := Option.bind_eq_some_iff.1 h
    obtain ⟨⟨task, ends, message⟩, hfailure, rfl⟩ := Option.map_eq_some_iff.1 hfail
    dsimp only
    split_ifs with hends
    · have hmarks : marksFailed s (.fail now i final) = some task := by
        simp [marksFailed, hw, hfailure, hends]
      exact .updateWhere fun row _ hrow => .fail now task message hmarks hrow
    · refine .updateWhere fun row _ hcond => ?_
      rw [Bool.and_eq_true, decide_eq_true_eq] at hcond
      exact .retry now message hcond.2

theorem Change.id_eq {row' : LLMRequest} (h : Change s a row row') : row'.id = row.id := by
  cases h <;> rfl

theorem status_of_marksSucceeded (h : marksSucceeded s a = some resp) :
    resp.body.status = some .succeeded := by
  cases a with
  | finish now i =>
    obtain ⟨w, -, hw⟩ := Option.bind_eq_some_iff.1 h
    obtain ⟨completion, -, rfl⟩ := Option.map_eq_some_iff.1 hw
    rfl
  | _ => cases h

theorem RowsAfter.forall_mem {Q : LLMRequest → Prop} (h : RowsAfter s a rows')
    (hupdate : ∀ row ∈ s.rows, Q row → ∀ row', Change s a row row' → Q row')
    (hinsert : ∀ now req, Q (claimedRow now req)) (hQ : ∀ row ∈ s.rows, Q row) :
    ∀ row' ∈ rows', Q row' := by
  cases h with
  | update f hf =>
    refine List.forall_mem_map.2 fun row hrow => ?_
    exact hupdate row hrow (hQ row hrow) _ (hf row hrow)
  | insert now req _ _ =>
    exact List.forall_mem_append.2 ⟨hQ, List.forall_mem_singleton.2 (hinsert now req)⟩

theorem RowsAfter.exists_mem (h : RowsAfter s a rows') (hrow : row ∈ s.rows) :
    ∃ row' ∈ rows', Change s a row row' := by
  cases h with
  | update f hf => exact ⟨f row, List.mem_map_of_mem hrow, hf row hrow⟩
  | insert now req _ _ => exact ⟨row, List.mem_append_left _ hrow, .keep⟩

theorem RowsAfter.unique (h : RowsAfter s a rows') (hunique : UniqueKey LLMRequest.id s.rows) :
    UniqueKey LLMRequest.id rows' := by
  cases h with
  | update f hf => exact hunique.map_of_mem fun row hrow => (hf row hrow).id_eq
  | insert now req _ hfresh => exact hunique.append_fresh hfresh

theorem mem_updateRow {rows : List LLMRequest} (hrow : row ∈ rows) (hcond : cond row = true) :
    set row ∈ (updateRow cond set rows).2 :=
  mem_updateWhere.2 ⟨row, hrow, by simp [hcond]⟩

theorem step_of_marksSucceeded (h : marksSucceeded s a = some resp) (hrow : row ∈ s.rows)
    (hmatch : isRow resp.origin.orgId resp.origin.requestId row = true) :
    ∃ now s', gatewayMachine.step s a = some s' ∧ succeedRow now resp row ∈ s'.rows := by
  cases a with
  | finish now i =>
    obtain ⟨w, hw, hresp⟩ := Option.bind_eq_some_iff.1 h
    obtain ⟨completion, hcompletion, rfl⟩ := Option.map_eq_some_iff.1 hresp
    refine ⟨now, { s with
      rows := (markSucceeded now w.req.orgId w.req.requestId (w.response now completion) s.rows).2
      workers := s.workers.eraseIdx i }, ?_, mem_updateRow hrow hmatch⟩
    simp only [gatewayMachine, hw, Option.bind_some, hcompletion, Option.map_some]
  | _ => cases h

theorem step_of_marksFailed {task : TaskPayload} (h : marksFailed s a = some task)
    (hrow : row ∈ s.rows) (hmatch : isRow task.orgId task.requestId row = true) :
    ∃ now message s', gatewayMachine.step s a = some s' ∧ failRow now message row ∈ s'.rows := by
  cases a with
  | refused now i message =>
    have h : s.pending[i]? = some task := h
    refine ⟨now, message, { s with
      rows := (markFailed now task.orgId task.requestId message s.rows).2
      pending := s.pending.eraseIdx i }, ?_, mem_updateRow hrow hmatch⟩
    simp only [gatewayMachine, h, Option.map_some]
  | fail now i final =>
    obtain ⟨w, hw, hfailure⟩ := Option.bind_eq_some_iff.1 h
    obtain ⟨⟨target, ends, message⟩, hmessage, htarget⟩ := Option.bind_eq_some_iff.1 hfailure
    dsimp only at htarget
    split_ifs at htarget with hends
    obtain rfl := Option.some.inj htarget
    refine ⟨now, message, { s with
      rows := (markFailed now target.orgId target.requestId message s.rows).2
      workers := s.workers.eraseIdx i }, ?_, mem_updateRow hrow hmatch⟩
    simp only [gatewayMachine, hw, Option.bind_some, hmessage, Option.map_some, hends, if_true]
  | _ => cases h

end Steps

/-! ## The table in every run -/

/-- Ids are unique, and a stored response has the status of a flush or of a completion. -/
structure TableOk (s : Gateway) : Prop where
  unique : UniqueKey LLMRequest.id s.rows
  statuses : ∀ row ∈ s.rows, ∀ resp ∈ row.response,
    resp.body.status ≠ none ∧ resp.body.status ≠ some .failed

theorem tableOk_empty : TableOk {} := ⟨List.nodup_nil, by simp⟩

theorem step_tableOk (s : Gateway) (a : GatewayStep) (s' : Gateway) (h : TableOk s)
    (hstep : gatewayMachine.step s a = some s') : TableOk s' := by
  have hrows := step_rowsAfter h.unique hstep
  refine ⟨hrows.unique h.unique, hrows.forall_mem ?_ ?_ h.statuses⟩
  · intro row _ hrow row' hchange
    cases hchange with
    | keep | retry now message _ | fail now task message _ _ => exact hrow
    | claim now req _ _ _ _ => simp [reclaimRow]
    | flush now resp _ hresp =>
      rintro _ ⟨rfl⟩
      rw [hresp]
      decide
    | succeed now resp hmarks _ =>
      rintro _ ⟨rfl⟩
      rw [status_of_marksSucceeded hmarks]
      decide
  · intro now req
    simp [claimedRow]

/-! ## Responses and the requests they answer -/

/-- Every succeeded row has the response of a completion of its own request. -/
def AnswersRequest (s : Gateway) : Prop :=
  ∀ row ∈ s.rows, row.status = .succeeded →
    row.response.map StoredResponse.origin = some row.request

/-- A worker that stores a success finds the request it has read. -/
def FindsOwnRequest (s : Gateway) (a : GatewayStep) : Prop :=
  ∀ resp ∈ marksSucceeded s a, ∀ row ∈ s.rows,
    isRow resp.origin.orgId resp.origin.requestId row = true → row.request = resp.origin

/-- In a run every succeeded row answers its own request exactly when every worker that
stores a success finds the request it has read. -/
theorem answersRequest_iff (steps : List GatewayStep) :
    (∀ pre post s, steps = pre ++ post → gatewayMachine.run {} pre = some s →
      AnswersRequest s) ↔ gatewayMachine.Always FindsOwnRequest {} steps := by
  refine Machine.good_iff_always TableOk AnswersRequest ?_ ?_ tableOk_empty (by
    intro row hrow
    cases hrow)
  · intro s a s' hs hgood hfinds hstep
    refine ⟨step_tableOk s a s' hs hstep, ?_⟩
    refine (step_rowsAfter hs.unique hstep).forall_mem ?_ ?_ hgood
    · intro row hrow hanswers row' hchange hdone
      cases hchange with
      | keep => exact hanswers hdone
      | claim now req _ _ _ _ | fail now task message _ _ => cases hdone
      | flush now resp hstatus _ | retry now message hstatus =>
        have hdone : row.status = .succeeded := hdone
        rw [hstatus] at hdone
        cases hdone
      | succeed now resp hmarks hmatch =>
        exact congrArg some (hfinds resp hmarks row hrow hmatch).symm
    · intro now req hdone
      cases hdone
  · intro s a hs _ hnot
    unfold FindsOwnRequest at hnot
    push Not at hnot
    obtain ⟨resp, hmarks, row, hrow, hmatch, hne⟩ := hnot
    obtain ⟨now, s', hstep, hmem⟩ := step_of_marksSucceeded hmarks hrow hmatch
    exact ⟨s', hstep, fun hgood => hne (Option.some.inj (hgood _ hmem rfl)).symm⟩

def askRequest (question : String) (stream : Bool) : ChatRequest where
  requestId := "ask"
  orgId := 7
  provider := "openai-compatible"
  openAI := { model := "m", baseUrl := "u" }
  messages := [{ role := "user", content := question }]
  stream := stream

def posted (question : String) (stream : Bool) : List GatewayStep :=
  [.post 0 "" 390 (askRequest question stream), .enqueued 0]

/-- The id is used for another question while a worker waits for the answer to the first one:
the answer to the first question is stored for the second one. -/
theorem staleAnswer_stored :
    ∃ s, gatewayMachine.run {} (posted "first" false ++
        [.deliver 1 ⟨7, "ask"⟩, .post 2 "" 390 (askRequest "second" false),
          .answered 0 { content := "yes" }, .finish 3 0]) = some s ∧
      ∃ row ∈ s.rows, row.status = .succeeded ∧ row.request = askRequest "second" false ∧
        row.response.map StoredResponse.origin = some (askRequest "first" false) :=
  gatewayMachine.exists_run_of_any _ (by decide +kernel)

/-! ## Finality of a success -/

/-- The step claims the row with another request. -/
def Replaces (a : GatewayStep) (row : LLMRequest) : Prop :=
  ∃ req, claims a = some req ∧ req.orgId = row.orgId ∧ req.requestId = row.id ∧ req ≠ row.request

/-- The step changes neither the status nor the response of a succeeded row, unless it
claims the row with another request. -/
def KeepsSuccess (s : Gateway) (a : GatewayStep) : Prop :=
  ∀ s', gatewayMachine.step s a = some s' → ∀ row ∈ s.rows, row.status = .succeeded →
    ¬Replaces a row → ∃ row' ∈ s'.rows, row'.id = row.id ∧ row'.status = .succeeded ∧
      row'.response.map StoredResponse.body = row.response.map StoredResponse.body

/-- No result is stored in a row that has succeeded, but for the response it already has. -/
structure SparesSucceeded (s : Gateway) (a : GatewayStep) : Prop where
  succeeds : ∀ resp ∈ marksSucceeded s a, ∀ row ∈ s.rows,
    isRow resp.origin.orgId resp.origin.requestId row = true → row.status = .succeeded →
      row.response.map StoredResponse.body = some resp.body
  fails : ∀ task ∈ marksFailed s a, ∀ row ∈ s.rows, isRow task.orgId task.requestId row = true →
    row.status ≠ .succeeded

theorem claims_eq_none_of_marks {s : Gateway} {a : GatewayStep}
    (h : (marksSucceeded s a).isSome = true ∨ (marksFailed s a).isSome = true) :
    claims a = none := by
  cases a with
  | post now freshId staleAfter req => rcases h with h | h <;> cases h
  | _ => rfl

theorem keepsSuccess_iff_sparesSucceeded (s : Gateway) (a : GatewayStep) (hs : TableOk s) :
    KeepsSuccess s a ↔ SparesSucceeded s a := by
  -- a step that writes over a succeeded row leaves no other row of its id
  have hover : KeepsSuccess s a → claims a = none → ∀ (row row₁ : LLMRequest) (s' : Gateway),
      gatewayMachine.step s a = some s' → row ∈ s.rows → row.status = .succeeded →
      row₁ ∈ s'.rows → row₁.id = row.id → row₁.status = .succeeded ∧
        row₁.response.map StoredResponse.body = row.response.map StoredResponse.body := by
    intro hkeeps hclaims row row₁ s' hstep hrow hdone hrow₁ hid₁
    have hnot : ¬Replaces a row := by
      rintro ⟨req, hreq, -⟩
      rw [hclaims] at hreq
      cases hreq
    obtain ⟨row', hrow', hid, hdone', hresp⟩ := hkeeps s' hstep row hrow hdone hnot
    have hunique := (step_tableOk s a s' hs hstep).unique
    rw [hunique.eq_of_key_eq hrow₁ hrow' (hid₁.trans hid.symm)]
    exact ⟨hdone', hresp⟩
  constructor
  · intro hkeeps
    constructor
    · intro resp hmarks row hrow hmatch hdone
      obtain ⟨now, s', hstep, hmem⟩ := step_of_marksSucceeded hmarks hrow hmatch
      have hclaims := claims_eq_none_of_marks (s := s) (a := a) (.inl (by rw [hmarks]; rfl))
      exact (hover hkeeps hclaims row _ s' hstep hrow hdone hmem rfl).2.symm
    · intro task hmarks row hrow hmatch hdone
      obtain ⟨now, message, s', hstep, hmem⟩ := step_of_marksFailed hmarks hrow hmatch
      have hclaims := claims_eq_none_of_marks (s := s) (a := a) (.inr (by rw [hmarks]; rfl))
      cases (hover hkeeps hclaims row _ s' hstep hrow hdone hmem rfl).1
  · intro hspares s' hstep row hrow hdone hnot
    have hkept : ∀ row', Change s a row row' → row'.status = .succeeded ∧
        row'.response.map StoredResponse.body = row.response.map StoredResponse.body := by
      intro row' hchange
      cases hchange with
      | keep => exact ⟨hdone, rfl⟩
      | claim now req hclaims horg hid hopen =>
        exact absurd ⟨req, hclaims, horg.symm, hid.symm, (hopen hdone).symm⟩ hnot
      | flush now resp hstatus _ | retry now message hstatus =>
        rw [hstatus] at hdone
        cases hdone
      | succeed now resp hmarks hmatch =>
        exact ⟨rfl, (hspares.succeeds resp hmarks row hrow hmatch hdone).symm⟩
      | fail now task message hmarks hmatch =>
        exact absurd hdone (hspares.fails task hmarks row hrow hmatch)
    obtain ⟨row', hrow', hchange⟩ := (step_rowsAfter hs.unique hstep).exists_mem hrow
    exact ⟨row', hrow', hchange.id_eq, hkept row' hchange⟩

/-- In a run no step but a claim with another request touches the status or the response of a
succeeded row exactly when no result is stored in a row that has succeeded. -/
theorem succeeded_final_iff (steps : List GatewayStep) :
    gatewayMachine.Always KeepsSuccess {} steps ↔ gatewayMachine.Always SparesSucceeded {} steps :=
  Machine.always_congr TableOk step_tableOk keepsSuccess_iff_sparesSucceeded tableOk_empty

/-- A task is delivered twice, and the second worker gives up after the first has succeeded. -/
theorem lateFailure_overwrites :
    ∃ s, gatewayMachine.run {} (posted "question" false ++
        [.deliver 1 ⟨7, "ask"⟩, .deliver 2 ⟨7, "ask"⟩, .answered 0 { content := "yes" },
          .finish 3 0, .broke 0 "timeout"]) = some s ∧
      (∃ row ∈ s.rows, row.id = "ask" ∧ row.status = .succeeded) ∧
      ∃ s', gatewayMachine.step s (.fail 4 0 true) = some s' ∧
        ∃ row ∈ s'.rows, row.id = "ask" ∧ row.status = .failed := by
  refine gatewayMachine.exists_run_of_any_imp
    (fun s => (∃ row ∈ s.rows, row.id = "ask" ∧ row.status = .succeeded) ∧
      (gatewayMachine.step s (.fail 4 0 true)).any (fun s' =>
        decide (∃ row ∈ s'.rows, row.id = "ask" ∧ row.status = .failed)) = true)
    (by decide +kernel) ?_
  rintro s - ⟨hdone, hfails⟩
  obtain ⟨s', hstep, hfailed⟩ := (Option.any_eq_true _ _).1 hfails
  exact ⟨hdone, s', hstep, of_decide_eq_true hfailed⟩

/-! ## The reported status -/

/-- The body reports the status of the row, and a polling client acts on it. -/
structure Reports (row : LLMRequest) (body : ChatResponse) : Prop where
  status : body.status = some row.status
  failed : row.status = .failed → ∃ message, pollStep body = .failed message
  succeeded : row.status = .succeeded → pollStep body = .done body

/-- Every answer with code 200 reports the status of the row that was asked for. -/
structure ReportsRows (s : Gateway) : Prop where
  read : ∀ row ∈ s.rows, ∀ now enqueue,
    (readChat now row.orgId row.id enqueue s.rows).code = 200 →
      Reports row (readChat now row.orgId row.id enqueue s.rows).body
  handled : ∀ now path orgParam enqueue, (handleGet now path orgParam enqueue s.rows).code = 200 →
    ∃ row ∈ s.rows, parseInt32 (trimSpace orgParam) = some row.orgId ∧ row.id = trimBoth path '/' ∧
      Reports row (handleGet now path orgParam enqueue s.rows).body

/-- Stored responses have the status of their row. -/
def ResponsesAgree (s : Gateway) : Prop :=
  ∀ row ∈ s.rows, ∀ resp ∈ row.response, resp.body.status = some row.status

/-- A failure is stored in rows without a response only. -/
def FailsUnanswered (s : Gateway) (a : GatewayStep) : Prop :=
  ∀ task ∈ marksFailed s a, ∀ row ∈ s.rows, isRow task.orgId task.requestId row = true →
    row.response = none

theorem reports_of_status {row : LLMRequest} {body : ChatResponse}
    (h : body.status = some row.status) : Reports row body := by
  refine ⟨h, fun hfailed => ?_, fun hsucceeded => ?_⟩
  · rw [hfailed] at h
    exact ⟨_, by simp only [pollStep, h]; rfl⟩
  · rw [hsucceeded] at h
    simp only [pollStep, h, if_true]

/-- `handleGet` answers with code 200 only what it has read from a row. -/
theorem handleGet_of_ok {now : Time} {path orgParam : String} {enqueue : Except String Unit}
    {rows : List LLMRequest} (h : (handleGet now path orgParam enqueue rows).code = 200) :
    ∃ row ∈ rows, parseInt32 (trimSpace orgParam) = some row.orgId ∧ row.id = trimBoth path '/' ∧
      handleGet now path orgParam enqueue rows = readChat now row.orgId row.id enqueue rows := by
  unfold handleGet at h ⊢
  cases horg : parseInt32 (trimSpace orgParam) with
  | none =>
    rw [horg] at h
    exact absurd h (by decide : (400 : ℕ) ≠ 200)
  | some orgId =>
    simp only [horg] at h
    split_ifs at h with hpositive
    · exact absurd h (by decide : (400 : ℕ) ≠ 200)
    · cases hget : get orgId (trimBoth path '/') rows with
      | none =>
        simp only [readChat, hget] at h
        exact absurd h (by decide : (404 : ℕ) ≠ 200)
      | some row =>
        obtain ⟨hrow, rfl, hid⟩ := mem_of_get hget
        refine ⟨row, hrow, rfl, hid, ?_⟩
        simp only [hpositive, if_false, hid]

theorem reportsRows_iff (s : Gateway) (hs : TableOk s) : ReportsRows s ↔ ResponsesAgree s := by
  constructor
  · intro hreports row hrow resp hresp
    have hget := get_eq_some hs.unique hrow
    have hread : readChat 0 row.orgId row.id (.ok ()) s.rows = ⟨200, statusBody row⟩ := by
      simp [readChat, hget, Except.isOk, Except.toBool]
    have hstatus := (hreports.read row hrow 0 (.ok ()) (by rw [hread])).status
    rw [hread] at hstatus
    have hresp : row.response = some resp := hresp
    have hbody : (statusBody row).status = resp.body.status.or (some row.status) := by
      simp [statusBody, chatResponseFromRow, hresp]
    rw [hbody] at hstatus
    cases hvalue : resp.body.status with
    | none => exact absurd hvalue (hs.statuses row hrow resp hresp).1
    | some status => simpa [hvalue] using hstatus
  · intro hagree
    have hread : ∀ row ∈ s.rows, ∀ now enqueue,
        (readChat now row.orgId row.id enqueue s.rows).code = 200 →
          Reports row (readChat now row.orgId row.id enqueue s.rows).body := by
      intro row hrow now enqueue hcode
      apply reports_of_status
      have hget := get_eq_some hs.unique hrow
      have hbody : (statusBody row).status = some row.status := by
        cases hresp : row.response with
        | none => simp [statusBody, hresp]
        | some resp => simp [statusBody, chatResponseFromRow, hresp, hagree row hrow resp hresp]
      unfold readChat at hcode ⊢
      simp only [hget] at hcode ⊢
      split_ifs at hcode ⊢
      · exact absurd hcode (by decide : (503 : ℕ) ≠ 200)
      · exact hbody
    refine ⟨hread, fun now path orgParam enqueue hcode => ?_⟩
    obtain ⟨row, hrow, horg, hid, heq⟩ := handleGet_of_ok hcode
    rw [heq] at hcode ⊢
    exact ⟨row, hrow, horg, hid, hread row hrow now enqueue hcode⟩

/-- In a run every answer of `handleGet` with code 200 reports the status of its row exactly
when failures are stored in rows without a response only. -/
theorem reportsRows_run_iff (steps : List GatewayStep) :
    (∀ pre post s, steps = pre ++ post → gatewayMachine.run {} pre = some s → ReportsRows s) ↔
      gatewayMachine.Always FailsUnanswered {} steps := by
  have hagree : (∀ pre post s, steps = pre ++ post → gatewayMachine.run {} pre = some s →
      ReportsRows s) ↔ ∀ pre post s, steps = pre ++ post → gatewayMachine.run {} pre = some s →
        ResponsesAgree s := by
    refine forall₃_congr fun pre post s => imp_congr_right fun _ => imp_congr_right fun hrun => ?_
    exact reportsRows_iff s (Machine.run_invariant TableOk step_tableOk tableOk_empty hrun)
  rw [hagree]
  refine Machine.good_iff_always TableOk ResponsesAgree ?_ ?_ tableOk_empty (by
    intro row hrow
    cases hrow)
  · intro s a s' hs hgood hfails hstep
    refine ⟨step_tableOk s a s' hs hstep, ?_⟩
    refine (step_rowsAfter hs.unique hstep).forall_mem ?_ ?_ hgood
    · intro row hrow hresponse row' hchange resp hresp
      cases hchange with
      | keep | retry now message _ => exact hresponse resp hresp
      | claim now req _ _ _ _ => cases hresp
      | flush now stored hstatus hstored =>
        cases hresp
        exact hstored.trans (congrArg some hstatus.symm)
      | succeed now stored hmarks _ =>
        cases hresp
        exact status_of_marksSucceeded hmarks
      | fail now task message hmarks hmatch =>
        have hnone := hfails task hmarks row hrow hmatch
        have hresp : row.response = some resp := hresp
        rw [hnone] at hresp
        cases hresp
    · intro now req resp hresp
      cases hresp
  · intro s a hs _ hnot
    unfold FailsUnanswered at hnot
    push Not at hnot
    obtain ⟨task, hmarks, row, hrow, hmatch, hsome⟩ := hnot
    obtain ⟨resp, hresp⟩ := Option.ne_none_iff_exists'.1 hsome
    obtain ⟨now, message, s', hstep, hmem⟩ := step_of_marksFailed hmarks hrow hmatch
    exact ⟨s', hstep, fun hgood => (hs.statuses row hrow resp hresp).2 (hgood _ hmem resp hresp)⟩

/-- A stream breaks off after a partial flush and the request fails: the poller is told that
it is still in progress. -/
theorem failedStream_reported_running :
    ∃ s, gatewayMachine.run {} (posted "question" true ++
        [.deliver 1 ⟨7, "ask"⟩, .delta 3000 0 "Once", .broke 0 "timeout", .flushEnd 3001 0,
          .fail 3002 0 true]) = some s ∧
      (∃ row ∈ s.rows, row.id = "ask" ∧ row.status = .failed) ∧
      (handleGet 4000 "ask" "7" (.ok ()) s.rows).code = 200 ∧
      (handleGet 4000 "ask" "7" (.ok ()) s.rows).body.status = some .inProgress ∧
      pollStep (handleGet 4000 "ask" "7" (.ok ()) s.rows).body = .again :=
  gatewayMachine.exists_run_of_any _ (by decide +kernel)

end CodeIntel.LlmGateway
