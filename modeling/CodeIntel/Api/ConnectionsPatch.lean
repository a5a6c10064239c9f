import CodeIntel.Relational.Fallible
import CodeIntel.Relational.Table
import CodeIntel.Schema.Database
import CodeIntel.Secretrefs.Walk
import Mathlib.Data.List.Sort

/-!
# Updating a connection

`PATCH /api/connections/{id}` reads the row of the path, merges the fields of the
body into it and writes the result with `UpsertOrgConnection`. That statement finds
its row by `(name, orgId)` and not by the id. So a request that keeps the name
updates the row of the path, and a rename adds a row under the new name and leaves
the row of the path as it was.
-/

namespace CodeIntel.Api

open Relational Schema Secretrefs Text

/-! ## The table -/

/-- A row of `Connection`; `config` is what `json.Unmarshal` reads from its column. -/
structure ConnectionRow where
  (id orgId : ℤ)
  name : String
  config : Json
  connectionType : String
  isDeclarative : Bool := false
  enforcePermissions : Bool := true
  enforcePermissionsForPublicRepos : Bool := false
  syncedAt : Option Time := none
  (createdAt updatedAt : Time)

/-- The columns of `UNIQUE (name, "orgId")`. -/
def ConnectionRow.nameKey (row : ConnectionRow) : String × ℤ := (row.name, row.orgId)

/-- The table with its two unique indexes and the sequence of its ids. -/
structure ConnectionTable where
  rows : List ConnectionRow
  nextId : ℤ
  uniqueId : UniqueKey ConnectionRow.id rows
  uniqueName : UniqueKey ConnectionRow.nameKey rows

/-! ## The store -/

inductive DbError where
  | invalidOrgID
  | connectionNotFound
  | connectionNameConflict
  | emptyConnectionName
  | emptyConnectionType
  | pg (code : String)
  deriving DecidableEq, Repr

def uniqueViolation : String := "23505"

/-- The statements that fail on the way, with their SQLSTATE. -/
structure Faults where
  get : Option String := none
  check : Option String := none
  missing : Option String := none
  upsert : Option String := none

def query {α : Type} (fault : Option String) (result : Except DbError α) : Except DbError α :=
  match fault with
  | some code => .error (.pg code)
  | none => result

def getOrgConnectionForUpdate (faults : Faults) (orgID connectionID : ℤ) (t : ConnectionTable) :
    Except DbError ConnectionRow :=
  if orgID ≤ 0 then .error .invalidOrgID
  else if connectionID ≤ 0 then .error .connectionNotFound
  else query faults.get <|
    match t.rows.find? fun row => row.id = connectionID ∧ row.orgId = orgID with
    | some row => .ok row
    | none => .error .connectionNotFound

def checkOrgConnectionNameAvailable (faults : Faults) (orgID : ℤ) (name : String) (excludeID : ℤ)
    (t : ConnectionTable) : Except DbError Unit :=
  if orgID ≤ 0 then .error .invalidOrgID
  else if name = "" then .error .emptyConnectionName
  else query faults.check <|
    if t.rows.any fun row => row.orgId = orgID ∧ row.name = name ∧ row.id ≠ excludeID then
      .error .connectionNameConflict
    else .ok ()

/-- A secret is a row `(orgId, key)`. -/
def selectMissingOrgSecretKeys (faults : Faults) (orgID : ℤ) (candidateKeys : List String)
    (secrets : List (ℤ × String)) : Except DbError (List String) :=
  if orgID ≤ 0 then .error .invalidOrgID
  else if candidateKeys = [] then .ok []
  else query faults.missing <|
    .ok (candidateKeys.filter fun k => !secrets.any fun secret => secret.1 = orgID ∧ secret.2 = k)

structure UpsertOrgConnectionParams where
  orgID : ℤ
  (name connectionType : String)
  config : Json
  (enforcePermissions enforcePermissionsForPublicRepos resetSync : Bool)

namespace UpsertOrgConnectionParams

variable (p : UpsertOrgConnectionParams) (now : Time)

def fresh (id : ℤ) : ConnectionRow where
  id := id
  orgId := p.orgID
  name := p.name
  config := p.config
  connectionType := p.connectionType
  enforcePermissions := p.enforcePermissions
  enforcePermissionsForPublicRepos := p.enforcePermissionsForPublicRepos
  createdAt := now
  updatedAt := now

def merge (row : ConnectionRow) : ConnectionRow :=
  { row with
    connectionType := p.connectionType
    config := p.config
    isDeclarative := false
    enforcePermissions := p.enforcePermissions
    enforcePermissionsForPublicRepos := p.enforcePermissionsForPublicRepos
    syncedAt := if p.resetSync then none else row.syncedAt
    updatedAt := now }

def nameKey : String × ℤ := (p.name, p.orgID)

end UpsertOrgConnectionParams

/-- No row has the next id, or the name is taken and no row is added. -/
def ConnectionTable.Admits (t : ConnectionTable) (p : UpsertOrgConnectionParams) : Prop :=
  (∃ row ∈ t.rows, row.nameKey = p.nameKey) ∨ ∀ row ∈ t.rows, row.id ≠ t.nextId

instance (t : ConnectionTable) (p : UpsertOrgConnectionParams) : Decidable (t.Admits p) :=
  inferInstanceAs (Decidable (_ ∨ _))

/-- `INSERT ... ON CONFLICT (name, "orgId") DO UPDATE`. -/
def ConnectionTable.upsert (t : ConnectionTable) (p : UpsertOrgConnectionParams) (now : Time)
    (h : t.Admits p) : ConnectionTable where
  rows := Relational.upsert (fun row => row.nameKey = p.nameKey) (p.merge now)
    (p.fresh now t.nextId) t.rows
  nextId := t.nextId + 1
  uniqueId := by
    unfold Relational.upsert
    split
    · exact t.uniqueId.map fun row => by split <;> rfl
    · rename_i hany
      refine t.uniqueId.append_fresh (h.resolve_left fun ⟨row, hrow, hkey⟩ => hany ?_)
      exact List.any_eq_true.2 ⟨row, hrow, decide_eq_true hkey⟩
  uniqueName := by
    apply t.uniqueName.upsert
    · exact fun _ => rfl
    · rfl

/-- The id is drawn before the conflict is found, so the sequence moves on in any case. -/
def upsertOrgConnection (faults : Faults) (now : Time) (p : UpsertOrgConnectionParams)
    (t : ConnectionTable) : Except DbError ConnectionRow × ConnectionTable :=
  if p.orgID ≤ 0 then (.error .invalidOrgID, t)
  else if p.name = "" then (.error .emptyConnectionName, t)
  else if p.connectionType = "" then (.error .emptyConnectionType, t)
  else match faults.upsert with
    | some code => (.error (.pg code), t)
    | none =>
      if h : t.Admits p then
        (.ok ((lookup ConnectionRow.nameKey p.nameKey t.rows).elim (p.fresh now t.nextId)
          (p.merge now)), t.upsert p now h)
      else (.error (.pg uniqueViolation), { t with nextId := t.nextId + 1 })

/-! ## The handler -/

structure ServiceError where
  statusCode : ℕ
  (errorCode message : String)
  deriving DecidableEq, Repr

structure ConnectionListItem where
  id : ℤ
  (name connectionType : String)
  config : Json
  isDeclarative : Bool
  syncedAt : Option Time
  (enforcePermissions enforcePermissionsForPublicRepos : Bool)

structure HttpReply where
  code : ℕ
  body : ServiceError ⊕ ConnectionListItem

def Refusal := { reply : HttpReply // reply.code ≠ 200 }

/-- `writeServiceError`. -/
def serviceError (statusCode : ℕ) (errorCode message : String)
    (h : statusCode ≠ 200 := by decide) : Refusal :=
  ⟨⟨statusCode, .inl ⟨statusCode, errorCode, message⟩⟩, h⟩

theorem Refusal.code_ne (refusal : Refusal) : refusal.val.code ≠ 200 := refusal.property

def notAuthenticated : Refusal := serviceError 401 "NOT_AUTHENTICATED" "Not authenticated"

/-- `writeStaticServiceError` with `unexpectedErrorBody`, whose own status code is 500. -/
def unexpectedError (code : ℕ) (h : code ≠ 200 := by decide) : Refusal :=
  ⟨⟨code, .inl ⟨500, "UNEXPECTED_ERROR", "An unexpected error occurred"⟩⟩, h⟩

def invalidBody (message : String) : Refusal :=
  serviceError 400 "INVALID_REQUEST_BODY" message

inductive OrgRole where
  | owner
  | member
  | guest
  deriving DecidableEq, Repr

/-- The part of `auth.AuthContext` that the handler reads. -/
structure AuthContext where
  orgID : ℤ
  role : OrgRole

/-- Why `ResolveFromHeaders` fails; `isAuthFailure` tells the two apart. -/
inductive AuthError where
  | authFailure
  | other
  deriving DecidableEq, Repr

inductive DecodeError where
  | tooLarge
  | eof
  | invalid
  deriving DecidableEq, Repr

/-- An absent config is `null`. -/
structure PatchConnectionBody where
  name : Option String := none
  config : Json := .null
  sync : Option Bool := none

structure PatchRequest where
  auth : Except AuthError AuthContext
  id : String
  body : Except DecodeError PatchConnectionBody

structure SyncResult where
  jobID : String
  alreadyAtCapacity : Bool
  deriving DecidableEq, Repr

/-- What the handler meets around the table: the clock, the faults of the database, the
secrets, and the syncer, which is asked for a connection of an org. -/
structure Environment where
  now : Time
  faults : Faults := {}
  secrets : List (ℤ × String) := []
  schedule : ℤ → ℤ → Except String SyncResult

def authorizeOwner (auth : Except AuthError AuthContext) : Except Refusal AuthContext :=
  match auth with
  | .error .authFailure => .error notAuthenticated
  | .error .other => .error (unexpectedError 500)
  | .ok authCtx =>
    if authCtx.role ≠ .owner then
      .error (serviceError 403 "INSUFFICIENT_PERMISSIONS"
        "Only organization owners can configure code host connections.")
    else .ok authCtx

def parseConnectionID (id : String) : Except Refusal ℤ :=
  match parseInt32 id with
  | none => .error (serviceError 400 "INVALID_QUERY_PARAMS" "Connection id must be an integer.")
  | some connectionID => .ok connectionID

def decodeBody (body : Except DecodeError PatchConnectionBody) :
    Except Refusal PatchConnectionBody :=
  match body with
  | .error .tooLarge => .error (serviceError 413 "INVALID_REQUEST_BODY"
      "Request body exceeds the maximum allowed size.")
  | .error .eof => .error (invalidBody "Request body is empty.")
  | .error .invalid => .error (invalidBody "Request body is not valid JSON.")
  | .ok body =>
    if body.name = none ∧ body.config.isNull ∧ body.sync = none then
      .error (invalidBody
        "PATCH body must include at least one of `name`, `config`, or `sync`.")
    else .ok body

def loadExisting (env : Environment) (orgID connectionID : ℤ) (t : ConnectionTable) :
    Except Refusal ConnectionRow :=
  match getOrgConnectionForUpdate env.faults orgID connectionID t with
  | .ok row => .ok row
  | .error .connectionNotFound => .error (serviceError 404 "NOT_FOUND" "Connection not found.")
  | .error _ => .error (unexpectedError 500)

/-- The name to write. A name other than the present one must be free. -/
def patchedName (env : Environment) (orgID connectionID : ℤ) (requested : Option String)
    (existing : ConnectionRow) (t : ConnectionTable) : Except Refusal String :=
  match requested with
  | none => .ok existing.name
  | some name =>
    if name = "" then .error (invalidBody "Connection name must not be empty.")
    else if name = existing.name then .ok existing.name
    else match checkOrgConnectionNameAvailable env.faults orgID name connectionID t with
      | .ok () => .ok name
      | .error .connectionNameConflict => .error (serviceError 400 "CONNECTION_ALREADY_EXISTS"
          ("Connection '" ++ name ++ "' already exists."))
      | .error _ => .error (unexpectedError 500)

def joinSorted (keys : List String) : String :=
  ", ".intercalate (keys.insertionSort (· ≤ ·))

structure ConfigColumns where
  config : Json
  connectionType : String
  (enforcePermissions enforcePermissionsForPublicRepos : Bool)

/-- The config columns to write. A requested config is bound to the org, and its secrets
must be known; flags it does not have stay as they are. -/
def patchedConfig (env : Environment) (orgID : ℤ) (requested : Json) (existing : ConnectionRow) :
    Except Refusal ConfigColumns :=
  if requested.isNull then
    .ok ⟨existing.config, existing.connectionType, existing.enforcePermissions,
      existing.enforcePermissionsForPublicRepos⟩
  else
    let bound := bindToOrg requested orgID
    match bound with
    | .obj cfgMap =>
      let typ := (stringField cfgMap "type").getD ""
      if typ = "" then
        .error (invalidBody "Connection config must specify a `type` string.")
      else
        let columns : ConfigColumns :=
          ⟨bound, typ, (boolField cfgMap "enforcePermissions").getD existing.enforcePermissions,
            (boolField cfgMap "enforcePermissionsForPublicRepos").getD
              existing.enforcePermissionsForPublicRepos⟩
        if collectUnique bound = [] then .ok columns
        else match selectMissingOrgSecretKeys env.faults orgID (collectUnique bound)
            env.secrets with
          | .error _ => .error (unexpectedError 500)
          | .ok [] => .ok columns
          | .ok missing => .error (invalidBody
              ("Connection config references missing secrets: " ++ joinSorted missing))
    | _ => .error (invalidBody "Connection config must be a JSON object.")

/-- Everything before the write: the parameters of the upsert, or the refusal. -/
def mergePatch (env : Environment) (req : PatchRequest) (t : ConnectionTable) :
    Except Refusal UpsertOrgConnectionParams := do
  let authCtx ← authorizeOwner req.auth
  let connectionID ← parseConnectionID req.id
  let body ← decodeBody req.body
  let existing ← loadExisting env authCtx.orgID connectionID t
  let name ← patchedName env authCtx.orgID connectionID body.name existing t
  let columns ← patchedConfig env authCtx.orgID body.config existing
  return {
    orgID := authCtx.orgID
    name := name
    connectionType := columns.connectionType
    config := columns.config
    enforcePermissions := columns.enforcePermissions
    enforcePermissionsForPublicRepos := columns.enforcePermissionsForPublicRepos
    resetSync := body.sync.getD false }

def listItem (row : ConnectionRow) : ConnectionListItem :=
  ⟨row.id, row.name, row.connectionType, redact row.config, row.isDeclarative, row.syncedAt,
    row.enforcePermissions, row.enforcePermissionsForPublicRepos⟩

/-- The reply after the upsert, which schedules a sync if one was asked for. -/
def patchReply (env : Environment) (p : UpsertOrgConnectionParams) :
    Except DbError ConnectionRow → HttpReply
  | .error (.pg code) =>
    if code = uniqueViolation then
      (serviceError 400 "CONNECTION_ALREADY_EXISTS"
        "Connection name already in use (concurrent update detected).").val
    else (unexpectedError 500).val
  | .error _ => (unexpectedError 500).val
  | .ok row =>
    if p.resetSync then
      match env.schedule p.orgID row.id with
      | .error _ => (unexpectedError 502).val
      | .ok res =>
        if res.alreadyAtCapacity then
          (serviceError 429 "CONNECTION_SYNC_ALREADY_SCHEDULED"
            ("Connection sync was not scheduled because the tenant is at active sync capacity. " ++
              "Retry after the current sync jobs finish.")).val
        else ⟨200, .inr (listItem row)⟩
    else ⟨200, .inr (listItem row)⟩

def handlePatchOrgConnection (env : Environment) (req : PatchRequest) (t : ConnectionTable) :
    HttpReply × ConnectionTable :=
  match mergePatch env req t with
  | .error refusal => (refusal.val, t)
  | .ok params =>
    let written := upsertOrgConnection env.faults env.now params t
    (patchReply env params written.1, written.2)

/-! ## What a patch writes -/

section

variable {env : Environment} {req : PatchRequest} {t t' : ConnectionTable}
  {p : UpsertOrgConnectionParams}


theorem query_eq_ok {α : Type} {fault : Option String} {result : Except DbError α} {a : α}
    (h : query fault result = .ok a) : result = .ok a := by
  cases fault with
  | none => exact h
  | some code => cases h

variable {connectionID orgID : ℤ} {existing : ConnectionRow}

theorem parseConnectionID_eq_ok {id : String} (h : parseConnectionID id = .ok connectionID) :
    parseInt32 id = some connectionID := by
  unfold parseConnectionID at h
  split at h
  · cases h
  · cases h
    assumption

theorem decodeBody_eq_ok {decoded : Except DecodeError PatchConnectionBody}
    {body : PatchConnectionBody} (h : decodeBody decoded = .ok body) : decoded = .ok body := by
  unfold decodeBody at h
  split at h
  · cases h
  · cases h
  · cases h
  · split_ifs at h
    cases h
    rfl

theorem loadExisting_eq_ok (h : loadExisting env orgID connectionID t = .ok existing) :
    existing ∈ t.rows ∧ existing.id = connectionID ∧ existing.orgId = orgID := by
  unfold loadExisting at h
  split at h
  · rename_i row hget
    cases h
    unfold getOrgConnectionForUpdate at hget
    split_ifs at hget
    replace hget := query_eq_ok hget
    split at hget
    · rename_i hfind
      cases hget
      have hkey := List.find?_some hfind
      exact ⟨List.mem_of_find?_eq_some hfind, by simpa using hkey⟩
    · cases hget
  · cases h
  · cases h

theorem patchedName_eq_ok {requested : Option String} {name : String}
    (hid : existing.id = connectionID)
    (h : patchedName env orgID connectionID requested existing t = .ok name) :
    name = requested.getD existing.name ∧
      (name ≠ existing.name → existing ∈ t.rows →
        ∀ row ∈ t.rows, row.orgId = orgID → row.name ≠ name) := by
  unfold patchedName at h
  split at h
  · cases h
    exact ⟨rfl, fun hne => absurd rfl hne⟩
  · split_ifs at h with hempty hsame
    · cases h
      exact ⟨hsame.symm, fun hne => absurd rfl hne⟩
    · split at h
      · rename_i hcheck
        cases h
        refine ⟨rfl, fun _ hmem row hrow horg hname => ?_⟩
        unfold checkOrgConnectionNameAvailable at hcheck
        split_ifs at hcheck with _ hany
        · cases query_eq_ok hcheck
        · refine hany (List.any_eq_true.2 ⟨row, hrow, decide_eq_true ⟨horg, hname, ?_⟩⟩)
          intro hrowid
          have hrow' : row = existing := t.uniqueId.eq_of_key_eq hrow hmem (hrowid.trans hid.symm)
          exact hsame (hname.symm.trans (by rw [hrow']))
      · cases h
      · cases h

theorem patchedConfig_eq_ok {requested : Json} {columns : ConfigColumns}
    (h : patchedConfig env orgID requested existing = .ok columns) :
    columns.config = if requested.isNull then existing.config else bindToOrg requested orgID := by
  unfold patchedConfig at h
  split_ifs at h with hnull
  · cases h
    rw [if_pos hnull]
  · rw [if_neg hnull]
    dsimp only at h
    split at h
    · split_ifs at h
      · cases h
        rfl
      · split at h
        · cases h
        · cases h
          rfl
        · cases h
    · cases h

/-- What the parameters of the upsert say of the request and of the row of its path. -/
structure Merges (req : PatchRequest) (t : ConnectionTable) (body : PatchConnectionBody)
    (existing : ConnectionRow) (p : UpsertOrgConnectionParams) : Prop where
  id : parseInt32 req.id = some existing.id
  decoded : req.body = .ok body
  stored : existing ∈ t.rows
  org : p.orgID = existing.orgId
  name : p.name = body.name.getD existing.name
  free : p.name ≠ existing.name → ∀ row ∈ t.rows, row.nameKey ≠ p.nameKey
  config : p.config =
    if body.config.isNull then existing.config else bindToOrg body.config existing.orgId

theorem mergePatch_eq_ok (h : mergePatch env req t = .ok p) :
    ∃ body existing, Merges req t body existing p := by
  obtain ⟨authCtx, hauth, h⟩ := Relational.bind_eq_ok.1 h
  obtain ⟨connectionID, hid, h⟩ := Relational.bind_eq_ok.1 h
  obtain ⟨body, hbody, h⟩ := Relational.bind_eq_ok.1 h
  obtain ⟨existing, hexisting, h⟩ := Relational.bind_eq_ok.1 h
  obtain ⟨name, hname, h⟩ := Relational.bind_eq_ok.1 h
  obtain ⟨columns, hcolumns, h⟩ := Relational.bind_eq_ok.1 h
  cases h
  obtain ⟨hmem, hrowid, horg⟩ := loadExisting_eq_ok hexisting
  obtain ⟨hgetD, hfree⟩ := patchedName_eq_ok hrowid hname
  refine ⟨body, existing, ?_⟩
  exact {
    id := by rw [hrowid, parseConnectionID_eq_ok hid]
    decoded := decodeBody_eq_ok hbody
    stored := hmem
    org := horg.symm
    name := hgetD
    free := fun hne row hrow hkey =>
      hfree hne hmem row hrow (congrArg Prod.snd hkey) (congrArg Prod.fst hkey)
    config := by rw [horg]; exact patchedConfig_eq_ok hcolumns }

theorem patchReply_ok {written : Except DbError ConnectionRow}
    (hok : (patchReply env p written).code = 200) : ∃ row, written = .ok row := by
  cases written with
  | ok row => exact ⟨row, rfl⟩
  | error e =>
    exfalso
    unfold patchReply at hok
    split at hok
    · split_ifs at hok
      · exact Refusal.code_ne _ hok
      · exact Refusal.code_ne _ hok
    · exact Refusal.code_ne _ hok
    · rename_i h
      cases h

theorem upsertOrgConnection_eq_ok {faults : Faults} {now : Time} {row : ConnectionRow}
    (h : (upsertOrgConnection faults now p t).1 = .ok row) :
    ∃ hadmits : t.Admits p, (upsertOrgConnection faults now p t).2 = t.upsert p now hadmits := by
  unfold upsertOrgConnection at h ⊢
  generalize faults.upsert = fault at h ⊢
  cases fault with
  | some code => split_ifs at h
  | none =>
    split_ifs at h ⊢ with _ _ _ hadmits
    exact ⟨hadmits, rfl⟩

theorem handlePatchOrgConnection_ok
    (hok : (handlePatchOrgConnection env req t).1.code = 200) :
    ∃ p body existing, ∃ hadmits : t.Admits p, Merges req t body existing p ∧
      (handlePatchOrgConnection env req t).2 = t.upsert p env.now hadmits := by
  unfold handlePatchOrgConnection at hok ⊢
  cases hmerge : mergePatch env req t with
  | error refusal =>
    rw [hmerge] at hok
    exact absurd hok refusal.property
  | ok p =>
    rw [hmerge] at hok
    obtain ⟨body, existing, hmerges⟩ := mergePatch_eq_ok hmerge
    obtain ⟨row, hrow⟩ := patchReply_ok hok
    obtain ⟨hadmits, hwritten⟩ := upsertOrgConnection_eq_ok hrow
    exact ⟨p, body, existing, hadmits, hmerges, hwritten⟩

end

/-! ## The frame of a patch -/

/-- The row of the path after the request: its id and org, the requested name, and the
requested config with its secret references bound to the org. -/
structure CarriesRequest (req : PatchRequest) (old new : ConnectionRow) : Prop where
  id : new.id = old.id
  orgId : new.orgId = old.orgId
  name : ∀ body, req.body = .ok body → new.name = body.name.getD old.name
  config : ∀ body, req.body = .ok body →
    new.config = if body.config.isNull then old.config else bindToOrg body.config old.orgId
  plain : ∀ body, req.body = .ok body → body.config.isNull = false → collect body.config = [] →
    new.config = body.config

/-- The tables differ in the row of the path only, which carries what was requested. -/
structure TouchesOnlyRow (req : PatchRequest) (before after : ConnectionTable) : Prop where
  others : ∀ row, parseInt32 req.id ≠ some row.id → (row ∈ after.rows ↔ row ∈ before.rows)
  patched : ∃ old ∈ before.rows, ∃ new ∈ after.rows,
    parseInt32 req.id = some old.id ∧ CarriesRequest req old new

/-- The request has no name, or the name the row of its path has. -/
def KeepsName (req : PatchRequest) (t : ConnectionTable) : Prop :=
  ∀ body name, req.body = .ok body → body.name = some name →
    ∃ row ∈ t.rows, parseInt32 req.id = some row.id ∧ row.name = name

section

variable {req : PatchRequest} {t : ConnectionTable} {p : UpsertOrgConnectionParams}
  {body : PatchConnectionBody} {existing : ConnectionRow}

theorem Merges.keepsName_iff (h : Merges req t body existing p) :
    KeepsName req t ↔ p.name = existing.name := by
  rw [h.name]
  constructor
  · intro hkeeps
    cases hname : body.name with
    | none => rfl
    | some name =>
      obtain ⟨row, hrow, hid, rfl⟩ := hkeeps body name h.decoded hname
      have hsame : row.id = existing.id := Option.some.inj (hid.symm.trans h.id)
      rw [t.uniqueId.eq_of_key_eq hrow h.stored hsame, Option.getD_some]
  · intro hname body' name hbody' hname'
    obtain rfl : body = body' := Except.ok.inj (h.decoded.symm.trans hbody')
    rw [hname', Option.getD_some] at hname
    exact ⟨existing, h.stored, h.id, hname.symm⟩

theorem Merges.carriesRequest (h : Merges req t body existing p) (hname : p.name = existing.name)
    (now : Time) : CarriesRequest req existing (p.merge now existing) := by
  have hbody : ∀ {body'}, req.body = .ok body' → body' = body := fun hbody' =>
    Except.ok.inj (hbody'.symm.trans h.decoded)
  refine ⟨rfl, rfl, fun body' hbody' => ?_, fun body' hbody' => ?_, fun body' hbody' hnull href => ?_⟩
  · rw [hbody hbody', ← h.name]
    exact hname.symm
  · rw [hbody hbody']
    exact h.config
  · rw [hbody hbody'] at hnull href ⊢
    have hconfig : p.config = bindToOrg body.config existing.orgId := by
      rw [h.config, hnull, if_neg Bool.false_ne_true]
    exact hconfig.trans (bindToOrg_eq_self href _)

theorem Merges.touchesOnlyRow (h : Merges req t body existing p) (hname : p.name = existing.name)
    (now : Time) (hadmits : t.Admits p) : TouchesOnlyRow req t (t.upsert p now hadmits) := by
  have hkey : existing.nameKey = p.nameKey := Prod.ext hname.symm h.org.symm
  have honly : ∀ row ∈ t.rows, row.nameKey = p.nameKey → row = existing := fun row hrow hrowkey =>
    t.uniqueName.eq_of_key_eq hrow h.stored (hrowkey.trans hkey.symm)
  refine ⟨fun row hid => ?_, existing, h.stored, p.merge now existing, ?_, h.id,
    h.carriesRequest hname now⟩
  · have hne : row.id ≠ existing.id := fun heq => hid (by rw [heq, h.id])
    constructor
    · intro hrow
      rcases mem_upsert.1 hrow with ⟨row₀, hrow₀, rfl⟩ | ⟨-, hfree⟩
      · by_cases hconflict : row₀.nameKey = p.nameKey
        · rw [if_pos (decide_eq_true hconflict), honly row₀ hrow₀ hconflict] at hne
          exact absurd rfl hne
        · rwa [if_neg (by simpa using hconflict)]
      · exact absurd hkey (by simpa using hfree existing h.stored)
    · intro hrow
      refine mem_upsert.2 (.inl ⟨row, hrow, if_neg ?_⟩)
      intro hconflict
      exact hne (by rw [honly row hrow (of_decide_eq_true hconflict)])
  · exact mem_upsert.2 (.inl ⟨existing, h.stored, if_pos (decide_eq_true hkey)⟩)

theorem Merges.not_touchesOnlyRow (h : Merges req t body existing p)
    (hname : p.name ≠ existing.name) (now : Time) (hadmits : t.Admits p) :
    ¬TouchesOnlyRow req t (t.upsert p now hadmits) := by
  intro htouches
  have hfree := h.free hname
  have hid : ∀ row ∈ t.rows, row.id ≠ t.nextId :=
    hadmits.resolve_left fun ⟨row, hrow, hkey⟩ => hfree row hrow hkey
  have hadded : p.fresh now t.nextId ∈ (t.upsert p now hadmits).rows :=
    mem_upsert.2 (.inr ⟨rfl, fun row hrow => decide_eq_false (hfree row hrow)⟩)
  have hother : parseInt32 req.id ≠ some (p.fresh now t.nextId).id := by
    rw [h.id]
    exact fun heq => hid existing h.stored (Option.some.inj heq)
  exact hid _ ((htouches.others _ hother).1 hadded) rfl

end

/-- A patch that is answered with 200 touches the row of its path only, exactly if it
keeps the name of that row. -/
theorem touchesOnlyRow_patch_iff {env : Environment} {req : PatchRequest} {t : ConnectionTable}
    (hok : (handlePatchOrgConnection env req t).1.code = 200) :
    TouchesOnlyRow req t (handlePatchOrgConnection env req t).2 ↔ KeepsName req t := by
  obtain ⟨p, body, existing, hadmits, hmerges, hafter⟩ := handlePatchOrgConnection_ok hok
  rw [hafter, hmerges.keepsName_iff]
  by_cases hname : p.name = existing.name
  · exact iff_of_true (hmerges.touchesOnlyRow hname env.now hadmits) hname
  · exact iff_of_false (hmerges.not_touchesOnlyRow hname env.now hadmits) hname

/-! ## A rename -/

def prodConfig : Json := .obj [("type", .str "github"), ("branches", .arr [.str "main"])]

def prodRow : ConnectionRow where
  id := 42
  orgId := 7
  name := "gh-prod"
  config := prodConfig
  connectionType := "github"
  createdAt := 1
  updatedAt := 1

def prodTable : ConnectionTable where
  rows := [prodRow]
  nextId := 43
  uniqueId := by decide
  uniqueName := by decide

def quietEnvironment : Environment where
  now := 2
  secrets := [(7, "GH_TOKEN")]
  schedule := fun _ _ => .ok ⟨"", false⟩

def ownerPatch (body : PatchConnectionBody) : PatchRequest where
  auth := .ok ⟨7, .owner⟩
  id := "42"
  body := .ok body

def tokenPatch : PatchRequest := ownerPatch
  { name := some "gh-prod"
    config := .obj [("type", .str "github"), ("token", .obj [("secretRef", .str "GH_TOKEN")])]
    sync := some true }

theorem tokenPatch_touchesOnlyRow :
    (handlePatchOrgConnection quietEnvironment tokenPatch prodTable).1.code = 200 ∧
      TouchesOnlyRow tokenPatch prodTable
        (handlePatchOrgConnection quietEnvironment tokenPatch prodTable).2 := by
  have hok : (handlePatchOrgConnection quietEnvironment tokenPatch prodTable).1.code = 200 := by
    decide +kernel
  refine ⟨hok, (touchesOnlyRow_patch_iff hok).2 ?_⟩
  rintro body name ⟨⟩ ⟨⟩
  exact ⟨prodRow, List.mem_singleton_self _, by decide +kernel, rfl⟩

/-- A rename is answered with 200 and leaves the row of the path as it was, beside a new
row with the requested name. -/
theorem rename_adds_row :
    let request := ownerPatch { name := some "gh-staging" }
    let result := handlePatchOrgConnection quietEnvironment request prodTable
    result.1.code = 200 ∧
      result.2.rows.map (fun row => (row.id, row.name)) = [(42, "gh-prod"), (43, "gh-staging")] ∧
      ¬TouchesOnlyRow request prodTable result.2 := by
  intro request result
  have hrows : result.2.rows.map (fun row => (row.id, row.name)) =
      [(42, "gh-prod"), (43, "gh-staging")] := by
    decide +kernel
  refine ⟨by decide +kernel, hrows, fun h => ?_⟩
  have hmem : ((43 : ℤ), "gh-staging") ∈ result.2.rows.map fun row => (row.id, row.name) := by
    decide
  obtain ⟨row, hrow, hcolumns⟩ := List.mem_map.1 hmem
  have hid : row.id = 43 := congrArg Prod.fst hcolumns
  have hbefore := (h.others row (by rw [hid]; decide +kernel)).1 hrow
  rw [List.mem_singleton.1 hbefore] at hid
  exact absurd hid (by decide)

end CodeIntel.Api
