import CodeIntel.Repos.Policy
import CodeIntel.Subjobs.Store

/-!
# Synchronising a connection

`Handle` compiles the repositories of a code-host connection and upserts a row
for each of them. The row is found by its external identity, and the upsert
replaces its metadata by what was compiled. Fetching and parsing are parameters.
-/

namespace CodeIntel.Repos

open Relational Schema Subjobs Text

/-! ## Compiling records -/

structure RepoData where
  (externalId externalCodeHostType externalCodeHostUrl cloneUrl webUrl name displayName : String)
  imageUrl : String
  defaultBranch : Option String
  (isFork isArchived isPublic : Bool)
  isAutoCleanupDisabled : Option Bool := none
  orgId : ℤ
  metadata : RepoMetadata
  connectionIds : List ℤ := []
  deriving DecidableEq, Repr

/-- The part of an `OctokitRepository` the compile path reads. -/
structure OctokitRepository where
  id : ℤ
  fullName : String
  fork : Bool := false
  isPrivate : Bool := false
  htmlUrl : String
  cloneUrl : Option String := none
  stargazersCount : Option ℤ := none
  watchersCount : Option ℤ := none
  subscribersCount : Option ℤ := none
  defaultBranch : Option String := none
  forksCount : Option ℤ := none
  archived : Option Bool := none
  topics : List String := []
  avatarUrl : String := ""
  deriving DecidableEq, Repr

structure GitHubCompileInput where
  hostUrl : String
  branches : List String := []
  tags : List String := []
  deriving DecidableEq, Repr

def singleTenantOrgId : ℤ := 1

def stripHTTPScheme (s : String) : String :=
  let lower := toLower s
  if hasPrefix lower "https://" then String.ofList (s.toList.drop 8)
  else if hasPrefix lower "http://" then String.ofList (s.toList.drop 7)
  else s

def stripTrailingSlashes (s : String) : String :=
  String.ofList (s.toList.reverse.dropWhile (· = '/')).reverse

/-- `path.Join` of two elements. -/
def joinPath (a b : String) : String :=
  if a = "" && b = "" then "" else if a = "" then cleanPath b else cleanPath (a ++ "/" ++ b)

def marshalBool (b : Bool) : String := if b then "1" else "0"

/-- `canonicalURL` is the round trip through `url.Parse`. -/
def createGitHubRepoRecord (canonicalURL : String → String) (repo : OctokitRepository)
    (hostUrl : String) (branches tags : List String) (isAutoCleanupDisabled : Option Bool)
    (orgId : ℤ) : RepoData :=
  let repoName := joinPath (stripHTTPScheme (canonicalURL hostUrl)) repo.fullName
  let isArchived := repo.archived.getD false
  { externalId := toString repo.id
    externalCodeHostType := "github"
    externalCodeHostUrl := hostUrl
    cloneUrl := (repo.cloneUrl.map canonicalURL).getD ""
    webUrl := repo.htmlUrl
    name := repoName
    displayName := repo.fullName
    imageUrl := repo.avatarUrl
    defaultBranch := repo.defaultBranch
    isFork := repo.fork
    isArchived := isArchived
    isPublic := !repo.isPrivate
    isAutoCleanupDisabled := isAutoCleanupDisabled
    orgId := if orgId = 0 then singleTenantOrgId else orgId
    metadata :=
      { gitConfig :=
          [("zoekt.web-url-type", "github"), ("zoekt.web-url", repo.htmlUrl),
            ("zoekt.name", repoName),
            ("zoekt.github-stars", toString (repo.stargazersCount.getD 0)),
            ("zoekt.github-watchers", toString (repo.watchersCount.getD 0)),
            ("zoekt.github-subscribers", toString (repo.subscribersCount.getD 0)),
            ("zoekt.github-forks", toString (repo.forksCount.getD 0)),
            ("zoekt.archived", marshalBool isArchived), ("zoekt.fork", marshalBool repo.fork),
            ("zoekt.public", marshalBool !repo.isPrivate), ("zoekt.display-name", repo.fullName)]
        branches := branches
        tags := tags
        codeHostMetadata := some { githubTopics := some repo.topics } } }

def compileGitHubConfig (canonicalURL : String → String) (repos : List OctokitRepository)
    (input : GitHubCompileInput) (connectionId : ℤ) : List RepoData :=
  let stripped := stripTrailingSlashes input.hostUrl
  let hostUrl := if stripped = "" then "https://github.com" else stripped
  repos.map fun repo =>
    { createGitHubRepoRecord canonicalURL repo hostUrl input.branches input.tags none 0 with
      connectionIds := [connectionId] }

/-- What a run of the worker draws from outside: the clock, row ids, the parsed
configuration and the answers of the code hosts. -/
structure SyncEnv where
  now : Time
  newRepoId : ℕ → ℤ
  canonicalURL : String → String
  parseConfig : Connection → Except String Unit
  fetchGitHub : Connection → Except String (List OctokitRepository × GitHubCompileInput × List String)
  compileOther : Connection → ℤ → Except String (List RepoData × List String)

/-- The dispatch on the connection type. An error carries the recorded message and
the returned one. -/
def compileConnection (env : SyncEnv) (conn : Connection) (connectionId : ℤ) :
    Except (String × String) (List RepoData × List String) :=
  if !(["github", "gitlab", "gitea", "bitbucket", "gerrit", "azuredevops", "git"].contains
      conn.connectionType) then
    let message := "connectionType " ++ conn.connectionType.quote ++ " not yet supported"
    .error (message, message)
  else match env.parseConfig conn with
    | .error e =>
      let message := conn.connectionType ++ " config parse: " ++ e
      .error (message, message)
    | .ok () =>
      if conn.connectionType = "github" then
        match env.fetchGitHub conn with
        | .error e => .error (e, "compile: " ++ e)
        | .ok (repos, input, warnings) =>
          .ok (compileGitHubConfig env.canonicalURL repos input connectionId, warnings)
      else match env.compileOther conn connectionId with
        | .error e => .error (e, "compile: " ++ e)
        | .ok compiled => .ok compiled

/-! ## Storing records -/

/-- The labels of the enum `CodeHostType`. -/
def codeHostTypes : List String :=
  ["github", "gitlab", "gitea", "gerrit", "bitbucket-server", "bitbucket-cloud",
    "generic-git-host", "azuredevops"]

/-- The columns of `Repo_external_id_external_codeHostUrl_orgId_key`. -/
def repoKey (r : Repo) : String × String × ℤ := (r.externalId, r.externalCodeHostUrl, r.orgId)

/-- The key a record is stored under for an organisation. -/
def recordKey (orgId : ℤ) (rec : RepoData) : String × String × ℤ :=
  (rec.externalId, rec.externalCodeHostUrl, orgId)

/-- The policy columns of a record. -/
def recordInput (rec : RepoData) : RepoInput := ⟨some rec.metadata, rec.defaultBranch⟩

def newRepo (now : Time) (id orgId : ℤ) (rec : RepoData) : Repo where
  id := id
  orgId := orgId
  name := rec.name
  displayName := some rec.displayName
  isFork := rec.isFork
  isArchived := rec.isArchived
  isPublic := rec.isPublic
  isAutoCleanupDisabled := rec.isAutoCleanupDisabled.getD false
  metadata := some rec.metadata
  cloneUrl := rec.cloneUrl
  webUrl := some rec.webUrl
  imageUrl := some rec.imageUrl
  defaultBranch := rec.defaultBranch
  externalId := rec.externalId
  externalCodeHostType := rec.externalCodeHostType
  externalCodeHostUrl := rec.externalCodeHostUrl
  createdAt := now
  updatedAt := now

/-- The `DO UPDATE SET` clause. -/
def refreshRepo (now : Time) (rec : RepoData) (r : Repo) : Repo :=
  { r with
    name := rec.name
    displayName := some rec.displayName
    isFork := rec.isFork
    isArchived := rec.isArchived
    isPublic := rec.isPublic
    metadata := some rec.metadata
    cloneUrl := rec.cloneUrl
    webUrl := some rec.webUrl
    imageUrl := some rec.imageUrl
    defaultBranch := rec.defaultBranch
    externalCodeHostType := rec.externalCodeHostType
    updatedAt := now }

/-- The `RepoToConnection` inserts of a record. -/
def attachConnections (now : Time) (repoId : ℤ) : List ℤ → Database → Reply Unit
  | [], db => (.ok (), db)
  | cid :: cids, db =>
    if db.connections.any fun c => c.id = cid then
      attachConnections now repoId cids
        { db with
          repoConnections := insertMissing
            (fun new r => r.connectionId = new.connectionId && r.repoId = new.repoId)
            db.repoConnections ⟨cid, repoId, now⟩ }
    else
      (.error ("RepoToConnection insert: violates foreign key constraint " ++
        "RepoToConnection_connectionId_fkey"), db)

/-- The row of the record, then its connections. A name taken by another repository of the
organisation is refused. -/
def upsertRepo (now : Time) (newId orgId : ℤ) (rec : RepoData) (db : Database) : Reply Unit :=
  if !codeHostTypes.contains rec.externalCodeHostType then
    (.error ("upsert: invalid input value for enum CodeHostType: " ++
      rec.externalCodeHostType.quote), db)
  else if
    db.repos.any fun r => repoKey r ≠ recordKey orgId rec && r.name = rec.name && r.orgId = orgId
  then
    (.error "upsert: duplicate key value violates unique constraint Repo_name_orgId_key", db)
  else if (lookup repoKey (recordKey orgId rec) db.repos).isNone &&
      db.repos.any fun r => r.id = newId then
    (.error "upsert: duplicate key value violates unique constraint Repo_pkey", db)
  else if (lookup repoKey (recordKey orgId rec) db.repos).isNone &&
      !db.orgs.any fun o => o.id = orgId then
    (.error "upsert: violates foreign key constraint Repo_orgId_fkey", db)
  else
    attachConnections now ((lookup repoKey (recordKey orgId rec) db.repos).elim newId Repo.id)
      rec.connectionIds
      { db with
        repos := upsert (fun r => repoKey r = recordKey orgId rec) (refreshRepo now rec)
          (newRepo now newId orgId rec) db.repos }

/-- The loop over the records; an error carries the external id of its record. -/
def upsertRepos (env : SyncEnv) (orgId : ℤ) :
    ℕ → List RepoData → Database → Except (String × String) Unit × Database
  | _, [], db => (.ok (), db)
  | i, rec :: records, db =>
    match upsertRepo env.now (env.newRepoId i) orgId rec db with
    | (.error e, db') => (.error (rec.externalId, e), db')
    | (.ok (), db') => upsertRepos env orgId (i + 1) records db'

/-! ## The handler -/

/-- `TaskPayload`. -/
structure SyncPayload where
  jobId : String
  (connectionId orgId : ℤ)
  deriving DecidableEq, Repr

/-- The job of the payload, on a connection of its organisation. -/
def isSyncJob (p : SyncPayload) (db : Database) (j : ConnectionSyncJob) : Bool :=
  j.id = p.jobId && j.connectionId = p.connectionId &&
    db.connections.any fun c => c.id = j.connectionId && c.orgId = p.orgId

def markInProgress (now : Time) (p : SyncPayload) (db : Database) : Reply Unit :=
  let cond (j : ConnectionSyncJob) : Bool :=
    isSyncJob p db j && (j.status = .pending || j.status = .inProgress)
  if affected cond db.syncJobs = 0 then
    (.error ("job " ++ p.jobId.quote ++ " already in terminal state or missing"), db)
  else
    (.ok (), { db with
      syncJobs := updateWhere cond (fun j => { j with status := .inProgress, updatedAt := now })
        db.syncJobs })

/-- `markFailed`. -/
def markSyncFailed (now : Time) (p : SyncPayload) (message : String) (db : Database) : Database :=
  { db with
    syncJobs := updateWhere (isSyncJob p db)
      (fun j =>
        { j with
          status := .failed
          errorMessage := some message
          completedAt := some now
          updatedAt := now })
      db.syncJobs }

def loadConnection (p : SyncPayload) (db : Database) : Except String Connection :=
  match db.connections.find? fun c => c.id = p.connectionId && c.orgId = p.orgId with
  | none => .error "scan: no rows in result set"
  | some c => .ok c

/-- The job, then the connection. -/
def markCompleted (now : Time) (p : SyncPayload) (warnings : List String) (db : Database) :
    Reply Unit :=
  if affected (isSyncJob p db) db.syncJobs = 0 then
    (.error ("job " ++ p.jobId.quote ++ " missing or mismatched connection"), db)
  else
    let completed :=
      { db with
        syncJobs := updateWhere (isSyncJob p db)
          (fun j =>
            { j with
              status := .completed
              warningMessages := warnings
              completedAt := some now
              updatedAt := now })
          db.syncJobs }
    let cond (c : Connection) : Bool := c.id = p.connectionId && c.orgId = p.orgId
    if affected cond db.connections = 0 then
      (.error ("connection " ++ toString p.connectionId ++ " missing in org " ++
        toString p.orgId), completed)
    else
      (.ok (),
        { completed with
          connections := updateWhere cond
            (fun c => { c with syncedAt := some now, updatedAt := now }) db.connections })

/-- `Handle` for a decoded payload. -/
def handle (env : SyncEnv) (p : SyncPayload) (db : Database) : Reply Unit :=
  match markInProgress env.now p db with
  | (.error e, db') => (.error ("markInProgress: " ++ e), db')
  | (.ok (), db₁) => match loadConnection p db₁ with
    | .error e => (.error ("loadConnection: " ++ e), markSyncFailed env.now p e db₁)
    | .ok conn => match compileConnection env conn p.connectionId with
      | .error (recorded, returned) => (.error returned, markSyncFailed env.now p recorded db₁)
      | .ok (records, warnings) => match upsertRepos env p.orgId 0 records db₁ with
        | (.error (externalId, e), db₂) =>
          (.error ("upsertRepo: " ++ e),
            markSyncFailed env.now p ("upsertRepo " ++ externalId ++ ": " ++ e) db₂)
        | (.ok (), db₂) => match markCompleted env.now p warnings db₂ with
          | (.error e, db₃) => (.error ("markCompleted: " ++ e), db₃)
          | (.ok (), db₃) => (.ok (), db₃)

end CodeIntel.Repos
