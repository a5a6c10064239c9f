import CodeIntel.Repos.ConnectionSync

/-!
# Visibility of the indexed revisions across a synchronisation

The indexing pipeline lists the revisions it has indexed in the metadata of the
repository, and the next synchronisation of a connection writes the compiled
metadata over it. A listed revision stays visible exactly when the compiled
record lists it too.
-/

namespace CodeIntel.Repos

open Relational Schema Subjobs Text

/-! ## One record -/

theorem attachConnections_repos (now : Time) (repoId : ℤ) (cids : List ℤ) (db : Database) :
    (attachConnections now repoId cids db).2.repos = db.repos := by
  induction cids generalizing db with
  | nil => rfl
  | cons cid cids ih =>
    unfold attachConnections
    split
    · rw [ih]
    · rfl

theorem upsertRepo_ok {now : Time} {newId orgId : ℤ} {rec : RepoData} {db db' : Database}
    (h : upsertRepo now newId orgId rec db = (.ok (), db')) :
    db'.repos = upsert (fun r => repoKey r = recordKey orgId rec) (refreshRepo now rec)
      (newRepo now newId orgId rec) db.repos := by
  unfold upsertRepo at h
  split_ifs at h
  -- the four refused inserts
  · cases congrArg Prod.fst h
  · cases congrArg Prod.fst h
  · cases congrArg Prod.fst h
  · cases congrArg Prod.fst h
  · have hrepos := congrArg (fun reply => reply.2.repos) h
    rw [attachConnections_repos] at hrepos
    exact hrepos.symm

section Records

variable {orgId : ℤ} {k : String × String × ℤ} {db db' : Database} {r : Repo}

theorem lookup_upsertRepo {now : Time} {newId : ℤ} {rec : RepoData}
    (h : upsertRepo now newId orgId rec db = (.ok (), db'))
    (hr : lookup repoKey k db.repos = some r) :
    ∃ r', lookup repoKey k db'.repos = some r' ∧ r'.id = r.id ∧
      repoInput r' = if recordKey orgId rec = k then recordInput rec else repoInput r := by
  have hmerge : ∀ r, repoKey (refreshRepo now rec r) = repoKey r := fun _ => rfl
  have hfresh : repoKey (newRepo now newId orgId rec) = recordKey orgId rec := rfl
  rw [upsertRepo_ok h]
  by_cases hk : recordKey orgId rec = k
  · subst hk
    refine ⟨refreshRepo now rec r, ?_, rfl, ?_⟩
    · rw [lookup_upsert hmerge hfresh, hr]
      rfl
    · rw [if_pos rfl]
      rfl
  · refine ⟨r, ?_, rfl, ?_⟩
    · rw [lookup_upsert_of_ne hmerge hfresh (Ne.symm hk), hr]
    · rw [if_neg hk]

/-! ## The loop -/

/-- The last record of a key, the one whose values the row ends with. -/
def lastRecord (orgId : ℤ) (k : String × String × ℤ) (records : List RepoData) :
    Option RepoData :=
  records.reverse.find? fun rec => recordKey orgId rec = k

theorem lastRecord_cons (rec : RepoData) (records : List RepoData) :
    lastRecord orgId k (rec :: records) =
      (lastRecord orgId k records).or (if recordKey orgId rec = k then some rec else none) := by
  unfold lastRecord
  by_cases hk : recordKey orgId rec = k
  · simp [hk]
  · simp [hk]

theorem exists_lastRecord {rec : RepoData} {records : List RepoData} (hrec : rec ∈ records)
    (hk : recordKey orgId rec = k) : ∃ last, lastRecord orgId k records = some last := by
  refine Option.isSome_iff_exists.1 (List.find?_isSome.2 ⟨rec, ?_, ?_⟩)
  · exact List.mem_reverse.2 hrec
  · exact decide_eq_true hk

theorem lookup_upsertRepos {env : SyncEnv} {records : List RepoData} {i : ℕ}
    (h : upsertRepos env orgId i records db = (.ok (), db'))
    (hr : lookup repoKey k db.repos = some r) :
    ∃ r', lookup repoKey k db'.repos = some r' ∧ r'.id = r.id ∧
      repoInput r' = (lastRecord orgId k records).elim (repoInput r) recordInput := by
  induction records generalizing i db r with
  | nil =>
    obtain rfl : db = db' := congrArg Prod.snd h
    exact ⟨r, hr, rfl, rfl⟩
  | cons rec records ih =>
    unfold upsertRepos at h
    split at h
    · cases congrArg Prod.fst h
    · rename_i db₁ hstep
      obtain ⟨r₁, hr₁, hid₁, hinput₁⟩ := lookup_upsertRepo hstep hr
      obtain ⟨r', hr', hid', hinput'⟩ := ih h hr₁
      refine ⟨r', hr', hid'.trans hid₁, ?_⟩
      -- a later record of the key wins; without one this record decides
      rw [hinput', hinput₁, lastRecord_cons]
      cases lastRecord orgId k records with
      | some last => rfl
      | none => by_cases hk : recordKey orgId rec = k <;> simp [hk]

end Records

/-! ## The handler -/

section Handle

variable {env : SyncEnv} {p : SyncPayload} {db db' : Database}

theorem markInProgress_frame {now : Time} (h : markInProgress now p db = (.ok (), db')) :
    db'.repos = db.repos ∧ db'.connections = db.connections := by
  unfold markInProgress at h
  dsimp only at h
  split at h
  · cases congrArg Prod.fst h
  · obtain rfl := congrArg Prod.snd h
    exact ⟨rfl, rfl⟩

variable {warnings : List String} {conn : Connection} {records : List RepoData}

theorem markCompleted_repos {now : Time} (h : markCompleted now p warnings db = (.ok (), db')) :
    db'.repos = db.repos := by
  unfold markCompleted at h
  dsimp only at h
  split_ifs at h
  · cases congrArg Prod.fst h
  · cases congrArg Prod.fst h
  · obtain rfl := congrArg Prod.snd h
    rfl

theorem handle_ok (hconn : loadConnection p db = .ok conn)
    (hcompile : compileConnection env conn p.connectionId = .ok (records, warnings))
    (h : handle env p db = (.ok (), db')) :
    ∃ db₁ db₂, db₁.repos = db.repos ∧
      upsertRepos env p.orgId 0 records db₁ = (.ok (), db₂) ∧ db'.repos = db₂.repos := by
  unfold handle at h
  split at h
  · cases congrArg Prod.fst h
  · rename_i db₁ hmark
    obtain ⟨hrepos, hconns⟩ := markInProgress_frame hmark
    have hconn₁ : loadConnection p db₁ = .ok conn := by
      unfold loadConnection at hconn ⊢
      rw [hconns, hconn]
    simp only [hconn₁, hcompile] at h
    split at h
    · cases congrArg Prod.fst h
    · rename_i db₂ hloop
      split at h
      · cases congrArg Prod.fst h
      · rename_i db₃ hdone
        obtain rfl : db₃ = db' := congrArg Prod.snd h
        exact ⟨db₁, db₂, hrepos, hloop, markCompleted_repos hdone⟩

end Handle

/-! ## Listed and visible revisions -/

/-- Every revision of a list that the policy of a repository allows is among its
visible indexed revisions. -/
def KeepsVisible (glob : String → Option (String → Bool)) (listed : List String)
    (repo : RepoInput) : Prop :=
  ∀ rev ∈ listed, isRevisionAllowedByIndexPolicy glob repo rev = true →
    rev ∈ getPolicyVisibleIndexedRevisions glob repo

theorem keepsVisible_iff {glob : String → Option (String → Bool)} {listed : List String}
    {repo : RepoInput} :
    KeepsVisible glob listed repo ↔
      ∀ rev ∈ listed, isRevisionAllowedByIndexPolicy glob repo rev = true →
        rev ≠ "" ∧ rev ∈ (parseMetadata repo).indexedRevisions := by
  constructor
  · intro h rev hrev hallowed
    obtain ⟨hlisted, hne, -⟩ := (mem_getPolicyVisibleIndexedRevisions glob).1 (h rev hrev hallowed)
    exact ⟨hne, hlisted⟩
  · intro h rev hrev hallowed
    obtain ⟨hne, hlisted⟩ := h rev hrev hallowed
    exact (mem_getPolicyVisibleIndexedRevisions glob).2 ⟨hlisted, hne, hallowed⟩

/-! A GitHub connection whose only repository was indexed before. -/

def resyncEnv : SyncEnv where
  now := 5
  newRepoId i := 100 + i
  canonicalURL url := url
  parseConfig _ := .ok ()
  fetchGitHub _ :=
    .ok ([{ id := 42, fullName := "acme/app", htmlUrl := "https://github.com/acme/app"
            defaultBranch := some "main" }],
      { hostUrl := "https://github.com" }, [])
  compileOther _ _ := .error "not a GitHub connection"

def resyncPayload : SyncPayload := ⟨"sync", 3, 1⟩

def resyncConnection : Connection where
  id := 3
  orgId := 1
  name := "github"
  connectionType := "github"
  config := "null"
  updatedAt := 0

def indexedRepo (listed : List String) : Repo where
  id := 7
  orgId := 1
  name := "github.com/acme/app"
  metadata := some { indexedRevisions := listed }
  cloneUrl := ""
  defaultBranch := some "main"
  externalId := "42"
  externalCodeHostType := "github"
  externalCodeHostUrl := "https://github.com"
  indexedAt := some 1
  createdAt := 0
  updatedAt := 0

def indexedDatabase (listed : List String) : Database where
  orgs := [sampleOrg]
  repos := [indexedRepo listed]
  connections := [resyncConnection]
  syncJobs := [⟨"sync", 3, .pending, [], none, none, 0⟩]

def resyncRecords : List RepoData :=
  compileGitHubConfig id [{ id := 42, fullName := "acme/app"
                            htmlUrl := "https://github.com/acme/app"
                            defaultBranch := some "main" }]
    { hostUrl := "https://github.com" } 3

section Resync

variable (glob : String → Option (String → Bool)) {env : SyncEnv} {p : SyncPayload}
  {db db' : Database} {conn : Connection} {records : List RepoData} {warnings : List String}
  {rec : RepoData} {r : Repo}

/-- After a successful synchronisation the listed revisions of a repository are still
visible exactly when the last record of its key lists those that its policy allows. -/
theorem resync_keeps_visible_iff (hunique : UniqueKey repoKey db.repos)
    (hconn : loadConnection p db = .ok conn)
    (hcompile : compileConnection env conn p.connectionId = .ok (records, warnings))
    (hrec : rec ∈ records) (hr : r ∈ db.repos) (hkey : recordKey p.orgId rec = repoKey r)
    (h : handle env p db = (.ok (), db')) :
    ∃ last r', lastRecord p.orgId (repoKey r) records = some last ∧
      lookup repoKey (repoKey r) db'.repos = some r' ∧ r'.id = r.id ∧
      (KeepsVisible glob (parseMetadata (repoInput r)).indexedRevisions (repoInput r') ↔
        ∀ rev ∈ (parseMetadata (repoInput r)).indexedRevisions,
          isRevisionAllowedByIndexPolicy glob (recordInput last) rev = true →
            rev ≠ "" ∧ rev ∈ last.metadata.indexedRevisions) := by
  obtain ⟨db₁, db₂, hbefore, hloop, hafter⟩ := handle_ok hconn hcompile h
  obtain ⟨last, hlast⟩ := exists_lastRecord hrec hkey
  have hlookup : lookup repoKey (repoKey r) db₁.repos = some r := by
    rw [hbefore]
    exact lookup_eq_some_of_mem hunique hr rfl
  -- the row has the policy columns of the last record of its key
  obtain ⟨r', hr', hid, hinput⟩ := lookup_upsertRepos hloop hlookup
  rw [hlast] at hinput
  refine ⟨last, r', hlast, by rw [hafter, hr'], hid, ?_⟩
  rw [hinput, Option.elim_some, keepsVisible_iff]
  rfl

/-- A listed branch that the policy of the record does not allow needs no keeping. -/
theorem resync_keeps_dropped_branch :
    ∃ r', lookup repoKey ("42", "https://github.com", 1)
        (handle resyncEnv resyncPayload (indexedDatabase ["refs/heads/old"])).2.repos = some r' ∧
      KeepsVisible (fun _ => none) ["refs/heads/old"] (repoInput r') := by
  have hlast : ∀ last, lastRecord 1 ("42", "https://github.com", 1) resyncRecords = some last →
      isRevisionAllowedByIndexPolicy (fun _ => none) (recordInput last) "refs/heads/old" =
        false := by
    intro last h
    cases h
    decide +kernel
  have hcompile : compileConnection resyncEnv resyncConnection resyncPayload.connectionId =
      .ok (resyncRecords, []) := rfl
  have hconn : loadConnection resyncPayload (indexedDatabase ["refs/heads/old"]) =
      .ok resyncConnection := rfl
  have hhandle : handle resyncEnv resyncPayload (indexedDatabase ["refs/heads/old"]) =
      (.ok (), (handle resyncEnv resyncPayload (indexedDatabase ["refs/heads/old"])).2) :=
    Prod.ext (by decide +kernel) rfl
  have hmem : indexedRepo ["refs/heads/old"] ∈ (indexedDatabase ["refs/heads/old"]).repos :=
    List.mem_singleton.2 rfl
  obtain ⟨last, r', hl, hr', -, hiff⟩ :=
    resync_keeps_visible_iff (fun _ => none) (by decide +kernel) hconn hcompile
      (List.mem_singleton.2 rfl) hmem (by decide +kernel) hhandle
  refine ⟨r', hr', hiff.2 ?_⟩
  intro rev hrev hallowed
  obtain rfl := List.mem_singleton.1 hrev
  rw [hlast last hl] at hallowed
  cases hallowed

/-- The indexed default branch of a repository is allowed by the compiled policy, and no
longer visible after the synchronisation. -/
theorem resync_hides_default_branch :
    (handle resyncEnv resyncPayload (indexedDatabase ["refs/heads/main"])).1 = .ok () ∧
      ¬∃ glob, ∀ r', lookup repoKey ("42", "https://github.com", 1)
          (handle resyncEnv resyncPayload (indexedDatabase ["refs/heads/main"])).2.repos =
            some r' →
        KeepsVisible glob ["refs/heads/main"] (repoInput r') := by
  refine ⟨by decide +kernel, ?_⟩
  rintro ⟨glob, h⟩
  have hrow : lookup repoKey ("42", "https://github.com", 1)
      (handle resyncEnv resyncPayload (indexedDatabase ["refs/heads/main"])).2.repos =
        resyncRecords.head?.map fun rec => refreshRepo 5 rec (indexedRepo ["refs/heads/main"]) := by
    decide +kernel
  have hvisible := keepsVisible_iff.1 (h _ hrow) "refs/heads/main" (List.mem_singleton.2 rfl) rfl
  cases hvisible.2

end Resync

end CodeIntel.Repos
