import CodeIntel.Relational.Run
import CodeIntel.Subjobs.LeaseHolder
import Mathlib.Logic.Relation

/-!
# What a store call does to the rows

Every store call is a short sequence of table moves: a row is claimed, held,
finished or released, a job is failed because of a failed subjob, or one row is
inserted. The guards of each move are those of the statement it stands for, so
the lifecycle of a row can be read off the moves.
-/

namespace CodeIntel.Subjobs

open Relational Schema

/-- One atomic step on the subjob table. `otherTables` stands for the rest of the
system: it may replace every other table. -/
inductive StoreCall where
  | upsertQueued (now : Time) (inp : CreateInput)
  | upsertSkipped (now completedAt : Time) (inp : CreateInput) (errorCode errorMessage : String)
  | claimScoped (now : Time) (scope : ClaimScope) (leaseOwner attemptId : String)
      (leaseUntil : Time)
  | heartbeat (now : Time) (lease : Lease) (leaseUntil : Time)
  | markArtifactWritten (now : Time) (lease : Lease) (tempPath artifactPath sha256 : String)
  | markSucceeded (now : Time) (lease : Lease)
  | markFailed (now : Time) (lease : Lease) (errorCode errorMessage : String)
  | markRetryableInfrastructureFailure (now : Time) (lease : Lease)
      (errorCode errorMessage : String)
  | validateLiveSubjobLease (now : Time) (scope : ClaimScope)
      (leaseOwner attemptId artifactPath sha256 : String)
  | requeueExpiredLeases (now asOf : Time) (limit : ℤ) (locked : List String)
  | requeueLeasesForOwnerPrefixes (ownerPrefixes : List String) (stamp : Time) (limit : ℤ)
      (locked : List String)
  | reconcileTerminalFailures (now : Time) (limit : ℤ) (locked : List String)
      (skipWins : String → Bool)
  | otherTables (other : Database)

def StoreCall.apply (db : Database) : StoreCall → Database
  | .upsertQueued now inp => (Subjobs.upsertQueued now inp db).2
  | .upsertSkipped now completedAt inp code msg =>
    (Subjobs.upsertSkipped now completedAt inp code msg db).2
  | .claimScoped now scope owner attemptId leaseUntil =>
    (Subjobs.claimScoped now scope owner attemptId leaseUntil db).2
  | .heartbeat now lease leaseUntil => (Subjobs.heartbeat now lease leaseUntil db).2
  | .markArtifactWritten now lease tempPath artifactPath sha256 =>
    (Subjobs.markArtifactWritten now lease tempPath artifactPath sha256 db).2
  | .markSucceeded now lease => (Subjobs.markSucceeded now lease db).2
  | .markFailed now lease code msg => (Subjobs.markFailed now lease code msg db).2
  | .markRetryableInfrastructureFailure now lease code msg =>
    (Subjobs.markRetryableInfrastructureFailure now lease code msg db).2
  | .validateLiveSubjobLease now scope owner attemptId artifactPath sha256 =>
    (Subjobs.validateLiveSubjobLease now scope owner attemptId artifactPath sha256 db).2
  | .requeueExpiredLeases now asOf limit locked =>
    (Subjobs.requeueExpiredLeases now asOf limit locked db).2
  | .requeueLeasesForOwnerPrefixes ownerPrefixes stamp limit locked =>
    (Subjobs.requeueLeasesForOwnerPrefixes ownerPrefixes stamp limit locked db).2
  | .reconcileTerminalFailures now limit locked skipWins =>
    (Subjobs.reconcileTerminalFailures now limit locked skipWins db).2
  | .otherTables other => { other with subjobs := db.subjobs }

/-- Every call is enabled in every state. -/
def storeMachine : Machine Database StoreCall where
  step db call := some (call.apply db)

/-- The row without the columns that statements change after the insert. -/
def identity (r : Subjob) : Subjob :=
  { r with
    status := .queued
    attempt := 0
    attemptId := none
    leaseOwner := none
    leaseExpiresAt := none
    heartbeatAt := none
    startedAt := none
    completedAt := none
    artifactTempPath := none
    artifactPath := none
    artifactSha256 := none
    errorCode := none
    errorMessage := none
    updatedAt := 0 }

/-- What a call is entitled to: the layers whose exhausted rows it skips instead of failing,
the subjobs it may claim, publish an artifact for and finish, and the rows it may insert. -/
structure CallRules where
  skippable : Layer → Bool
  claims : Option String := none
  writes : Option String := none
  succeeds : Option String := none
  inserts : Time → CreateInput → Prop := fun _ _ => False

/-- Why an attempt, or the wait for one, ends without success, and in which status. -/
inductive Ended (rules : CallRules) (db : Database) (r : Subjob) : SubjobStatus → Prop
  | retry (hflight : r.status ∈ inFlight) (hattempt : r.attempt < r.maxAttempts) :
      Ended rules db r .retrying
  | skip (hflight : r.status ∈ inFlight) (hlayer : isScipOrAst r.layer = true) :
      Ended rules db r .skipped
  | fail (hflight : r.status ∈ inFlight) (hexhausted : r.maxAttempts ≤ r.attempt)
      (hlayer : rules.skippable r.layer = false) : Ended rules db r .failed
  | orphan (hflight : r.status ∈ inFlight) (hparent : parentRunning db r = false) :
      Ended rules db r .canceled
  | empty (hstatus : r.status = .retrying) (hlayer : r.layer = .scip) :
      Ended rules db r .skipped
  | dependent (hwaiting : waiting r = true) (f : Subjob) (hf : f ∈ db.subjobs)
      (hfailed : f.status = .failed) (hjob : f.repoIndexingJobId = r.repoIndexingJobId) :
      Ended rules db r .canceled

/-- What can happen to one row. -/
inductive Move (rules : CallRules) (db : Database) (r : Subjob) : Subjob → Prop
  | keep : Move rules db r r
  | claim (now : Time) (owner attemptId : String) (leaseUntil : Time)
      (hclaims : rules.claims = some r.id) (hstatus : waiting r = true ∨ r.status = .claimed)
      (hattempt : r.attempt < r.maxAttempts) :
      Move rules db r (claimRow now owner attemptId leaseUntil r)
  | hold {r' : Subjob} (hid : identity r' = identity r) (hattempt : r'.attempt = r.attempt)
      (hflight : r.status ∈ inFlight) (hflight' : r'.status ∈ inFlight)
      (hwrites : r'.status = .artifactWritten → r.status = .artifactWritten ∨
        rules.writes = some r.id)
      (howner : r'.leaseOwner.isSome) (hexpires : r'.leaseExpiresAt.isSome)
      (hcompleted : r'.completedAt = r.completedAt) : Move rules db r r'
  | succeed (now : Time) (hsucceeds : rules.succeeds = some r.id) (hflight : r.status ∈ inFlight) :
      Move rules db r (succeedRow now r)
  | ended (now : Time) (st : SubjobStatus) (code message : Option String)
      (h : Ended rules db r st) :
      Move rules db r
        { releaseRow now st r with
          errorCode := code
          errorMessage := message }

/-- A store call fails a job only because of one of its FAILED subjobs. -/
inductive JobMove (db : Database) (j : RepoIndexingJob) : RepoIndexingJob → Prop
  | keep : JobMove db j j
  | fail (now : Time) (message : String) (hstatus : j.status = .inProgress) (f : Subjob)
      (hf : f ∈ db.subjobs) (hfailed : f.status = .failed) (hjob : f.repoIndexingJobId = j.id)
      (hrepo : f.repoId = j.repoId) : JobMove db j (failJob now message j)

/-- One statement of the store. -/
inductive TableMove (rules : CallRules) (db : Database) : Database → Prop
  | update {db' : Database} (f : Subjob → Subjob) (g : RepoIndexingJob → RepoIndexingJob)
      (h : Repo → Repo) (hrows : db'.subjobs = db.subjobs.map f)
      (hmoves : ∀ r ∈ db.subjobs, Move rules db r (f r))
      (hjobs : db'.jobs = db.jobs.map g) (hjobMoves : ∀ j ∈ db.jobs, JobMove db j (g j))
      (hrepos : db'.repos = db.repos.map h)
      (hrepoIds : ∀ r, (h r).id = r.id ∧ (h r).orgId = r.orgId)
      (hmanifests : db'.manifests = db.manifests) : TableMove rules db db'
  | insert (now : Time) (inp : CreateInput) (status : SubjobStatus) (code message : String)
      (completed : Option Time) (hstatus : status = .queued ∨ status = .skipped)
      (hcompleted : completed.isSome = true ↔ status = .skipped) (hinserts : rules.inserts now inp)
      (hvalid : validCreateInput inp = true)
      (hlive : liveJob db inp.repoIndexingJobId inp.repoId inp.orgId = true)
      (hmanifest : hasPendingManifest db inp.repoIndexingJobId inp.orgId inp.repoId
        (coalesce inp.workspaceId) inp.branch inp.commitHash = true)
      (hfresh : ∀ r ∈ db.subjobs, r.id ≠ inp.id) :
      TableMove rules db
        { db with
          subjobs := db.subjobs ++ [newSubjob now inp status code message completed] }

/-! ## Moves of single statements -/

section Statements

variable {rules : CallRules} {db : Database}

variable {r : Subjob} {cond candidate : Subjob → Bool} {lease : Lease} {now : Time}
  {used : Layer → Bool} {limit : ℤ} {locked : List String} {rows : List Subjob} {inp : CreateInput}

theorem Move.identity_eq {r' : Subjob} (h : Move rules db r r') : identity r' = identity r := by
  cases h with
  | hold hid => exact hid
  | _ => rfl

theorem Move.id_eq {r' : Subjob} (h : Move rules db r r') : r'.id = r.id :=
  (congrArg Subjob.id h.identity_eq :)

theorem TableMove.ofRows {f : Subjob → Subjob}
    (h : ∀ r ∈ db.subjobs, Move rules db r (f r)) :
    TableMove rules db { db with subjobs := db.subjobs.map f } :=
  .update f (fun j => j) (fun r => r) rfl h (List.map_id' _).symm (fun _ _ => .keep)
    (List.map_id' _).symm (fun _ => ⟨rfl, rfl⟩) rfl

theorem TableMove.ofUpdate {set : Subjob → Subjob}
    (h : ∀ r ∈ db.subjobs, cond r = true → Move rules db r (set r)) :
    TableMove rules db { db with subjobs := updateWhere cond set db.subjobs } := by
  apply TableMove.ofRows
  intro r hr
  by_cases hc : cond r = true
  · rw [if_pos hc]
    exact h r hr hc
  · rw [if_neg hc]
    exact .keep

theorem holdsLease_parts {states : List SubjobStatus} (h : holdsLease db lease states r = true) :
    r.id = lease.subjobId ∧ r.leaseOwner.isSome ∧ r.status ∈ states := by
  simp only [holdsLease, Bool.and_eq_true, decide_eq_true_eq, List.contains_iff_mem] at h
  obtain ⟨⟨⟨⟨hid, howner⟩, -⟩, hstate⟩, -⟩ := h
  exact ⟨hid, by rw [howner]; rfl, hstate⟩

theorem leaseAlive_isSome (h : leaseAlive now r = true) : r.leaseExpiresAt.isSome := by
  unfold leaseAlive at h
  cases hexpires : r.leaseExpiresAt with
  | none => simp [hexpires] at h
  | some t => rfl

theorem heartbeat_move (now : Time) (lease : Lease) (leaseUntil : Time) :
    TableMove rules db (heartbeat now lease leaseUntil db).2 := by
  apply TableMove.ofUpdate
  intro r _ hr
  obtain ⟨-, howner, hflight⟩ := holdsLease_parts hr
  refine .hold rfl rfl hflight ?_ ?_ howner rfl rfl
  · dsimp only [renewRow]
    split
    · decide
    · exact hflight
  · dsimp only [renewRow]
    split
    · intro hwritten
      cases hwritten
    · exact Or.inl

theorem markArtifactWritten_move (hwrites : rules.writes = some lease.subjobId) (now : Time)
    (tempPath path sha256 : String) :
    TableMove rules db (markArtifactWritten now lease tempPath path sha256 db).2 := by
  apply TableMove.ofUpdate
  intro r _ hr
  obtain ⟨hlease, halive⟩ := Bool.and_eq_true_iff.1 hr
  obtain ⟨hid, howner, hstate⟩ := holdsLease_parts hlease
  have hflight : r.status ∈ inFlight := by
    revert hstate
    cases r.status <;> decide
  have hwritten : SubjobStatus.artifactWritten ∈ inFlight := by decide
  exact .hold rfl rfl hflight hwritten (fun _ => .inr (hid ▸ hwrites)) howner
    (leaseAlive_isSome halive) rfl

theorem validateLiveSubjobLease_move (now : Time) (scope : ClaimScope)
    (owner attemptId path sha256 : String) :
    TableMove rules db (validateLiveSubjobLease now scope owner attemptId path sha256 db).2 := by
  apply TableMove.ofUpdate
  intro r _ hr
  simp only [Bool.and_eq_true] at hr
  obtain ⟨⟨⟨⟨⟨-, hlease⟩, -⟩, -⟩, halive⟩, -⟩ := hr
  obtain ⟨-, howner, hstate⟩ := holdsLease_parts hlease
  have hflight : r.status ∈ inFlight := by
    revert hstate
    cases r.status <;> decide
  have hvalidating : SubjobStatus.validating ∈ inFlight := by decide
  refine .hold rfl rfl hflight hvalidating (fun hwritten => nomatch hwritten) howner ?_ rfl
  rw [Option.isSome_map]
  exact leaseAlive_isSome halive

theorem claimScoped_move {scope : ClaimScope} (hclaims : rules.claims = some scope.id)
    (now : Time) (owner attemptId : String) (leaseUntil : Time) :
    Relation.ReflTransGen (TableMove rules) db
      (claimScoped now scope owner attemptId leaseUntil db).2 := by
  unfold claimScoped
  split_ifs
  · exact .refl
  · exact .refl
  · exact .refl
  · refine .single (TableMove.ofUpdate ?_)
    intro r _ hr
    simp only [claimable, Bool.and_eq_true, Bool.or_eq_true, decide_eq_true_eq] at hr
    obtain ⟨⟨⟨⟨⟨hscope, hstatus⟩, -⟩, hattempt⟩, -⟩, -⟩ := hr
    have hid : r.id = scope.id := by
      simp only [ClaimScope.matchesRow, Bool.and_eq_true, decide_eq_true_eq] at hscope
      exact hscope.1.1.1.1.1.1.1.1.1.1.1.1.1
    refine .claim now owner attemptId leaseUntil (hid ▸ hclaims) ?_ hattempt
    obtain (hstatus | hstatus) | hstatus := hstatus
    · exact .inl (by simp [waiting, hstatus])
    · exact .inl (by simp [waiting, hstatus])
    · exact .inr hstatus

theorem markSucceeded_move (hsucceeds : rules.succeeds = some lease.subjobId) (now : Time) :
    Relation.ReflGen (TableMove rules) db (markSucceeded now lease db).2 := by
  unfold markSucceeded
  split_ifs
  · exact .refl
  · refine .single (TableMove.ofUpdate ?_)
    intro r _ hr
    obtain ⟨hid, -, hflight⟩ := holdsLease_parts (Bool.and_eq_true_iff.1 hr).1
    exact .succeed now (hid ▸ hsucceeds) hflight

/-! ## Failures -/

theorem ended_exhausted (hflight : r.status ∈ inFlight)
    (hskip : ∀ layer, used layer = true → isScipOrAst layer = true)
    (hfail : r.maxAttempts ≤ r.attempt → used r.layer = false → rules.skippable r.layer = false) :
    Ended rules db r (exhaustedStatus used r) := by
  unfold exhaustedStatus
  split_ifs with hattempt hlayer
  · exact .retry hflight hattempt
  · exact .skip hflight (hskip _ hlayer)
  · exact .fail hflight (not_lt.1 hattempt)
      (hfail (not_lt.1 hattempt) (Bool.eq_false_iff.2 hlayer))

theorem ended_markFailed (hrules : rules.skippable = isScipOrAst) (hflight : r.status ∈ inFlight)
    (message : String) :
    Ended rules db r (markFailedStatus message r) := by
  unfold markFailedStatus
  split_ifs with hempty htimeout
  · refine .skip hflight ?_
    simp only [Bool.and_eq_true, decide_eq_true_eq] at hempty
    simp [isScipOrAst, hempty.1]
  · refine .skip hflight ?_
    simp only [Bool.and_eq_true, decide_eq_true_eq] at htimeout
    simp [isScipOrAst, htimeout.1]
  · exact ended_exhausted hflight (fun _ h => h) fun _ h => hrules ▸ h

theorem failParent_move (now : Time) (id code message : String) :
    Relation.ReflTransGen (TableMove rules) db
      (failParentIfTerminalFailure now id code message db) := by
  unfold failParentIfTerminalFailure
  split
  · exact .refl
  · rename_i f hfind
    have hf : f ∈ db.subjobs := List.mem_of_find?_eq_some hfind
    have hfailed : f.status = .failed := by
      have := List.find?_some hfind
      simp only [Bool.and_eq_true, decide_eq_true_eq] at this
      exact this.2
    refine .single (.update _ _ _ (updateWhere_eq_map _ _ _) ?_ (updateWhere_eq_map _ _ _) ?_
      (updateWhere_eq_map _ _ _) ?_ rfl)
    · intro r hr
      split_ifs with hc
      · simp only [Bool.and_eq_true, decide_eq_true_eq] at hc
        exact .ended now .canceled _ _ (.dependent hc.2 f hf hfailed hc.1.1.symm)
      · exact .keep
    · intro j hj
      split_ifs with hc
      · simp only [Bool.and_eq_true, decide_eq_true_eq] at hc
        exact .fail now _ hc.2 f hf hfailed hc.1.1.symm hc.1.2.symm
      · exact .keep
    · intro r
      split_ifs <;> exact ⟨rfl, rfl⟩

theorem failSubjob_move {status : Subjob → SubjobStatus} {code message : String}
    (h : ∀ r ∈ db.subjobs, cond r = true → Ended rules db r (status r)) :
    Relation.ReflTransGen (TableMove rules) db
      (failSubjob now lease cond status code message db).2 := by
  have hupdate : TableMove rules db
      { db with subjobs := updateWhere cond (failRow now status code message) db.subjobs } := by
    apply TableMove.ofUpdate
    intro r hr hc
    exact .ended now (status r) (some code) (some message) (h r hr hc)
  unfold failSubjob
  split
  · exact .head hupdate (failParent_move now _ code message)
  · exact .single hupdate

/-! ## Requeue and repair -/

theorem exists_of_mem_pickIds {κ : Type} [LinearOrder κ] {key : Subjob → κ} {id : String}
    (h : id ∈ pickIds key limit locked candidate rows) :
    ∃ r ∈ rows, r.id = id ∧ candidate r = true := by
  obtain ⟨r, hr, rfl⟩ := List.mem_map.1 h
  have hsorted := (List.mem_insertionSort _).1 (List.mem_of_mem_take hr)
  obtain ⟨hmem, hc⟩ := List.mem_filter.1 hsorted
  exact ⟨r, hmem, rfl, (Bool.and_eq_true_iff.1 hc).1⟩

theorem candidate_of_mem_pickIds {κ : Type} [LinearOrder κ] {key : Subjob → κ}
    (hunique : UniqueKey Subjob.id rows) (hr : r ∈ rows)
    (h : r.id ∈ pickIds key limit locked candidate rows) : candidate r = true := by
  obtain ⟨r₀, hr₀, hid, hc⟩ := exists_of_mem_pickIds h
  rw [hunique.eq_of_key_eq hr hr₀ hid.symm]
  exact hc

/-- The requeues pick rows in flight. -/
theorem inFlight_of_mem_pickIds {κ : Type} [LinearOrder κ] {key : Subjob → κ}
    {expired owned : Subjob → Bool} (hunique : UniqueKey Subjob.id rows) (hr : r ∈ rows)
    (h : r.id ∈ pickIds key limit locked
      (fun r => expired r && inFlight.contains r.status && owned r) rows) :
    r.status ∈ inFlight := by
  have hc := candidate_of_mem_pickIds hunique hr h
  simp only [Bool.and_eq_true] at hc
  exact List.contains_iff_mem.1 hc.1.2

theorem requeueRows_move {stamp : Time} {ids : List String}
    (hflight : ∀ r ∈ db.subjobs, r.id ∈ ids → r.status ∈ inFlight)
    (hskip : ∀ layer, used layer = true → isScipOrAst layer = true)
    (hfail : ∀ r ∈ db.subjobs, r.id ∈ ids → parentRunning db r = true →
      r.maxAttempts ≤ r.attempt → used r.layer = false → rules.skippable r.layer = false) :
    TableMove rules db (requeueRows stamp used ids db).2 := by
  apply TableMove.ofUpdate
  intro r hr hc
  have hid : r.id ∈ ids := List.contains_iff_mem.1 hc
  refine .ended stamp (requeueStatus db used r) r.errorCode r.errorMessage ?_
  unfold requeueStatus
  split_ifs with hparent
  · exact ended_exhausted (hflight r hr hid) hskip (hfail r hr hid hparent)
  · exact .orphan (hflight r hr hid) (Bool.eq_false_iff.2 hparent)

theorem failed_of_mem_failedJobs {f : Subjob} (h : f ∈ failedJobs limit db) :
    f ∈ db.subjobs ∧ f.status = .failed := by
  obtain ⟨jobId, -, hmax⟩ := List.mem_filterMap.1 h
  obtain ⟨hmem, -⟩ := List.mem_filter.1 (List.argmax_mem hmax)
  obtain ⟨hf, hc⟩ := List.mem_filter.1 hmem
  simp only [Bool.and_eq_true, decide_eq_true_eq] at hc
  exact ⟨hf, hc.1⟩

theorem reconcileTerminalFailures_move (hunique : UniqueKey Subjob.id db.subjobs) (now : Time)
    (limit : ℤ) (locked : List String) (skipWins : String → Bool) :
    Relation.ReflTransGen (TableMove rules) db
      (reconcileTerminalFailures now limit locked skipWins db).2 := by
  unfold reconcileTerminalFailures
  split_ifs
  · exact .refl
  · refine .single (.update _ _ _ rfl ?_ rfl ?_ (updateWhere_eq_map _ _ _) ?_ rfl)
    · intro r hr
      -- a row picked as semantically empty is a retrying SCIP row
      have hempty : ∀ {ids}, ids = pickIds (fun r => toLex (r.updatedAt, r.id)) limit locked
          (fun r => r.layer = .scip && r.status = .retrying &&
            semanticallyEmpty (coalesce r.errorMessage) &&
            liveJob db r.repoIndexingJobId r.repoId r.orgId) db.subjobs →
          ids.contains r.id = true → Move rules db r (releaseRow now .skipped r) := by
        rintro ids rfl hid
        have hc := candidate_of_mem_pickIds hunique hr (List.contains_iff_mem.1 hid)
        simp only [Bool.and_eq_true, decide_eq_true_eq] at hc
        exact .ended now .skipped r.errorCode r.errorMessage (.empty hc.1.1.2 hc.1.1.1)
      split
      · split_ifs with hid
        · exact hempty rfl hid
        · exact .keep
      · rename_i f hfind
        split_ifs with hid
        · exact hempty rfl (Bool.and_eq_true_iff.1 hid).1
        · obtain ⟨hf, hfailed⟩ := failed_of_mem_failedJobs (List.mem_of_find?_eq_some hfind)
          have hc := List.find?_some hfind
          simp only [Bool.and_eq_true, decide_eq_true_eq] at hc
          exact .ended now .canceled _ _ (.dependent hc.2 f hf hfailed hc.1.symm)
    · intro j hj
      split
      · exact .keep
      · rename_i f hfind
        obtain ⟨hf, hfailed⟩ := failed_of_mem_failedJobs (List.mem_of_find?_eq_some hfind)
        have hc := List.find?_some hfind
        simp only [Bool.and_eq_true, decide_eq_true_eq] at hc
        exact .fail now _ hc.2 f hf hfailed hc.1.1.symm hc.1.2.symm
    · intro r
      split_ifs <;> exact ⟨rfl, rfl⟩

/-! ## Inserts -/

theorem upsertWithStatus_cases (now completedAt : Time) (inp : CreateInput)
    (status : SubjobStatus) (code message : String) (db : Database) :
    (upsertWithStatus now completedAt inp status code message db).2 = db ∨
      (status = .queued ∨ status = .skipped) ∧ validCreateInput inp = true ∧
        liveJob db inp.repoIndexingJobId inp.repoId inp.orgId = true ∧
        hasPendingManifest db inp.repoIndexingJobId inp.orgId inp.repoId
          (coalesce inp.workspaceId) inp.branch inp.commitHash = true ∧
        (∀ r ∈ db.subjobs, r.id ≠ inp.id) ∧
        (upsertWithStatus now completedAt inp status code message db).2 =
          { db with
            subjobs := db.subjobs ++ [newSubjob now inp status code message
              (if status = .skipped then some completedAt else none)] } := by
  unfold upsertWithStatus
  generalize (if status = .skipped then some completedAt else none) = completed
  split
  · exact .inl rfl
  rename_i hinput
  split
  · exact .inl rfl
  rename_i hscope
  cases hrow : lookup Subjob.id inp.id db.subjobs with
  | some r => exact .inl rfl
  | none =>
    dsimp only
    split
    · exact .inl rfl
    split
    · exact .inl rfl
    simp only [Bool.or_eq_true, Bool.and_eq_true, Bool.not_eq_true', decide_eq_true_eq,
      not_or, not_and, Bool.not_eq_false, not_not] at hinput hscope
    refine .inr ⟨?_, hinput.1, hscope.1, hscope.2, ?_, rfl⟩
    · by_cases hqueued : status = .queued
      · exact .inl hqueued
      · exact .inr (hinput.2 hqueued)
    · intro r hr
      simpa using List.find?_eq_none.1 hrow r hr

theorem upsertWithStatus_move (hinserts : rules.inserts now inp) (completedAt : Time)
    (status : SubjobStatus) (code message : String) :
    Relation.ReflGen (TableMove rules) db
      (upsertWithStatus now completedAt inp status code message db).2 := by
  obtain heq | ⟨hstatus, hvalid, hlive, hmanifest, hfresh, heq⟩ :=
    upsertWithStatus_cases now completedAt inp status code message db
  · rw [heq]
  · rw [heq]
    refine .single (.insert now inp status code message _ hstatus ?_ hinserts hvalid hlive
      hmanifest hfresh)
    split_ifs with h <;> simp [h]

theorem upsertWithStatus_ok {completedAt : Time} {status : SubjobStatus} {code message : String}
    (h : (upsertWithStatus now completedAt inp status code message db).1 = .ok ()) :
    ∃ r ∈ (upsertWithStatus now completedAt inp status code message db).2.subjobs,
      r.id = inp.id ∧ sameScope r (newSubjob now inp status code message
        (if status = .skipped then some completedAt else none)) = true := by
  revert h
  unfold upsertWithStatus
  generalize (if status = .skipped then some completedAt else none) = completed
  intro h
  split at h
  · cases h
  rename_i hinput
  split at h
  · cases h
  rename_i hscope
  rw [if_neg hinput, if_neg hscope]
  cases hrow : lookup Subjob.id inp.id db.subjobs with
  | some r =>
    simp only [hrow] at h ⊢
    refine ⟨r, mem_of_lookup hrow, key_of_lookup hrow, ?_⟩
    by_contra hsame
    rw [if_neg hsame] at h
    cases h
  | none =>
    simp only [hrow] at h ⊢
    split at h
    · cases h
    rename_i hdup
    split at h
    · cases h
    rename_i hindex
    rw [if_neg hdup, if_neg hindex]
    exact ⟨_, List.mem_append_right _ (List.mem_singleton.2 rfl), rfl, by simp [sameScope]⟩

end Statements

/-! ## Store calls -/

/-- An upsert inserts its own row at most. -/
def insertRules (now : Time) (inp : CreateInput) : CallRules where
  skippable := isScipOrAst
  inserts now' inp' := now' = now ∧ inp' = inp

/-- What each call is entitled to; only the requeue by owner does not skip AST_TREE_SITTER. -/
def StoreCall.rules : StoreCall → CallRules
  | .upsertQueued now inp => insertRules now inp
  | .upsertSkipped now _ inp _ _ => insertRules now inp
  | .claimScoped _ scope _ _ _ => { skippable := isScipOrAst, claims := some scope.id }
  | .markArtifactWritten _ lease _ _ _ =>
    { skippable := isScipOrAst, writes := some lease.subjobId }
  | .markSucceeded _ lease => { skippable := isScipOrAst, succeeds := some lease.subjobId }
  | .requeueLeasesForOwnerPrefixes .. => { skippable := isScip }
  | _ => { skippable := isScipOrAst }

/-- The call is one of the twelve operations of the store. -/
def StoreCall.ofStore : StoreCall → Bool
  | .otherTables _ => false
  | _ => true

theorem isScipOrAst_of_isScip {layer : Layer} (h : isScip layer = true) :
    isScipOrAst layer = true := by
  rw [isScipOrAst, Bool.or_eq_true]
  exact .inl h

/-- The two databases agree outside the subjobs, the jobs and the repositories. -/
def OnlyControl (db db' : Database) : Prop :=
  { db' with subjobs := db.subjobs, jobs := db.jobs, repos := db.repos } = db

variable {db db' : Database} {call : StoreCall}

theorem OnlyControl.refl : OnlyControl db db := rfl

theorem OnlyControl.trans {db'' : Database} (h : OnlyControl db db') (h' : OnlyControl db' db'') :
    OnlyControl db db'' := by
  unfold OnlyControl at *
  rw [← h, ← h']

theorem OnlyControl.eq_updated (h : OnlyControl db db') :
    db' = { db with subjobs := db'.subjobs, jobs := db'.jobs, repos := db'.repos } := by
  rw [← h]

theorem OnlyControl.manifests_eq (h : OnlyControl db db') : db'.manifests = db.manifests :=
  (congrArg Database.manifests h :)

theorem onlyControl_updated (db : Database) (subjobs : List Subjob) (jobs : List RepoIndexingJob)
    (repos : List Repo) :
    OnlyControl db { db with subjobs, jobs, repos } := rfl

theorem onlyControl_upsertWithStatus (now completedAt : Time) (inp : CreateInput)
    (status : SubjobStatus) (code message : String) (db : Database) :
    OnlyControl db (upsertWithStatus now completedAt inp status code message db).2 := by
  obtain heq | ⟨-, -, -, -, -, heq⟩ :=
    upsertWithStatus_cases now completedAt inp status code message db
  · rw [heq]
    exact .refl
  · rw [heq]
    exact onlyControl_updated db _ db.jobs db.repos

theorem onlyControl_failSubjob {now : Time} {lease : Lease} {cond : Subjob → Bool}
    {status : Subjob → SubjobStatus} {code msg : String} :
    OnlyControl db (failSubjob now lease cond status code msg db).2 := by
  unfold failSubjob failParentIfTerminalFailure
  dsimp only
  split_ifs
  · split
    · exact onlyControl_updated db _ db.jobs db.repos
    · exact onlyControl_updated db _ _ _
  · exact onlyControl_updated db _ db.jobs db.repos

theorem apply_onlyControl (hcall : call.ofStore = true) : OnlyControl db (call.apply db) := by
  have hrows : ∀ subjobs, OnlyControl db { db with subjobs } := fun subjobs =>
    onlyControl_updated db subjobs db.jobs db.repos
  cases call with
  | upsertQueued now inp => exact onlyControl_upsertWithStatus _ _ _ _ _ _ db
  | upsertSkipped now completedAt inp code msg =>
    simp only [StoreCall.apply, upsertSkipped]
    split_ifs
    · exact .refl
    · exact onlyControl_upsertWithStatus _ _ _ _ _ _ db
  | claimScoped now scope owner attemptId leaseUntil =>
    simp only [StoreCall.apply, claimScoped]
    split_ifs
    · exact .refl
    · exact .refl
    · exact .refl
    · exact hrows _
  | heartbeat | markArtifactWritten | validateLiveSubjobLease => exact hrows _
  | markSucceeded now lease =>
    simp only [StoreCall.apply, markSucceeded]
    split_ifs
    · exact .refl
    · exact hrows _
  | markFailed now lease code msg =>
    simp only [StoreCall.apply, markFailed]
    split_ifs
    · exact .refl
    · exact onlyControl_failSubjob
  | markRetryableInfrastructureFailure now lease code msg =>
    simp only [StoreCall.apply, markRetryableInfrastructureFailure]
    split_ifs
    · exact .refl
    · exact onlyControl_failSubjob
  | requeueExpiredLeases now asOf limit locked =>
    simp only [StoreCall.apply, requeueExpiredLeases]
    split_ifs
    · exact .refl
    · exact hrows _
  | requeueLeasesForOwnerPrefixes ownerPrefixes stamp limit locked =>
    simp only [StoreCall.apply, requeueLeasesForOwnerPrefixes]
    split_ifs
    · exact .refl
    · exact .refl
    · exact hrows _
  | reconcileTerminalFailures now limit locked skipWins =>
    simp only [StoreCall.apply, reconcileTerminalFailures]
    split_ifs
    · exact .refl
    · exact onlyControl_updated db _ _ _
  | otherTables other => cases hcall

/-- Everything a store call can do. -/
theorem apply_moves (hunique : UniqueKey Subjob.id db.subjobs) (hcall : call.ofStore = true) :
    Relation.ReflTransGen (TableMove call.rules) db (call.apply db) := by
  cases call with
  | upsertQueued now inp =>
    have hinserts : (insertRules now inp).inserts now inp := ⟨rfl, rfl⟩
    exact (upsertWithStatus_move hinserts now .queued "" "").to_reflTransGen
  | upsertSkipped now completedAt inp code msg =>
    simp only [StoreCall.apply, upsertSkipped]
    split_ifs
    · exact .refl
    · have hinserts : (insertRules now inp).inserts now inp := ⟨rfl, rfl⟩
      exact (upsertWithStatus_move hinserts completedAt .skipped code msg).to_reflTransGen
  | claimScoped now scope owner attemptId leaseUntil =>
    exact claimScoped_move rfl now owner attemptId leaseUntil
  | heartbeat now lease leaseUntil => exact .single (heartbeat_move now lease leaseUntil)
  | markArtifactWritten now lease tempPath path sha256 =>
    exact .single (markArtifactWritten_move rfl now tempPath path sha256)
  | markSucceeded now lease => exact (markSucceeded_move rfl now).to_reflTransGen
  | markFailed now lease code msg =>
    simp only [StoreCall.apply, markFailed]
    split_ifs
    · exact .refl
    · apply failSubjob_move
      intro r _ hr
      exact ended_markFailed rfl (holdsLease_parts (Bool.and_eq_true_iff.1 hr).1).2.2 _
  | markRetryableInfrastructureFailure now lease code msg =>
    simp only [StoreCall.apply, markRetryableInfrastructureFailure]
    split_ifs
    · exact .refl
    · apply failSubjob_move
      intro r _ hr
      have hstate := (holdsLease_parts (Bool.and_eq_true_iff.1 hr).1).2.2
      have hflight : r.status ∈ inFlight := by
        revert hstate
        cases r.status <;> decide
      exact ended_exhausted hflight (fun _ h => h) fun _ h => h
  | validateLiveSubjobLease now scope owner attemptId path sha256 =>
    exact .single (validateLiveSubjobLease_move now scope owner attemptId path sha256)
  | requeueExpiredLeases now asOf limit locked =>
    simp only [StoreCall.apply, requeueExpiredLeases]
    split_ifs
    · exact .refl
    · exact .single (requeueRows_move (fun r hr hid => inFlight_of_mem_pickIds hunique hr hid)
        (fun _ h => h) (fun _ _ _ _ _ h => h))
  | requeueLeasesForOwnerPrefixes ownerPrefixes stamp limit locked =>
    simp only [StoreCall.apply, requeueLeasesForOwnerPrefixes]
    split_ifs
    · exact .refl
    · exact .refl
    · exact .single (requeueRows_move (fun r hr hid => inFlight_of_mem_pickIds hunique hr hid)
        (fun _ => isScipOrAst_of_isScip) (fun _ _ _ _ _ h => h))
  | reconcileTerminalFailures now limit locked skipWins =>
    exact reconcileTerminalFailures_move hunique now limit locked skipWins
  | otherTables other => cases hcall

theorem moves_invariant {rules : CallRules} (Inv : Database → Prop)
    (hstep : ∀ {db db'}, TableMove rules db db' → Inv db → Inv db')
    (h : Relation.ReflTransGen (TableMove rules) db db') (hdb : Inv db) : Inv db' := by
  induction h with
  | refl => exact hdb
  | tail _ hmove ih => exact hstep hmove ih

section Table

variable {Inv : List Subjob → Prop} {R : List Subjob → List Subjob → Prop}
  (hunique : ∀ rows, Inv rows → UniqueKey Subjob.id rows) (hrefl : ∀ rows, R rows rows)
  (htrans : ∀ rows₁ rows₂ rows₃, R rows₁ rows₂ → R rows₂ rows₃ → R rows₁ rows₃)
  (hmove : ∀ {rules db db'}, TableMove rules db db' → Inv db.subjobs →
    Inv db'.subjobs ∧ R db.subjobs db'.subjobs)
include hunique hrefl htrans hmove

theorem apply_table (hdb : Inv db.subjobs) (call : StoreCall) :
    Inv (call.apply db).subjobs ∧ R db.subjobs (call.apply db).subjobs := by
  by_cases hcall : call.ofStore = true
  · refine moves_invariant (fun db' => Inv db'.subjobs ∧ R db.subjobs db'.subjobs) ?_
      (apply_moves (hunique _ hdb) hcall) ⟨hdb, hrefl _⟩
    intro db₁ db₂ hstep h₁
    obtain ⟨h₂, hR⟩ := hmove hstep h₁.1
    exact ⟨h₂, htrans _ _ _ h₁.2 hR⟩
  · cases call with
    | otherTables other => exact ⟨hdb, hrefl _⟩
    | _ => exact absurd rfl hcall

/-- What every statement does to the subjob table, every run of store calls does. -/
theorem run_table {calls : List StoreCall} (hdb : Inv db.subjobs)
    (hrun : storeMachine.run db calls = some db') :
    Inv db'.subjobs ∧ R db.subjobs db'.subjobs := by
  refine Machine.run_rel (fun db => Inv db.subjobs) (fun db db' => R db.subjobs db'.subjobs)
    (fun db => hrefl _) (fun _ _ _ => htrans _ _ _) ?_ hdb hrun
  rintro db call _ hdb ⟨⟩
  exact apply_table hunique hrefl htrans hmove hdb call

end Table

end CodeIntel.Subjobs
