import CodeIntel.Subjobs.RowMoves

/-!
# Lease fencing of subjobs

Executors, the dispatcher and the planner issue store calls in any order, with
stale and duplicated arguments. Each statement keeps the attempt counter of a row,
or claims a row that still has attempts left, or inserts one fresh row. The counter
bounds, the uniqueness of claimed attempt numbers and the fencing of stale leases
follow from the moves of the rows.
-/

namespace CodeIntel.Subjobs

open Relational Schema

variable {db db' : Database} {calls : List StoreCall} {cond : Subjob → Bool}
  {set : Subjob → Subjob} {rules : CallRules} {r r' : Subjob}

/-! ## Counters along a run -/

/-- Ids are unique and no attempt counter has passed its limit. -/
structure CountersBounded (rows : List Subjob) : Prop where
  unique : UniqueKey Subjob.id rows
  bounded : ∀ r ∈ rows, r.attempt ≤ r.maxAttempts

/-- No row disappears and no attempt counter decreases. -/
def AttemptsGrow (rows rows' : List Subjob) : Prop :=
  ∀ id r, lookup Subjob.id id rows = some r →
    ∃ r', lookup Subjob.id id rows' = some r' ∧ r.attempt ≤ r'.attempt

theorem claimRow_attempt (now : Time) (owner attemptId : String) (leaseUntil : Time)
    (r : Subjob) : (claimRow now owner attemptId leaseUntil r).attempt = r.attempt + 1 := rfl

theorem Move.attempt_le (h : Move rules db r r') : r.attempt ≤ r'.attempt := by
  cases h with
  | claim => exact Int.le_add_one le_rfl
  | hold _ hattempt => exact hattempt.ge
  | _ => exact le_rfl

theorem Move.attempt_le_maxAttempts (h : Move rules db r r') (hr : r.attempt ≤ r.maxAttempts) :
    r'.attempt ≤ r'.maxAttempts := by
  have hmax := congrArg Subjob.maxAttempts h.identity_eq
  change r'.maxAttempts = r.maxAttempts at hmax
  rw [hmax]
  cases h with
  | claim now owner attemptId leaseUntil hclaims hstatus hattempt => exact hattempt
  | hold _ hattempt => exact hattempt.trans_le hr
  | _ => exact hr

theorem TableMove.counters (h : TableMove rules db db') (hdb : CountersBounded db.subjobs) :
    CountersBounded db'.subjobs ∧ AttemptsGrow db.subjobs db'.subjobs := by
  cases h with
  | update f g h hrows hmoves =>
    rw [hrows]
    have hunique := hdb.unique.map_of_mem fun r hr => (hmoves r hr).id_eq
    refine ⟨⟨hunique, List.forall_mem_map.2 fun r hr =>
      (hmoves r hr).attempt_le_maxAttempts (hdb.bounded r hr)⟩, fun id r hr => ?_⟩
    have hmove := hmoves r (mem_of_lookup hr)
    exact ⟨f r, lookup_eq_some_of_mem hunique (List.mem_map_of_mem (mem_of_lookup hr))
      (hmove.id_eq.trans (key_of_lookup hr)), hmove.attempt_le⟩
  | insert now inp status code message completed hstatus hcompleted hinserts hvalid hlive hmanifest
      hfresh =>
    refine ⟨⟨hdb.unique.append_fresh hfresh, List.forall_mem_append.2 ⟨hdb.bounded, ?_⟩⟩,
      fun id r hr => ⟨r, lookup_append_of_some hr, le_rfl⟩⟩
    refine List.forall_mem_singleton.2 ?_
    dsimp only [newSubjob]
    split_ifs <;> omega

theorem run_counters (hdb : CountersBounded db.subjobs)
    (hrun : storeMachine.run db calls = some db') :
    CountersBounded db'.subjobs ∧ AttemptsGrow db.subjobs db'.subjobs := by
  refine run_table (fun _ h => h.unique) (fun _ id r hr => ⟨r, hr, le_rfl⟩) ?_ TableMove.counters
    hdb hrun
  intro rows₁ rows₂ rows₃ h₁ h₂ id r hr
  obtain ⟨r', hr', hle⟩ := h₁ id r hr
  obtain ⟨r'', hr'', hle'⟩ := h₂ id r' hr'
  exact ⟨r'', hr'', hle.trans hle'⟩

/-! ## Successful claims -/

/-- A claim message: the arguments of one `ClaimScoped` call. -/
structure ClaimCall where
  now : Time
  scope : ClaimScope
  (leaseOwner attemptId : String)
  leaseUntil : Time

def ClaimCall.run (c : ClaimCall) (db : Database) : Reply Bool :=
  claimScoped c.now c.scope c.leaseOwner c.attemptId c.leaseUntil db

def attemptOf (id : String) (db : Database) : Option ℤ :=
  (lookup Subjob.id id db.subjobs).map Subjob.attempt

theorem ClaimCall.run_ok_true {c : ClaimCall} (hdb : CountersBounded db.subjobs)
    (h : (c.run db).1 = .ok true) :
    attemptOf c.scope.id db = some (c.scope.attempt - 1) ∧
      attemptOf c.scope.id (c.run db).2 = some c.scope.attempt := by
  obtain ⟨r, hrow, hclaim, -, -, hafter, -⟩ := claimScoped_granted hdb.unique h
  have hattempt := (claimable_matchesRow hclaim).2.1
  constructor
  · simp [attemptOf, hrow, hattempt]
  · simp [attemptOf, ClaimCall.run, hafter.row, claimRow_attempt, hattempt]

/-! ## Stale leases -/

/-- The lease presented by the five calls that act under one. -/
def StoreCall.lease : StoreCall → Option Lease
  | .heartbeat _ lease _ => some lease
  | .markArtifactWritten _ lease _ _ _ => some lease
  | .markSucceeded _ lease => some lease
  | .markFailed _ lease _ _ => some lease
  | .markRetryableInfrastructureFailure _ lease _ _ => some lease
  | _ => none

/-- The row of the subjob stores another owner or another attempt. -/
def Stale (lease : Lease) (db : Database) : Prop :=
  ∀ r ∈ db.subjobs, r.id = lease.subjobId →
    (r.leaseOwner, r.attemptId) ≠ (some lease.leaseOwner, some lease.attemptId)

variable {lease : Lease}

theorem holdsLease_of_stale (h : Stale lease db) (states : List SubjobStatus) :
    ∀ r ∈ db.subjobs, holdsLease db lease states r = false := by
  intro r hr
  by_contra hholds
  simp only [holdsLease, Bool.not_eq_false, Bool.and_eq_true, decide_eq_true_eq] at hholds
  obtain ⟨⟨⟨⟨hid, howner⟩, hattempt⟩, -⟩, -⟩ := hholds
  exact h r hr hid (by rw [howner, hattempt])

theorem updateSubjobs_eq_self (h : ∀ r ∈ db.subjobs, cond r = false) :
    (updateSubjobs cond set db).2 = db := by
  simp [updateSubjobs, updateWhere_eq_self h]

theorem failSubjob_eq_self {now : Time} {status : Subjob → SubjobStatus} {code msg : String}
    (h : ∀ r ∈ db.subjobs, cond r = false) :
    (failSubjob now lease cond status code msg db).2 = db := by
  have hcount : affected cond db.subjobs = 0 := affected_eq_zero_iff.2 h
  simp [failSubjob, hcount, updateWhere_eq_self h]

/-- A call under a stale lease leaves the whole database as it was. -/
theorem StoreCall.apply_of_stale {call : StoreCall} (hcall : call.lease = some lease)
    (h : Stale lease db) : call.apply db = db := by
  have hlease := holdsLease_of_stale h
  have halive : ∀ now states, ∀ r ∈ db.subjobs,
      (holdsLease db lease states r && leaseAlive now r) = false := fun now states r hr => by
    rw [hlease states r hr, Bool.false_and]
  cases call with
  | heartbeat now _ leaseUntil =>
    cases hcall
    exact updateSubjobs_eq_self (hlease _)
  | markArtifactWritten now _ tempPath artifactPath sha256 =>
    cases hcall
    exact updateSubjobs_eq_self (halive _ _)
  | markSucceeded now _ =>
    cases hcall
    simp only [StoreCall.apply, Subjobs.markSucceeded]
    split_ifs
    · rfl
    · exact updateSubjobs_eq_self (halive _ _)
  | markFailed now _ code msg =>
    cases hcall
    simp only [StoreCall.apply, Subjobs.markFailed]
    split_ifs
    · rfl
    · exact failSubjob_eq_self (halive _ _)
  | markRetryableInfrastructureFailure now _ code msg =>
    cases hcall
    simp only [StoreCall.apply, Subjobs.markRetryableInfrastructureFailure]
    split_ifs
    · rfl
    · exact failSubjob_eq_self (halive _ _)
  | _ => cases hcall

/-- In every interleaving of store calls from the empty table: attempt counters
stay within their limit and never decrease, two successful claims of one subjob
store different attempt numbers, and a call under a lease that is not the stored
one changes nothing. Neither a monotone clock nor fresh attempt ids are needed. -/
theorem subjob_leases_fenced {calls : List StoreCall} {db : Database}
    (hrun : storeMachine.run {} calls = some db) :
    (∀ r ∈ db.subjobs, r.attempt ≤ r.maxAttempts) ∧
    (∀ later db', storeMachine.run db later = some db' → ∀ id r,
      lookup Subjob.id id db.subjobs = some r →
        ∃ r', lookup Subjob.id id db'.subjobs = some r' ∧ r.attempt ≤ r'.attempt) ∧
    (∀ (c₁ c₂ : ClaimCall) between db', c₁.scope.id = c₂.scope.id →
      (c₁.run db).1 = .ok true → storeMachine.run (c₁.run db).2 between = some db' →
      (c₂.run db').1 = .ok true →
        attemptOf c₁.scope.id (c₁.run db).2 ≠ attemptOf c₂.scope.id (c₂.run db').2) ∧
    (∀ call lease, StoreCall.lease call = some lease → Stale lease db →
      call.apply db = db) := by
  have hempty : CountersBounded ({} : Database).subjobs :=
    ⟨List.nodup_nil, fun r hr => nomatch hr⟩
  have hdb := (run_counters hempty hrun).1
  refine ⟨hdb.bounded, fun later db' hlater => (run_counters hdb hlater).2, ?_,
    fun call lease => StoreCall.apply_of_stale⟩
  intro c₁ c₂ between db' hid h₁ hbetween h₂ heq
  have hclaimed : storeMachine.run db
      [.claimScoped c₁.now c₁.scope c₁.leaseOwner c₁.attemptId c₁.leaseUntil] =
        some (c₁.run db).2 := rfl
  obtain ⟨hdb', hgrow⟩ := run_counters (run_counters hdb hclaimed).1 hbetween
  obtain ⟨-, hafter₁⟩ := ClaimCall.run_ok_true hdb h₁
  obtain ⟨hbefore₂, hafter₂⟩ := ClaimCall.run_ok_true hdb' h₂
  -- the counter kept at least the first number until the second claim found one less
  obtain ⟨r₁, hr₁, hr₁a⟩ := Option.map_eq_some_iff.1 hafter₁
  obtain ⟨r₂, hr₂, hle⟩ := hgrow c₁.scope.id r₁ hr₁
  rw [attemptOf, ← hid, hr₂, Option.map_some, Option.some.injEq] at hbefore₂
  rw [hafter₁, hafter₂, Option.some.injEq] at heq
  omega

def sampleInput : CreateInput where
  id := "zoekt"
  repoIndexingJobId := "job"
  codeIntelIndexId := none
  orgId := 1
  workspaceId := some "ws"
  repoId := 7
  branch := "main"
  revision := "main"
  commitHash := sampleCommit
  layer := .zoekt
  language := none
  projectRoot := none
  indexer := none
  workerClass := "core"
  queueName := "codeintel-index-core"
  maxAttempts := 3
  inputDigest := none
  toolchainDigest := none
  imageDigest := none

def sampleClaim (now : Time) (attempt : ℤ) (attemptId : String) : ClaimCall where
  now := now
  scope :=
    { id := "zoekt", repoIndexingJobId := "job", orgId := 1, workspaceId := some "ws"
      repoId := 7, branch := "main", revision := "main", commitHash := sampleCommit
      layer := .zoekt, language := none, projectRoot := none, indexer := none
      workerClass := "core", queueName := "codeintel-index-core", attempt }
  leaseOwner := "executor"
  attemptId := attemptId
  leaseUntil := now + 100

def plannedDatabase : Database :=
  (upsertQueued 1 sampleInput sampleDatabase).2

/-- The first attempt was claimed, its lease ran out and the sweep requeued it. -/
def requeuedDatabase : Database :=
  (requeueExpiredLeases 200 200 10 [] ((sampleClaim 2 1 "first").run plannedDatabase).2).2

/-- The second attempt gets a new number, and the first executor's late success
is ignored. -/
theorem subjob_leases_fenced_second_attempt :
    attemptOf "zoekt" ((sampleClaim 2 1 "first").run plannedDatabase).2 ≠
        attemptOf "zoekt" ((sampleClaim 201 2 "second").run requeuedDatabase).2 ∧
      (StoreCall.markSucceeded 202 ⟨"zoekt", "executor", "first"⟩).apply requeuedDatabase =
        requeuedDatabase := by
  have hplanned : storeMachine.run {} [.otherTables sampleDatabase, .upsertQueued 1 sampleInput] =
      some plannedDatabase := rfl
  have hrequeued : storeMachine.run {}
      [.otherTables sampleDatabase, .upsertQueued 1 sampleInput,
        .claimScoped 2 (sampleClaim 2 1 "first").scope "executor" "first" 102,
        .requeueExpiredLeases 200 200 10 []] = some requeuedDatabase := rfl
  constructor
  · exact (subjob_leases_fenced hplanned).2.2.1 (sampleClaim 2 1 "first")
      (sampleClaim 201 2 "second") [.requeueExpiredLeases 200 200 10 []] requeuedDatabase rfl
      (by decide) rfl (by decide)
  · exact (subjob_leases_fenced hrequeued).2.2.2 _ ⟨"zoekt", "executor", "first"⟩ rfl
      (by unfold Stale; decide)

end CodeIntel.Subjobs
