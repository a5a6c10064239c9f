import CodeIntel.Subjobs.Lifecycle

/-!
# Optional layers

SCIP and AST_TREE_SITTER subjobs are optional: a used up attempt is meant to skip
them and leave the job alone. Three of the statements that end an attempt follow
this rule; the requeue by lease owner skips SCIP only.
-/

namespace CodeIntel.Subjobs

open Relational Schema Text

/-! ## The requeue by lease owner -/

def ownerPicks (ownerPrefixes : List String) (limit : ℤ) (locked : List String) (db : Database) :
    List String :=
  pickIds (fun r => toLex (r.leaseExpiresAt.elim 0 (· + 1), r.updatedAt)) limit locked
    (fun r => (parentJob db r).isSome && inFlight.contains r.status &&
      r.leaseOwner.any fun owner =>
        ((ownerPrefixes.map trimSpace).filter (· ≠ "")).any (likeOwnerPrefix owner))
    db.subjobs

/-- An AST_TREE_SITTER subjob of a running job that has used all its attempts. -/
def exhaustedAst (db : Database) (r : Subjob) : Bool :=
  r.layer = .astTreeSitter && r.maxAttempts ≤ r.attempt && parentRunning db r

/-- A requeue by lease owner picks no exhausted AST_TREE_SITTER subjob. -/
def SparesAst (db : Database) : StoreCall → Prop
  | .requeueLeasesForOwnerPrefixes ownerPrefixes _ limit locked =>
    ∀ r ∈ db.subjobs, exhaustedAst db r = true → r.id ∉ ownerPicks ownerPrefixes limit locked db
  | _ => True

instance (db : Database) : DecidablePred (SparesAst db)
  | .requeueLeasesForOwnerPrefixes ownerPrefixes _ limit locked =>
    inferInstanceAs (Decidable (∀ r ∈ db.subjobs, exhaustedAst db r = true →
      r.id ∉ ownerPicks ownerPrefixes limit locked db))
  | .upsertQueued .. | .upsertSkipped .. | .claimScoped .. | .heartbeat ..
  | .markArtifactWritten .. | .markSucceeded .. | .markFailed ..
  | .markRetryableInfrastructureFailure .. | .validateLiveSubjobLease ..
  | .requeueExpiredLeases .. | .reconcileTerminalFailures .. | .otherTables .. => isTrue trivial

variable {db : Database} {call : StoreCall}

/-- Only the rows that were picked are released; an empty pick covers the refused calls. -/
theorem apply_requeueOwners_of_mem {ownerPrefixes : List String} {stamp : Time} {limit : ℤ}
    {locked : List String} {id : String} (h : id ∈ ownerPicks ownerPrefixes limit locked db) :
    (StoreCall.requeueLeasesForOwnerPrefixes ownerPrefixes stamp limit locked).apply db =
      (requeueRows stamp isScip (ownerPicks ownerPrefixes limit locked db) db).2 := by
  have hlimit : ¬ limit ≤ 0 := by
    intro hle
    rw [ownerPicks, pickIds, Int.toNat_of_nonpos hle] at h
    simp at h
  have hprefixes : (ownerPrefixes.map trimSpace).filter (· ≠ "") ≠ [] := by
    intro hnil
    obtain ⟨r, -, -, hc⟩ := exists_of_mem_pickIds h
    rw [hnil] at hc
    simp at hc
  simp only [StoreCall.apply, requeueLeasesForOwnerPrefixes]
  rw [if_neg hlimit, if_neg hprefixes]
  rfl

/-- An exhausted AST_TREE_SITTER row that is picked ends FAILED. -/
theorem failed_of_not_sparesAst (h : ¬ SparesAst db call) :
    ∃ r ∈ (call.apply db).subjobs, isScipOrAst r.layer = true ∧ r.status = .failed := by
  cases call with
  | requeueLeasesForOwnerPrefixes ownerPrefixes stamp limit locked =>
    simp only [SparesAst, not_forall, not_not] at h
    obtain ⟨r, hr, hast, hpick⟩ := h
    rw [apply_requeueOwners_of_mem hpick]
    refine ⟨releaseRow stamp (requeueStatus db isScip r) r, ?_, ?_, ?_⟩
    · apply mem_updateWhere.2
      exact ⟨r, hr, by rw [if_pos (List.contains_iff_mem.2 hpick)]⟩
    · simp only [exhaustedAst, Bool.and_eq_true, decide_eq_true_eq] at hast
      simp [releaseRow, isScipOrAst, hast.1.1]
    · simp only [exhaustedAst, Bool.and_eq_true, decide_eq_true_eq] at hast
      obtain ⟨⟨hlayer, hexhausted⟩, hparent⟩ := hast
      simp [releaseRow, requeueStatus, hparent, exhaustedStatus, not_lt.2 hexhausted, isScip,
        hlayer]
  | _ => exact absurd trivial h

theorem apply_moves_of_sparesAst (hunique : UniqueKey Subjob.id db.subjobs)
    (hcall : call.ofStore = true) (h : SparesAst db call) :
    Relation.ReflTransGen (TableMove { call.rules with skippable := isScipOrAst }) db
      (call.apply db) := by
  cases call with
  | requeueLeasesForOwnerPrefixes ownerPrefixes stamp limit locked =>
    simp only [StoreCall.apply, requeueLeasesForOwnerPrefixes]
    split_ifs
    · exact .refl
    · exact .refl
    · refine .single (requeueRows_move ?_ (fun _ => isScipOrAst_of_isScip) ?_)
      · exact fun r hr hid => inFlight_of_mem_pickIds hunique hr hid
      · intro r hr hid hparent hexhausted hscip
        have hast : ¬ exhaustedAst db r = true := fun hast => h r hr hast hid
        simp only [exhaustedAst, hparent, hexhausted, decide_true, Bool.and_true,
          decide_eq_true_eq] at hast
        simp only [isScip] at hscip
        simp only [isScipOrAst, hscip, Bool.false_or]
        exact decide_eq_false hast
  | _ => exact apply_moves hunique hcall

/-! ## Failed rows and failed jobs along moves -/

/-- No optional subjob is FAILED. -/
def OptionalAlive (db : Database) : Prop :=
  ∀ r ∈ db.subjobs, isScipOrAst r.layer = true → r.status ≠ .failed

section Moves

variable {db db' : Database}

variable {rules : CallRules}

theorem Move.failed_cases {r r' : Subjob} (h : Move rules db r r') (hfailed : r'.status = .failed) :
    r.status = .failed ∨ rules.skippable r.layer = false := by
  cases h with
  | keep => exact .inl hfailed
  | claim | succeed => cases hfailed
  | hold _ _ _ hflight' =>
    rw [hfailed] at hflight'
    exact absurd hflight' (by decide)
  | ended now st code message hended =>
    obtain rfl : st = .failed := hfailed
    cases hended with
    | fail _ _ hlayer => exact .inr hlayer

theorem Move.layer_eq {r r' : Subjob} (h : Move rules db r r') : r'.layer = r.layer :=
  (congrArg Subjob.layer h.identity_eq :)

theorem TableMove.optionalAlive (hrules : rules.skippable = isScipOrAst)
    (h : TableMove rules db db') (hdb : OptionalAlive db) : OptionalAlive db' := by
  intro r' hr' hlayer hfailed
  cases h with
  | update f g h hrows hmoves =>
    rw [hrows] at hr'
    obtain ⟨r, hr, rfl⟩ := List.mem_map.1 hr'
    rw [(hmoves r hr).layer_eq] at hlayer
    obtain hold | hmandatory := (hmoves r hr).failed_cases hfailed
    · exact hdb r hr hlayer hold
    · rw [hrules, hlayer] at hmandatory
      cases hmandatory
  | insert now inp status code message completed hstatus =>
    rcases List.mem_append.1 hr' with hold | hnew
    · exact hdb r' hold hlayer hfailed
    · obtain rfl := List.mem_singleton.1 hnew
      obtain rfl : status = .failed := hfailed
      simp at hstatus

/-- Every FAILED job of the second state was there before or has a FAILED subjob. -/
def FailuresExplained (db db' : Database) : Prop :=
  ∀ j ∈ db'.jobs, j.status = .failed → j ∈ db.jobs ∨
    ∃ f ∈ db'.subjobs, f.repoIndexingJobId = j.id ∧ f.repoId = j.repoId ∧ f.status = .failed

theorem TableMove.failuresExplained (h : TableMove rules db db') : FailuresExplained db db' := by
  have hkept := h.terminalKept
  intro j' hj' _
  cases h with
  | update f g _ hrows hmoves hjobs hjobMoves =>
    rw [hjobs] at hj'
    obtain ⟨j, hj, hgj⟩ := List.mem_map.1 hj'
    have hmove := hjobMoves j hj
    rw [hgj] at hmove
    cases hmove with
    | keep => exact .inl hj
    | fail now message hstatus f hf hfailed hjob hrepo =>
      exact .inr ⟨f, hkept f hf (by rw [hfailed]; decide), hjob, hrepo, hfailed⟩
  | insert => exact .inl hj'

theorem moves_failuresExplained (h : Relation.ReflTransGen (TableMove rules) db db') :
    FailuresExplained db db' := by
  induction h with
  | refl => exact fun j hj _ => .inl hj
  | tail _ hmove ih =>
    intro j hj hfailed
    obtain hold | hnew := hmove.failuresExplained j hj hfailed
    · obtain hold | ⟨f, hf, hjob, hrepo, hst⟩ := ih j hold hfailed
      · exact .inl hold
      · exact .inr ⟨f, hmove.terminalKept f hf (by rw [hst]; decide), hjob, hrepo, hst⟩
    · exact .inr hnew

end Moves

/-! ## Runs -/

theorem apply_optionalAlive (hunique : UniqueKey Subjob.id db.subjobs) (hdb : OptionalAlive db)
    (h : SparesAst db call) :
    OptionalAlive (call.apply db) := by
  by_cases hcall : call.ofStore = true
  · exact moves_invariant OptionalAlive (TableMove.optionalAlive rfl)
      (apply_moves_of_sparesAst hunique hcall h) hdb
  · cases call with
    | otherTables other => exact hdb
    | _ => exact absurd rfl hcall

theorem run_optionalAlive {db₀ : Database} {calls : List StoreCall} (hempty : db₀.subjobs = [])
    (hall : storeMachine.Always SparesAst db₀ calls) (hrun : storeMachine.run db₀ calls = some db) :
    LifecycleTable db.subjobs ∧ OptionalAlive db := by
  have hinit : LifecycleTable db₀.subjobs ∧ OptionalAlive db₀ := by
    rw [OptionalAlive, hempty]
    exact ⟨lifecycleTable_nil, fun _ hr => nomatch hr⟩
  refine Machine.invariant_of_always (fun db => LifecycleTable db.subjobs ∧ OptionalAlive db) ?_
    hinit hall hrun
  rintro db call _ ⟨htable, hdb⟩ hspares ⟨⟩
  exact ⟨(apply_lifecycle htable call).1, apply_optionalAlive htable.unique hdb hspares⟩

/-- Along a run from an empty subjob table, no SCIP or AST_TREE_SITTER subjob is ever
FAILED, and every job a store call fails has a FAILED subjob of a mandatory layer,
exactly when no requeue by lease owner picks an AST_TREE_SITTER subjob of a running
job with no attempt left. -/
theorem optional_layers_never_fail_iff {db₀ : Database} (hempty : db₀.subjobs = [])
    (calls : List StoreCall) :
    (∀ pre post db, calls = pre ++ post → storeMachine.run db₀ pre = some db →
      (∀ r ∈ db.subjobs, isScipOrAst r.layer = true → r.status ≠ .failed) ∧
      ∀ call rest, post = call :: rest → call.ofStore = true →
        ∀ j ∈ (call.apply db).jobs, j.status = .failed → j ∈ db.jobs ∨
          ∃ f ∈ (call.apply db).subjobs, f.repoIndexingJobId = j.id ∧ f.repoId = j.repoId ∧
            f.status = .failed ∧ isScipOrAst f.layer = false) ↔
      storeMachine.Always SparesAst db₀ calls := by
  constructor
  · intro h
    apply Machine.always_iff.2
    intro pre call post db hcalls hrun
    by_contra hpick
    obtain ⟨r, hr, hlayer, hfailed⟩ := failed_of_not_sparesAst hpick
    have hnext : storeMachine.run db₀ (pre ++ [call]) = some (call.apply db) :=
      storeMachine.run_append_eq_some.2 ⟨db, hrun, rfl⟩
    exact (h (pre ++ [call]) post _ (by simp [hcalls]) hnext).1 r hr hlayer hfailed
  · intro hall pre post db hcalls hrun
    rw [hcalls] at hall
    obtain ⟨hpre, hpost⟩ := hall.of_append hrun
    obtain ⟨htable, hdb⟩ := run_optionalAlive hempty hpre hrun
    refine ⟨hdb, ?_⟩
    rintro call rest rfl hcall j hj hfailed
    obtain hold | ⟨f, hf, hjob, hrepo, hst⟩ :=
      moves_failuresExplained (apply_moves htable.unique hcall) j hj hfailed
    · exact .inl hold
    · refine .inr ⟨f, hf, hjob, hrepo, hst, ?_⟩
      have halive := apply_optionalAlive htable.unique hdb hpost.1
      exact Bool.eq_false_iff.2 fun hlayer => halive f hf hlayer hst

def astInput : CreateInput :=
  { sampleInput with
    id := "ast"
    layer := .astTreeSitter }

/-- One attempt of the AST subjob: its executor goes away and the requeue by lease
owner disposes of the attempt. -/
def abandonedAttempt (now : Time) (attempt : ℤ) : List StoreCall :=
  [.claimScoped now
      { (sampleClaim now attempt "attempt").scope with
        id := "ast"
        layer := .astTreeSitter }
      "executor-1" "attempt" (now + 100),
    .requeueLeasesForOwnerPrefixes ["executor-"] (now + 1) 10 []]

/-- After one abandoned attempt the AST subjob waits for the next one. -/
theorem abandoned_once_never_fails :
    ∃ db, storeMachine.run {}
        ([.otherTables sampleDatabase, .upsertQueued 1 astInput] ++ abandonedAttempt 10 1) =
          some db ∧
      (∃ r ∈ db.subjobs, isScipOrAst r.layer = true) ∧
      ∀ r ∈ db.subjobs, isScipOrAst r.layer = true → r.status ≠ .failed := by
  have hspared : storeMachine.Always SparesAst {}
      ([.otherTables sampleDatabase, .upsertQueued 1 astInput] ++ abandonedAttempt 10 1) := by
    decide +kernel
  refine storeMachine.exists_run_of_any_imp
    (fun db => ∃ r ∈ db.subjobs, isScipOrAst r.layer = true) (by decide +kernel) ?_
  intro db hrun hast
  exact ⟨hast, ((optional_layers_never_fail_iff rfl _).2 hspared _ [] db
    (List.append_nil _).symm hrun).1⟩

/-- Three abandoned attempts use up the AST subjob. The last requeue marks it FAILED
and the next reconciliation fails the job because of it. -/
theorem abandoned_ast_fails_job :
    ∃ db, storeMachine.run {}
        ([.otherTables sampleDatabase, .upsertQueued 1 astInput] ++ abandonedAttempt 10 1 ++
          abandonedAttempt 20 2 ++ abandonedAttempt 30 3 ++
          [.reconcileTerminalFailures 40 10 [] fun _ => false]) = some db ∧
      (∃ r ∈ db.subjobs, r.layer = .astTreeSitter ∧ r.status = .failed) ∧
      (∃ j ∈ db.jobs, j.id = "job" ∧ j.status = .failed) ∧
      ∀ f ∈ db.subjobs, f.status = .failed → isScipOrAst f.layer = true :=
  storeMachine.exists_run_of_any _ (by decide +kernel)

end CodeIntel.Subjobs
