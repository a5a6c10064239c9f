import CodeIntel.Subjobs.LeaseFencing

/-!
# Lifecycle of a subjob row

Twelve statements set the status, the lease columns and `completedAt` with
conditions of their own. Every move between rows keeps these columns consistent,
and no move leaves a terminal status.
-/

namespace CodeIntel.Subjobs

open Relational Schema

/-- The statuses in which a subjob is finished. -/
def terminal : List SubjobStatus := [.succeeded, .failed, .skipped, .canceled]

/-- Status, lease columns, completion time and attempts of a row agree. -/
structure Lifecycle (r : Subjob) : Prop where
  owner_iff : r.leaseOwner.isSome = true ↔ r.status ∈ inFlight
  expires_iff : r.leaseExpiresAt.isSome = true ↔ r.status ∈ inFlight
  completed_iff : r.completedAt.isSome = true ↔ r.status ∈ terminal
  attempt_lt : waiting r = true → r.attempt < r.maxAttempts

/-! ## Statuses -/

theorem not_terminal_of_inFlight {st : SubjobStatus} (h : st ∈ inFlight) : st ∉ terminal := by
  revert h
  cases st <;> decide

variable {r : Subjob} {db : Database} {calls : List StoreCall}

theorem waiting_iff : waiting r = true ↔ r.status = .queued ∨ r.status = .retrying := by
  simp [waiting]

theorem not_terminal_of_waiting (h : waiting r = true) : r.status ∉ terminal := by
  obtain h | h := waiting_iff.1 h <;> rw [h] <;> decide

theorem not_waiting_of_inFlight (h : r.status ∈ inFlight) : waiting r = false := by
  unfold waiting
  revert h
  cases r.status <;> decide

theorem Lifecycle.completedAt_eq_none (h : Lifecycle r) (hst : r.status ∉ terminal) :
    r.completedAt = none := by
  rw [← h.completed_iff] at hst
  simpa using hst

theorem Lifecycle.ofUnleased (hflight : r.status ∉ inFlight) (howner : r.leaseOwner = none)
    (hexpires : r.leaseExpiresAt = none)
    (hcompleted : r.completedAt.isSome = true ↔ r.status ∈ terminal)
    (hattempt : waiting r = true → r.attempt < r.maxAttempts) : Lifecycle r :=
  ⟨by simp [howner, hflight], by simp [hexpires, hflight], hcompleted, hattempt⟩

/-! ## Moves -/

section Moves

variable {rules : CallRules} {db db' : Database} {r r' : Subjob}

theorem Ended.not_terminal {st : SubjobStatus} (h : Ended rules db r st) :
    r.status ∉ terminal := by
  cases h with
  | retry hflight _ | skip hflight _ | fail hflight _ _ | orphan hflight _ =>
    exact not_terminal_of_inFlight hflight
  | empty hstatus _ => rw [hstatus]; decide
  | dependent hwaiting => exact not_terminal_of_waiting hwaiting

theorem Move.eq_of_terminal (h : Move rules db r r') (hst : r.status ∈ terminal) : r' = r := by
  cases h with
  | keep => rfl
  | claim now owner attemptId leaseUntil hclaims hstatus hattempt =>
    obtain hwaiting | hclaimed := hstatus
    · exact absurd hst (not_terminal_of_waiting hwaiting)
    · exact absurd hst (not_terminal_of_inFlight (hclaimed ▸ by decide))
  | hold _ _ hflight | succeed now _ hflight => exact absurd hst (not_terminal_of_inFlight hflight)
  | ended now st code message hended => exact absurd hst hended.not_terminal

theorem Ended.lifecycle {st : SubjobStatus} (h : Ended rules db r st) (now : Time)
    (code message : Option String) :
    Lifecycle
      { releaseRow now st r with
        errorCode := code
        errorMessage := message } := by
  have hattempt : st = .queued ∨ st = .retrying → r.attempt < r.maxAttempts := by
    cases h <;> simp_all
  have hst : st ∉ inFlight ∧ (st ∈ terminal ↔ st ≠ .retrying) := by
    cases h <;> decide
  apply Lifecycle.ofUnleased
  · exact hst.1
  · rfl
  · rfl
  · dsimp only [releaseRow]
    rw [hst.2]
    split_ifs with hretry <;> simp [hretry]
  · intro hwaiting
    exact hattempt (waiting_iff.1 hwaiting)

theorem Move.lifecycle (h : Move rules db r r') (hr : Lifecycle r) : Lifecycle r' := by
  cases h with
  | keep => exact hr
  | claim now owner attemptId leaseUntil hclaims hstatus hattempt =>
    have hcompleted : r.completedAt = none := by
      apply hr.completedAt_eq_none
      obtain hwaiting | hclaimed := hstatus
      · exact not_terminal_of_waiting hwaiting
      · exact not_terminal_of_inFlight (hclaimed ▸ by decide)
    refine ⟨by simp [claimRow, inFlight], by simp [claimRow, inFlight], ?_, fun hwaiting => ?_⟩
    · simp [claimRow, hcompleted, terminal]
    · simp [claimRow, waiting] at hwaiting
  | hold hid hattempt hflight hflight' hwrites howner hexpires hcompleted =>
    have hnone := hr.completedAt_eq_none (not_terminal_of_inFlight hflight)
    refine ⟨⟨fun _ => hflight', fun _ => howner⟩, ⟨fun _ => hflight', fun _ => hexpires⟩, ?_, ?_⟩
    · simp [hcompleted, hnone, not_terminal_of_inFlight hflight']
    · simp [not_waiting_of_inFlight hflight']
  | succeed now _ hflight =>
    have hst : SubjobStatus.succeeded ∉ inFlight := by decide
    exact .ofUnleased hst rfl rfl (by simp [succeedRow, terminal]) (by simp [succeedRow, waiting])
  | ended now st code message hended => exact hended.lifecycle now code message

theorem newSubjob_lifecycle {now : Time} {inp : CreateInput} {status : SubjobStatus}
    {code message : String} {completed : Option Time}
    (hstatus : status = .queued ∨ status = .skipped)
    (hcompleted : completed.isSome = true ↔ status = .skipped) :
    Lifecycle (newSubjob now inp status code message completed) := by
  have hmax : (0 : ℤ) < if inp.maxAttempts ≤ 0 then 3 else inp.maxAttempts := by
    split_ifs <;> omega
  obtain rfl | rfl := hstatus
  · have hst : SubjobStatus.queued ∉ inFlight := by decide
    exact .ofUnleased hst rfl rfl (by simpa [newSubjob, terminal] using hcompleted) fun _ => hmax
  · have hst : SubjobStatus.skipped ∉ inFlight := by decide
    exact .ofUnleased hst rfl rfl (by simpa [newSubjob, terminal] using hcompleted)
      (by simp [newSubjob, waiting])

/-! ## Tables -/

/-- Ids are unique and every row is consistent. -/
structure LifecycleTable (rows : List Subjob) : Prop where
  unique : UniqueKey Subjob.id rows
  rows : ∀ r ∈ rows, Lifecycle r

/-- Finished rows stay as they are. -/
def TerminalKept (rows rows' : List Subjob) : Prop :=
  ∀ r ∈ rows, r.status ∈ terminal → r ∈ rows'

theorem TableMove.lifecycleTable (h : TableMove rules db db')
    (hdb : LifecycleTable db.subjobs) : LifecycleTable db'.subjobs := by
  cases h with
  | update f g h hrows hmoves =>
    rw [hrows]
    constructor
    · exact hdb.unique.map_of_mem fun r hr => (hmoves r hr).id_eq
    · intro r' hr'
      obtain ⟨r, hr, rfl⟩ := List.mem_map.1 hr'
      exact (hmoves r hr).lifecycle (hdb.rows r hr)
  | insert now inp status code message completed hstatus hcompleted hinserts hvalid hlive hmanifest
      hfresh =>
    refine ⟨hdb.unique.append_fresh hfresh, fun r hr => ?_⟩
    rcases List.mem_append.1 hr with hold | hnew
    · exact hdb.rows r hold
    · rw [List.mem_singleton.1 hnew]
      exact newSubjob_lifecycle hstatus hcompleted

theorem TableMove.terminalKept (h : TableMove rules db db') :
    TerminalKept db.subjobs db'.subjobs := by
  intro r hr hst
  cases h with
  | update f g h hrows hmoves =>
    rw [hrows]
    have hkept := List.mem_map_of_mem (f := f) hr
    rwa [(hmoves r hr).eq_of_terminal hst] at hkept
  | insert => exact List.mem_append_left _ hr

end Moves

/-! ## Runs -/

theorem terminalKept_trans (rows₁ rows₂ rows₃ : List Subjob) (h₁ : TerminalKept rows₁ rows₂)
    (h₂ : TerminalKept rows₂ rows₃) : TerminalKept rows₁ rows₃ :=
  fun r hr hst => h₂ r (h₁ r hr hst) hst

theorem apply_lifecycle (hdb : LifecycleTable db.subjobs) (call : StoreCall) :
    LifecycleTable (call.apply db).subjobs ∧ TerminalKept db.subjobs (call.apply db).subjobs :=
  apply_table (fun _ h => h.unique) (fun _ _ hr _ => hr) terminalKept_trans
    (fun h hdb => ⟨h.lifecycleTable hdb, h.terminalKept⟩) hdb call

theorem run_lifecycle {db' : Database} (hdb : LifecycleTable db.subjobs)
    (hrun : storeMachine.run db calls = some db') :
    LifecycleTable db'.subjobs ∧ TerminalKept db.subjobs db'.subjobs :=
  run_table (fun _ h => h.unique) (fun _ _ hr _ => hr) terminalKept_trans
    (fun h hdb => ⟨h.lifecycleTable hdb, h.terminalKept⟩) hdb hrun

theorem lifecycleTable_nil : LifecycleTable [] :=
  ⟨List.nodup_nil, fun _ hr => nomatch hr⟩

/-- In every state that store calls reach from an empty subjob table, whatever the
other tables hold: the lease columns are set exactly on rows in flight, waiting rows
have attempts left and no completion time, and a completion time marks exactly the
finished rows. A finished row keeps its status in every further run. -/
theorem subjob_lifecycle {db₀ db : Database} {calls : List StoreCall}
    (hempty : db₀.subjobs = []) (hrun : storeMachine.run db₀ calls = some db) :
    (∀ r ∈ db.subjobs,
      (r.status ∈ inFlight ↔ r.leaseOwner.isSome = true ∧ r.leaseExpiresAt.isSome = true) ∧
      (r.status ∉ inFlight → r.leaseOwner = none ∧ r.leaseExpiresAt = none) ∧
      (r.status = .queued ∨ r.status = .retrying →
        r.attempt < r.maxAttempts ∧ r.completedAt = none) ∧
      (r.completedAt.isSome = true ↔ r.status ∈ terminal)) ∧
    ∀ later db', storeMachine.run db later = some db' → ∀ id r,
      lookup Subjob.id id db.subjobs = some r → r.status ∈ terminal →
        ∃ r', lookup Subjob.id id db'.subjobs = some r' ∧ r'.status = r.status := by
  have hdb : LifecycleTable db.subjobs :=
    (run_lifecycle (hempty ▸ lifecycleTable_nil) hrun).1
  constructor
  · intro r hr
    have hrow := hdb.rows r hr
    refine ⟨?_, fun hst => ?_, fun hst => ?_, hrow.completed_iff⟩
    · rw [hrow.owner_iff, hrow.expires_iff, and_self]
    · have howner := mt hrow.owner_iff.1 hst
      have hexpires := mt hrow.expires_iff.1 hst
      exact ⟨by simpa using howner, by simpa using hexpires⟩
    · have hwaiting := waiting_iff.2 hst
      exact ⟨hrow.attempt_lt hwaiting,
        hrow.completedAt_eq_none (not_terminal_of_waiting hwaiting)⟩
  · intro later db' hlater id r hlookup hst
    obtain ⟨hdb', hkept⟩ := run_lifecycle hdb hlater
    have hmem := hkept r (mem_of_lookup hlookup) hst
    exact ⟨r, lookup_eq_some_of_mem hdb'.unique hmem (key_of_lookup hlookup), rfl⟩

def succeededDatabase : Database :=
  (markSucceeded 202 ⟨"zoekt", "executor", "second"⟩
    ((sampleClaim 201 2 "second").run requeuedDatabase).2).2

/-- The succeeded sample subjob has a completion time, and the sweep that follows
leaves its status. -/
theorem succeeded_subjob_lifecycle :
    ∃ r r', lookup Subjob.id "zoekt" succeededDatabase.subjobs = some r ∧
      r.status ∈ terminal ∧ r.completedAt.isSome = true ∧
      lookup Subjob.id "zoekt"
        ((StoreCall.requeueExpiredLeases 900 900 10 []).apply succeededDatabase).subjobs = some r' ∧
      r'.status = r.status := by
  have hrun : storeMachine.run {}
      [.otherTables sampleDatabase, .upsertQueued 1 sampleInput,
        .claimScoped 2 (sampleClaim 2 1 "first").scope "executor" "first" 102,
        .requeueExpiredLeases 200 200 10 [],
        .claimScoped 201 (sampleClaim 201 2 "second").scope "executor" "second" 301,
        .markSucceeded 202 ⟨"zoekt", "executor", "second"⟩] = some succeededDatabase := rfl
  have hst : ∀ r ∈ succeededDatabase.subjobs, r.status ∈ terminal := by decide +kernel
  obtain ⟨hrows, hkept⟩ := subjob_lifecycle rfl hrun
  obtain ⟨r, hr⟩ : ∃ r, lookup Subjob.id "zoekt" succeededDatabase.subjobs = some r :=
    Option.isSome_iff_exists.1 (by decide +kernel)
  have hrow := mem_of_lookup hr
  obtain ⟨r', hr', heq⟩ := hkept [.requeueExpiredLeases 900 900 10 []] _ rfl "zoekt" r hr
    (hst r hrow)
  exact ⟨r, r', hr, hst r hrow, (hrows r hrow).2.2.2.2 (hst r hrow), hr', heq⟩

end CodeIntel.Subjobs
