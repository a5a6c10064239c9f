import CodeIntel.Subjobs.Store

/-!
# Calls made by the holder of a lease

With unique subjob ids a lease statement touches exactly one row. The lemmas
follow that row through a granted claim, a renewal and the two final marks, and
say what each call leaves alone.
-/

namespace CodeIntel.Subjobs

open Relational Schema

/-- The row stored under an id of a table with unique ids. -/
structure RowAt (db : Database) (id : String) (r : Subjob) : Prop where
  unique : UniqueKey Subjob.id db.subjobs
  row : lookup Subjob.id id db.subjobs = some r

/-- The rows of other subjobs are untouched, and no row changes its layer. -/
def OnlyRow (id : String) (rows rows' : List Subjob) : Prop :=
  ∃ f : Subjob → Subjob, rows' = rows.map f ∧ (∀ r, r.id ≠ id → f r = r) ∧
    ∀ r, (f r).layer = r.layer ∧ (f r).id = r.id

variable {id : String} {cond : Subjob → Bool} {set : Subjob → Subjob} {db : Database} {r : Subjob}
  {scope : ClaimScope} {now : Time} {lease : Lease} {states : List SubjobStatus}

theorem OnlyRow.trans {rows₁ rows₂ rows₃ : List Subjob} (h₁ : OnlyRow id rows₁ rows₂)
    (h₂ : OnlyRow id rows₂ rows₃) : OnlyRow id rows₁ rows₃ := by
  obtain ⟨f, rfl, hf, hfl⟩ := h₁
  obtain ⟨g, rfl, hg, hgl⟩ := h₂
  refine ⟨g ∘ f, by rw [List.map_map], fun r hr => ?_, fun r => ?_⟩
  · rw [Function.comp_apply, hf r hr, hg r hr]
  · exact ⟨(hgl _).1.trans (hfl r).1, (hgl _).2.trans (hfl r).2⟩

theorem updateWhere_onlyRow (hcond : ∀ r, cond r = true → r.id = id)
    (hset : ∀ r, (set r).layer = r.layer ∧ (set r).id = r.id) (rows : List Subjob) :
    OnlyRow id rows (updateWhere cond set rows) := by
  refine ⟨fun r => if cond r then set r else r, rfl, fun r hr => ?_, fun r => ?_⟩
  · exact if_neg fun hc => hr (hcond r hc)
  · by_cases hc : cond r = true
    · simpa [hc] using hset r
    · simp [hc]

/-- An update whose condition holds of the row under `id`, and of no other row. -/
theorem RowAt.update (h : RowAt db id r) (hkey : ∀ r, cond r = true → r.id = id)
    (hcond : cond r = true) (hset : ∀ r, (set r).id = r.id) :
    (updateSubjobs cond set db).1 = .ok true ∧ RowAt (updateSubjobs cond set db).2 id (set r) := by
  have hid : ∀ r, (if cond r then set r else r).id = r.id := fun r => by
    split
    · exact hset r
    · rfl
  refine ⟨?_, h.unique.map hid, ?_⟩
  · simp [updateSubjobs, affected_eq_one h.unique hkey h.row hcond]
  · simp only [updateSubjobs, updateWhere]
    rw [lookup_map hid, h.row, Option.map_some, if_pos hcond]

theorem ClaimScope.of_matchesRow (h : scope.matchesRow r = true) :
    r.id = scope.id ∧ r.repoIndexingJobId = scope.repoIndexingJobId ∧ r.orgId = scope.orgId ∧
      r.repoId = scope.repoId ∧ r.layer = scope.layer := by
  simp only [ClaimScope.matchesRow, Bool.and_eq_true, decide_eq_true_eq] at h
  tauto

theorem claimable_matchesRow (h : claimable now scope db r = true) :
    scope.matchesRow r = true ∧ r.attempt = scope.attempt - 1 ∧ r.attempt < r.maxAttempts ∧
      liveJob db scope.repoIndexingJobId scope.repoId scope.orgId = true := by
  simp only [claimable, Bool.and_eq_true, decide_eq_true_eq] at h
  tauto

theorem claimable_id (r : Subjob) (h : claimable now scope db r = true) : r.id = scope.id :=
  (ClaimScope.of_matchesRow (claimable_matchesRow h).1).1

theorem claimScoped_granted {owner attemptId : String} {leaseUntil : Time}
    (hu : UniqueKey Subjob.id db.subjobs)
    (h : (claimScoped now scope owner attemptId leaseUntil db).1 = .ok true) :
    ∃ r, lookup Subjob.id scope.id db.subjobs = some r ∧ claimable now scope db r = true ∧
      owner ≠ "" ∧ attemptId ≠ "" ∧
      RowAt (claimScoped now scope owner attemptId leaseUntil db).2 scope.id
        (claimRow now owner attemptId leaseUntil r) ∧
      (claimScoped now scope owner attemptId leaseUntil db).2 =
        { db with
          subjobs := updateWhere (claimable now scope db)
            (claimRow now owner attemptId leaseUntil) db.subjobs } := by
  unfold claimScoped at *
  split_ifs at h ⊢ with h₁ h₂ h₃
  simp only [Bool.or_eq_true, decide_eq_true_eq, not_or] at h₃
  have hcount : affected (claimable now scope db) db.subjobs = 1 := by
    simpa [updateSubjobs] using h
  obtain ⟨r, hr, hclaim⟩ := exists_of_affected_pos (hcount ▸ Nat.one_pos)
  have hrow := lookup_eq_some_of_mem hu hr (claimable_id r hclaim)
  have hat : RowAt db scope.id r := ⟨hu, hrow⟩
  exact ⟨r, hrow, hclaim, h₃.1, h₃.2, (hat.update claimable_id hclaim (by intro r; rfl)).2, rfl⟩

/-- The row stores the lease, in one of the given states, under a live job. -/
structure Held (db : Database) (lease : Lease) (states : List SubjobStatus) (r : Subjob) :
    Prop extends RowAt db lease.subjobId r where
  owner_eq : r.leaseOwner = some lease.leaseOwner
  attempt_eq : r.attemptId = some lease.attemptId
  state : r.status ∈ states
  live : liveJob db r.repoIndexingJobId r.repoId r.orgId = true

theorem Held.id_eq (h : Held db lease states r) : r.id = lease.subjobId :=
  key_of_lookup h.row

theorem Held.holdsLease (h : Held db lease states r) : holdsLease db lease states r = true := by
  simp [Subjobs.holdsLease, h.id_eq, h.owner_eq, h.attempt_eq, h.state, h.live]

theorem holdsLease_id (r : Subjob) (h : holdsLease db lease states r = true) :
    r.id = lease.subjobId := by
  simp only [holdsLease, Bool.and_eq_true, decide_eq_true_eq] at h
  tauto

theorem holdsLease_and_id {b : Subjob → Bool} (r : Subjob)
    (h : (holdsLease db lease states r && b r) = true) :
    r.id = lease.subjobId :=
  holdsLease_id r (Bool.and_eq_true_iff.1 h).1

theorem Held.heartbeat (h : Held db lease inFlight r) (now leaseUntil : Time) :
    (heartbeat now lease leaseUntil db).1 = .ok true ∧
      RowAt (heartbeat now lease leaseUntil db).2 lease.subjobId (renewRow now leaseUntil r) :=
  h.toRowAt.update holdsLease_id h.holdsLease fun _ => rfl

theorem Held.markSucceeded (h : Held db lease inFlight r) (hlease : lease.complete = true)
    (halive : leaseAlive now r = true) :
    (markSucceeded now lease db).1 = .ok true ∧
      RowAt (markSucceeded now lease db).2 lease.subjobId (succeedRow now r) := by
  unfold Subjobs.markSucceeded
  rw [if_neg (by simp [hlease])]
  exact h.toRowAt.update holdsLease_and_id (by simp [h.holdsLease, halive]) fun _ => rfl

theorem lookup_failParentIfTerminalFailure {code msg : String}
    (h : lookup Subjob.id id db.subjobs = some r) :
    lookup Subjob.id id (failParentIfTerminalFailure now id code msg db).subjobs = some r := by
  unfold failParentIfTerminalFailure
  split
  · exact h
  · dsimp only [updateWhere]
    rw [lookup_map fun r => by split <;> rfl, h, Option.map_some]
    simp [key_of_lookup h]

theorem Held.markFailed (h : Held db lease inFlight r) (hlease : lease.complete = true)
    (halive : leaseAlive now r = true) (code msg : String) :
    ∃ r', (markFailed now lease code msg db).1 = .ok true ∧
      lookup Subjob.id lease.subjobId (markFailed now lease code msg db).2.subjobs = some r' ∧
      r'.status = markFailedStatus (normalizeFailure code msg).2 r := by
  have hcond : (Subjobs.holdsLease db lease inFlight r && leaseAlive now r) = true := by
    simp [h.holdsLease, halive]
  have hcount := affected_eq_one h.unique holdsLease_and_id h.row hcond
  refine ⟨failRow now (markFailedStatus (normalizeFailure code msg).2)
    (normalizeFailure code msg).1 (normalizeFailure code msg).2 r, ?_, ?_, rfl⟩
  · simp [Subjobs.markFailed, hlease, failSubjob, hcount]
  · simp only [Subjobs.markFailed, hlease, Bool.not_true, Bool.false_eq_true, if_false,
      failSubjob, hcount, if_true]
    refine lookup_failParentIfTerminalFailure ?_
    dsimp only [updateWhere]
    rw [lookup_map fun r => by split <;> rfl, h.row, Option.map_some, if_pos hcond]

theorem markFailedStatus_ne_succeeded (message : String) (r : Subjob) :
    markFailedStatus message r ≠ .succeeded := by
  unfold markFailedStatus exhaustedStatus
  split_ifs <;> simp

end CodeIntel.Subjobs
