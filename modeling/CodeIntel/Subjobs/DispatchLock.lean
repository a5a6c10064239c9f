import CodeIntel.Relational.Run
import CodeIntel.Schema.Database

/-!
# The dispatch lock

One row stands for the right to dispatch. A process takes it when there is no row, when the
lease of the row has run out, or when the row is its own, and deletes only its own row.
-/

namespace CodeIntel.Subjobs

open Relational Schema

/-- The row of `CodeIntelIndexSubjobDispatchLock` under `dispatchLockID`. -/
structure DispatchLock where
  leaseOwner : String
  (leaseExpiresAt updatedAt : Time)
  deriving DecidableEq, Repr

def errDispatchLockOwner : String := "indexsubjobs: dispatch lock owner is required"

/-- `now` is the clock of the database. -/
def tryAcquireDispatchLock (now : Time) (owner : String) (leaseUntil : Time)
    (lock : Option DispatchLock) : Except String Bool × Option DispatchLock :=
  let taken := some { leaseOwner := owner, leaseExpiresAt := leaseUntil, updatedAt := now }
  if owner = "" then (.error errDispatchLockOwner, lock)
  else match lock with
    | none => (.ok true, taken)
    | some row =>
      if row.leaseExpiresAt < now || row.leaseOwner = owner then (.ok true, taken)
      else (.ok false, lock)

def releaseDispatchLock (owner : String) (lock : Option DispatchLock) :
    Except String Unit × Option DispatchLock :=
  if owner = "" then (.error errDispatchLockOwner, lock)
  else (.ok (), lock.filter fun row => row.leaseOwner ≠ owner)

/-- A call and the time at which the database runs it. -/
inductive LockCall where
  | acquire (now : Time) (owner : String) (leaseUntil : Time)
  | release (now : Time) (owner : String)

structure LockState where
  clock : Time
  lock : Option DispatchLock

def lockMachine : Machine LockState LockCall where
  step s
    | .acquire now owner leaseUntil =>
      if s.clock ≤ now then some ⟨now, (tryAcquireDispatchLock now owner leaseUntil s.lock).2⟩
      else none
    | .release now owner =>
      if s.clock ≤ now then some ⟨now, (releaseDispatchLock owner s.lock).2⟩ else none

/-- The call returns true. -/
def Acquires (s : LockState) (now : Time) (owner : String) (leaseUntil : Time) : Prop :=
  (tryAcquireDispatchLock now owner leaseUntil s.lock).1.toOption = some true

/-- The call neither renews nor ends the lease of the owner. -/
def LeavesLease (owner : String) (s : LockState) : LockCall → Prop
  | .acquire now caller leaseUntil => caller = owner → ¬Acquires s now caller leaseUntil
  | .release _ caller => caller ≠ owner

section Exclusion

variable {s s' : LockState} {now : Time} {owner caller : String} {leaseUntil leaseUntil' : Time}

theorem acquires_cases (s : LockState) (now : Time) (owner : String) (leaseUntil : Time) :
    (¬Acquires s now owner leaseUntil ∧
        (tryAcquireDispatchLock now owner leaseUntil s.lock).2 = s.lock) ∨
      Acquires s now owner leaseUntil ∧
        ∀ row, s.lock = some row → row.leaseExpiresAt < now ∨ row.leaseOwner = owner := by
  unfold Acquires tryAcquireDispatchLock
  split
  · exact .inl ⟨by simp [Except.toOption], rfl⟩
  cases hlock : s.lock with
  | none => exact .inr ⟨rfl, by simp⟩
  | some row =>
    dsimp only
    split_ifs with h
    · exact .inr ⟨rfl, by simpa using h⟩
    · exact .inl ⟨by simp [Except.toOption], rfl⟩

/-- The lease is in the table, or it has run out. -/
def Leased (owner : String) (leaseUntil : Time) (s : LockState) : Prop :=
  (∃ row, s.lock = some row ∧ row.leaseOwner = owner ∧ row.leaseExpiresAt = leaseUntil) ∨
    leaseUntil < s.clock

theorem Leased.lt (h : Leased owner leaseUntil s) (hclock : s.clock ≤ now)
    (hother : caller ≠ owner) (hacquires : Acquires s now caller leaseUntil') :
    leaseUntil < now := by
  rcases h with ⟨row, hrow, rfl, rfl⟩ | hpast
  · obtain ⟨hnot, -⟩ | ⟨-, hfree⟩ := acquires_cases s now caller leaseUntil'
    · exact absurd hacquires hnot
    · exact (hfree row hrow).resolve_right hother.symm
  · exact Nat.lt_of_lt_of_le hpast hclock

theorem Leased.step (h : Leased owner leaseUntil s) {call : LockCall}
    (hcall : LeavesLease owner s call) (hstep : lockMachine.step s call = some s') :
    Leased owner leaseUntil s' := by
  cases call with
  | acquire now caller leaseUntil' =>
    obtain ⟨hclock, hs'⟩ := Option.ite_none_right_eq_some.1 hstep
    obtain rfl := Option.some.inj hs'
    obtain ⟨-, hsame⟩ | ⟨hacquires, -⟩ := acquires_cases s now caller leaseUntil'
    · rw [hsame]
      exact h.imp id fun hpast => Nat.lt_of_lt_of_le hpast hclock
    · exact .inr (h.lt hclock (fun hown => hcall hown hacquires) hacquires)
  | release now caller =>
    obtain ⟨hclock, hs'⟩ := Option.ite_none_right_eq_some.1 hstep
    obtain rfl := Option.some.inj hs'
    refine h.imp ?_ fun hpast => Nat.lt_of_lt_of_le hpast hclock
    rintro ⟨row, hrow, rfl, rfl⟩
    refine ⟨row, ?_, rfl, rfl⟩
    unfold releaseDispatchLock
    split
    · exact hrow
    · simp [hrow, hcall.symm]

theorem leased_of_acquires (hacquires : Acquires s now owner leaseUntil)
    (hstep : lockMachine.step s (.acquire now owner leaseUntil) = some s') :
    Leased owner leaseUntil s' := by
  obtain ⟨-, hs'⟩ := Option.ite_none_right_eq_some.1 hstep
  obtain rfl := Option.some.inj hs'
  refine .inl ⟨⟨owner, leaseUntil, now⟩, ?_, rfl, rfl⟩
  revert hacquires
  unfold Acquires tryAcquireDispatchLock
  cases s.lock <;> dsimp only <;> split_ifs <;> simp [Except.toOption]

/-- After a call of an owner that returned true, and without a later one and without a
release of that owner, nobody else gets the lock up to the end of the lease. A release
leaves the row of another owner. -/
theorem dispatchLock_exclusive {s₁ s₂ s₃ : LockState} {calls : List LockCall} {now' : Time}
    (hstep : lockMachine.step s (.acquire now owner leaseUntil) = some s₁)
    (hacquires : Acquires s now owner leaseUntil)
    (hcalls : lockMachine.Always (LeavesLease owner) s₁ calls)
    (hrun : lockMachine.run s₁ calls = some s₂) (hother : caller ≠ owner)
    (hstep' : lockMachine.step s₂ (.acquire now' caller leaseUntil') = some s₃) :
    (Acquires s₂ now' caller leaseUntil' → leaseUntil < now') ∧
      ∀ row, s₂.lock = some row → ∀ stale, row.leaseOwner ≠ stale →
        (releaseDispatchLock stale s₂.lock).2 = some row := by
  constructor
  · have hleased : Leased owner leaseUntil s₂ :=
      Machine.invariant_of_always (Leased owner leaseUntil) (fun _ _ _ h hcall => h.step hcall)
        (leased_of_acquires hacquires hstep) hcalls hrun
    exact hleased.lt (Option.ite_none_right_eq_some.1 hstep').1 hother
  · intro row hrow stale hstale
    unfold releaseDispatchLock
    split_ifs
    · exact hrow
    · simp [hrow, hstale]

theorem dispatchLock_exclusive_sample :
    Acquires ⟨0, none⟩ 1 "a" 31 ∧ Acquires ⟨20, some ⟨"a", 31, 1⟩⟩ 40 "b" 70 ∧ 31 < 40 := by
  have hacquires : Acquires ⟨0, none⟩ 1 "a" 31 := rfl
  have hacquires' : Acquires ⟨20, some ⟨"a", 31, 1⟩⟩ 40 "b" 70 := rfl
  have hcalls : lockMachine.Always (LeavesLease "a") ⟨1, some ⟨"a", 31, 1⟩⟩
      [.acquire 20 "b" 50] := ⟨fun h => absurd h (by decide), fun _ _ => trivial⟩
  exact ⟨hacquires, hacquires',
    (dispatchLock_exclusive rfl hacquires hcalls rfl (by decide) rfl).1 hacquires'⟩

end Exclusion

end CodeIntel.Subjobs
