import CodeIntel.Relational.Run
import CodeIntel.Schema.Database

/-!
# One graph row for two branches

Branches at the same commit share one graph index row. This module keeps of the
row only its status and the branch that owns it, and of each branch only how far
its AST ingest, merge and activation have come. Over this machine the schedules
in which every activation finds its own READY row are characterised exactly: a
branch must not be disturbed between its merge and its activation.
-/

namespace CodeIntel.Core

open Relational Schema

/-- The steps of one branch, in their order. -/
inductive BranchOp where
  | markBuilding | markPartial | graphMerge | activate
  deriving DecidableEq, Repr

def BranchOp.index : BranchOp → ℕ
  | .markBuilding => 0
  | .markPartial => 1
  | .graphMerge => 2
  | .activate => 3

/-- The progress of a branch; `rebuilds` says whether `markBuilding` took the row. -/
inductive Phase where
  | planned
  | building (rebuilds : Bool)
  | ingested
  | merged
  | activated
  deriving DecidableEq, Repr

def Phase.rank : Phase → ℕ
  | .planned => 0
  | .building _ => 1
  | .ingested => 2
  | .merged => 3
  | .activated => 4

/-- The shared row and the progress of the two branches. -/
structure SharedRow where
  status : Option GraphIndexStatus
  owner : Option Bool
  phase : Bool → Phase

namespace SharedRow

/-- Writers leave the row alone. -/
def isSealed (s : SharedRow) : Bool := s.status = some .ready || s.status = some .skipped

/-- The branch finds its own READY row. -/
def Holds (b : Bool) (s : SharedRow) : Prop := s.status = some .ready ∧ s.owner = some b

def advance (s : SharedRow) (b : Bool) (phase : Phase) : SharedRow :=
  { s with phase := Function.update s.phase b phase }

def step (s : SharedRow) : Bool × BranchOp → Option SharedRow
  | (b, .markBuilding) =>
    match s.phase b with
    | .planned =>
      if s.isSealed then some (s.advance b (.building false))
      else some ({ s with status := some .building, owner := some b }.advance b (.building true))
    | _ => none
  | (b, .markPartial) =>
    match s.phase b with
    | .building rebuilds =>
      if rebuilds then some ({ s with status := some .partialReady }.advance b .ingested)
      else some (s.advance b .ingested)
    | _ => none
  | (b, .graphMerge) =>
    match s.phase b with
    | .ingested => some ({ s with status := some .ready, owner := some b }.advance b .merged)
    | _ => none
  | (b, .activate) =>
    match s.phase b with
    | .merged => some (s.advance b .activated)
    | _ => none

def machine : Machine SharedRow (Bool × BranchOp) := ⟨step⟩

inductive Step (s : SharedRow) (b : Bool) : BranchOp → SharedRow → Prop
  | keep (hphase : s.phase b = .planned) (hsealed : s.isSealed = true) :
    Step s b .markBuilding (s.advance b (.building false))
  | take (hphase : s.phase b = .planned) (hsealed : s.isSealed = false) :
    Step s b .markBuilding
      ({ s with status := some .building, owner := some b }.advance b (.building true))
  | finish (hphase : s.phase b = .building true) :
    Step s b .markPartial ({ s with status := some .partialReady }.advance b .ingested)
  | pass (hphase : s.phase b = .building false) : Step s b .markPartial (s.advance b .ingested)
  | merge (hphase : s.phase b = .ingested) :
    Step s b .graphMerge ({ s with status := some .ready, owner := some b }.advance b .merged)
  | publish (hphase : s.phase b = .merged) : Step s b .activate (s.advance b .activated)

variable {s s' : SharedRow} {b : Bool} {op : BranchOp} {ls : List (Bool × BranchOp)}

theorem step_cases (h : machine.step s (b, op) = some s') : Step s b op s' := by
  cases op <;> simp only [machine, step] at h <;> split at h
  · rename_i hphase
    split at h
    · rename_i hsealed
      exact Option.some.inj h ▸ .keep hphase hsealed
    · rename_i hsealed
      exact Option.some.inj h ▸ .take hphase (Bool.eq_false_iff.2 hsealed)
  · cases h
  · rename_i rebuilds hphase
    cases rebuilds
    · exact Option.some.inj h ▸ .pass hphase
    · exact Option.some.inj h ▸ .finish hphase
  · cases h
  · rename_i hphase
    exact Option.some.inj h ▸ .merge hphase
  · cases h
  · rename_i hphase
    exact Option.some.inj h ▸ .publish hphase
  · cases h

theorem Step.step_eq (h : Step s b op s') : machine.step s (b, op) = some s' := by
  cases h <;> simp [machine, step, *]

@[simp] theorem advance_phase_self (s : SharedRow) (b : Bool) (phase : Phase) :
    (s.advance b phase).phase b = phase := by simp [advance]

@[simp] theorem advance_phase_not (s : SharedRow) (b : Bool) (phase : Phase) :
    (s.advance b phase).phase (!b) = s.phase (!b) := by simp [advance]

@[simp] theorem advance_status (s : SharedRow) (b : Bool) (phase : Phase) :
    (s.advance b phase).status = s.status := rfl

@[simp] theorem advance_owner (s : SharedRow) (b : Bool) (phase : Phase) :
    (s.advance b phase).owner = s.owner := rfl

theorem Step.rank (h : Step s b op s') :
    (s.phase b).rank = op.index ∧ (s'.phase b).rank = op.index + 1 ∧
      s'.phase (!b) = s.phase (!b) := by
  cases h <;> simp [Phase.rank, BranchOp.index, *]

theorem Step.rank_le (h : Step s b op s') (x : Bool) : (s.phase x).rank ≤ (s'.phase x).rank := by
  obtain ⟨hbefore, hafter, hother⟩ := h.rank
  by_cases hx : x = b
  · subst hx
    omega
  · exact Nat.le_of_eq (by rw [Bool.eq_not_of_ne hx, hother])

theorem run_rank_le (h : machine.run s ls = some s') (x : Bool) :
    (s.phase x).rank ≤ (s'.phase x).rank :=
  (Machine.run_rel (fun _ => True) (fun s s' => (s.phase x).rank ≤ (s'.phase x).rank)
    (fun _ => Nat.le_refl _) (fun _ _ _ => Nat.le_trans)
    (fun _ _ _ _ hstep => ⟨trivial, (step_cases hstep).rank_le x⟩) trivial h).2

theorem mem_run_iff (h : machine.run s ls = some s') (b : Bool) (op : BranchOp) :
    (b, op) ∈ ls ↔ (s.phase b).rank ≤ op.index ∧ op.index < (s'.phase b).rank := by
  induction ls generalizing s with
  | nil =>
    rw [← Option.some.inj h]
    simp only [List.not_mem_nil, false_iff]
    omega
  | cons l ls ih =>
    obtain ⟨s₁, hstep, hrest⟩ := machine.run_cons_eq_some.1 h
    obtain ⟨b', op'⟩ := l
    obtain ⟨hbefore, hafter, hother⟩ := (step_cases hstep).rank
    rw [List.mem_cons, ih hrest]
    by_cases hb : b = b'
    · subst hb
      have hop : op = op' ↔ op.index = op'.index := by
        cases op <;> cases op' <;> simp [BranchOp.index]
      have hmono := run_rank_le hrest b
      simp only [Prod.mk.injEq, true_and, hop]
      omega
    · have hnot := Bool.eq_not_of_ne hb
      simp [hnot, hother]

/-! ## Between merge and activation -/

/-- While the branch waits for its activation, a lost row is not regained. -/
theorem Step.not_holds {x : Bool} (h : Step s x op s') (hwait : s.phase b = .merged)
    (hlost : ¬s.Holds b) : ¬s'.Holds b := by
  cases h <;> by_cases hx : x = b <;> simp_all [Holds]

theorem Step.holds_iff (h : Step s (!b) op s') (hhold : s.Holds b) :
    s'.Holds b ↔ op ≠ .graphMerge ∧ (s.phase (!b) = .building true → op ≠ .markPartial) := by
  obtain ⟨hstatus, howner⟩ := hhold
  cases h <;> simp_all [Holds, isSealed]

theorem eq_merged_of_rank {phase : Phase} (h : phase.rank = 3) : phase = .merged := by
  cases phase <;> simp_all [Phase.rank]

theorem run_not_holds (hrun : machine.run s ls = some s') (hwait : s.phase b = .merged)
    (hwait' : s'.phase b = .merged) (hlost : ¬s.Holds b) : ¬s'.Holds b := by
  -- the branch may have been activated in between, after which nothing is claimed
  have hinv := Machine.run_invariant
    (fun s => 3 ≤ (s.phase b).rank ∧ (s.phase b = .merged → ¬s.Holds b)) ?_
    ⟨by simp [hwait, Phase.rank], fun _ => hlost⟩ hrun
  · exact hinv.2 hwait'
  · rintro s ⟨x, op⟩ s₁ ⟨hrank, hnot⟩ hstep
    have hle := (step_cases hstep).rank_le b
    refine ⟨Nat.le_trans hrank hle, fun hmerged => ?_⟩
    rw [hmerged, Phase.rank] at hle
    have hbefore := eq_merged_of_rank (Nat.le_antisymm hle hrank)
    exact (step_cases hstep).not_holds hbefore (hnot hbefore)

/-- A branch that holds the row after its merge still holds it at its activation
exactly when, in between, the other branch did not merge and did not finish a
rebuild it had begun before. -/
theorem run_holds_iff {mid : List (Bool × BranchOp)} (hrun : machine.run s mid = some s')
    (hwait : s.phase b = .merged) (hwait' : s'.phase b = .merged) (hhold : s.Holds b) :
    s'.Holds b ↔ (!b, .graphMerge) ∉ mid ∧
      (s.phase (!b) = .building true → (!b, .markPartial) ∉ mid) := by
  induction mid generalizing s with
  | nil =>
    cases hrun
    simp [hhold]
  | cons l mid ih =>
    obtain ⟨x, op⟩ := l
    obtain ⟨s₁, hstep, hrest⟩ := machine.run_cons_eq_some.1 hrun
    have hcase := step_cases hstep
    obtain ⟨hbefore, hafter, hother⟩ := hcase.rank
    by_cases hx : x = b
    · -- the waiting branch itself can only be activated
      subst hx
      have hle := run_rank_le hrest x
      rw [hwait, Phase.rank] at hbefore
      rw [hwait', Phase.rank] at hle
      omega
    · obtain rfl := Bool.eq_not_of_ne hx
      have hwait₁ : s₁.phase b = .merged := by simpa [hwait] using hother
      have hfirst := hcase.holds_iff hhold
      by_cases hkept : s₁.Holds b
      · obtain ⟨hmerge, hpart⟩ := hfirst.1 hkept
        -- a rebuild cannot begin on the READY row
        have hfree : s₁.phase (!b) ≠ .building true := by
          intro hbuilding
          obtain ⟨hstatus, howner⟩ := hhold
          cases hcase <;> simp_all [isSealed]
        have hnow : s.phase (!b) = .building true → op = .markPartial := by
          intro hbuilding
          rw [hbuilding, Phase.rank] at hbefore
          cases op <;> simp_all [BranchOp.index]
        rw [ih hrest hwait₁ hkept]
        simp only [List.mem_cons, Prod.mk.injEq, true_and, not_or]
        constructor
        · rintro ⟨hmid, -⟩
          exact ⟨⟨hmerge.symm, hmid⟩, fun hbuilding => absurd (hnow hbuilding) (hpart hbuilding)⟩
        · rintro ⟨⟨-, hmid⟩, -⟩
          exact ⟨hmid, fun hbuilding => absurd hbuilding hfree⟩
      · refine iff_of_false (run_not_holds hrest hwait₁ hwait' hkept) ?_
        rintro ⟨hmid, hbuild⟩
        simp only [List.mem_cons, Prod.mk.injEq, true_and, not_or] at hmid hbuild
        exact hkept (hfirst.2 ⟨Ne.symm hmid.1, fun h => Ne.symm (hbuild h).1⟩)

/-! ## Whole schedules -/

/-- No branch has merged: the row is as sealed as it was at the start, and writers
rebuild it accordingly. -/
def Early (sealedAtStart : Bool) (s : SharedRow) : Prop :=
  s.isSealed = sealedAtStart ∧
    ∀ b rebuilds, s.phase b = .building rebuilds → rebuilds = !sealedAtStart

theorem Step.early {x sealedAtStart : Bool} (h : Step s x op s') (hrank : (s'.phase x).rank ≤ 2)
    (hearly : s.Early sealedAtStart) :
    s'.Early sealedAtStart := by
  obtain ⟨hsealed, hbuilding⟩ := hearly
  have hother := h.rank.2.2
  have hown : s'.isSealed = sealedAtStart ∧
      ∀ rebuilds, s'.phase x = .building rebuilds → rebuilds = !sealedAtStart := by
    cases h with
    | keep _ hkeep => exact ⟨hsealed, fun r hr => by simp_all⟩
    | take _ htake => exact ⟨htake.symm.trans hsealed, fun r hr => by simp_all⟩
    | finish hphase =>
      have hopen := hbuilding x true hphase
      exact ⟨by simpa [isSealed] using hopen, fun r hr => by simp at hr⟩
    | pass hphase => exact ⟨hsealed, fun r hr => by simp at hr⟩
    | merge hphase | publish hphase => simp [Phase.rank] at hrank
  refine ⟨hown.1, fun b rebuilds hb => ?_⟩
  by_cases hx : b = x
  · exact hown.2 rebuilds (hx ▸ hb)
  · rw [Bool.eq_not_of_ne hx, hother] at hb
    exact hbuilding _ rebuilds hb

theorem run_early (hstart : ∀ b, s.phase b = .planned) (hrun : machine.run s ls = some s')
    (hrank : ∀ b, (s'.phase b).rank ≤ 2) : s'.Early s.isSealed := by
  refine Machine.run_invariant (fun t => (∀ b, (t.phase b).rank ≤ 2) → t.Early s.isSealed) ?_
    (fun _ => ⟨rfl, fun b rebuilds h => ?_⟩) hrun hrank
  · rintro t ⟨x, op⟩ t' ih hstep hrank'
    have hcase := step_cases hstep
    exact hcase.early (hrank' x) (ih fun b => Nat.le_trans (hcase.rank_le b) (hrank' b))
  · rw [hstart b] at h
    cases h

/-- Every activation of the schedule comes before any disturbance of its branch: the
other branch neither merges nor, having begun its ingest before the merge on a row
that was not finished, completes it in between. -/
def Undisturbed (sealedAtStart : Bool) (ls : List (Bool × BranchOp)) : Prop :=
  ∀ b pre mid post, ls = pre ++ (b, .graphMerge) :: (mid ++ (b, .activate) :: post) →
    (!b, .graphMerge) ∉ mid ∧
      (sealedAtStart = false → (!b, .markBuilding) ∈ pre → (!b, .markPartial) ∉ mid)

def Finds (s : SharedRow) : Bool × BranchOp → Prop
  | (b, .activate) => s.Holds b
  | _ => True

/-- In a whole schedule every activation finds its row exactly when no branch is
disturbed between its merge and its activation. -/
theorem always_finds_iff (hstart : ∀ b, s.phase b = .planned) (hrun : machine.run s ls = some s') :
    machine.Always Finds s ls ↔ Undisturbed s.isSealed ls := by
  -- one activation, with the part of the schedule before its merge and the part between
  have hone : ∀ b pre mid post, ls = pre ++ (b, .graphMerge) :: (mid ++ (b, .activate) :: post) →
      ∀ t, machine.run s (pre ++ (b, .graphMerge) :: mid) = some t →
      (t.Holds b ↔ (!b, .graphMerge) ∉ mid ∧
        (s.isSealed = false → (!b, .markBuilding) ∈ pre → (!b, .markPartial) ∉ mid)) := by
    rintro b pre mid post rfl t ht
    obtain ⟨u, hu, -⟩ := machine.run_split ht (a := (b, .activate)) (by simpa using hrun)
    obtain ⟨s₁, hpre, hrest⟩ := machine.run_append_eq_some.1 ht
    obtain ⟨s₂, hmerge, hmid⟩ := machine.run_cons_eq_some.1 hrest
    have hwait' : t.phase b = .merged := eq_merged_of_rank (step_cases hu).rank.1
    have hmerged := step_cases hmerge
    have hingested := hmerged.rank.1
    have hother := hmerged.rank.2.2
    have hwait : s₂.phase b = .merged := eq_merged_of_rank hmerged.rank.2.1
    have hhold : s₂.Holds b := by cases hmerged; exact ⟨rfl, rfl⟩
    rw [run_holds_iff hmid hwait hwait' hhold, hother, mem_run_iff hpre, hstart (!b)]
    refine and_congr_right fun _ => ?_
    constructor
    · intro hfree hopen hbegun hpart
      have hlate := (mem_run_iff hmid _ _).1 hpart
      rw [hother] at hlate
      simp only [BranchOp.index] at hlate hbegun hingested
      have hearly := run_early hstart hpre fun x => by
        by_cases hx : x = b
        · rw [hx]; omega
        · rw [Bool.eq_not_of_ne hx]; omega
      cases hphase : s₁.phase (!b) with
      | building rebuilds =>
        have hrebuilds := hearly.2 _ _ hphase
        rw [hopen] at hrebuilds
        subst hrebuilds
        exact hfree hphase hpart
      | _ => simp only [hphase, Phase.rank] at hlate hbegun; omega
    · intro hfree hphase
      have hearly := run_early hstart hpre fun x => by
        by_cases hx : x = b
        · rw [hx, hingested]; simp [BranchOp.index]
        · rw [Bool.eq_not_of_ne hx, hphase]; simp [Phase.rank]
      have hopen := hearly.2 _ _ hphase
      exact hfree (by simpa using hopen) (by simp [hphase, Phase.rank, BranchOp.index])
  rw [Machine.always_iff]
  constructor
  · intro hfinds b pre mid post heq
    obtain ⟨t, ht, hpost⟩ := machine.run_append_eq_some.1
      (show machine.run s ((pre ++ (b, .graphMerge) :: mid) ++ (b, .activate) :: post) = some s' by
        simpa [heq] using hrun)
    exact (hone b pre mid post heq t ht).1
      (hfinds (pre ++ (b, .graphMerge) :: mid) (b, .activate) post t (by simpa using heq) ht)
  · rintro hfree pre ⟨b, op⟩ post t rfl ht
    cases op with
    | activate =>
      obtain ⟨u, hu, -⟩ := machine.run_split ht hrun
      have hrank := (step_cases hu).rank.1
      have hmem : (b, BranchOp.graphMerge) ∈ pre := by
        rw [mem_run_iff ht, hstart b, hrank]
        simp [Phase.rank, BranchOp.index]
      obtain ⟨before, mid, rfl⟩ := List.append_of_mem hmem
      have heq : (before ++ (b, .graphMerge) :: mid) ++ (b, .activate) :: post =
          before ++ (b, .graphMerge) :: (mid ++ (b, .activate) :: post) := by simp
      exact (hone b before mid post heq t ht).2 (hfree b before mid post heq)
    | _ => trivial

end SharedRow

end CodeIntel.Core
