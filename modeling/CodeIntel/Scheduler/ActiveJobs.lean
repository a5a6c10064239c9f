import CodeIntel.Scheduler.Schedule

/-!
# At most one active job for a branch

The insert of `ScheduleRepoIndex` is guarded by what its snapshot shows. A job of
the branch that was committed after the snapshot was taken is not seen, even
though the advisory lock kept the two statements apart. When every conflicting
job is seen, no run gives a branch two active jobs.
-/

namespace CodeIntel.Scheduler

open Relational Schema Text

/-! ## Refs of one branch -/

/-- Two refs that are equal up to a `refs/heads/` prefix. -/
def sameBranch (a b : String) : Bool :=
  a = b || a = "refs/heads/" ++ b || b = "refs/heads/" ++ a

theorem sameBranch_comm (a b : String) : sameBranch a b = sameBranch b a := by
  have heq : (a = b) = (b = a) := propext eq_comm
  unfold sameBranch
  simp only [heq, Bool.or_assoc, Bool.or_comm (decide (a = _))]

theorem hasPrefix_of_trimPrefix_ne {s p : String} (h : trimPrefix s p ≠ s) :
    hasPrefix s p = true := by
  by_contra hp
  apply h
  unfold trimPrefix
  rw [if_neg hp]

theorem ne_refsHeads_append (s : String) : s ≠ "refs/heads/" ++ s := by
  intro h
  have hlen := congrArg (fun t : String => t.toList.length) h
  simp only [String.toList_append, List.length_append] at hlen
  have : ("refs/heads/" : String).toList.length = 11 := by decide
  omega

theorem mem_schedulerRefCandidates {ref c : String} (href : trimSpace ref = ref) (hne : ref ≠ "") :
    c ∈ schedulerRefCandidates ref ↔
      c ≠ "" ∧ (c = ref ∨
        if trimPrefix ref "refs/heads/" ≠ ref ∧ trimSpace (trimPrefix ref "refs/heads/") ≠ ""
        then c = trimSpace (trimPrefix ref "refs/heads/")
        else c = trimSpace ("refs/heads/" ++ ref)) := by
  unfold schedulerRefCandidates
  simp only [href, if_neg hne, List.mem_eraseDups, List.mem_filter, decide_eq_true_eq]
  split_ifs with h
  · simp [href, and_comm]
  · simp [href, and_comm]

/-- The candidates of a ref hold every ref of its branch, except for a ref with one more
prefix than a ref that has one already. -/
theorem mem_candidates_of_sameBranch {ref other : String} (href : trimSpace ref = ref)
    (hother : trimSpace other = other) (hne : ref ≠ "") (hne' : other ≠ "")
    (h : sameBranch ref other = true) :
    other ∈ schedulerRefCandidates ref ∨
      (hasPrefix ref "refs/heads/" = true ∧ other = "refs/heads/" ++ ref) := by
  rw [mem_schedulerRefCandidates href hne]
  simp only [sameBranch, Bool.or_eq_true, decide_eq_true_eq] at h
  obtain (rfl | rfl) | rfl := h
  · exact .inl ⟨hne', .inl rfl⟩
  · -- the ref is the longer one: its stripped form is the other ref
    left
    refine ⟨hne', .inr ?_⟩
    rw [trimPrefix_append, hother, if_pos ⟨ne_refsHeads_append other, hne'⟩]
  · by_cases hstripped : trimPrefix ref "refs/heads/" ≠ ref ∧
        trimSpace (trimPrefix ref "refs/heads/") ≠ ""
    · exact .inr ⟨hasPrefix_of_trimPrefix_ne hstripped.1, rfl⟩
    · left
      refine ⟨hne', .inr ?_⟩
      rw [if_neg hstripped, hother]

/-! ## Conflicting jobs -/

/-- Two active jobs of one repository whose refs are of one branch, or one of which
covers the whole repository. -/
def conflict (j j' : RepoIndexingJob) : Bool :=
  j.repoId = j'.repoId && isActive j && isActive j' &&
    (jobRef j = "" || jobRef j' = "" || sameBranch (jobRef j) (jobRef j'))

/-- No two rows of the job table conflict. -/
def OneActivePerBranch (jobs : List RepoIndexingJob) : Prop :=
  jobs.Pairwise fun j j' => conflict j j' = false

instance (jobs : List RepoIndexingJob) : Decidable (OneActivePerBranch jobs) :=
  inferInstanceAs (Decidable (List.Pairwise _ _))

/-- The jobs a statement would conflict with. -/
def Statement.overlaps (st : Statement) (j : RepoIndexingJob) : Bool :=
  conflict j st.row

/-- The snapshot has the job, and its ref is not a second prefix on a prefixed ref. -/
def Statement.sees (st : Statement) (j : RepoIndexingJob) : Bool :=
  (st.snapshot.any fun j' => j'.id = j.id) &&
    !(hasPrefix st.ref "refs/heads/" && jobRef j = "refs/heads/" ++ st.ref)

theorem Statement.jobRef_row (st : Statement) : jobRef st.row = st.ref := by
  unfold jobRef Statement.row
  by_cases h : st.ref = "" <;> simp [h]

variable {s s' : SchedulerState} {st : Statement} {j : RepoIndexingJob} {a : SchedulerStep}

theorem overlaps_iff :
    st.overlaps j = true ↔ j.repoId = st.repoId ∧ isActive j = true ∧
      (jobRef j = "" ∨ st.ref = "" ∨ sameBranch st.ref (jobRef j) = true) := by
  have hactive : isActive st.row = true := rfl
  have hrepo : st.row.repoId = st.repoId := rfl
  unfold Statement.overlaps conflict
  rw [st.jobRef_row, sameBranch_comm (jobRef j), hactive, hrepo]
  simp [and_assoc, or_assoc]

/-- A commit finds every job it would conflict with in its snapshot. -/
def freshCommit (s : SchedulerState) : SchedulerStep → Bool
  | .commit c => match s.calls c with
    | .locked st => st.existing.isSome || s.db.jobs.all fun j => !st.overlaps j || st.sees j
    | _ => true
  | _ => true

/-! ## What a step does -/

/-- A change of job rows that keeps what a job is for and activates none. -/
structure Settling (f : RepoIndexingJob → RepoIndexingJob) : Prop where
  id : ∀ j, (f j).id = j.id
  repoId : ∀ j, (f j).repoId = j.repoId
  ref : ∀ j, jobRef (f j) = jobRef j
  active : ∀ j, isActive (f j) = true → isActive j = true

theorem Settling.refl : Settling fun j => j :=
  ⟨fun _ => rfl, fun _ => rfl, fun _ => rfl, fun _ h => h⟩

theorem Settling.ite {cond : RepoIndexingJob → Bool} {set : RepoIndexingJob → RepoIndexingJob}
    (hkeeps : ∀ j, (set j).id = j.id ∧ (set j).repoId = j.repoId ∧ jobRef (set j) = jobRef j)
    (hactive : ∀ j, cond j = true → isActive (set j) = true → isActive j = true) :
    Settling fun j => if cond j then set j else j := by
  constructor <;> intro j <;> by_cases h : cond j = true <;>
    simp only [h, if_true, hkeeps j, Bool.false_eq_true, if_false, imp_self]
  exact hactive j h

theorem settling_markFailed (now : Time) (jobId cause : String) :
    ∃ f, Settling f ∧ ∀ jobs,
      markRepoIndexJobFailedAfterEnqueueError now jobId cause jobs = jobs.map f := by
  refine ⟨_, ?_, updateWhere_eq_map _ _⟩
  refine Settling.ite (fun _ => ⟨rfl, rfl, rfl⟩) ?_
  intro j _ h
  cases h

theorem settling_takeJob (now : Time) (jobId : String) :
    ∃ f, Settling f ∧ ∀ jobs, takeJob now jobId jobs = jobs.map f := by
  refine ⟨_, ?_, updateWhere_eq_map _ _⟩
  refine Settling.ite (fun _ => ⟨rfl, rfl, rfl⟩) ?_
  intro j hcond _
  exact (Bool.and_eq_true_iff.1 hcond).2

theorem settling_finishJob (now : Time) (jobId : String) (failure : Option String) :
    ∃ f, Settling f ∧ ∀ jobs, finishJob now jobId failure jobs = jobs.map f := by
  refine ⟨_, ?_, updateWhere_eq_map _ _⟩
  refine Settling.ite (fun _ => ⟨rfl, rfl, rfl⟩) ?_
  intro j _ h
  cases failure <;> cases h

/-- Every open statement was open before, or has just taken its snapshot. -/
def StatementsKept (s s' : SchedulerState) : Prop :=
  ∀ c st, (s'.calls c).statement = some st →
    (s.calls c).statement = some st ∨
      st.snapshot = s'.db.jobs ∧ trimSpace st.ref = st.ref

theorem statementsKept_setCall (jobs : List RepoIndexingJob) (locks : List ℤ) {c : ℕ}
    {phase : CallPhase} (h : ∀ st, phase.statement = some st →
      (s.calls c).statement = some st ∨ st.snapshot = jobs ∧ trimSpace st.ref = st.ref) :
    StatementsKept s { (s.setJobs jobs).setCall c phase with locks } := by
  intro c' st hst
  by_cases hc : c' = c
  · subst hc
    have hphase : phase.statement = some st := by
      simpa [SchedulerState.setCall] using hst
    exact h st hphase
  · left
    simpa [SchedulerState.setCall, SchedulerState.setJobs, hc] using hst

/-- Everything a step does to the jobs and to the open statements: it settles jobs, or a
commit without a blocking job in its snapshot inserts its row. -/
theorem step_cases (h : schedulerMachine.step s a = some s') :
    StatementsKept s s' ∧
      ((∃ f, Settling f ∧ s'.db.jobs = s.db.jobs.map f) ∨
        ∃ c st, a = .commit c ∧ s.calls c = .locked st ∧ st.existing = none ∧
          (∀ j ∈ s.db.jobs, j.id ≠ st.jobId) ∧ s'.db.jobs = s.db.jobs ++ [st.row]) := by
  have hsame : ∃ f, Settling f ∧ s.db.jobs = s.db.jobs.map f :=
    ⟨_, Settling.refl, (List.map_id' _).symm⟩
  change schedulerStep s a = some s' at h
  cases a with
  | load c req =>
    cases hc : s.calls c <;> simp only [schedulerStep, hc, Option.some.injEq, reduceCtorEq] at h
    subst h
    refine ⟨statementsKept_setCall s.db.jobs s.locks ?_, .inl hsame⟩
    intro st hst
    unfold loadRequest at hst
    split_ifs at hst <;> cases hst
  | start c jobId now =>
    cases hc : s.calls c <;> simp only [schedulerStep, hc, Option.some.injEq, reduceCtorEq] at h
    subst h
    refine ⟨statementsKept_setCall s.db.jobs s.locks ?_, .inl hsame⟩
    intro st hst
    cases hst
    exact .inr ⟨rfl, trimSpace_trimSpace _⟩
  | acquire c =>
    cases hc : s.calls c <;> simp only [schedulerStep, hc, reduceCtorEq] at h
    split_ifs at h
    cases h
    refine ⟨statementsKept_setCall s.db.jobs _ ?_, .inl hsame⟩
    intro st hst
    left
    rw [hc]
    exact hst
  | commit c =>
    cases hc : s.calls c <;> simp only [schedulerStep, hc, Option.some.injEq, reduceCtorEq] at h
    rename_i st
    subst h
    refine ⟨statementsKept_setCall _ _ ?_, ?_⟩
    · intro st' hst'
      unfold commitStatement at hst'
      split at hst'
      · cases hst'
      · split_ifs at hst' <;> cases hst'
    · change (∃ f, Settling f ∧ (commitStatement s.db st).1 = s.db.jobs.map f) ∨
        ∃ c' st', SchedulerStep.commit c = .commit c' ∧ s.calls c' = .locked st' ∧
          st'.existing = none ∧ (∀ j ∈ s.db.jobs, j.id ≠ st'.jobId) ∧
          (commitStatement s.db st).1 = s.db.jobs ++ [st'.row]
      unfold commitStatement
      split
      · exact .inl hsame
      · rename_i hnone
        split_ifs with hid hrepo
        · exact .inl hsame
        · exact .inl hsame
        · refine .inr ⟨c, st, rfl, hc, hnone, ?_, rfl⟩
          intro j hj heq
          exact hid (List.any_eq_true.2 ⟨j, hj, decide_eq_true heq⟩)
  | enqueue c failure now =>
    cases hc : s.calls c <;> simp only [schedulerStep, hc, reduceCtorEq] at h
    rename_i jobId
    cases failure with
    | none =>
      cases h
      refine ⟨statementsKept_setCall s.db.jobs s.locks ?_, .inl hsame⟩
      intro st hst
      cases hst
    | some e =>
      cases h
      obtain ⟨f, hf, hmap⟩ := settling_markFailed now jobId e
      refine ⟨statementsKept_setCall _ s.locks ?_, .inl ⟨f, hf, hmap _⟩⟩
      intro st hst
      cases hst
  | take jobId now =>
    cases h
    obtain ⟨f, hf, hmap⟩ := settling_takeJob now jobId
    exact ⟨fun c st hst => .inl hst, .inl ⟨f, hf, hmap _⟩⟩
  | finish jobId failure now =>
    cases h
    obtain ⟨f, hf, hmap⟩ := settling_finishJob now jobId failure
    exact ⟨fun c st hst => .inl hst, .inl ⟨f, hf, hmap _⟩⟩

/-! ## The invariant -/

/-- A snapshot against the current jobs: no row is lost, and a job that is still active
was active, for the same repository and ref, when the snapshot was taken. -/
structure SnapshotOf (snapshot jobs : List RepoIndexingJob) : Prop where
  kept : ∀ j' ∈ snapshot, ∃ j ∈ jobs, j.id = j'.id
  active : ∀ j ∈ jobs, ∀ j' ∈ snapshot, j'.id = j.id → isActive j = true →
    isActive j' = true ∧ j'.repoId = j.repoId ∧ jobRef j' = jobRef j

structure SchedulerInv (s : SchedulerState) : Prop where
  ids : UniqueKey RepoIndexingJob.id s.db.jobs
  trimmed : ∀ j ∈ s.db.jobs, trimSpace (jobRef j) = jobRef j
  one : OneActivePerBranch s.db.jobs
  statements : ∀ c st, (s.calls c).statement = some st →
    trimSpace st.ref = st.ref ∧ SnapshotOf st.snapshot s.db.jobs

/-- A state from which the scheduler starts: no statement is open. -/
structure Initial (s : SchedulerState) : Prop where
  ids : UniqueKey RepoIndexingJob.id s.db.jobs
  trimmed : ∀ j ∈ s.db.jobs, trimSpace (jobRef j) = jobRef j
  one : OneActivePerBranch s.db.jobs
  closed : ∀ c, (s.calls c).statement = none

theorem Initial.inv (h : Initial s) : SchedulerInv s := by
  refine ⟨h.ids, h.trimmed, h.one, ?_⟩
  intro c st hst
  rw [h.closed c] at hst
  cases hst

section Snapshots

variable {snapshot jobs : List RepoIndexingJob}

theorem SnapshotOf.self (h : UniqueKey RepoIndexingJob.id jobs) : SnapshotOf jobs jobs := by
  constructor
  · intro j hj
    exact ⟨j, hj, rfl⟩
  · intro j hj j' hj' hid hactive
    obtain rfl := h.eq_of_key_eq hj' hj hid
    exact ⟨hactive, rfl, rfl⟩

variable {f : RepoIndexingJob → RepoIndexingJob}

theorem SnapshotOf.settle (h : SnapshotOf snapshot jobs) (hf : Settling f) :
    SnapshotOf snapshot (jobs.map f) := by
  constructor
  · intro j' hj'
    obtain ⟨j, hj, hid⟩ := h.kept j' hj'
    exact ⟨f j, List.mem_map_of_mem hj, (hf.id j).trans hid⟩
  · intro j hj j' hj' hid hactive
    obtain ⟨j₀, hj₀, rfl⟩ := List.mem_map.1 hj
    rw [hf.repoId, hf.ref]
    exact h.active j₀ hj₀ j' hj' (hid.trans (hf.id j₀)) (hf.active j₀ hactive)

theorem SnapshotOf.insert (h : SnapshotOf snapshot jobs) {new : RepoIndexingJob}
    (hnew : ∀ j ∈ jobs, j.id ≠ new.id) : SnapshotOf snapshot (jobs ++ [new]) := by
  constructor
  · intro j' hj'
    obtain ⟨j, hj, hid⟩ := h.kept j' hj'
    exact ⟨j, List.mem_append_left _ hj, hid⟩
  · intro j hj j' hj' hid hactive
    obtain hj | hj := List.mem_append.1 hj
    · exact h.active j hj j' hj' hid hactive
    · obtain rfl := List.mem_singleton.1 hj
      obtain ⟨j₀, hj₀, hid₀⟩ := h.kept j' hj'
      exact absurd (hid₀.trans hid) (hnew j₀ hj₀)

theorem OneActivePerBranch.settle (h : OneActivePerBranch jobs) (hf : Settling f) :
    OneActivePerBranch (jobs.map f) := by
  refine List.pairwise_map.2 (h.imp ?_)
  intro j j' hfree
  by_contra hconflict
  rw [Bool.not_eq_false] at hconflict
  simp only [conflict, hf.repoId, hf.ref, Bool.and_eq_true] at hconflict
  obtain ⟨⟨⟨hrepo, hj⟩, hj'⟩, hrefs⟩ := hconflict
  have htrue : conflict j j' = true := by
    simp only [conflict, Bool.and_eq_true]
    exact ⟨⟨⟨hrepo, hf.active j hj⟩, hf.active j' hj'⟩, hrefs⟩
  rw [hfree] at htrue
  cases htrue

end Snapshots

/-- A statement that found no blocking job overlaps none of the jobs it sees. -/
theorem not_overlaps_of_sees {jobs : List RepoIndexingJob} (hsnap : SnapshotOf st.snapshot jobs)
    (href : trimSpace st.ref = st.ref) (hnone : st.existing = none) (hj : j ∈ jobs)
    (htrim : trimSpace (jobRef j) = jobRef j) (hsees : st.sees j = true) :
    st.overlaps j = false := by
  by_contra hoverlaps
  rw [Bool.not_eq_false] at hoverlaps
  obtain ⟨hrepo, hactive, hrefs⟩ := overlaps_iff.1 hoverlaps
  simp only [Statement.sees, Bool.and_eq_true, List.any_eq_true, decide_eq_true_eq,
    Bool.not_eq_true'] at hsees
  obtain ⟨⟨j', hj', hid⟩, hdouble⟩ := hsees
  obtain ⟨hactive', hrepo', href'⟩ := hsnap.active j hj j' hj' hid hactive
  have hfree : st.blockedBy j' = false := argmax_filter_eq_none.1 hnone j' hj'
  -- the row of the snapshot has the ref of the job, so the query finds it
  have hblocked : st.blockedBy j' = true := by
    simp only [Statement.blockedBy, hrepo', hrepo, hactive', href', Bool.or_eq_true,
      decide_true, Bool.true_and, decide_eq_true_eq, List.contains_iff_mem]
    by_cases hst : st.ref = ""
    · exact .inl (.inl hst)
    · by_cases hempty : jobRef j = ""
      · exact .inl (.inr hempty)
      · have hsame : sameBranch st.ref (jobRef j) = true := by
          obtain h | h | h := hrefs
          · exact absurd h hempty
          · exact absurd h hst
          · exact h
        obtain hmem | ⟨hp, heq⟩ := mem_candidates_of_sameBranch href htrim hst hempty hsame
        · exact .inr hmem
        · simp [hp, heq] at hdouble
  rw [hfree] at hblocked
  cases hblocked

theorem schedulerInv_step (hs : SchedulerInv s) (hfresh : freshCommit s a = true)
    (h : schedulerMachine.step s a = some s') :
    SchedulerInv s' := by
  obtain ⟨hkept, hjobs⟩ := step_cases h
  -- the statements: an open one keeps its snapshot, a new one has just taken it
  have hstatements (hids : UniqueKey RepoIndexingJob.id s'.db.jobs)
      (hold : ∀ snapshot, SnapshotOf snapshot s.db.jobs → SnapshotOf snapshot s'.db.jobs) (c st)
      (hst : (s'.calls c).statement = some st) :
      trimSpace st.ref = st.ref ∧ SnapshotOf st.snapshot s'.db.jobs := by
    obtain hopen | ⟨hsnap, href⟩ := hkept c st hst
    · obtain ⟨href, hsnap⟩ := hs.statements c st hopen
      exact ⟨href, hold _ hsnap⟩
    · rw [hsnap]
      exact ⟨href, SnapshotOf.self hids⟩
  obtain ⟨f, hf, hjobs⟩ | ⟨c, st, rfl, hc, hnone, hid, hjobs⟩ := hjobs <;> rw [hjobs] at hstatements
  · have hids := hs.ids.map hf.id
    refine ⟨?_, ?_, ?_, ?_⟩ <;> rw [hjobs]
    · exact hids
    · refine List.forall_mem_map.2 fun j hj => ?_
      rw [hf.ref]
      exact hs.trimmed j hj
    · exact hs.one.settle hf
    · exact hstatements hids fun _ hsnap => hsnap.settle hf
  · have hids : UniqueKey RepoIndexingJob.id (s.db.jobs ++ [st.row]) := hs.ids.append_fresh hid
    obtain ⟨href, hsnap⟩ := hs.statements c st (by rw [hc]; rfl)
    refine ⟨?_, ?_, ?_, ?_⟩ <;> rw [hjobs]
    · exact hids
    · refine List.forall_mem_append.2 ⟨hs.trimmed, List.forall_mem_singleton.2 ?_⟩
      rw [st.jobRef_row, href]
    · refine List.pairwise_append.2 ⟨hs.one, List.pairwise_singleton _ _, fun j hj => ?_⟩
      refine List.forall_mem_singleton.2 ?_
      simp only [freshCommit, hc, hnone, Option.isSome_none, Bool.false_or, List.all_eq_true,
        Bool.or_eq_true, Bool.not_eq_true'] at hfresh
      obtain hover | hsees := hfresh j hj
      · exact hover
      · exact not_overlaps_of_sees hsnap href hnone hj (hs.trimmed j hj) hsees
    · exact hstatements hids fun _ hsnap => hsnap.insert hid

def quietScheduler : SchedulerState where
  db :=
    { orgs := [sampleOrg]
      repos := [sampleRepo]
      connections := [⟨3, 1, "github", "github", "null", none, 0⟩]
      repoConnections := [⟨3, 7, 0⟩] }
  calls _ := .idle
  locks := []

theorem quietScheduler_initial : Initial quietScheduler := by
  refine ⟨by decide, ?_, List.Pairwise.nil, fun _ => rfl⟩
  intro j hj
  cases hj

def callSteps (c : ℕ) (ref jobId : String) : List SchedulerStep :=
  [.load c ⟨1, 7, .index, ref⟩, .start c jobId 1, .acquire c, .commit c]

end CodeIntel.Scheduler
