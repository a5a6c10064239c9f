import CodeIntel.Core.JobCompletion

/-!
# Jobs that are never completed

The last subjob of a job to end is an ACTIVATE subjob: the activation of a revision waits
for its other rows, and all of them are stored before it. Its handler then completes the
job. A handler that stops between the mark and the completion leaves a job behind that
nobody completes, because a second delivery finds the subjob SUCCEEDED.
-/

namespace CodeIntel.Core

open Relational Schema Subjobs CodeIntel.Graph

/-! ## Activated revisions are finished -/

/-- Every revision of the plan is activated, and no two of them are the same. -/
def ActivatesAll (inp : Planner.Input) : Prop :=
  (∀ rev ∈ inp.revisions, rev.runActivate = true) ∧
    inp.revisions.Pairwise fun rev rev' => rev.key ≠ rev'.key

instance (inp : Planner.Input) : Decidable (ActivatesAll inp) :=
  inferInstanceAs (Decidable (_ ∧ _))

def rowRevision (r : Subjob) : String × String × String × String :=
  (r.workspaceId, r.branch, r.revision, r.commitHash)

/-- Nothing of the revision of an ACTIVATE row is unfinished. -/
def RevisionFinished (db : Database) (a : Subjob) : Prop :=
  ∀ r ∈ db.subjobs, sameRevision a r = true → r.layer ≠ .activate → depFinished r = true

/-- The rows of a revision are stored before its ACTIVATE row, and finished before its
activation. -/
structure RevisionInv (plan : JobPlan) (s : JobState) : Prop extends JobInv plan s where
  ahead : ∀ a ∈ s.db.subjobs, a.repoIndexingJobId = plan.jobId → a.layer = .activate →
    ∀ row ∈ plan.rows, Planner.inputRevision row = rowRevision a → Stored s.db row
  finished : ∀ a ∈ s.db.subjobs, a.repoIndexingJobId = plan.jobId → a.layer = .activate →
    depFinished a = true → RevisionFinished s.db a
  committed : ∀ w ∈ s.workers, w.payload.repoIndexingJobId = plan.jobId →
    w.payload.layer = .activate → w.phase = .executed ∨ w.phase = .marked →
      ∀ a ∈ s.db.subjobs, w.payload.matchesRow a = true → RevisionFinished s.db a
  origin : ∀ r ∈ s.db.subjobs, r.repoIndexingJobId = plan.jobId → depFinished r = true ∨
    ∃ row ∈ plan.rows, sameScope r (newSubjob 0 row .queued "" "" none) = true

variable {plan : JobPlan} {s s' : JobState} {a : JobStep}

section Revision

theorem Unplanned.revisionInv (h : Unplanned plan s) : RevisionInv plan s :=
  ⟨h.jobInv, fun r hr hjob => absurd hjob (h.fresh r hr),
    fun r hr hjob => absurd hjob (h.fresh r hr), fun w hw hjob => absurd hjob (h.workers w hw).1,
    fun r hr hjob => absurd hjob (h.fresh r hr)⟩

variable {r r' : Subjob}

theorem rowRevision_progress {marks : String → Prop} (h : RowProgress marks r r') :
    rowRevision r' = rowRevision r :=
  (congrArg rowRevision h.identity_eq :)

theorem sameScope_progress {marks : String → Prop} {new : Subjob} (h : RowProgress marks r r') :
    sameScope r' new = sameScope r new :=
  (congrArg (fun r => sameScope r new) h.identity_eq :)

theorem sameRevision_progress {marks : String → Prop} {t t' : Subjob}
    (hr : RowProgress marks r r') (ht : RowProgress marks t t') :
    sameRevision r' t' = sameRevision r t := by
  have hleft := congrArg (fun r => sameRevision r t') hr.identity_eq
  have hright := congrArg (sameRevision r) ht.identity_eq
  exact hleft.trans hright

theorem sameRevision_iff {t : Subjob} :
    sameRevision r t = true ↔ t.repoIndexingJobId = r.repoIndexingJobId ∧ t.repoId = r.repoId ∧
      rowRevision t = rowRevision r := by
  simp only [sameRevision, rowRevision, Bool.and_eq_true, decide_eq_true_eq, Prod.mk.injEq]
  tauto

theorem revisionFinished_of_blocking {db : Database} {p : Payload}
    (hmatch : p.matchesRow r = true) (h : ∀ dep ∈ db.subjobs, blocking p dep = false) :
    RevisionFinished db r := by
  intro dep hdep hsame hlayer
  have hfree := h dep hdep
  rw [blocking, dependencyOf_of_matchesRow hmatch, hsame] at hfree
  simpa [hlayer] using hfree

/-- Once the ACTIVATE row is stored, its revision gets no further unfinished row. -/
theorem RevisionInv.revisionFinished_step (h : RevisionInv plan s)
    (heffect : StepEffect plan s a s') (hr : r ∈ s.db.subjobs)
    (hprogress : RowProgress (Marks s s') r r') (hjob : r.repoIndexingJobId = plan.jobId)
    (hlayer : r.layer = .activate) (hfinished : RevisionFinished s.db r) :
    RevisionFinished s'.db r' := by
  intro t' ht' hsame htlayer
  rcases heffect.rows.origin t' ht' with ⟨t, ht, htprogress⟩ | ⟨hfresh, hinserted⟩
  · rw [sameRevision_progress hprogress htprogress] at hsame
    rw [htprogress.layer_eq] at htlayer
    have htfinished := hfinished t ht hsame htlayer
    rw [finished_progress htprogress htfinished]
    exact htfinished
  · obtain ⟨htjob, -, htrevision⟩ := sameRevision_iff.1 hsame
    rw [(rowKey_progress hprogress).2.1, hjob] at htjob
    rw [rowRevision_progress hprogress] at htrevision
    cases hinserted with
    | other hother => exact absurd htjob hother
    | queued before after row hrows hbefore hid hscope hstatus hlive =>
      -- the plan lists the row before the ACTIVATE row, so it is not new
      have hmem : row ∈ plan.rows := by simp [hrows]
      have hrow : Planner.inputRevision row = rowRevision r :=
        (sameScope_columns hscope).2.2.2.1.symm.trans htrevision
      obtain ⟨t₀, ht₀, hid₀, -⟩ := h.ahead r hr hjob hlayer row hmem hrow
      exact absurd (hid₀.trans hid.symm) (hfresh t₀ ht₀)
    | skipped hscip hstatus hlive hstored => simp [depFinished, hstatus]

theorem RevisionInv.ahead_step (hplan : ActivatesAll plan.input) (h : RevisionInv plan s)
    (heffect : StepEffect plan s a s') (hr' : r' ∈ s'.db.subjobs)
    (hjob : r'.repoIndexingJobId = plan.jobId) (hlayer : r'.layer = .activate) {row : CreateInput}
    (hrow : row ∈ plan.rows) (hrevision : Planner.inputRevision row = rowRevision r') :
    Stored s'.db row := by
  rcases heffect.rows.origin r' hr' with ⟨r, hr, hprogress⟩ | ⟨-, hinserted⟩
  · rw [(rowKey_progress hprogress).2.1] at hjob
    rw [hprogress.layer_eq] at hlayer
    rw [rowRevision_progress hprogress] at hrevision
    exact (h.ahead r hr hjob hlayer row hrow hrevision).progress heffect.rows
  · cases hinserted with
    | other hother => exact absurd hjob hother
    | queued before after row₀ hrows hbefore hid hscope hstatus hlive =>
      obtain ⟨-, -, -, hrevision₀, hlayer₀⟩ := sameScope_columns hscope
      have horder := Planner.build_activate_last plan.built hplan.2
      rw [hrows] at hrow horder
      rcases List.mem_append.1 hrow with hrow | hrow
      · exact (hbefore row hrow).progress heffect.rows
      rcases List.mem_cons.1 hrow with rfl | hrow
      · exact ⟨r', hr', hid, hscope⟩
      · -- no row of the revision comes after the activation
        have hlast := (List.pairwise_cons.1 (List.pairwise_append.1 horder).2.1).1 row hrow
        exact absurd (hrevision₀.symm.trans hrevision.symm) (hlast (hlayer₀.symm.trans hlayer))
    | skipped hscip hstatus hlive hstored =>
      rw [hlayer] at hscip
      cases hscip

theorem RevisionInv.finished_step (h : RevisionInv plan s) (heffect : StepEffect plan s a s')
    (hr' : r' ∈ s'.db.subjobs) (hjob : r'.repoIndexingJobId = plan.jobId)
    (hlayer : r'.layer = .activate) (hfinished : depFinished r' = true) :
    RevisionFinished s'.db r' := by
  rcases heffect.rows.origin r' hr' with ⟨r, hr, hprogress⟩ | ⟨-, hinserted⟩
  · rw [(rowKey_progress hprogress).2.1] at hjob
    rw [hprogress.layer_eq] at hlayer
    apply h.revisionFinished_step heffect hr hprogress hjob hlayer
    rcases activate_finished_progress hprogress hlayer hfinished with hold | ⟨w, hw, hid, hmarked⟩
    · exact h.finished r hr hjob hlayer hold
    · have hmatch := h.marks_row hw hr hid
      obtain ⟨-, hwjob, -, -, hwlayer⟩ := ClaimScope.of_matchesRow hmatch
      have hwlayer : w.payload.layer = .activate := hwlayer.symm.trans hlayer
      exact h.committed w hw (hwjob.symm.trans hjob) hwlayer (.inl (hmarked hwlayer).1) r hr hmatch
  · have hscip := (hinserted.of_job hjob).2 hfinished
    rw [hlayer] at hscip
    cases hscip

theorem RevisionInv.committed_step (h : RevisionInv plan s) (heffect : StepEffect plan s a s')
    {w' : Worker} (hw' : w' ∈ s'.workers) (hjob : w'.payload.repoIndexingJobId = plan.jobId)
    (hlayer : w'.payload.layer = .activate) (hphase : w'.phase = .executed ∨ w'.phase = .marked)
    (hr' : r' ∈ s'.db.subjobs) (hmatch : w'.payload.matchesRow r' = true) :
    RevisionFinished s'.db r' := by
  -- a handler that had committed before the step
  have hbefore : ∀ w ∈ s.workers, w'.payload = w.payload →
      w.phase = .executed ∨ w.phase = .marked → RevisionFinished s'.db r' := by
    intro w hw hpayload hphase
    rw [hpayload] at hjob hlayer hmatch
    have hid' := (ClaimScope.of_matchesRow hmatch).1
    rcases heffect.rows.origin r' hr' with ⟨r, hr, hprogress⟩ | ⟨hfresh, -⟩
    · rw [matchesRow_progress hprogress] at hmatch
      obtain ⟨-, hrjob, -, -, hrlayer⟩ := ClaimScope.of_matchesRow hmatch
      exact h.revisionFinished_step heffect hr hprogress (hrjob.trans hjob) (hrlayer.trans hlayer)
        (h.committed w hw hjob hlayer hphase r hr hmatch)
    · obtain ⟨r, hr, hrmatch⟩ := h.claimed w hw
      exact absurd ((ClaimScope.of_matchesRow hrmatch).1.trans hid'.symm) (hfresh r hr)
  cases heffect.workers.origin w' hw' with
  | kept hw => exact hbefore w' hw rfl hphase
  | claimed r hr hrmatch hworking =>
    rw [hworking] at hphase
    rcases hphase with hphase | hphase <;> cases hphase
  | executed w hw hpayload hdone =>
    rw [hpayload] at hlayer hmatch
    exact revisionFinished_of_blocking hmatch (hdone hlayer).finished
  | failed w hw hpayload message hfailed =>
    rw [hfailed] at hphase
    rcases hphase with hphase | hphase <;> cases hphase
  | marked w hw hpayload hexecuted =>
    exact hbefore w hw hpayload (.inl (hexecuted (hpayload ▸ hlayer)))

theorem RevisionInv.origin_step (h : RevisionInv plan s) (heffect : StepEffect plan s a s')
    (hr' : r' ∈ s'.db.subjobs) (hjob : r'.repoIndexingJobId = plan.jobId) :
    depFinished r' = true ∨
      ∃ row ∈ plan.rows, sameScope r' (newSubjob 0 row .queued "" "" none) = true := by
  rcases heffect.rows.origin r' hr' with ⟨r, hr, hprogress⟩ | ⟨-, hinserted⟩
  · rw [(rowKey_progress hprogress).2.1] at hjob
    rcases h.origin r hr hjob with hfinished | ⟨row, hrow, hscope⟩
    · rw [finished_progress hprogress hfinished]
      exact .inl hfinished
    · exact .inr ⟨row, hrow, (sameScope_progress hprogress).trans hscope⟩
  · cases hinserted with
    | other hother => exact absurd hjob hother
    | queued before after row hrows hbefore hid hscope hstatus hlive =>
      exact .inr ⟨row, by simp [hrows], hscope⟩
    | skipped hscip hstatus hlive hstored => exact .inl (by simp [depFinished, hstatus])

theorem RevisionInv.step (hplan : ActivatesAll plan.input) (h : RevisionInv plan s)
    (hstep : (jobMachine plan).step s a = some s') : RevisionInv plan s' := by
  have heffect := job_step_effect h.unique h.planner hstep
  exact ⟨h.toJobInv.step hstep,
    fun _ hr hjob hlayer _ hrow hrevision =>
      h.ahead_step hplan heffect hr hjob hlayer hrow hrevision,
    fun _ hr hjob hlayer hfinished => h.finished_step heffect hr hjob hlayer hfinished,
    fun _ hw hjob hlayer hphase _ hr hmatch =>
      h.committed_step heffect hw hjob hlayer hphase hr hmatch,
    fun _ hr hjob => h.origin_step heffect hr hjob⟩

/-- Wherever handlers and planners stop: a finished ACTIVATE row has an activated manifest, and
all that is planned for its revision is stored and finished. -/
theorem activated_revision_done (hplan : ActivatesAll plan.input) (hs : Unplanned plan s)
    {steps : List JobStep} (hrun : (jobMachine plan).run s steps = some s')
    (hr : r ∈ s'.db.subjobs) (hjob : r.repoIndexingJobId = plan.jobId)
    (hlayer : r.layer = .activate) (hfinished : depFinished r = true) :
    ReachedReady s'.db (rowKey r) ∧ RevisionFinished s'.db r ∧
      ∀ row ∈ plan.rows, Planner.inputRevision row = rowRevision r → Stored s'.db row := by
  have hinv : RevisionInv plan s' := Machine.run_invariant (RevisionInv plan)
    (fun _ _ _ h hstep => h.step hplan hstep) hs.revisionInv hrun
  exact ⟨hinv.activated r hr hjob hlayer hfinished, hinv.finished r hr hjob hlayer hfinished,
    hinv.ahead r hr hjob hlayer⟩

theorem activated_revision_done_main :
    ∃ s, (jobMachine branchPlan).run plannedState plannedThenActivated = some s ∧
      ∃ r ∈ s.db.subjobs, r.layer = .activate ∧ ReachedReady s.db (rowKey r) := by
  refine (jobMachine branchPlan).exists_run_of_any_imp
    (fun s => ∃ r ∈ s.db.subjobs, r.repoIndexingJobId = branchPlan.jobId ∧ r.layer = .activate ∧
      depFinished r = true) (by decide +kernel) ?_
  rintro s hrun ⟨r, hr, hjob, hlayer, hfinished⟩
  exact ⟨r, hr, hlayer, (activated_revision_done (by decide +kernel) plannedState_unplanned hrun
    hr hjob hlayer hfinished).1⟩

end Revision

/-! ## The handler that completes the job -/

/-- The step stops a handler of the job between its mark and the completion of the job. -/
def JobStep.strands (plan : JobPlan) (s : JobState) : JobStep → Bool
  | .leave i => s.workers[i]?.any fun w =>
      w.payload.repoIndexingJobId = plan.jobId && w.phase = .marked
  | _ => false

/-- A job in progress whose whole plan is stored and finished is about to be completed. -/
structure HandoverInv (plan : JobPlan) (s : JobState) : Prop extends RevisionInv plan s where
  pending : AllFinished plan.jobId s.db → (∀ row ∈ plan.rows, Stored s.db row) →
    ∀ j ∈ s.db.jobs, j.id = plan.jobId → j.status = .inProgress →
      ∃ w ∈ s.workers, w.payload.repoIndexingJobId = plan.jobId ∧ w.phase = .marked

theorem JobInv.completes (h : JobInv plan s) {i : ℕ} {w : Worker} (hi : s.workers[i]? = some w)
    (hjob : w.payload.repoIndexingJobId = plan.jobId) (hfinished : AllFinished plan.jobId s.db)
    (hstep : (jobMachine plan).step s (.complete i) = some s') {j' : RepoIndexingJob}
    (hj' : j' ∈ s'.db.jobs) (hid : j'.id = plan.jobId) : j'.status ≠ .inProgress := by
  obtain ⟨v, hv, hstep⟩ := Option.bind_eq_some_iff.1 hstep
  obtain rfl : v = w := Option.some.inj (hv.symm.trans hi)
  obtain ⟨-, hstep⟩ := Option.ite_none_right_eq_some.1 hstep
  cases hstep
  obtain ⟨j, hj, rfl⟩ := mem_updateWhere.1 hj'
  have hjid : j.id = plan.jobId := by
    split_ifs at hid <;> exact hid
  obtain ⟨r, hr, hmatch⟩ := h.claimed v (List.mem_of_getElem? hi)
  obtain ⟨-, hrjob, -, hrrepo, -⟩ := ClaimScope.of_matchesRow hmatch
  obtain ⟨hrepo, htype, -⟩ := h.started r hr (hrjob.trans hjob) j hj hjid
  have hnone : (s.db.subjobs.any fun t => t.repoIndexingJobId = j.id && !depFinished t) = false := by
    simp only [List.any_eq_false, Bool.and_eq_true, decide_eq_true_eq, not_and, hjid]
    intro t ht htjob
    simp [hfinished t ht htjob]
  split_ifs with hcond
  · exact fun hst => nomatch hst
  · intro hst
    apply hcond
    simp only [hnone, Bool.not_false, Bool.and_true, Bool.and_eq_true, decide_eq_true_eq]
    exact ⟨⟨⟨hjid.trans hjob.symm, hrepo.trans hrrepo⟩, htype⟩, hst⟩

theorem RevisionInv.marked_of_ended (h : RevisionInv plan s) (heffect : StepEffect plan s a s')
    (hfinished : AllFinished plan.jobId s'.db) {r : Subjob} (hr : r ∈ s.db.subjobs)
    (hjob : r.repoIndexingJobId = plan.jobId) (hlayer : r.layer = .activate)
    (hunfinished : depFinished r = false) :
    ∃ w ∈ s'.workers, w.payload.repoIndexingJobId = plan.jobId ∧ w.phase = .marked := by
  obtain ⟨r', hr', hprogress⟩ := heffect.rows.kept r hr
  have hfinished' := hfinished r' hr' ((rowKey_progress hprogress).2.1.trans hjob)
  rcases activate_finished_progress hprogress hlayer hfinished' with hold | ⟨w, hw, hid, hmarked⟩
  · rw [hunfinished] at hold
    cases hold
  · obtain ⟨-, hwjob, -, -, hwlayer⟩ := ClaimScope.of_matchesRow (h.marks_row hw hr hid)
    obtain ⟨-, w', hw', hpayload, hphase⟩ := hmarked (hwlayer.symm.trans hlayer)
    exact ⟨w', hw', (hpayload ▸ hwjob.symm).trans hjob, hphase⟩

theorem stored_before (heffect : StepEffect plan s a s')
    (hfinished : AllFinished plan.jobId s'.db) {row : CreateInput} (hrow : row ∈ plan.rows)
    (hstored : Stored s'.db row) : Stored s.db row := by
  obtain ⟨r', hr', hid, hscope⟩ := hstored
  rcases heffect.rows.origin r' hr' with ⟨r, hr, hprogress⟩ | ⟨-, hinserted⟩
  · exact ⟨r, hr, hprogress.id_eq.symm.trans hid, (sameScope_progress hprogress).symm.trans hscope⟩
  · have hjob := (sameScope_columns hscope).1.trans (plan.row_job hrow)
    cases hinserted with
    | other hother => exact absurd hjob hother
    | queued before after row₀ hrows hbefore hid₀ hscope₀ hstatus hlive =>
      have hterminal := terminal_of_depFinished (hfinished r' hr' hjob)
      rw [hstatus] at hterminal
      exact absurd hterminal (by decide)
    | skipped hscip hstatus hlive hall => exact hall row hrow

/-- With its plan stored and all its ACTIVATE rows finished, a job has no unfinished row. -/
theorem RevisionInv.allFinished (hplan : ActivatesAll plan.input) (h : RevisionInv plan s)
    (hstored : ∀ row ∈ plan.rows, Stored s.db row)
    (hactivates : ∀ r ∈ s.db.subjobs, r.repoIndexingJobId = plan.jobId → r.layer = .activate →
      depFinished r = true) : AllFinished plan.jobId s.db := by
  intro r hr hjob
  by_cases hlayer : r.layer = .activate
  · exact hactivates r hr hjob hlayer
  rcases h.origin r hr hjob with hfinished | ⟨row, hrow, hscope⟩
  · exact hfinished
  -- the activation of the row's revision
  obtain ⟨rev, hrev, hof⟩ := Planner.mem_build plan.built hrow
  obtain ⟨row', hrow', hactivate, hof'⟩ :=
    Planner.activate_mem_build plan.built hrev (hplan.1 rev hrev)
  obtain ⟨r', hr', -, hscope'⟩ := hstored row' hrow'
  obtain ⟨-, -, hrepo, hrevision, -⟩ := sameScope_columns hscope
  obtain ⟨hjob', -, hrepo', hrevision', hlayer'⟩ := sameScope_columns hscope'
  have hjob' := hjob'.trans (plan.row_job hrow')
  have hlayer' := hlayer'.trans hactivate
  apply h.finished r' hr' hjob' hlayer' (hactivates r' hr' hjob' hlayer') r hr _ hlayer
  rw [sameRevision_iff]
  refine ⟨hjob.trans hjob'.symm, ?_, ?_⟩
  · rw [hrepo, hrepo', hof.repo, hof'.repo]
  · rw [rowRevision, rowRevision, hrevision, hrevision', hof.revision, hof'.revision]

/-- A job that is in progress after a step, with its plan stored, was in progress before. -/
theorem JobInv.inProgress_before (h : JobInv plan s)
    (hstored : ∀ row ∈ plan.rows, Stored s.db row) {j : RepoIndexingJob} (hj : j ∈ s.db.jobs)
    (hid : j.id = plan.jobId) {st : JobStatus} (hchange : StatusChange plan s a j.status st)
    (hst : st = .inProgress) : j.status = .inProgress := by
  obtain ⟨row, hrow⟩ := List.exists_mem_of_ne_nil _ plan.rows_ne_nil
  obtain ⟨r, hr, -, hscope⟩ := hstored row hrow
  have hjob := (sameScope_columns hscope).1.trans (plan.row_job hrow)
  have hstarted := (h.started r hr hjob j hj hid).2.2
  generalize j.status = st₀ at hchange hstarted
  cases hchange with
  | keep => exact hst
  | fail | complete => cases hst
  | start _ now hstep hopen => exact hopen.resolve_left hstarted

theorem HandoverInv.step (hplan : ActivatesAll plan.input) (h : HandoverInv plan s)
    (hcond : a.strands plan s = false) (hstep : (jobMachine plan).step s a = some s') :
    HandoverInv plan s' := by
  have heffect := job_step_effect h.unique h.planner hstep
  refine ⟨h.toRevisionInv.step hplan hstep, ?_⟩
  intro hfinished hstored j' hj' hid hstatus
  by_cases hactivates : ∀ r ∈ s.db.subjobs, r.repoIndexingJobId = plan.jobId →
      r.layer = .activate → depFinished r = true
  · -- nothing ended in this step: the handler that was about to complete the job still is
    have hstored := fun row hrow => stored_before heffect hfinished hrow (hstored row hrow)
    have hfinished := h.allFinished hplan hstored hactivates
    obtain ⟨j, hj, hjid, -, -, hchange⟩ := heffect.jobs.origin j' hj' hid
    have hbefore := h.inProgress_before hstored hj hjid hchange hstatus
    obtain ⟨w, hw, hjob, hmarked⟩ := h.pending hfinished hstored j hj hjid hbefore
    rcases heffect.workers.marked w hw hmarked with hw' | ⟨i, hi, rfl | rfl⟩
    · exact ⟨w, hw', hjob, hmarked⟩
    · simp [JobStep.strands, hi, hjob, hmarked] at hcond
    · exact absurd hstatus (h.completes hi hjob hfinished hstep hj' hid)
  · simp only [not_forall] at hactivates
    obtain ⟨r, hr, hjob, hlayer, hunfinished⟩ := hactivates
    exact h.marked_of_ended heffect hfinished hr hjob hlayer (Bool.eq_false_iff.2 hunfinished)

theorem Unplanned.handoverInv (h : Unplanned plan s) : HandoverInv plan s := by
  refine ⟨h.revisionInv, ?_⟩
  intro _ hstored
  obtain ⟨row, hrow⟩ := List.exists_mem_of_ne_nil _ plan.rows_ne_nil
  obtain ⟨r, hr, -, hscope⟩ := hstored row hrow
  exact absurd ((sameScope_columns hscope).1.trans (plan.row_job hrow)) (h.fresh r hr)

/-- If every revision of the plan is activated and no handler stops between the mark of an
ACTIVATE subjob and the completion of the job, a job whose whole plan is stored and
finished, with no handler at work for it, is not in progress. -/
theorem finished_job_not_in_progress {plan : JobPlan} (hplan : ActivatesAll plan.input)
    {s₀ s : JobState} {steps : List JobStep} (hs₀ : Unplanned plan s₀)
    (hcond : (jobMachine plan).Always (fun s a => a.strands plan s = false) s₀ steps)
    (hrun : (jobMachine plan).run s₀ steps = some s) (hfinished : AllFinished plan.jobId s.db)
    (hstored : ∀ row ∈ plan.rows, Stored s.db row)
    (hidle : ∀ w ∈ s.workers, w.payload.repoIndexingJobId ≠ plan.jobId) {j : RepoIndexingJob}
    (hj : j ∈ s.db.jobs) (hid : j.id = plan.jobId) : j.status ≠ .inProgress := by
  have hinv : HandoverInv plan s := Machine.invariant_of_always (HandoverInv plan)
    (fun _ _ _ h hcond hstep => h.step hplan hcond hstep) hs₀.handoverInv hcond hrun
  intro hstatus
  obtain ⟨w, hw, hjob, -⟩ := hinv.pending hfinished hstored j hj hid hstatus
  exact hidle w hw hjob

/-- The planned sample job ends up completed, with no handler left. -/
theorem planned_job_not_in_progress :
    ∃ s, (jobMachine branchPlan).run plannedState plannedThenActivated = some s ∧
      ∀ j ∈ s.db.jobs, j.id = branchPlan.jobId → j.status ≠ .inProgress := by
  refine (jobMachine branchPlan).exists_run_of_any_imp
    (fun s => AllFinished branchPlan.jobId s.db ∧ (∀ row ∈ branchPlan.rows, Stored s.db row) ∧
      ∀ w ∈ s.workers, w.payload.repoIndexingJobId ≠ branchPlan.jobId) (by decide +kernel) ?_
  rintro s hrun ⟨hfinished, hstored, hidle⟩ j hj hid
  exact finished_job_not_in_progress (by decide +kernel) plannedState_unplanned (by decide +kernel)
    hrun hfinished hstored hidle hj hid

/-- The handler of the last activation stops after its mark. Neither a second delivery of its
message nor the sweeps of the dispatcher find anything to do, and the job stays in progress. -/
theorem stopped_handler_strands_job :
    ActivatesAll branchPlan.input ∧ Unplanned branchPlan plannedState ∧
      ∃ s, (jobMachine branchPlan).run plannedState
          ([.start 1, .plan 2, .plan 3, .plan 4, .plan 5, .plan 6, .plan 7] ++
            (branchPlan.rows.flatMap fun row => attempt row ++
              if row.layer ≠ .activate then []
              else if row.branch = "main" then [.complete 0] else [.leave 0]) ++
            (branchPlan.rows.map fun row => .claim (firstTask row) (firstRun row)) ++
            [.store (.requeueExpiredLeases 2000 2000 10 []),
              .store (.reconcileTerminalFailures 2000 10 [] fun _ => false), .dispatch 10]) =
          some s ∧
        AllFinished branchPlan.jobId s.db ∧ (∀ row ∈ branchPlan.rows, Stored s.db row) ∧
        s.workers.length = 0 ∧
        ∃ j ∈ s.db.jobs, j.id = branchPlan.jobId ∧ j.status = .inProgress :=
  ⟨by decide +kernel, plannedState_unplanned,
    (jobMachine branchPlan).exists_run_of_any _ (by decide +kernel)⟩

end CodeIntel.Core
