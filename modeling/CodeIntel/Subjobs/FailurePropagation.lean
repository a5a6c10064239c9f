import CodeIntel.Subjobs.OptionalLayers

/-!
# Propagation of terminal failures

`ReconcileTerminalFailures` reads one snapshot: it fails the running INDEX jobs that have a
FAILED subjob, cancels their waiting subjobs and skips retrying SCIP subjobs without semantic
rows. The foreign keys of the subjob table tie every subjob to the job and the repository the
statement joins it with, so that no failed subjob is overlooked.
-/

namespace CodeIntel.Subjobs

open Relational Schema

/-! ## Constraints of the tables -/

/-- The primary key of the jobs, and the foreign keys of the subjobs to the job with its
repository and to the repository with its organization. -/
structure Constraints (db : Database) : Prop where
  jobKey : UniqueKey RepoIndexingJob.id db.jobs
  jobRepo : ∀ r ∈ db.subjobs, ∃ j ∈ db.jobs, j.id = r.repoIndexingJobId ∧ j.repoId = r.repoId
  repoOrg : ∀ r ∈ db.subjobs, ∃ repo ∈ db.repos, repo.id = r.repoId ∧ repo.orgId = r.orgId

instance (db : Database) : Decidable (Constraints db) :=
  have : Decidable (UniqueKey RepoIndexingJob.id db.jobs) :=
    inferInstanceAs (Decidable (List.Nodup _))
  decidable_of_iff
    (UniqueKey RepoIndexingJob.id db.jobs ∧
      (∀ r ∈ db.subjobs, ∃ j ∈ db.jobs, j.id = r.repoIndexingJobId ∧ j.repoId = r.repoId) ∧
      ∀ r ∈ db.subjobs, ∃ repo ∈ db.repos, repo.id = r.repoId ∧ repo.orgId = r.orgId)
    ⟨fun h => ⟨h.1, h.2.1, h.2.2⟩, fun h => ⟨h.jobKey, h.jobRepo, h.repoOrg⟩⟩

/-- The store behind its constraints: a statement that would break one is refused. -/
def constrainedMachine : Machine Database StoreCall where
  step db call := some (if Constraints (call.apply db) then call.apply db else db)

theorem constraints_of_run {db₀ db : Database} {calls : List StoreCall} (h₀ : Constraints db₀)
    (hrun : constrainedMachine.run db₀ calls = some db) : Constraints db := by
  refine Machine.run_invariant Constraints ?_ h₀ hrun
  intro s call s' hs hstep
  cases hstep
  split_ifs with hnew
  · exact hnew
  · exact hs

/-! ## What the statement selects -/

/-- The rows of `semantic_empty`. -/
def emptyCandidate (db : Database) (r : Subjob) : Bool :=
  r.layer = .scip && r.status = .retrying && semanticallyEmpty (coalesce r.errorMessage) &&
    liveJob db r.repoIndexingJobId r.repoId r.orgId

/-- The rows `failed_jobs` chooses from. -/
def failedCandidate (db : Database) (r : Subjob) : Bool :=
  r.status = .failed && liveJob db r.repoIndexingJobId r.repoId r.orgId

/-- The jobs with a row in `failed_jobs`. -/
def failingJobIds (db : Database) : List String :=
  ((db.subjobs.filter (failedCandidate db)).map Subjob.repoIndexingJobId).dedup

/-- The ids `semantic_empty` picks. -/
def emptyPicks (limit : ℤ) (locked : List String) (db : Database) : List String :=
  pickIds (fun r => toLex (r.updatedAt, r.id)) limit locked (emptyCandidate db) db.subjobs

/-- The limit of a call is large enough for everything the statement selects. -/
structure CoveredBy (limit : ℤ) (db : Database) : Prop where
  empty : ((db.subjobs.filter (emptyCandidate db)).length : ℤ) ≤ limit
  failing : ((failingJobIds db).length : ℤ) ≤ limit

section Selection

variable {limit : ℤ} {locked : List String} {db : Database} {r f : Subjob}

theorem mem_emptyPicks (hlimit : CoveredBy limit db) (hr : r ∈ db.subjobs)
    (hc : emptyCandidate db r = true) (hlocked : r.id ∉ locked) :
    r.id ∈ emptyPicks limit locked db := by
  refine List.mem_map_of_mem ?_
  have hsub : (db.subjobs.filter fun r => emptyCandidate db r && !locked.contains r.id).length ≤
      (db.subjobs.filter (emptyCandidate db)).length := by
    refine (List.Sublist.length_le (List.monotone_filter_right _ ?_))
    intro row hrow
    exact (Bool.and_eq_true_iff.1 hrow).1
  have hcount := hlimit.empty
  rw [List.take_of_length_le (by rw [List.length_insertionSort]; omega), List.mem_insertionSort,
    List.mem_filter]
  refine ⟨hr, ?_⟩
  rw [Bool.and_eq_true]
  exact ⟨hc, by simpa using hlocked⟩

theorem exists_of_mem_emptyPicks {id : String} (h : id ∈ emptyPicks limit locked db) :
    ∃ r ∈ db.subjobs, emptyCandidate db r = true ∧ r.id ∉ locked := by
  obtain ⟨r, hr, -⟩ := List.mem_map.1 h
  have hsorted := (List.mem_insertionSort _).1 (List.mem_of_mem_take hr)
  obtain ⟨hmem, hc⟩ := List.mem_filter.1 hsorted
  rw [Bool.and_eq_true] at hc
  exact ⟨r, hmem, hc.1, by simpa using hc.2⟩

theorem candidate_of_mem_failedJobs (h : f ∈ failedJobs limit db) :
    f ∈ db.subjobs ∧ failedCandidate db f = true := by
  obtain ⟨jobId, -, hf⟩ := List.mem_filterMap.1 h
  have hmem := List.argmax_mem hf
  exact List.mem_filter.1 (List.mem_of_mem_filter hmem)

theorem exists_failedJob (hlimit : CoveredBy limit db) (hr : r ∈ db.subjobs)
    (hc : failedCandidate db r = true) :
    ∃ f ∈ failedJobs limit db, f.repoIndexingJobId = r.repoIndexingJobId := by
  have hcandidate : r ∈ db.subjobs.filter (failedCandidate db) := List.mem_filter.2 ⟨hr, hc⟩
  have hjob : r.repoIndexingJobId ∈ failingJobIds db :=
    List.mem_dedup.2 (List.mem_map_of_mem hcandidate)
  have hcount := hlimit.failing
  have htake : r.repoIndexingJobId ∈
      ((failingJobIds db).insertionSort (· ≤ ·)).take limit.toNat := by
    rw [List.take_of_length_le (by rw [List.length_insertionSort]; omega)]
    exact (List.mem_insertionSort _).2 hjob
  have hne : ((db.subjobs.filter (failedCandidate db)).filter fun s =>
      s.repoIndexingJobId = r.repoIndexingJobId) ≠ [] :=
    List.ne_nil_of_mem (List.mem_filter.2 ⟨hcandidate, by simp⟩)
  obtain ⟨f, hf⟩ := Option.ne_none_iff_exists'.1 fun hnone =>
    hne (List.argmax_eq_none (f := fun s : Subjob => toLex (s.updatedAt, s.id)).1 hnone)
  have hsame := (List.mem_filter.1 (List.argmax_mem hf)).2
  exact ⟨f, List.mem_filterMap.2 ⟨_, htake, hf⟩, of_decide_eq_true hsame⟩

end Selection

/-! ## What one call does -/

section Call

variable {now : Time} {limit : ℤ} {locked : List String} {skipWins : String → Bool}
  {db : Database}

theorem failedJobs_of_nonpos (h : limit ≤ 0) : failedJobs limit db = [] := by
  unfold failedJobs
  dsimp only
  rw [Int.toNat_of_nonpos h, List.take_zero, List.filterMap_nil]

theorem emptyPicks_of_nonpos (h : limit ≤ 0) : emptyPicks limit locked db = [] := by
  unfold emptyPicks pickIds
  rw [Int.toNat_of_nonpos h, List.take_zero, List.map_nil]

/-- The subjobs after a call: ended rows, and rows that neither part selects. -/
theorem subjob_of_reconcile {r : Subjob}
    (hr : r ∈ (reconcileTerminalFailures now limit locked skipWins db).2.subjobs) :
    r.status = .skipped ∨ r.status = .canceled ∨
      r ∈ db.subjobs ∧ r.id ∉ emptyPicks limit locked db ∧
        ∀ f ∈ failedJobs limit db, waiting r = true → r.repoIndexingJobId ≠ f.repoIndexingJobId := by
  unfold reconcileTerminalFailures at hr
  split_ifs at hr with hlimit
  · refine .inr (.inr ⟨hr, ?_, ?_⟩)
    · rw [emptyPicks_of_nonpos hlimit]
      exact List.not_mem_nil
    · rw [failedJobs_of_nonpos hlimit]
      intro f hf
      cases hf
  · obtain ⟨r₀, hr₀, rfl⟩ := List.mem_map.1 hr
    split
    · rename_i hnone
      split_ifs with hpicked
      · exact .inl rfl
      · refine .inr (.inr ⟨hr₀, fun hmem => hpicked (List.contains_iff_mem.2 hmem), ?_⟩)
        intro f hf hwaiting heq
        have hno := List.find?_eq_none.1 hnone f hf
        simp [heq, hwaiting] at hno
    · split_ifs
      · exact .inl rfl
      · exact .inr (.inl rfl)

theorem job_of_reconcile {j : RepoIndexingJob}
    (hj : j ∈ (reconcileTerminalFailures now limit locked skipWins db).2.jobs) :
    ∃ j₀ ∈ db.jobs, j₀.id = j.id ∧
      ((j = j₀ ∧ ∀ f ∈ failedJobs limit db, j.id = f.repoIndexingJobId → j.repoId = f.repoId →
          j.status ≠ .inProgress) ∨
        j.status = .failed ∧ ∃ f ∈ failedJobs limit db, j.id = f.repoIndexingJobId) := by
  unfold reconcileTerminalFailures at hj
  split_ifs at hj with hlimit
  · refine ⟨j, hj, rfl, .inl ⟨rfl, ?_⟩⟩
    rw [failedJobs_of_nonpos hlimit]
    intro f hf
    cases hf
  · obtain ⟨j₀, hj₀, rfl⟩ := List.mem_map.1 hj
    refine ⟨j₀, hj₀, ?_⟩
    split
    · rename_i hnone
      refine ⟨rfl, .inl ⟨rfl, fun f hf hid hrepo hstatus => ?_⟩⟩
      have hno := List.find?_eq_none.1 hnone f hf
      simp [hid, hrepo, hstatus] at hno
    · rename_i f hfind
      have hc := List.find?_some hfind
      simp only [Bool.and_eq_true, decide_eq_true_eq] at hc
      exact ⟨rfl, .inr ⟨rfl, f, List.mem_of_find?_eq_some hfind, hc.1.1⟩⟩

theorem repo_of_reconcile {repo : Repo}
    (hrepo : repo ∈ (reconcileTerminalFailures now limit locked skipWins db).2.repos) :
    ∃ repo₀ ∈ db.repos, repo₀.id = repo.id ∧ repo₀.orgId = repo.orgId := by
  unfold reconcileTerminalFailures at hrepo
  split_ifs at hrepo
  · exact ⟨repo, hrepo, rfl, rfl⟩
  · obtain ⟨repo₀, hrepo₀, rfl⟩ := List.mem_map.1 hrepo
    refine ⟨repo₀, hrepo₀, ?_⟩
    split_ifs <;> exact ⟨rfl, rfl⟩

theorem liveJob_eq_true {jobId : String} {repoId orgId : ℤ} :
    liveJob db jobId repoId orgId = true ↔
      ∃ j ∈ db.jobs, j.id = jobId ∧ j.repoId = repoId ∧ j.type = .index ∧ j.status = .inProgress ∧
        ∃ repo ∈ db.repos, repo.id = repoId ∧ repo.orgId = orgId := by
  unfold liveJob
  simp only [List.any_eq_true, Bool.and_eq_true, decide_eq_true_eq]
  constructor
  · rintro ⟨j, hj, ⟨⟨⟨hid, hrepoId⟩, htype⟩, hstatus⟩, repo, hrepo, hrid, horg⟩
    exact ⟨j, hj, hid, hrepoId, htype, hstatus, repo, hrepo, hrid.trans hrepoId, horg⟩
  · rintro ⟨j, hj, hid, hrepoId, htype, hstatus, repo, hrepo, hrid, horg⟩
    exact ⟨j, hj, ⟨⟨⟨hid, hrepoId⟩, htype⟩, hstatus⟩, repo, hrepo, hrid.trans hrepoId.symm, horg⟩

theorem liveJob_of_reconcile {jobId : String} {repoId orgId : ℤ}
    (h : liveJob (reconcileTerminalFailures now limit locked skipWins db).2 jobId repoId orgId =
      true) : liveJob db jobId repoId orgId = true := by
  obtain ⟨j, hj, hid, hrepoId, htype, hstatus, repo, hrepo, hrid, horg⟩ := liveJob_eq_true.1 h
  obtain ⟨j₀, hj₀, -, ⟨rfl, -⟩ | ⟨hfailed, -⟩⟩ := job_of_reconcile hj
  · obtain ⟨repo₀, hrepo₀, hrid₀, horg₀⟩ := repo_of_reconcile hrepo
    exact liveJob_eq_true.2 ⟨j, hj₀, hid, hrepoId, htype, hstatus, repo₀, hrepo₀,
      hrid₀.trans hrid, horg₀.trans horg⟩
  · rw [hfailed] at hstatus
    cases hstatus

theorem no_failed_subjob (hdb : Constraints db) (hlimit : CoveredBy limit db) {j : RepoIndexingJob}
    {r : Subjob} (hj : j ∈ (reconcileTerminalFailures now limit locked skipWins db).2.jobs)
    (htype : j.type = .index) (hstatus : j.status = .inProgress)
    (hr : r ∈ (reconcileTerminalFailures now limit locked skipWins db).2.subjobs)
    (hjob : r.repoIndexingJobId = j.id) : r.status ≠ .failed := by
  intro hfailed
  obtain ⟨j₀, hj₀, -, ⟨rfl, hkept⟩ | ⟨hended, -⟩⟩ := job_of_reconcile hj
  · obtain hended | hended | ⟨hr₀, -, -⟩ := subjob_of_reconcile hr
    · rw [hfailed] at hended
      cases hended
    · rw [hfailed] at hended
      cases hended
    · -- the foreign keys lead from the failed row to this very job
      have hsame : ∀ s ∈ db.subjobs, s.repoIndexingJobId = j.id → j.repoId = s.repoId := by
        intro s hs hid
        obtain ⟨j₁, hj₁, hid₁, hrepo₁⟩ := hdb.jobRepo s hs
        rw [← hdb.jobKey.eq_of_key_eq hj₁ hj₀ (hid₁.trans hid)]
        exact hrepo₁
      have hlive : liveJob db r.repoIndexingJobId r.repoId r.orgId = true :=
        liveJob_eq_true.2 ⟨j, hj₀, hjob.symm, hsame r hr₀ hjob, htype, hstatus,
          hdb.repoOrg r hr₀⟩
      have hcandidate : failedCandidate db r = true := by simp [failedCandidate, hfailed, hlive]
      obtain ⟨f, hf, hid⟩ := exists_failedJob hlimit hr₀ hcandidate
      have hf₀ := (candidate_of_mem_failedJobs hf).1
      exact hkept f hf (hid.trans hjob).symm (hsame f hf₀ (hid.trans hjob)) hstatus
  · rw [hstatus] at hended
    cases hended

theorem reconcile_of_nothing {db : Database} (hfailed : failedJobs limit db = [])
    (hempty : emptyPicks limit locked db = []) :
    (reconcileTerminalFailures now limit locked skipWins db).2 = db := by
  have hpicks : pickIds (fun r => toLex (r.updatedAt, r.id)) limit locked
      (fun r => r.layer = .scip && r.status = .retrying &&
        semanticallyEmpty (coalesce r.errorMessage) &&
        liveJob db r.repoIndexingJobId r.repoId r.orgId) db.subjobs = [] := hempty
  unfold reconcileTerminalFailures
  split_ifs
  · rfl
  · simp [hfailed, hpicks, updateWhere_eq_map]

end Call

/-- In every state the store reaches behind its constraints, one call with a sufficient limit
leaves no running INDEX job with a failed subjob and no waiting subjob of a job it failed.
A second call changes no row, as long as rows locked during the first call are still locked. -/
theorem terminalFailures_propagated {db₀ db : Database} {calls : List StoreCall}
    (h₀ : Constraints db₀) (hrun : constrainedMachine.run db₀ calls = some db) (now : Time)
    {limit : ℤ} (hlimit : CoveredBy limit db) (locked : List String)
    (skipWins : String → Bool) :
    let after := (reconcileTerminalFailures now limit locked skipWins db).2
    (∀ j ∈ after.jobs, j.type = .index → j.status = .inProgress →
      ∀ r ∈ after.subjobs, r.repoIndexingJobId = j.id → r.status ≠ .failed) ∧
    (∀ j₀ ∈ db.jobs, j₀.status ≠ .failed → ∀ j ∈ after.jobs, j.id = j₀.id → j.status = .failed →
      ∀ r ∈ after.subjobs, r.repoIndexingJobId = j.id →
        r.status ≠ .queued ∧ r.status ≠ .retrying) ∧
    ∀ (now' : Time) (limit' : ℤ) (locked' : List String) (skipWins' : String → Bool),
      locked ⊆ locked' →
      (reconcileTerminalFailures now' limit' locked' skipWins' after).2 = after := by
  intro after
  have hdb := constraints_of_run h₀ hrun
  have hfirst : ∀ j ∈ after.jobs, j.type = .index → j.status = .inProgress →
      ∀ r ∈ after.subjobs, r.repoIndexingJobId = j.id → r.status ≠ .failed :=
    fun j hj htype hstatus r hr hjob => no_failed_subjob hdb hlimit hj htype hstatus hr hjob
  refine ⟨hfirst, ?_, ?_⟩
  · intro j₀ hj₀ hopen j hj hid hfailed r hr hjob
    obtain ⟨j₁, hj₁, hid₁, ⟨rfl, -⟩ | ⟨-, f, hf, hfid⟩⟩ := job_of_reconcile hj
    · -- a job that was failed already is not one the call failed
      rw [hdb.jobKey.eq_of_key_eq hj₁ hj₀ hid] at hfailed
      exact absurd hfailed hopen
    · obtain hended | hended | ⟨-, -, hwaiting⟩ := subjob_of_reconcile hr
      · rw [hended]
        decide
      · rw [hended]
        decide
      · have hnot : waiting r ≠ true := fun hw => hwaiting f hf hw (hjob.trans hfid)
        simpa [waiting] using hnot
  · intro now' limit' locked' skipWins' hlocked
    apply reconcile_of_nothing
    · -- by the first part no candidate for a failed job is left
      rw [List.eq_nil_iff_forall_not_mem]
      intro f hf
      obtain ⟨hmem, hcandidate⟩ := candidate_of_mem_failedJobs hf
      simp only [failedCandidate, Bool.and_eq_true, decide_eq_true_eq] at hcandidate
      obtain ⟨j, hj, hid, -, htype, hstatus, -⟩ := liveJob_eq_true.1 hcandidate.2
      exact hfirst j hj htype hstatus f hmem hid.symm hcandidate.1
    · rw [List.eq_nil_iff_forall_not_mem]
      intro id hid
      -- a candidate that is left was one before, and only a lock kept it from being picked
      obtain ⟨r, hr, hcandidate, hunlocked⟩ := exists_of_mem_emptyPicks hid
      simp only [emptyCandidate, Bool.and_eq_true, decide_eq_true_eq] at hcandidate
      obtain ⟨⟨⟨hlayer, hstatus⟩, hmessage⟩, hlive⟩ := hcandidate
      obtain hended | hended | ⟨hr₀, hnotPicked, -⟩ := subjob_of_reconcile hr
      · rw [hstatus] at hended
        cases hended
      · rw [hstatus] at hended
        cases hended
      · have hbefore : emptyCandidate db r = true := by
          simp [emptyCandidate, hlayer, hstatus, hmessage, liveJob_of_reconcile hlive]
        exact hnotPicked (mem_emptyPicks hlimit hr₀ hbefore fun hmem => hunlocked (hlocked hmem))

def failedAst : List StoreCall :=
  [.otherTables sampleDatabase, .upsertQueued 1 astInput, .upsertQueued 2 sampleInput] ++
    abandonedAttempt 10 1 ++ abandonedAttempt 20 2 ++ abandonedAttempt 30 3

theorem failedAst_propagated :
    ∃ db, constrainedMachine.run {} failedAst = some db ∧
      (∃ j ∈ db.jobs, j.status = .inProgress ∧
        ∃ r ∈ db.subjobs, r.repoIndexingJobId = j.id ∧ r.status = .failed) ∧
      ∀ j ∈ (reconcileTerminalFailures 40 10 [] (fun _ => false) db).2.jobs,
        j.type = .index → j.status = .inProgress →
          ∀ r ∈ (reconcileTerminalFailures 40 10 [] (fun _ => false) db).2.subjobs,
            r.repoIndexingJobId = j.id → r.status ≠ .failed := by
  refine constrainedMachine.exists_run_of_any_imp
    (fun db => (∃ j ∈ db.jobs, j.status = .inProgress ∧
        ∃ r ∈ db.subjobs, r.repoIndexingJobId = j.id ∧ r.status = .failed) ∧
      ((db.subjobs.filter (emptyCandidate db)).length : ℤ) ≤ 10 ∧
      ((failingJobIds db).length : ℤ) ≤ 10) (by decide +kernel) ?_
  rintro db hrun ⟨hfailed, hcounts⟩
  exact ⟨hfailed, (terminalFailures_propagated (by decide) hrun 40
    ⟨hcounts.1, hcounts.2⟩ [] fun _ => false).1⟩

end CodeIntel.Subjobs
