import CodeIntel.Core.Activate
import CodeIntel.Subjobs.LeaseHolder

/-!
# Retrying a committed activation

An ACTIVATE attempt may commit its transaction and then lose its lease before
the subjob is marked. The next attempt looks for a PENDING manifest again, but
the first one has turned it READY. The retry therefore succeeds exactly when the
job had a second pending manifest of the branch under another provider
connection.
-/

namespace CodeIntel.Core

open Relational Schema Subjobs CodeIntel.Graph

/-! ## The handler after a granted claim -/

variable {x : Execution} {p : Payload} {db : Database}

/-- The first renewal of a granted claim succeeds, and the handler goes on to execute
the task on a database that differs only in the claimed row. -/
theorem handle_of_granted {d : Digests} (hu : UniqueKey Subjob.id db.subjobs)
    (hvalid : validPayload p = true) (hlayer : p.layer = .graphMerge ∨ p.layer = .activate)
    (hclaim : (claimScoped x.claimAt p x.leaseOwner x.attemptId x.claimLease db).1 = .ok true) :
    ∃ db₁ r, db₁ = { db with subjobs := db₁.subjobs } ∧ OnlyRow p.id db.subjobs db₁.subjobs ∧
      Held db₁ ⟨p.id, x.leaseOwner, x.attemptId⟩ inFlight r ∧
      Lease.complete ⟨p.id, x.leaseOwner, x.attemptId⟩ = true ∧ r.layer = p.layer ∧
      r.leaseExpiresAt = some x.heartbeatLease ∧
      liveJob db p.repoIndexingJobId p.repoId p.orgId = true ∧
      handle d x p.queueName p db = finishTask x p (execute d x p db₁) := by
  obtain ⟨r, hrow, hclaimable, howner, hattempt, hat, hdb⟩ := claimScoped_granted hu hclaim
  obtain ⟨hmatch, -, -, hlive⟩ := claimable_matchesRow hclaimable
  obtain ⟨-, hjob, horg, hrepo, hrlayer⟩ := ClaimScope.of_matchesRow hmatch
  set claimed := (claimScoped x.claimAt p x.leaseOwner x.attemptId x.claimLease db).2
  have hheld : Held claimed ⟨p.id, x.leaseOwner, x.attemptId⟩ inFlight
      (claimRow x.claimAt x.leaseOwner x.attemptId x.claimLease r) := by
    refine ⟨hat, rfl, rfl, by simp [inFlight, claimRow], ?_⟩
    rw [hdb]
    simp only [claimRow, hjob, hrepo, horg]
    exact hlive
  obtain ⟨hbeat, hbeatAt⟩ := hheld.heartbeat x.heartbeatAt x.heartbeatLease
  set beaten := (heartbeat x.heartbeatAt ⟨p.id, x.leaseOwner, x.attemptId⟩ x.heartbeatLease
    claimed).2
  have hbeaten : beaten = { claimed with subjobs := beaten.subjobs } := rfl
  refine ⟨beaten, _, ?_, ?_,
    ⟨hbeatAt, rfl, rfl, by simp [inFlight, renewRow, claimRow], hheld.live⟩, ?_, hrlayer, rfl,
    hlive, ?_⟩
  · rw [hbeaten, hdb]
  · have hfirst : OnlyRow p.id db.subjobs claimed.subjobs := by
      rw [hdb]
      exact updateWhere_onlyRow claimable_id (by intro r; exact ⟨rfl, rfl⟩) _
    have hsecond : OnlyRow p.id claimed.subjobs beaten.subjobs :=
      updateWhere_onlyRow holdsLease_id (by intro r; exact ⟨rfl, rfl⟩) _
    exact hfirst.trans hsecond
  · have hid : p.id ≠ "" := by
      simp only [validPayload, Bool.and_eq_true, decide_eq_true_eq] at hvalid
      tauto
    simp [Lease.complete, hid, howner, hattempt]
  · have hcore : ¬(p.layer ≠ .graphMerge && p.layer ≠ .activate) = true := by
      rcases hlayer with h | h <;> simp [h]
    unfold handle
    rw [if_neg (by simp [hvalid]), if_neg hcore, Reply.eq_mk hclaim]
    dsimp only [withHeartbeat]
    rw [Reply.eq_mk hbeat]

/-! ## The manifests after an activation -/

section Manifests

variable {now : Time} {p : Payload} {current m : RepoIndexManifest}
  {rows : List RepoIndexManifest}

/-- The three manifest statements as one rewrite of the rows. -/
def activatedRow (now : Time) (p : Payload) (current : RepoIndexManifest)
    (rows : List RepoIndexManifest) (m : RepoIndexManifest) : RepoIndexManifest :=
  let m₁ := if m.id ≠ current.id && sameBranch p current m && m.status = .ready
    then supersede now m else m
  let m₂ := if m₁.id ≠ current.id && sameBranch p current m₁ && m₁.status = .pending &&
      (supersedeReady now p current rows).any fun c =>
        c.id = current.id && sameBranch p current c && m₁.createdAt ≤ c.createdAt
    then supersedeStale now m₁ else m₁
  if m₂.id = current.id && m₂.status = .pending then activateManifest now m₂ else m₂

theorem activatedManifests_eq_map :
    activatedManifests now p current rows = rows.map (activatedRow now p current rows) := by
  unfold activatedManifests activateCurrent supersedePending updateWhere
  rw [List.map_map]
  unfold supersedeReady updateWhere
  rw [List.map_map]
  rfl

theorem activatedRow_id : (activatedRow now p current rows m).id = m.id := by
  unfold activatedRow
  dsimp only
  split_ifs <;> rfl

theorem activatedRow_scope :
    (activatedRow now p current rows m).orgId = m.orgId ∧
      (activatedRow now p current rows m).repoId = m.repoId ∧
      (activatedRow now p current rows m).workspaceId = m.workspaceId ∧
      (activatedRow now p current rows m).branch = m.branch ∧
      (activatedRow now p current rows m).commitHash = m.commitHash ∧
      (activatedRow now p current rows m).indexJobId = m.indexJobId := by
  unfold activatedRow
  dsimp only
  split_ifs <;> exact ⟨rfl, rfl, rfl, rfl, rfl, rfl⟩

theorem activatedRow_of_not_sameBranch (hid : m.id ≠ current.id)
    (hbranch : sameBranch p current m = false) : activatedRow now p current rows m = m := by
  simp [activatedRow, hid, hbranch]

theorem activatedRow_not_pending (h : m.status ≠ .pending) :
    (activatedRow now p current rows m).status ≠ .pending := by
  unfold activatedRow
  split_ifs <;> simp_all [supersede]

theorem pendingFor_sameBranch (hm : pendingFor p m = true)
    (hprovider : m.providerConnectionId = current.providerConnectionId) :
    sameBranch p current m = true := by
  simp only [pendingFor, sameBranch, Bool.and_eq_true, decide_eq_true_eq] at *
  tauto

theorem pendingFor_status (hm : pendingFor p m = true) : m.status = .pending := by
  simp only [pendingFor, Bool.and_eq_true, decide_eq_true_eq] at hm
  exact hm.2

theorem activatedRow_current (hm : pendingFor p current = true) :
    activatedRow now p current rows current = activateManifest now current := by
  simp [activatedRow, pendingFor_status hm]

theorem activatedRow_stale
    (hcurrent : (rows.filter (pendingFor p)).argmax (fun m => toLex (m.createdAt, m.id)) =
      some current)
    (hm : m ∈ rows) (hpending : pendingFor p m = true) (hid : m.id ≠ current.id)
    (hprovider : m.providerConnectionId = current.providerConnectionId) :
    (activatedRow now p current rows m).status = .superseded := by
  have hmem := mem_of_argmax_filter hcurrent
  have hle : m.createdAt ≤ current.createdAt := by
    have h := List.le_of_mem_argmax (List.mem_filter.2 ⟨hm, hpending⟩) hcurrent
    rcases Prod.Lex.le_iff.1 h with hlt | heq
    · exact hlt.le
    · exact heq.1.le
  have hself : current ∈ supersedeReady now p current rows :=
    mem_updateWhere.2 ⟨current, hmem.1, by simp⟩
  have hany : ((supersedeReady now p current rows).any fun c =>
      c.id = current.id && sameBranch p current c && m.createdAt ≤ c.createdAt) = true := by
    refine List.any_eq_true.2 ⟨current, hself, ?_⟩
    simp [pendingFor_sameBranch hmem.2 rfl, hle]
  have hbranch := pendingFor_sameBranch hpending hprovider
  simp [activatedRow, pendingFor_status hpending, hid, hbranch, hany, supersedeStale, supersede]

/-- After an activation the pending manifests of the payload are those of other
provider connections. -/
theorem pending_after_activation (hu : UniqueKey RepoIndexManifest.id rows)
    (hcurrent : (rows.filter (pendingFor p)).argmax (fun m => toLex (m.createdAt, m.id)) =
      some current) :
    (activatedManifests now p current rows).filter (pendingFor p) =
      rows.filter fun m =>
        pendingFor p m && m.providerConnectionId ≠ current.providerConnectionId := by
  have hmem := mem_of_argmax_filter hcurrent
  rw [activatedManifests_eq_map]
  refine filter_map_eq (fun m hm hkept => ?_) (fun m hm hdrop => ?_)
  · simp only [Bool.and_eq_true, decide_eq_true_eq] at hkept
    refine ⟨activatedRow_of_not_sameBranch ?_ ?_, hkept.1⟩
    · intro hid
      exact hkept.2 (by rw [hu.eq_of_key_eq hm hmem.1 hid])
    · simp [sameBranch, hkept.2]
  · by_contra hpending
    rw [Bool.not_eq_false] at hpending
    have hstatus := pendingFor_status hpending
    have hbefore : pendingFor p m = true := by
      have hm' : m.status = .pending := by
        by_contra h
        exact activatedRow_not_pending h hstatus
      obtain ⟨h₁, h₂, h₃, h₄, h₅, h₆⟩ := @activatedRow_scope now p current m rows
      simpa [pendingFor, h₁, h₂, h₃, h₄, h₅, h₆, hm', hstatus] using hpending
    have hprovider : m.providerConnectionId = current.providerConnectionId := by
      simpa [hbefore] using hdrop
    by_cases hid : m.id = current.id
    · rw [hu.eq_of_key_eq hm hmem.1 hid, activatedRow_current hmem.2] at hstatus
      simp [activateManifest] at hstatus
    · rw [activatedRow_stale hcurrent hm hbefore hid hprovider] at hstatus
      simp at hstatus

end Manifests

/-! ## The retry -/

/-- The queue message of a later attempt of the same subjob. -/
def retryOf (p : Payload) (attempt : ℤ) : Payload := { p with attempt }

/-- The manifest belongs to the branch of the payload, under any provider connection. -/
def onBranch (p : Payload) (m : RepoIndexManifest) : Bool :=
  m.orgId = p.orgId && m.repoId = p.repoId && m.workspaceId = workspaceOf p && m.branch = p.branch

/-- No other job, cleanup or activation touched the branch: its manifests, its graph
and the other subjobs of its job are as they were. -/
structure BranchUntouched (p : Payload) (db db' : Database) : Prop where
  manifests : db'.manifests.filter (onBranch p) = db.manifests.filter (onBranch p)
  graphs : db'.graphIndexes.filter (graphOfRevision p) = db.graphIndexes.filter (graphOfRevision p)
  subjobs : db'.subjobs.filter (fun s => dependencyOf p s && s.layer ≠ .activate) =
    db.subjobs.filter fun s => dependencyOf p s && s.layer ≠ .activate

/-- An attempt committed its activation in `db` without marking the subjob. Later
the branch is untouched, the subjob is claimed again in `db₂`, and the new lease
lasts until the handler marks the result. -/
structure CommittedThenRetried (now : Time) (newId : String) (p : Payload) (db db₂ : Database)
    (x : Execution) (attempt : ℤ) : Prop where
  layer : p.layer = .activate
  manifestIds : UniqueKey RepoIndexManifest.id db.manifests
  committed : (activate now newId p db).1 = .ok ()
  untouched : BranchUntouched p (activate now newId p db).2 db₂
  manifestIds₂ : UniqueKey RepoIndexManifest.id db₂.manifests
  subjobIds₂ : UniqueKey Subjob.id db₂.subjobs
  valid : validPayload (retryOf p attempt) = true
  granted : (claimScoped x.claimAt (retryOf p attempt) x.leaseOwner x.attemptId x.claimLease
    db₂).1 = .ok true
  alive : x.finishAt < x.heartbeatLease

def subjobStatus (id : String) (db : Database) : Option SubjobStatus :=
  (lookup Subjob.id id db.subjobs).map Subjob.status

def manifestStatus (id : String) (db : Database) : Option ManifestStatus :=
  (lookup RepoIndexManifest.id id db.manifests).map RepoIndexManifest.status

/-- The subjob ends SUCCEEDED and the manifest is READY. -/
def RetrySucceeds (d : Digests) (x : Execution) (p : Payload) (attempt : ℤ) (manifestId : String)
    (db : Database) : Prop :=
  subjobStatus p.id (handle d x p.queueName (retryOf p attempt) db).2 = some .succeeded ∧
    manifestStatus manifestId (handle d x p.queueName (retryOf p attempt) db).2 = some .ready

instance (d : Digests) (x : Execution) (p : Payload) (attempt : ℤ) (manifestId : String)
    (db : Database) : Decidable (RetrySucceeds d x p attempt manifestId db) :=
  inferInstanceAs (Decidable (_ ∧ _))

theorem pendingFor_onBranch (m : RepoIndexManifest) (h : pendingFor p m = true) :
    onBranch p m = true := by
  simp only [pendingFor, onBranch, Bool.and_eq_true, decide_eq_true_eq] at *
  tauto

theorem liveJob_repoExists (h : liveJob db p.repoIndexingJobId p.repoId p.orgId = true) :
    repoExists p db = true := by
  obtain ⟨j, -, hj⟩ := List.any_eq_true.1 h
  simp only [Bool.and_eq_true, decide_eq_true_eq] at hj
  obtain ⟨⟨⟨⟨-, hrepo⟩, -⟩, -⟩, hany⟩ := hj
  rw [hrepo] at hany
  exact hany

theorem activate_of_error {now : Time} {newId : String} (h : (activate now newId p db).1 ≠ .ok ()) :
    (activate now newId p db).2 = db := by
  obtain ⟨e, he⟩ | ⟨_, _, -, -, heq⟩ := activate_cases now newId p db
  · rw [he]
  · exact absurd (congrArg Prod.fst heq) h

theorem liveJob_activatedDatabase (now : Time) (newId : String) (p : Payload)
    (current : RepoIndexManifest) (graph : CodeGraphIndex) (db : Database) (jobId : String)
    (repoId orgId : ℤ) :
    liveJob (activatedDatabase now newId p current graph db) jobId repoId orgId =
      liveJob db jobId repoId orgId := by
  have hrepos : ∀ j : RepoIndexingJob,
      ((activatedDatabase now newId p current graph db).repos.any fun r =>
        r.id = j.repoId && r.orgId = orgId) = db.repos.any fun r =>
          r.id = j.repoId && r.orgId = orgId := by
    intro j
    simp only [activatedDatabase, updateWhere, List.any_map, Function.comp_def]
    congr 1
    funext r
    split_ifs <;> rfl
  unfold liveJob
  simp only [hrepos]
  rfl

theorem recordFailure_status {r : Subjob}
    (h : Held db ⟨p.id, x.leaseOwner, x.attemptId⟩ inFlight r)
    (hlease : Lease.complete ⟨p.id, x.leaseOwner, x.attemptId⟩ = true)
    (halive : leaseAlive x.finishAt r = true) (message : String) :
    subjobStatus p.id (recordFailure x p message db).2 ≠ some .succeeded := by
  obtain ⟨r', hmark, hrow, hstatus⟩ := h.markFailed hlease halive "CORE_SUBJOB_FAILED" message
  unfold recordFailure
  rw [Reply.eq_mk hmark]
  simp only [subjobStatus, hrow, Option.map_some, hstatus, ne_eq, Option.some.injEq]
  exact markFailedStatus_ne_succeeded _ r

theorem recordSuccess_status {r : Subjob}
    (h : Held db ⟨p.id, x.leaseOwner, x.attemptId⟩ inFlight r)
    (hlease : Lease.complete ⟨p.id, x.leaseOwner, x.attemptId⟩ = true)
    (halive : leaseAlive x.finishAt r = true) :
    subjobStatus p.id (recordSuccess x p db).2 = some .succeeded ∧
      (recordSuccess x p db).2.manifests = db.manifests := by
  obtain ⟨hmark, hat⟩ := h.markSucceeded hlease halive
  have hmanifests : (markSucceeded x.finishAt ⟨p.id, x.leaseOwner, x.attemptId⟩ db).2.manifests =
      db.manifests := by
    unfold markSucceeded
    split_ifs <;> rfl
  unfold recordSuccess
  rw [Reply.eq_mk hmark]
  have hstatus : subjobStatus p.id
      (markSucceeded x.finishAt ⟨p.id, x.leaseOwner, x.attemptId⟩ db).2 = some .succeeded := by
    simp [subjobStatus, hat.row, succeedRow]
  split_ifs <;> exact ⟨hstatus, hmanifests⟩

section Retry

variable {now : Time} {newId : String} {p : Payload} {db db₂ db₁ : Database} {x : Execution}
  {attempt : ℤ} {current : RepoIndexManifest}

section Retried

variable (h : CommittedThenRetried now newId p db db₂ x attempt)
include h

theorem CommittedThenRetried.pending_eq (hcurrent : resolvePendingManifest p db = some current) :
    db₂.manifests.filter (pendingFor p) = db.manifests.filter fun m =>
      pendingFor p m && m.providerConnectionId ≠ current.providerConnectionId := by
  obtain ⟨current', graph, hcurrent', -, hdb⟩ := activate_of_ok h.committed
  obtain rfl : current = current' := Option.some.inj (hcurrent.symm.trans hcurrent')
  rw [filter_eq_of_coarser h.untouched.manifests pendingFor_onBranch, hdb]
  exact pending_after_activation h.manifestIds hcurrent

theorem CommittedThenRetried.ready_row (hcurrent : resolvePendingManifest p db = some current) :
    activateManifest now current ∈ db₂.manifests := by
  obtain ⟨current', graph, hcurrent', -, hdb⟩ := activate_of_ok h.committed
  obtain rfl : current = current' := Option.some.inj (hcurrent.symm.trans hcurrent')
  have hmem := mem_of_argmax_filter hcurrent
  have hrow : activateManifest now current ∈ (activate now newId p db).2.manifests := by
    rw [hdb]
    show _ ∈ activatedManifests now p current db.manifests
    rw [activatedManifests_eq_map]
    exact List.mem_map.2 ⟨current, hmem.1, activatedRow_current hmem.2⟩
  have hbranch : onBranch p current = true := pendingFor_onBranch current hmem.2
  have hfiltered : activateManifest now current ∈
      (activate now newId p db).2.manifests.filter (onBranch p) :=
    List.mem_filter.2 ⟨hrow, hbranch⟩
  rw [← h.untouched.manifests] at hfiltered
  exact (List.mem_filter.1 hfiltered).1

theorem CommittedThenRetried.not_blocked (hsub : OnlyRow p.id db₂.subjobs db₁.subjobs)
    {r : Subjob} (hr : RowAt db₁ p.id r) (hlayer : r.layer = .activate) :
    ∀ dep ∈ db₁.subjobs, blocking p dep = false := by
  obtain ⟨current', graph, -, -, hdb⟩ := activate_of_ok h.committed
  have hfree := (activate_ok_iff.1 h.committed).2.2.2
  have hfree₂ : ∀ dep ∈ db₂.subjobs, blocking p dep = false := by
    intro dep hdep
    by_contra hblock
    rw [Bool.not_eq_false] at hblock
    have hcoarse : (dependencyOf p dep && dep.layer ≠ .activate) = true := by
      simp only [blocking, Bool.and_eq_true] at hblock ⊢
      exact hblock.1
    have hfiltered : dep ∈ db₂.subjobs.filter fun s => dependencyOf p s && s.layer ≠ .activate :=
      List.mem_filter.2 ⟨hdep, hcoarse⟩
    rw [h.untouched.subjobs, hdb] at hfiltered
    exact Bool.false_ne_true ((hfree dep (List.mem_filter.1 hfiltered).1).symm.trans hblock)
  obtain ⟨f, hmap, hother, hkeep⟩ := hsub
  intro dep hdep
  by_cases hid : dep.id = p.id
  · have hdepr := hr.unique.eq_of_key_eq hdep (mem_of_lookup hr.row)
      (hid.trans (key_of_lookup hr.row).symm)
    simp [blocking, hdepr, hlayer]
  · rw [hmap] at hdep
    obtain ⟨dep₂, hdep₂, rfl⟩ := List.mem_map.1 hdep
    rw [(hkeep dep₂).2] at hid
    rw [hother dep₂ hid]
    exact hfree₂ dep₂ hdep₂

/-- The second transaction commits exactly when another pending manifest is left. -/
theorem CommittedThenRetried.activate_ok_iff
    (hcurrent : resolvePendingManifest p db = some current)
    (hdb₁ : db₁ = { db₂ with subjobs := db₁.subjobs })
    (hsub : OnlyRow p.id db₂.subjobs db₁.subjobs) {r : Subjob} (hr : RowAt db₁ p.id r)
    (hlayer : r.layer = .activate)
    (hlive : liveJob db₂ p.repoIndexingJobId p.repoId p.orgId = true) :
    (activate x.executeAt x.newId p db₁).1 = .ok () ↔
      ∃ m ∈ db.manifests, pendingFor p m = true ∧
        m.providerConnectionId ≠ current.providerConnectionId := by
  have hmanifests : (∃ m ∈ db₂.manifests, pendingFor p m = true) ↔
      ∃ m ∈ db.manifests, pendingFor p m = true ∧
        m.providerConnectionId ≠ current.providerConnectionId := by
    have hmem : ∀ m, m ∈ db₂.manifests.filter (pendingFor p) ↔ m ∈ db.manifests.filter fun m =>
        pendingFor p m && m.providerConnectionId ≠ current.providerConnectionId := fun m => by
      rw [h.pending_eq hcurrent]
    simpa [List.mem_filter] using exists_congr hmem
  have hgraph : ∃ g ∈ db₂.graphIndexes, graphOfRevision p g = true ∧ g.status = .ready := by
    obtain ⟨g, hg, hrev, hready⟩ := (Core.activate_ok_iff.1 h.committed).2.2.1
    obtain ⟨_, _, -, -, hdb⟩ := activate_of_ok h.committed
    have hfiltered : g ∈ db₂.graphIndexes.filter (graphOfRevision p) := by
      rw [h.untouched.graphs, hdb]
      exact List.mem_filter.2 ⟨hg, hrev⟩
    exact ⟨g, (List.mem_filter.1 hfiltered).1, hrev, hready⟩
  have hblocked := h.not_blocked hsub hr hlayer
  rw [Core.activate_ok_iff, ← hmanifests, hdb₁]
  constructor
  · exact fun hok => hok.2.1
  · intro hpending
    refine ⟨liveJob_repoExists hlive, hpending, hgraph, ?_⟩
    exact hblocked

theorem CommittedThenRetried.stays_ready (hcurrent : resolvePendingManifest p db = some current)
    {current₂ : RepoIndexManifest} (hcurrent₂ : resolvePendingManifest p db₂ = some current₂)
    (now₂ : Time) :
    lookup RepoIndexManifest.id current.id (activatedManifests now₂ p current₂ db₂.manifests) =
      some (activateManifest now current) := by
  have hready := h.ready_row hcurrent
  have hrow := lookup_eq_some_of_mem h.manifestIds₂ hready rfl
  have hmem₂ := List.argmax_mem hcurrent₂
  have hprovider : current₂.providerConnectionId ≠ current.providerConnectionId := by
    rw [h.pending_eq hcurrent] at hmem₂
    have hkept := (List.mem_filter.1 hmem₂).2
    simp only [Bool.and_eq_true, decide_eq_true_eq] at hkept
    exact hkept.2
  rw [activatedManifests_eq_map, lookup_map fun m => activatedRow_id]
  change (lookup RepoIndexManifest.id (activateManifest now current).id db₂.manifests).map _ = _
  rw [hrow, Option.map_some, activatedRow_of_not_sameBranch]
  · intro hid
    have heq := h.manifestIds₂.eq_of_key_eq hready (List.mem_filter.1 hmem₂).1 hid
    have hpending := pendingFor_status (List.mem_filter.1 hmem₂).2
    rw [← heq] at hpending
    simp [activateManifest] at hpending
  · simp [sameBranch, activateManifest, hprovider.symm]

end Retried

/-- After a committed but unmarked activation, the retry succeeds and leaves the
manifest READY exactly when the job had another pending manifest of the same
branch and commit under a different provider connection. -/
theorem activation_retry_succeeds_iff (d : Digests)
    (h : CommittedThenRetried now newId p db db₂ x attempt)
    (hcurrent : resolvePendingManifest p db = some current) :
    RetrySucceeds d x p attempt current.id db₂ ↔
      ∃ m ∈ db.manifests, pendingFor p m = true ∧
        m.providerConnectionId ≠ current.providerConnectionId := by
  obtain ⟨db₁, r, hdb₁, hsub, hheld, hcomplete, hrlayer, hexpires, hlive, hhandle⟩ :=
    handle_of_granted (d := d) h.subjobIds₂ h.valid (.inr h.layer) h.granted
  have hlayer : r.layer = .activate := hrlayer.trans h.layer
  have halive : leaseAlive x.finishAt r = true := by simp [leaseAlive, hexpires, h.alive]
  have hexecute : execute d x (retryOf p attempt) db₁ = activate x.executeAt x.newId p db₁ :=
    if_neg (by simp [retryOf, h.layer])
  have hresult : handle d x p.queueName (retryOf p attempt) db₂ =
      finishTask x p (activate x.executeAt x.newId p db₁) := by
    rw [← hexecute]
    exact hhandle
  rw [← h.activate_ok_iff hcurrent hdb₁ hsub hheld.toRowAt hlayer hlive]
  unfold RetrySucceeds
  rw [hresult]
  constructor
  · rintro ⟨hstatus, -⟩
    obtain ⟨message, heq⟩ | ⟨_, _, -, -, heq⟩ := activate_cases x.executeAt x.newId p db₁ <;>
      rw [heq] at hstatus ⊢
    exact absurd hstatus (recordFailure_status hheld hcomplete halive message)
  · intro hok
    obtain ⟨current₂, graph₂, hcurrent₂, -, hcommit⟩ := activate_of_ok hok
    have hheld₃ : Held (activatedDatabase x.executeAt x.newId p current₂ graph₂ db₁)
        ⟨p.id, x.leaseOwner, x.attemptId⟩ inFlight r :=
      ⟨⟨hheld.unique, hheld.row⟩, hheld.owner_eq, hheld.attempt_eq, hheld.state, by
        rw [liveJob_activatedDatabase]; exact hheld.live⟩
    obtain ⟨hstatus, hmanifests⟩ := recordSuccess_status hheld₃ hcomplete halive
    rw [Reply.eq_mk hok, hcommit]
    refine ⟨hstatus, ?_⟩
    have hstay := h.stays_ready hcurrent (by rw [hdb₁] at hcurrent₂; exact hcurrent₂) x.executeAt
    unfold manifestStatus finishTask
    rw [hmanifests]
    change (lookup RepoIndexManifest.id current.id
      (activatedManifests x.executeAt p current₂ db₁.manifests)).map _ = _
    rw [hdb₁, hstay]
    rfl

end Retry

/-! ## A lost mark -/

def sampleDigests : Digests where
  sha256Hex := id
  edgeRank _ := 0

def sampleGraph : CodeGraphIndex where
  id := "graph"
  status := .ready
  sourceRevision := "main"
  commitHash := sampleCommit
  graphSpace := graphSpaceName
  workspaceId := "ws"
  schemaVersion := defaultSchemaVersion
  builderVersion := defaultBuilder
  orgId := 1
  repoId := 7
  createdAt := 0
  updatedAt := 0

def sampleActivate : Subjob where
  id := "activate"
  repoIndexingJobId := "job"
  orgId := 1
  workspaceId := "ws"
  repoId := 7
  branch := "main"
  revision := "main"
  commitHash := sampleCommit
  layer := .activate
  workerClass := "core"
  queueName := "codeintel-index-core"
  status := .running
  attempt := 1
  maxAttempts := 2
  attemptId := some "first"
  leaseOwner := some "executor"
  leaseExpiresAt := some 100
  createdAt := 0
  updatedAt := 0

def sampleActivatePayload : Payload where
  id := "activate"
  repoIndexingJobId := "job"
  orgId := 1
  workspaceId := some "ws"
  repoId := 7
  branch := "main"
  revision := "main"
  commitHash := sampleCommit
  layer := .activate
  language := none
  projectRoot := none
  indexer := none
  workerClass := "core"
  queueName := "codeintel-index-core"
  attempt := 1

/-- The state in which the first attempt commits, with the given pending manifests. -/
def committingDatabase (manifests : List RepoIndexManifest) : Database :=
  { sampleDatabase with
    manifests
    graphIndexes := [sampleGraph]
    subjobs := [sampleActivate] }

/-- The first attempt committed at 50, its lease ran out and the sweep at 200
requeued the subjob. -/
def requeuedAfterCommit (manifests : List RepoIndexManifest) : Database :=
  (requeueExpiredLeases 200 200 10 []
    (activate 50 "revision" sampleActivatePayload (committingDatabase manifests)).2).2

def sampleRetry : Execution where
  leaseOwner := "executor"
  attemptId := "second"
  claimAt := 201
  claimLease := 400
  heartbeatAt := 202
  heartbeatLease := 400
  executeAt := 203
  finishAt := 204
  newId := "revision-2"

def connectionManifest : RepoIndexManifest :=
  { sampleManifest with id := "manifest-2", providerConnectionId := some "connection" }

/-- With two provider connections the retry activates the second manifest. -/
theorem activation_retry_second_connection :
    RetrySucceeds sampleDigests sampleRetry sampleActivatePayload 2 "manifest-2"
      (requeuedAfterCommit [sampleManifest, connectionManifest]) := by
  have hretried : CommittedThenRetried 50 "revision" sampleActivatePayload
      (committingDatabase [sampleManifest, connectionManifest])
      (requeuedAfterCommit [sampleManifest, connectionManifest]) sampleRetry 2 :=
    ⟨by decide, by decide, by decide, ⟨by decide, by decide, by decide⟩, by decide, by decide,
      by decide, by decide, by decide⟩
  have hcurrent : resolvePendingManifest sampleActivatePayload
      (committingDatabase [sampleManifest, connectionManifest]) = some connectionManifest := by
    decide
  exact (activation_retry_succeeds_iff sampleDigests hretried hcurrent).2
    ⟨sampleManifest, by decide, by decide, by decide⟩

/-- With the single manifest the planner creates, the retry of a committed
activation fails its subjob and the parent job. -/
theorem activation_retry_fails_committed_activation :
    CommittedThenRetried 50 "revision" sampleActivatePayload (committingDatabase [sampleManifest])
        (requeuedAfterCommit [sampleManifest]) sampleRetry 2 ∧
      ¬RetrySucceeds sampleDigests sampleRetry sampleActivatePayload 2 "manifest"
        (requeuedAfterCommit [sampleManifest]) ∧
      subjobStatus "activate" (handle sampleDigests sampleRetry "codeintel-index-core"
        (retryOf sampleActivatePayload 2) (requeuedAfterCommit [sampleManifest])).2 =
          some .failed ∧
      (handle sampleDigests sampleRetry "codeintel-index-core" (retryOf sampleActivatePayload 2)
        (requeuedAfterCommit [sampleManifest])).2.jobs.map RepoIndexingJob.status = [.failed] := by
  refine ⟨⟨by decide, by decide, by decide, ⟨by decide, by decide, by decide⟩, by decide,
    by decide, by decide, by decide, by decide⟩, by decide, by decide, by decide⟩

end CodeIntel.Core
