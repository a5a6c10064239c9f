import CodeIntel.Core.ActivationRetry
import CodeIntel.Planner.SplitPlan
import CodeIntel.Relational.Run

/-!
# The order of activations

Jobs of one repository insert pending manifests and activate them, possibly out
of order. An activation supersedes the READY manifest of its branch and every
pending one that is not newer, so the active manifest of a branch only moves
forward in creation time and the revision pointer follows it.
-/

namespace CodeIntel.Core

open Relational Schema Subjobs CodeIntel.Graph

/-! ## Inserts and activations -/

structure PendingManifestInput where
  (id jobId : String)
  (orgId repoId : ℤ)
  (workspaceId branch commitHash : String)
  files : List Planner.ManifestFileRow := []
  deriving DecidableEq, Repr

/-- The inserted row; the provider connection stays NULL. -/
def PendingManifestInput.row (inp : PendingManifestInput) (now : Time) : RepoIndexManifest where
  id := inp.id
  status := .pending
  workspaceId := inp.workspaceId
  branch := inp.branch
  commitHash := inp.commitHash
  orgId := inp.orgId
  repoId := inp.repoId
  indexJobId := some inp.jobId
  createdAt := now
  updatedAt := now

structure ManifestState where
  db : Database
  clock : Time

/-- `otherTables` stands for all other writers; manifests and revision pointers are
written by the first two steps only. -/
inductive ManifestStep where
  | insertPending (now : Time) (inp : PendingManifestInput)
  | activate (now : Time) (newId : String) (p : Payload)
  | otherTables (other : Database)

/-- Jobs of one repository. The clock increases strictly, and subjobs carry their branch
as the revision, as `resolveIndexRevisions` plans them. -/
def manifestMachine (orgId repoId : ℤ) : Machine ManifestState ManifestStep where
  step s
    | .insertPending now inp =>
      if s.clock < now ∧ inp.orgId = orgId ∧ inp.repoId = repoId then
        some ⟨(Planner.insertPendingManifest (inp.row now) inp.files s.db).2, now⟩
      else none
    | .activate now newId p =>
      if s.clock < now ∧ p.orgId = orgId ∧ p.repoId = repoId ∧ p.revision = p.branch then
        some ⟨(activate now newId p s.db).2, now⟩
      else none
    | .otherTables other =>
      some ⟨{ other with manifests := s.db.manifests, graphRevisions := s.db.graphRevisions },
        s.clock⟩

def manifestScope (m : RepoIndexManifest) : ℤ × ℤ × String × Option String × String :=
  (m.orgId, m.repoId, m.workspaceId, m.providerConnectionId, m.branch)

/-! ## What a step does to the manifests -/

/-- What an activation of `current` makes of a manifest. -/
inductive ActivatedAs (now : Time) (current m : RepoIndexManifest) : RepoIndexManifest → Prop
  | current (h : m = current) : ActivatedAs now current m (activateManifest now m)
  | ready (hid : m.id ≠ current.id) (hscope : manifestScope m = manifestScope current)
      (hstatus : m.status = .ready) : ActivatedAs now current m (supersede now m)
  | stale (hid : m.id ≠ current.id) (hscope : manifestScope m = manifestScope current)
      (hstatus : m.status = .pending) (hle : m.createdAt ≤ current.createdAt) :
      ActivatedAs now current m (supersedeStale now m)
  | keep (hid : m.id ≠ current.id) (h : manifestScope m = manifestScope current →
      m.status ≠ .ready ∧ (m.status = .pending → current.createdAt < m.createdAt)) :
      ActivatedAs now current m m

section Rows

variable {now : Time} {p : Payload} {current m m' : RepoIndexManifest}
  {rows : List RepoIndexManifest}

theorem sameBranch_iff (hpending : pendingFor p current = true) :
    sameBranch p current m = true ↔ manifestScope m = manifestScope current := by
  simp only [pendingFor, Bool.and_eq_true, decide_eq_true_eq] at hpending
  obtain ⟨⟨⟨⟨⟨⟨-, horg⟩, hrepo⟩, hws⟩, hbranch⟩, -⟩, -⟩ := hpending
  simp only [sameBranch, manifestScope, Bool.and_eq_true, decide_eq_true_eq, Prod.mk.injEq, horg,
    hrepo, hws, hbranch]
  tauto

theorem any_current_iff (now : Time) (hunique : UniqueKey RepoIndexManifest.id rows)
    (hcurrent : current ∈ rows) (hpending : pendingFor p current = true) (t : Time) :
    ((supersedeReady now p current rows).any fun c =>
      c.id = current.id && sameBranch p current c && t ≤ c.createdAt) = true ↔
      t ≤ current.createdAt := by
  simp only [List.any_eq_true, Bool.and_eq_true, decide_eq_true_eq]
  constructor
  · rintro ⟨c, hc, ⟨hid, -⟩, hle⟩
    obtain ⟨c₀, hc₀, rfl⟩ := mem_updateWhere.1 hc
    have hid₀ : c₀.id = current.id := by
      split_ifs at hid <;> exact hid
    obtain rfl := hunique.eq_of_key_eq hc₀ hcurrent hid₀
    simpa using hle
  · intro hle
    refine ⟨current, mem_updateWhere.2 ⟨current, hcurrent, by simp⟩, ⟨rfl, ?_⟩, hle⟩
    exact (sameBranch_iff hpending).2 rfl

theorem activatedRow_as (hunique : UniqueKey RepoIndexManifest.id rows) (hcurrent : current ∈ rows)
    (hpending : pendingFor p current = true) (hm : m ∈ rows) :
    ActivatedAs now current m (activatedRow now p current rows m) := by
  by_cases hid : m.id = current.id
  · obtain rfl := hunique.eq_of_key_eq hm hcurrent hid
    rw [activatedRow_current hpending]
    exact .current rfl
  by_cases hscope : manifestScope m = manifestScope current
  · have hbranch : sameBranch p current m = true := (sameBranch_iff hpending).2 hscope
    by_cases hready : m.status = .ready
    · have hrow : activatedRow now p current rows m = supersede now m := by
        simp [activatedRow, hid, hbranch, hready, supersede]
      rw [hrow]
      exact .ready hid hscope hready
    · by_cases hstale : m.status = .pending ∧ m.createdAt ≤ current.createdAt
      · have hany := (any_current_iff now hunique hcurrent hpending m.createdAt).2 hstale.2
        have hrow : activatedRow now p current rows m = supersedeStale now m := by
          simp [activatedRow, hid, hbranch, hstale.1, hany, supersedeStale, supersede]
        rw [hrow]
        exact .stale hid hscope hstale.1 hstale.2
      · have hrow : activatedRow now p current rows m = m := by
          have hany : m.status = .pending → ¬ _ := fun hst =>
            mt (any_current_iff now hunique hcurrent hpending m.createdAt).1
              fun hle => hstale ⟨hst, hle⟩
          by_cases hst : m.status = .pending
          · simp [activatedRow, hid, hst, hany hst]
          · simp [activatedRow, hid, hready, hst]
        rw [hrow]
        refine .keep hid fun _ => ⟨hready, fun hst => ?_⟩
        exact not_le.1 fun hle => hstale ⟨hst, hle⟩
  · have hbranch : sameBranch p current m = false :=
      Bool.eq_false_iff.2 (mt (sameBranch_iff hpending).1 hscope)
    rw [activatedRow_of_not_sameBranch hid hbranch]
    exact .keep hid fun h => absurd h hscope

theorem ActivatedAs.kept (h : ActivatedAs now current m m') :
    m'.id = m.id ∧ m'.createdAt = m.createdAt ∧ m'.commitHash = m.commitHash := by
  cases h <;> exact ⟨rfl, rfl, rfl⟩

theorem ActivatedAs.scope_eq (h : ActivatedAs now current m m') :
    manifestScope m' = manifestScope m := by
  cases h <;> rfl

theorem ActivatedAs.ready_cases (h : ActivatedAs now current m m') (hready : m'.status = .ready) :
    m = current ∨ m' = m ∧ manifestScope m ≠ manifestScope current := by
  cases h with
  | current h => exact .inl h
  | ready | stale => cases hready
  | keep hid hkeep => exact .inr ⟨rfl, fun hscope => (hkeep hscope).1 hready⟩

theorem ActivatedAs.pending_cases (h : ActivatedAs now current m m')
    (hpending : m'.status = .pending) :
    m' = m ∧ (manifestScope m = manifestScope current → current.createdAt < m.createdAt) := by
  cases h with
  | current | ready | stale => cases hpending
  | keep hid hkeep => exact ⟨rfl, fun hscope => (hkeep hscope).2 hpending⟩

theorem ActivatedAs.of_current (h : ActivatedAs now current current m') : m'.status = .ready := by
  cases h with
  | current => rfl
  | ready hid | stale hid | keep hid => exact absurd rfl hid

theorem ActivatedAs.superseded (h : ActivatedAs now current m m')
    (hcurrent : current.status = .pending) (hst : m.status = .superseded) :
    m'.status = .superseded := by
  cases h with
  | current h =>
    rw [h, hcurrent] at hst
    cases hst
  | ready => rfl
  | stale => rfl
  | keep => exact hst

theorem ActivatedAs.of_ready (h : ActivatedAs now current m m')
    (hcurrent : current.status = .pending) (hst : m.status = .ready) :
    m' = m ∨ manifestScope m = manifestScope current := by
  cases h with
  | current h =>
    rw [h, hcurrent] at hst
    cases hst
  | ready _ hscope | stale _ hscope => exact .inr hscope
  | keep => exact .inl rfl

theorem ActivatedAs.activatedAt_cases (h : ActivatedAs now current m m') :
    m = current ∧ m'.activatedAt = some now ∨ m.id ≠ current.id ∧ m'.activatedAt = m.activatedAt := by
  cases h with
  | current h => exact .inl ⟨h, rfl⟩
  | ready hid | stale hid | keep hid => exact .inr ⟨hid, rfl⟩

theorem ActivatedAs.activatedAt_of_ne (h : ActivatedAs now current m m') (hne : m ≠ current) :
    m'.activatedAt = m.activatedAt := by
  obtain ⟨heq, -⟩ | ⟨-, hkept⟩ := h.activatedAt_cases
  · exact absurd heq hne
  · exact hkept

theorem ActivatedAs.activatedAt_current (h : ActivatedAs now current current m') :
    m'.activatedAt = some now := by
  obtain ⟨-, hat⟩ | ⟨hne, -⟩ := h.activatedAt_cases
  · exact hat
  · exact absurd rfl hne

theorem insertManifestFiles_frame (manifestId : String)
    (chunks : List (List Planner.ManifestFileRow)) (db : Database) :
    (Planner.insertManifestFiles manifestId chunks db).2.manifests = db.manifests ∧
      (Planner.insertManifestFiles manifestId chunks db).2.graphRevisions = db.graphRevisions := by
  induction chunks generalizing db with
  | nil => exact ⟨rfl, rfl⟩
  | cons chunk chunks ih =>
    unfold Planner.insertManifestFiles
    split_ifs
    · exact ih _
    · exact ⟨rfl, rfl⟩

theorem insertPendingManifest_effect (files : List Planner.ManifestFileRow) {db : Database}
    (hunique : UniqueKey RepoIndexManifest.id db.manifests) :
    (Planner.insertPendingManifest m files db).2.graphRevisions = db.graphRevisions ∧
      ∃ added, (Planner.insertPendingManifest m files db).2.manifests = db.manifests ++ added ∧
        UniqueKey RepoIndexManifest.id (db.manifests ++ added) ∧ ∀ m' ∈ added, m' = m := by
  have hsame : UniqueKey RepoIndexManifest.id (db.manifests ++ []) := by rwa [List.append_nil]
  unfold Planner.insertPendingManifest
  split_ifs with hinput hdup
  · exact ⟨rfl, [], (List.append_nil _).symm, hsame, List.forall_mem_nil _⟩
  · exact ⟨rfl, [], (List.append_nil _).symm, hsame, List.forall_mem_nil _⟩
  · obtain ⟨hmanifests, hrevisions⟩ := insertManifestFiles_frame m.id (files.toChunks 1000)
      { db with manifests := db.manifests ++ [m] }
    exact ⟨hrevisions, [m], hmanifests, hunique.append_fresh (by simpa using hdup), by simp⟩

end Rows

/-! ## The revision pointer -/

/-- The key of the revision pointer of a manifest's branch. -/
def pointsTo (m : RepoIndexManifest) (r : CodeGraphRevision) : Prop :=
  r.repoId = m.repoId ∧ r.workspaceId = m.workspaceId ∧ r.revision = m.branch ∧
    r.schemaVersion = defaultSchemaVersion ∧ r.builderVersion = defaultBuilder

/-- The branch of the manifest has a revision pointer, and it carries the manifest's commit. -/
def Published (revisions : List CodeGraphRevision) (m : RepoIndexManifest) : Prop :=
  (∃ r ∈ revisions, pointsTo m r) ∧ ∀ r ∈ revisions, pointsTo m r → r.commitHash = m.commitHash

/-- No manifest of the branch was activated after this one. -/
def LastActivated (manifests : List RepoIndexManifest) (m : RepoIndexManifest) : Prop :=
  ∃ t, m.activatedAt = some t ∧ ∀ m' ∈ manifests, m'.orgId = m.orgId → m'.repoId = m.repoId →
    m'.workspaceId = m.workspaceId → m'.branch = m.branch →
      ∀ t', m'.activatedAt = some t' → t' ≤ t

/-- The revision pointer of the manifest's branch is the one the payload publishes. -/
def Targets (p : Payload) (m : RepoIndexManifest) : Prop :=
  m.repoId = p.repoId ∧ m.workspaceId = workspaceOf p ∧ m.branch = p.revision

section Pointer

variable {now : Time} {newId : String} {p : Payload} {graph : CodeGraphIndex}
  {m m' : RepoIndexManifest} {revisions : List CodeGraphRevision}

theorem published_congr (hscope : manifestScope m' = manifestScope m)
    (hcommit : m'.commitHash = m.commitHash) : Published revisions m' ↔ Published revisions m := by
  simp only [manifestScope, Prod.mk.injEq] at hscope
  simp only [Published, pointsTo, hscope, hcommit]

theorem published_activated (hcommit : Targets p m → m.commitHash = p.commitHash)
    (hold : ¬Targets p m → Published revisions m) :
    Published (activatedRevisions now newId p graph revisions) m := by
  have hconflict : ∀ r, pointsTo m r → ((r.repoId = p.repoId && r.workspaceId = workspaceOf p &&
      r.revision = p.revision && r.schemaVersion = defaultSchemaVersion &&
      r.builderVersion = defaultBuilder) = true ↔ Targets p m) := by
    rintro r ⟨hrepo, hws, hrevision, hschema, hbuilder⟩
    simp [Targets, hrepo, hws, hrevision, hschema, hbuilder, and_assoc]
  constructor
  · by_cases hpointer : ∃ r ∈ revisions, pointsTo m r
    · obtain ⟨r, hr, hpoints⟩ := hpointer
      refine ⟨_, mem_upsert.2 (.inl ⟨r, hr, rfl⟩), ?_⟩
      split_ifs <;> exact hpoints
    · obtain ⟨hrepo, hws, hbranch⟩ : Targets p m := by_contra fun hne => hpointer (hold hne).1
      refine ⟨_, mem_upsert.2 (.inr ⟨rfl, fun r hr => ?_⟩), hrepo.symm, hws.symm, hbranch.symm,
        rfl, rfl⟩
      by_contra hc
      simp only [Bool.not_eq_false, Bool.and_eq_true, decide_eq_true_eq, ← hrepo, ← hws, ← hbranch,
        and_assoc] at hc
      exact hpointer ⟨r, hr, hc⟩
  · intro r hr hpoints
    obtain ⟨r₀, hr₀, rfl⟩ | ⟨rfl, -⟩ := mem_upsert.1 hr
    · -- a merge keeps the key of the row
      split_ifs at hpoints ⊢ with hc
      · exact (hcommit ((hconflict r₀ hpoints).1 hc)).symm
      · exact (hold (mt (hconflict r₀ hpoints).2 hc)).2 r₀ hr₀ hpoints
    · obtain ⟨hrepo, hws, hrevision, -, -⟩ := hpoints
      exact (hcommit ⟨hrepo.symm, hws.symm, hrevision.symm⟩).symm

theorem lastActivated_iff {manifests : List RepoIndexManifest}
    (hprovider : ∀ m ∈ manifests, m.providerConnectionId = none) (hm : m ∈ manifests) :
    LastActivated manifests m ↔ ∃ t, m.activatedAt = some t ∧ ∀ m' ∈ manifests,
      manifestScope m' = manifestScope m → ∀ t', m'.activatedAt = some t' → t' ≤ t := by
  refine exists_congr fun t => and_congr_right fun _ => forall₂_congr fun m' hm' => ?_
  simp only [manifestScope, Prod.mk.injEq, hprovider m hm, hprovider m' hm', true_and, and_imp]

end Pointer

/-! ## Steps -/

/-- What inserts and activations of one repository keep true. -/
structure ManifestsOrdered (orgId repoId : ℤ) (s : ManifestState) : Prop where
  unique : UniqueKey RepoIndexManifest.id s.db.manifests
  repo : ∀ m ∈ s.db.manifests, m.orgId = orgId ∧ m.repoId = repoId ∧
    m.providerConnectionId = none
  created : ∀ m ∈ s.db.manifests, m.createdAt ≤ s.clock
  activated : ∀ m ∈ s.db.manifests, ∀ t, m.activatedAt = some t → t ≤ s.clock
  ready_unique : ∀ m ∈ s.db.manifests, ∀ m' ∈ s.db.manifests, m.status = .ready →
    m'.status = .ready → manifestScope m = manifestScope m' → m = m'
  pending_newer : ∀ m ∈ s.db.manifests, ∀ m' ∈ s.db.manifests, m.status = .ready →
    m'.status = .pending → manifestScope m = manifestScope m' → m.createdAt < m'.createdAt
  published : ∀ m ∈ s.db.manifests, LastActivated s.db.manifests m →
    Published s.db.graphRevisions m

/-- Superseded manifests stay superseded and the active manifest of a scope gives way to
newer ones only. -/
def Advances (s s' : ManifestState) : Prop :=
  (∀ m ∈ s.db.manifests, m.status = .superseded →
    ∃ m' ∈ s'.db.manifests, m'.id = m.id ∧ m'.status = .superseded) ∧
  ∀ m ∈ s.db.manifests, m.status = .ready →
    ∃ m' ∈ s'.db.manifests, m'.status = .ready ∧ manifestScope m' = manifestScope m ∧
      m.createdAt ≤ m'.createdAt

theorem Advances.refl (s : ManifestState) : Advances s s :=
  ⟨fun m hm hst => ⟨m, hm, rfl, hst⟩, fun m hm hst => ⟨m, hm, hst, rfl, le_rfl⟩⟩

theorem Advances.trans {s₁ s₂ s₃ : ManifestState} (h₁ : Advances s₁ s₂) (h₂ : Advances s₂ s₃) :
    Advances s₁ s₃ := by
  constructor
  · intro m hm hst
    obtain ⟨m', hm', hid, hst'⟩ := h₁.1 m hm hst
    obtain ⟨m'', hm'', hid', hst''⟩ := h₂.1 m' hm' hst'
    exact ⟨m'', hm'', hid'.trans hid, hst''⟩
  · intro m hm hst
    obtain ⟨m', hm', hst', hscope, hle⟩ := h₁.2 m hm hst
    obtain ⟨m'', hm'', hst'', hscope', hle'⟩ := h₂.2 m' hm' hst'
    exact ⟨m'', hm'', hst'', hscope'.trans hscope, hle.trans hle'⟩

section Steps

variable {orgId repoId : ℤ} {s : ManifestState} {now : Time}

theorem ManifestsOrdered.append (hs : ManifestsOrdered orgId repoId s) (hnow : s.clock < now)
    {db : Database} {added : List RepoIndexManifest}
    (hmanifests : db.manifests = s.db.manifests ++ added)
    (hrevisions : db.graphRevisions = s.db.graphRevisions)
    (hunique : UniqueKey RepoIndexManifest.id (s.db.manifests ++ added))
    (hadded : ∀ m ∈ added, ∃ inp : PendingManifestInput,
      inp.row now = m ∧ inp.orgId = orgId ∧ inp.repoId = repoId) :
    ManifestsOrdered orgId repoId ⟨db, now⟩ ∧ Advances s ⟨db, now⟩ := by
  have hcases : ∀ {m}, m ∈ db.manifests → m ∈ s.db.manifests ∨ ∃ inp : PendingManifestInput,
      inp.row now = m ∧ inp.orgId = orgId ∧ inp.repoId = repoId := by
    intro m hm
    rw [hmanifests, List.mem_append] at hm
    exact hm.imp_right (hadded m)
  have hold : ∀ {m}, m ∈ s.db.manifests → m ∈ db.manifests := by
    intro m hm
    rw [hmanifests]
    exact List.mem_append_left _ hm
  constructor
  · refine ⟨by rwa [hmanifests], ?_, ?_, ?_, ?_, ?_, ?_⟩
    · intro m hm
      obtain hm | ⟨inp, rfl, horg, hrepo⟩ := hcases hm
      · exact hs.repo m hm
      · exact ⟨horg, hrepo, rfl⟩
    · intro m hm
      obtain hm | ⟨inp, rfl, -⟩ := hcases hm
      · exact (hs.created m hm).trans hnow.le
      · exact le_rfl
    · intro m hm t ht
      obtain hm | ⟨inp, rfl, -⟩ := hcases hm
      · exact (hs.activated m hm t ht).trans hnow.le
      · cases ht
    · intro m hm m' hm' hst hst' hscope
      obtain hm | ⟨inp, rfl, -⟩ := hcases hm
      · obtain hm' | ⟨inp, rfl, -⟩ := hcases hm'
        · exact hs.ready_unique m hm m' hm' hst hst' hscope
        · cases hst'
      · cases hst
    · intro m hm m' hm' hst hst' hscope
      obtain hm | ⟨inp, rfl, -⟩ := hcases hm
      · obtain hm' | ⟨inp, rfl, -⟩ := hcases hm'
        · exact hs.pending_newer m hm m' hm' hst hst' hscope
        · exact (hs.created m hm).trans_lt hnow
      · cases hst
    · rintro m hm ⟨t, ht, hlast⟩
      rw [hrevisions]
      obtain hm | ⟨inp, rfl, -⟩ := hcases hm
      · exact hs.published m hm ⟨t, ht, fun m' hm' => hlast m' (hold hm')⟩
      · cases ht
  · exact ⟨fun m hm hst => ⟨m, hold hm, rfl, hst⟩,
      fun m hm hst => ⟨m, hold hm, hst, rfl, le_rfl⟩⟩

variable {current : RepoIndexManifest} {db : Database} {f : RepoIndexManifest → RepoIndexManifest}

theorem ManifestsOrdered.advances_activate (hs : ManifestsOrdered orgId repoId s)
    (hcurrent : current ∈ s.db.manifests) (hpending : current.status = .pending)
    (hmanifests : db.manifests = s.db.manifests.map f)
    (has : ∀ m ∈ s.db.manifests, ActivatedAs now current m (f m))
    (hready : (f current).status = .ready) : Advances s ⟨db, now⟩ := by
  have hmem : ∀ {m}, m ∈ s.db.manifests → f m ∈ db.manifests := by
    intro m hm
    rw [hmanifests]
    exact List.mem_map_of_mem hm
  constructor
  · intro m hm hst
    exact ⟨f m, hmem hm, (has m hm).kept.1, (has m hm).superseded hpending hst⟩
  · intro m hm hst
    obtain hkeep | hscope := (has m hm).of_ready hpending hst
    · exact ⟨f m, hmem hm, by rw [hkeep]; exact hst, by rw [hkeep], by rw [hkeep]⟩
    · -- the READY manifest gives way to the current one, which is newer
      have hcreated := (has current hcurrent).kept.2.1
      have hlt := hs.pending_newer m hm current hcurrent hst hpending hscope
      exact ⟨f current, hmem hcurrent, hready,
        (has current hcurrent).scope_eq.trans hscope.symm, hcreated ▸ hlt.le⟩

variable {m : RepoIndexManifest}

/-- The last activation of the scope of the current manifest is the present one, and the
activation leaves the other scopes alone. -/
theorem ManifestsOrdered.lastActivated_before (hs : ManifestsOrdered orgId repoId s)
    (hnow : s.clock < now) (hcurrent : current ∈ s.db.manifests)
    (has : ∀ m ∈ s.db.manifests, ActivatedAs now current m (f m)) (hm : m ∈ s.db.manifests)
    (hlast : LastActivated (s.db.manifests.map f) (f m)) :
    m = current ∨ manifestScope m ≠ manifestScope current ∧ LastActivated s.db.manifests m := by
  have hprovider : ∀ m ∈ s.db.manifests, m.providerConnectionId = none := fun m hm =>
    (hs.repo m hm).2.2
  have hprovider' : ∀ m' ∈ s.db.manifests.map f, m'.providerConnectionId = none := by
    refine List.forall_mem_map.2 fun m hm => ?_
    have hscope := (has m hm).scope_eq
    simp only [manifestScope, Prod.mk.injEq] at hscope
    exact hscope.2.2.2.1.trans (hprovider m hm)
  obtain ⟨t, ht, hlast⟩ := (lastActivated_iff hprovider' (List.mem_map_of_mem hm)).1 hlast
  have hlater : ∀ m' ∈ s.db.manifests, manifestScope m' = manifestScope m →
      ∀ t', (f m').activatedAt = some t' → t' ≤ t := by
    intro m' hm' hscope
    refine hlast (f m') (List.mem_map_of_mem hm') ?_
    rw [(has m' hm').scope_eq, (has m hm).scope_eq, hscope]
  refine or_iff_not_imp_left.2 fun hne => ?_
  rw [(has m hm).activatedAt_of_ne hne] at ht
  have hother : manifestScope m ≠ manifestScope current := by
    intro hscope
    have hle := hlater current hcurrent hscope.symm now (has current hcurrent).activatedAt_current
    exact absurd (hle.trans (hs.activated m hm t ht)) (not_le.2 hnow)
  refine ⟨hother, (lastActivated_iff hprovider hm).2 ⟨t, ht, fun m' hm' hscope t' ht' => ?_⟩⟩
  refine hlater m' hm' hscope t' (((has m' hm').activatedAt_of_ne ?_).trans ht')
  rintro rfl
  exact hother hscope.symm

theorem ManifestsOrdered.published_activate (hs : ManifestsOrdered orgId repoId s)
    (hnow : s.clock < now) {newId : String} {p : Payload} (hrevision : p.revision = p.branch)
    (hcurrent : current ∈ s.db.manifests) (hpending : pendingFor p current = true)
    {graph : CodeGraphIndex} (has : ∀ m ∈ s.db.manifests, ActivatedAs now current m (f m))
    (hm : m ∈ s.db.manifests) (hlast : LastActivated (s.db.manifests.map f) (f m)) :
    Published (activatedRevisions now newId p graph s.db.graphRevisions) (f m) := by
  rw [published_congr (has m hm).scope_eq (has m hm).kept.2.2]
  simp only [pendingFor, Bool.and_eq_true, decide_eq_true_eq] at hpending
  obtain ⟨⟨⟨⟨⟨-, hrepo⟩, hws⟩, hbranch⟩, hcommit⟩, -⟩ := hpending
  rw [← hrevision] at hbranch
  obtain rfl | ⟨hother, hbefore⟩ := hs.lastActivated_before hnow hcurrent has hm hlast
  · exact published_activated (fun _ => hcommit) fun hne => absurd ⟨hrepo, hws, hbranch⟩ hne
  · refine published_activated (fun htargets => absurd ?_ hother) fun _ => hs.published m hm hbefore
    obtain ⟨horg, hrepo, hprovider⟩ := hs.repo m hm
    obtain ⟨horg', hrepo', hprovider'⟩ := hs.repo current hcurrent
    simp only [manifestScope, horg, hrepo, hprovider, horg', hrepo', hprovider', htargets.2.1, hws,
      htargets.2.2, hbranch]

theorem ManifestsOrdered.activate (hs : ManifestsOrdered orgId repoId s) (hnow : s.clock < now)
    {newId : String} {p : Payload} (hrevision : p.revision = p.branch)
    (hcurrent : current ∈ s.db.manifests) (hpending : pendingFor p current = true)
    (graph : CodeGraphIndex) :
    ManifestsOrdered orgId repoId ⟨activatedDatabase now newId p current graph s.db, now⟩ ∧
      Advances s ⟨activatedDatabase now newId p current graph s.db, now⟩ := by
  set db := activatedDatabase now newId p current graph s.db with hdb
  obtain ⟨f, hmanifests, has⟩ : ∃ f, db.manifests = s.db.manifests.map f ∧
      ∀ m ∈ s.db.manifests, ActivatedAs now current m (f m) :=
    ⟨activatedRow now p current s.db.manifests, activatedManifests_eq_map,
      fun _ hm => activatedRow_as hs.unique hcurrent hpending hm⟩
  have hmem : ∀ {m'}, m' ∈ db.manifests → ∃ m ∈ s.db.manifests, f m = m' := by
    intro m' hm'
    rw [hmanifests] at hm'
    exact List.mem_map.1 hm'
  have hstatus := pendingFor_status hpending
  constructor
  · refine ⟨?_, ?_, ?_, ?_, ?_, ?_, ?_⟩
    · rw [hmanifests]
      exact hs.unique.map_of_mem fun m hm => (has m hm).kept.1
    · intro m' hm'
      obtain ⟨m, hm, rfl⟩ := hmem hm'
      have hscope := (has m hm).scope_eq
      simp only [manifestScope, Prod.mk.injEq] at hscope
      rw [hscope.1, hscope.2.1, hscope.2.2.2.1]
      exact hs.repo m hm
    · intro m' hm'
      obtain ⟨m, hm, rfl⟩ := hmem hm'
      rw [(has m hm).kept.2.1]
      exact (hs.created m hm).trans hnow.le
    · intro m' hm' t ht
      obtain ⟨m, hm, rfl⟩ := hmem hm'
      obtain ⟨-, hat⟩ | ⟨-, hkept⟩ := (has m hm).activatedAt_cases
      · rw [hat] at ht
        exact (Option.some.inj ht).ge
      · exact (hs.activated m hm t (hkept ▸ ht)).trans hnow.le
    · intro m₁' hm₁' m₂' hm₂' hst₁ hst₂ hscope
      obtain ⟨m₁, hm₁, rfl⟩ := hmem hm₁'
      obtain ⟨m₂, hm₂, rfl⟩ := hmem hm₂'
      rw [(has m₁ hm₁).scope_eq, (has m₂ hm₂).scope_eq] at hscope
      obtain rfl | ⟨heq₁, hne₁⟩ := (has m₁ hm₁).ready_cases hst₁
      · obtain rfl | ⟨-, hne₂⟩ := (has m₂ hm₂).ready_cases hst₂
        · rfl
        · exact absurd hscope.symm hne₂
      · obtain rfl | ⟨heq₂, -⟩ := (has m₂ hm₂).ready_cases hst₂
        · exact absurd hscope hne₁
        · rw [heq₁] at hst₁ ⊢
          rw [heq₂] at hst₂ ⊢
          exact hs.ready_unique m₁ hm₁ m₂ hm₂ hst₁ hst₂ hscope
    · intro m₁' hm₁' m₂' hm₂' hst₁ hst₂ hscope
      obtain ⟨m₁, hm₁, rfl⟩ := hmem hm₁'
      obtain ⟨m₂, hm₂, rfl⟩ := hmem hm₂'
      rw [(has m₁ hm₁).scope_eq, (has m₂ hm₂).scope_eq] at hscope
      rw [(has m₁ hm₁).kept.2.1, (has m₂ hm₂).kept.2.1]
      obtain ⟨heq₂, hnewer⟩ := (has m₂ hm₂).pending_cases hst₂
      rw [heq₂] at hst₂
      obtain rfl | ⟨heq₁, -⟩ := (has m₁ hm₁).ready_cases hst₁
      · exact hnewer hscope.symm
      · rw [heq₁] at hst₁
        exact hs.pending_newer m₁ hm₁ m₂ hm₂ hst₁ hst₂ hscope
    · intro m' hm' hlast
      obtain ⟨m, hm, rfl⟩ := hmem hm'
      rw [hmanifests] at hlast
      exact hs.published_activate hnow hrevision hcurrent hpending has hm hlast
  · exact hs.advances_activate hcurrent hstatus hmanifests has (has current hcurrent).of_current

theorem ManifestsOrdered.step (hs : ManifestsOrdered orgId repoId s) {step : ManifestStep}
    {s' : ManifestState} (hstep : (manifestMachine orgId repoId).step s step = some s') :
    ManifestsOrdered orgId repoId s' ∧ Advances s s' := by
  cases step with
  | insertPending now inp =>
    obtain ⟨⟨hnow, horg, hrepo⟩, heq⟩ := Option.ite_none_right_eq_some.1 hstep
    rw [← Option.some.inj heq]
    obtain ⟨hrevisions, added, hmanifests, hunique, hadded⟩ :=
      @insertPendingManifest_effect (inp.row now) inp.files s.db hs.unique
    exact hs.append hnow hmanifests hrevisions hunique fun m hm =>
      ⟨inp, (hadded m hm).symm, horg, hrepo⟩
  | activate now newId p =>
    obtain ⟨⟨hnow, horg, hrepo, hrevision⟩, heq⟩ := Option.ite_none_right_eq_some.1 hstep
    rw [← Option.some.inj heq]
    obtain ⟨e, hdone⟩ | ⟨current, graph, hcurrent, -, hdone⟩ := activate_cases now newId p s.db <;>
      rw [hdone]
    · exact hs.append hnow (List.append_nil _).symm rfl (by rw [List.append_nil]; exact hs.unique)
        (List.forall_mem_nil _)
    · obtain ⟨hmem, hpending⟩ := mem_of_argmax_filter hcurrent
      exact hs.activate hnow hrevision hmem hpending graph
  | otherTables other =>
    rw [← Option.some.inj hstep]
    exact ⟨⟨hs.unique, hs.repo, hs.created, hs.activated, hs.ready_unique, hs.pending_newer,
      hs.published⟩, Advances.refl s⟩

end Steps

/-! ## Runs -/

theorem run_manifestsOrdered {orgId repoId : ℤ} {s s' : ManifestState} {steps : List ManifestStep}
    (hs : ManifestsOrdered orgId repoId s)
    (hrun : (manifestMachine orgId repoId).run s steps = some s') :
    ManifestsOrdered orgId repoId s' ∧ Advances s s' :=
  Machine.run_rel (ManifestsOrdered orgId repoId) Advances Advances.refl
    (fun _ _ _ => Advances.trans) (fun _ _ _ hs hstep => hs.step hstep) hs hrun

/-- In every run of inserts and activations of one repository that starts without
manifests: a scope has at most one READY manifest, a superseded manifest stays
superseded, the READY manifest of a scope is only replaced by newer ones, and the
revision pointer of a branch carries the commit of the last manifest activated for it. -/
theorem activations_ordered {orgId repoId : ℤ} {s₀ s : ManifestState} {steps : List ManifestStep}
    (hempty : s₀.db.manifests = [])
    (hrun : (manifestMachine orgId repoId).run s₀ steps = some s) :
    (∀ m ∈ s.db.manifests, ∀ m' ∈ s.db.manifests, m.status = .ready → m'.status = .ready →
      manifestScope m = manifestScope m' → m = m') ∧
    (∀ later s', (manifestMachine orgId repoId).run s later = some s' →
      (∀ m ∈ s.db.manifests, m.status = .superseded →
        ∀ m' ∈ s'.db.manifests, m'.id = m.id → m'.status ≠ .ready) ∧
      (∀ m ∈ s.db.manifests, ∀ m' ∈ s'.db.manifests, m.status = .ready → m'.status = .ready →
        manifestScope m = manifestScope m' → m.createdAt ≤ m'.createdAt)) ∧
    ∀ m ∈ s.db.manifests, LastActivated s.db.manifests m →
      (∃ r ∈ s.db.graphRevisions, pointsTo m r) ∧
        ∀ r ∈ s.db.graphRevisions, pointsTo m r → r.commitHash = m.commitHash := by
  have hinit : ManifestsOrdered orgId repoId s₀ := by
    refine ⟨?_, ?_, ?_, ?_, ?_, ?_, ?_⟩
    · rw [hempty]
      exact List.nodup_nil
    all_goals simp [hempty]
  have hs := (run_manifestsOrdered hinit hrun).1
  refine ⟨hs.ready_unique, ?_, hs.published⟩
  intro later s' hlater
  obtain ⟨hs', hsuperseded, hready⟩ := run_manifestsOrdered hs hlater
  constructor
  · intro m hm hst m' hm' hid hst'
    obtain ⟨m'', hm'', hid', hst''⟩ := hsuperseded m hm hst
    rw [hs'.unique.eq_of_key_eq hm' hm'' (hid.trans hid'.symm), hst''] at hst'
    cases hst'
  · intro m hm m' hm' hst hst' hscope
    obtain ⟨m'', hm'', hst'', hscope', hle⟩ := hready m hm hst
    rw [hs'.ready_unique m' hm' m'' hm'' hst' hst'' (hscope.symm.trans hscope'.symm)]
    exact hle

def laterCommit : String := "89abcdef0123456789abcdef0123456789abcdef"

def unplannedDatabase : Database :=
  { sampleDatabase with
    manifests := []
    graphIndexes := [sampleGraph,
      { sampleGraph with id := "graph-2", commitHash := laterCommit }] }

def pendingMain (id jobId commitHash : String) : PendingManifestInput where
  id := id
  jobId := jobId
  orgId := 1
  repoId := 7
  workspaceId := "ws"
  branch := "main"
  commitHash := commitHash

/-- Two jobs plan `main`; the later one is activated first, and the activation of the
earlier one then finds its manifest superseded. -/
theorem later_job_activates_first :
    ∃ s, (manifestMachine 1 7).run ⟨unplannedDatabase, 0⟩
        [.insertPending 1 (pendingMain "old" "job" sampleCommit),
          .insertPending 2 (pendingMain "new" "job-2" laterCommit),
          .activate 3 "r-1"
            { sampleActivatePayload with
              repoIndexingJobId := "job-2"
              commitHash := laterCommit },
          .activate 4 "r-2" sampleActivatePayload] = some s ∧
      (s.db.manifests.map fun m => (m.id, m.status)) = [("old", .superseded), ("new", .ready)] ∧
      (s.db.graphRevisions.map fun r => r.commitHash) = [laterCommit] ∧
      ∀ m ∈ s.db.manifests, ∀ m' ∈ s.db.manifests, m.status = .ready → m'.status = .ready →
        manifestScope m = manifestScope m' → m = m' := by
  refine (manifestMachine 1 7).exists_run_of_any_imp
    (fun s =>
      (s.db.manifests.map fun m => (m.id, m.status)) = [("old", .superseded), ("new", .ready)] ∧
        (s.db.graphRevisions.map fun r => r.commitHash) = [laterCommit]) (by decide +kernel) ?_
  rintro s hrun ⟨hmanifests, hrevisions⟩
  exact ⟨hmanifests, hrevisions, (activations_ordered rfl hrun).1⟩

end CodeIntel.Core
