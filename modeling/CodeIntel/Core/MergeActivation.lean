import CodeIntel.Core.ActivationRetry

/-!
# Activating a merged revision

A GRAPH_MERGE without an AST snapshot and without SCIP rows succeeds and leaves
no graph behind, while ACTIVATE requires a READY graph of the revision. After a
successful merge, the activation commits exactly when the merge had evidence to
work on.
-/

namespace CodeIntel.Core

open Relational Schema Subjobs CodeIntel.Graph

def hasReadyGraph (p : Payload) (db : Database) : Prop :=
  ∃ g ∈ db.graphIndexes, graphOfRevision p g = true ∧ g.status = .ready

/-- What the merge starts from: a PARTIAL or READY snapshot of the revision, or rows
of its SCIP index. -/
def hasGraphEvidence (caps : ProjectionCaps) (p : Payload) (db : Database) : Prop :=
  (∃ g ∈ db.graphIndexes, graphOfRevision p g = true ∧
    (g.status = .partialReady ∨ g.status = .ready)) ∨
    (loadSCIPProjectionRows caps p db).isEmpty = false

variable {p : Payload} {db : Database}

theorem promoteOrAccept_ok {now : Time} (h : (promoteOrAccept now p db).1 = .ok ()) :
    hasReadyGraph p (promoteOrAccept now p db).2 := by
  unfold promoteOrAccept at *
  by_cases hcount : affected (promotable p db) db.graphIndexes = 1
  · obtain ⟨g, -, hg⟩ := exists_of_affected_pos (hcount ▸ Nat.one_pos)
    simp only [promotable, Bool.and_eq_true] at hg
    obtain ⟨picked, hpicked, -⟩ := (Option.any_eq_true _ _).1 hg.1
    have hmem := mem_of_argmax_filter hpicked
    simp only [Bool.and_eq_true, decide_eq_true_eq] at hmem
    have hself : promotable p db picked = true := by simp [promotable, hpicked, hg.2]
    simp only [hcount, if_true]
    exact ⟨promoteRow now picked, mem_updateWhere.2 ⟨picked, hmem.1, if_pos hself⟩,
      hmem.2.1, rfl⟩
  · simp only [hcount, if_false] at h ⊢
    split_ifs at h ⊢ with hready
    simp only [graphSnapshotAlreadyReady, Bool.and_eq_true, List.any_eq_true,
      decide_eq_true_eq] at hready
    obtain ⟨⟨g, hg, hrev, hstatus⟩, -⟩ := hready
    exact ⟨g, hg, hrev, hstatus⟩

theorem resolvePartialGraphIndex_eq_none (h : resolvePartialGraphIndex p db = none) :
    ¬∃ g ∈ db.graphIndexes, graphOfRevision p g = true ∧
      (g.status = .partialReady ∨ g.status = .ready) := by
  rintro ⟨g, hg, hrev, hstatus⟩
  have hfree := argmax_filter_eq_none.1 h g hg
  simp only [hrev, Bool.true_and, Bool.or_eq_false_iff, decide_eq_false_iff_not] at hfree
  exact hstatus.elim hfree.1 hfree.2

/-- A successful merge leaves a READY graph exactly when it found evidence. -/
theorem mergeGraph_ok {d : Digests} {caps : ProjectionCaps} {graphError : Option String}
    {now : Time} {newId : String} (h : (mergeGraph d caps graphError now newId p db).1 = .ok ()) :
    hasReadyGraph p (mergeGraph d caps graphError now newId p db).2 ↔
      hasGraphEvidence caps p db := by
  unfold mergeGraph at *
  cases hresolve : resolvePartialGraphIndex p db with
  | some g =>
    have hmem := mem_of_argmax_filter hresolve
    simp only [Bool.and_eq_true, Bool.or_eq_true, decide_eq_true_eq] at hmem
    have hevidence : hasGraphEvidence caps p db := .inl ⟨g, hmem⟩
    simp only [hresolve] at h ⊢
    refine iff_of_true ?_ hevidence
    split at h
    · cases h
    · exact promoteOrAccept_ok h
  | none =>
    have hnone := resolvePartialGraphIndex_eq_none hresolve
    simp only [hresolve] at h ⊢
    cases hrows : (loadSCIPProjectionRows caps p db).isEmpty with
    | true =>
      refine iff_of_false ?_ ?_
      · rintro ⟨g, hg, hrev, hready⟩
        exact hnone ⟨g, hg, hrev, .inr hready⟩
      · rintro (hgraph | hscip)
        · exact hnone hgraph
        · rw [hrows] at hscip
          cases hscip
    | false =>
      simp only [hrows, Bool.false_eq_true, if_false] at h ⊢
      refine iff_of_true ?_ (.inr hrows)
      split at h
      · cases h
      · exact promoteOrAccept_ok h

/-- Two payloads of one job for the same branch, revision and commit. -/
structure SameRevision (p q : Payload) : Prop where
  job : q.repoIndexingJobId = p.repoIndexingJobId
  org : q.orgId = p.orgId
  workspace : q.workspaceId = p.workspaceId
  repo : q.repoId = p.repoId
  branch : q.branch = p.branch
  revision : q.revision = p.revision
  commit : q.commitHash = p.commitHash

theorem SameRevision.graphOfRevision_eq {q : Payload} (h : SameRevision p q) :
    graphOfRevision q = graphOfRevision p := by
  unfold graphOfRevision workspaceOf
  rw [h.org, h.repo, h.workspace, h.revision, h.commit]

/-- The job is in progress, the manifest is pending and the work of the revision is
done: every ZOEKT, AST and SCIP subjob succeeded or was skipped, and GRAPH_MERGE
succeeded. -/
structure ReadyToActivate (p : Payload) (db : Database) : Prop where
  live : liveJob db p.repoIndexingJobId p.repoId p.orgId = true
  pending : ∃ m ∈ db.manifests, pendingFor p m = true
  planned : ∀ s ∈ db.subjobs, dependencyOf p s = true →
    s.layer ∈ [Layer.zoekt, .astTreeSitter, .scip, .graphMerge, .activate]
  producers : ∀ s ∈ db.subjobs, dependencyOf p s = true →
    s.layer ∈ [Layer.zoekt, .astTreeSitter, .scip] → s.status ∈ [SubjobStatus.succeeded, .skipped]
  merged : ∀ s ∈ db.subjobs, dependencyOf p s = true → s.layer = .graphMerge →
    s.status = .succeeded

theorem ReadyToActivate.not_blocked (h : ReadyToActivate p db) :
    ∀ dep ∈ db.subjobs, blocking p dep = false := by
  intro dep hdep
  by_contra hblock
  simp only [Bool.not_eq_false, blocking, Bool.and_eq_true, decide_eq_true_eq,
    Bool.not_eq_true'] at hblock
  obtain ⟨⟨hdependency, hlayer⟩, hunfinished⟩ := hblock
  simp only [depFinished, Bool.or_eq_false_iff, decide_eq_false_iff_not] at hunfinished
  have hproducers := h.producers dep hdep hdependency
  have hmerged := h.merged dep hdep hdependency
  have hplanned := h.planned dep hdep hdependency
  simp only [List.mem_cons, List.not_mem_nil, or_false] at hproducers hplanned
  tauto

def sampleMerge : Subjob :=
  { sampleActivate with
    id := "merge", layer := .graphMerge, status := .queued, attempt := 0, maxAttempts := 3
    attemptId := none, leaseOwner := none, leaseExpiresAt := none }

def skippedAst : Subjob :=
  { sampleMerge with id := "ast", layer := .astTreeSitter, status := .skipped }

def sampleMergePayload : Payload :=
  { sampleActivatePayload with id := "merge", layer := .graphMerge }

def producedDatabase (graphs : List CodeGraphIndex) : Database :=
  { sampleDatabase with
    graphIndexes := graphs
    subjobs := [skippedAst, sampleMerge, { sampleActivate with status := .queued, attempt := 0 }] }

def mergedDatabase (graphs : List CodeGraphIndex) : Database :=
  (handle sampleDigests sampleRetry "codeintel-index-core" sampleMergePayload
    (producedDatabase graphs)).2

end CodeIntel.Core
