import CodeIntel.Cleanup.Scoped
import CodeIntel.Core.ReadyGraph

/-!
# Graph data after a full cleanup

The graph store next to the database: writers and merges put vertices into it under
the scope of their payload, failed ones only some of them. Every vertex has the row
of its snapshot, but a full cleanup retires only the snapshots that are READY and
deletes all rows.
-/

namespace CodeIntel.Cleanup

open Core Relational Schema Subjobs CodeIntel.Graph Text

/-! ## The graph store -/

/-- A vertex with the properties that the retirement looks at. -/
structure StoredVertex where
  vid : String
  scope : CodeGraphDeleteInput
  deriving DecidableEq, Repr

def writeScope (w : Writer.WritePayload) : CodeGraphDeleteInput where
  orgId := w.orgId
  workspaceId := w.workspaceId
  repoId := w.repoId
  commitHash := w.commitHash
  schemaVersion := w.schemaVersion
  builderVersion := w.builderVersion

def mergeScope (p : Payload) : CodeGraphDeleteInput where
  orgId := p.orgId
  workspaceId := workspaceOf p
  repoId := p.repoId
  commitHash := p.commitHash
  schemaVersion := defaultSchemaVersion
  builderVersion := defaultBuilder

/-- `INSERT VERTEX` overwrites the vertex of the same id. -/
def putVertex (vertices : List StoredVertex) (v : StoredVertex) : List StoredVertex :=
  vertices.filter (fun u => u.vid ≠ v.vid) ++ [v]

def projectedVertices (env : GraphServices) (p : Payload) (rows : ScipRows) : List StoredVertex :=
  (buildSCIPSnapshot env.digests p rows).vertices.map fun v => ⟨v.vid, mergeScope p⟩

def renderedVertices (env : GraphServices) (w : Writer.WritePayload) : List StoredVertex :=
  match env.store.extractRenderedRows w with
  | .ok (rows, _) => rows.map fun row => ⟨row.vid, writeScope w⟩
  | .error _ => []

/-- `markBuilding` hands the row to the writer; a READY or SKIPPED one is not written again. -/
def buildsGraph (x : GraphDraw) (w : Writer.WritePayload) (db : Database) : Bool :=
  let status := (Writer.markBuilding x.now x.newId w db).1.status
  !idTaken x.newId db && (status = .building || status = .partialReady)

/-- The vertices that reach the graph store while an execution issues its next statement.
`arrives` tells which ones of a write that fails. -/
def arrivedVertices (env : GraphServices) (x : GraphDraw) (arrives : StoredVertex → Bool)
    (db : Database) : GraphTask → List StoredVertex
  | .admitted _ w =>
    if buildsGraph x w db then
      match x.outcome with
      | .ok r => if r.status = .ready then renderedVertices env w else []
      | .error _ => (renderedVertices env w).filter arrives
    else []
  | .merge p =>
    let rows := loadSCIPProjectionRows env.caps p db
    if rows.isEmpty || (resolvePartialGraphIndex p db).isNone then []
    else (projectedVertices env p rows).filter arrives
  | .create p rows =>
    if idTaken x.newId db then [] else (projectedVertices env p rows).filter arrives
  | _ => []

structure StoreState where
  graph : GraphState
  vertices : List StoredVertex

structure StoreLabel where
  call : GraphLabel
  arrives : StoredVertex → Bool

def StoreState.step (env : GraphServices) (s : StoreState) (l : StoreLabel) : Option StoreState :=
  (s.graph.step env l.call).map fun graph =>
    { graph
      vertices := match l.call with
        | .issue i x => ((s.graph.tasks[i]?).elim []
            (arrivedVertices env x l.arrives s.graph.db)).foldl putVertex s.vertices
        | .abort _ _ => s.vertices }

def storeMachine (env : GraphServices) : Machine StoreState StoreLabel := ⟨StoreState.step env⟩

def retireVertices (retired : List CodeGraphDeleteInput) (vertices : List StoredVertex) :
    List StoredVertex :=
  vertices.filter fun v => !retired.contains v.scope

/-! ## Every vertex has its row -/

/-- The unique key of graph index rows. -/
def snapshotKey (x : CodeGraphDeleteInput) : ℤ × String × String × ℤ × String :=
  (x.repoId, x.workspaceId, x.commitHash, x.schemaVersion, x.builderVersion)

/-- The keys of the tables: graph rows are one for each snapshot and belong to a repository
with the same organisation. -/
structure GraphKeys (db : Database) : Prop where
  unique : UniqueKey (fun g => snapshotKey (deleteInput g)) db.graphIndexes
  repos : UniqueKey Repo.id db.repos
  owned : ∀ g ∈ db.graphIndexes, RepoFound db g.orgId g.repoId

/-- What a statement does to the graph rows: it may change them in place, but not their
scope, and insert one of a repository. -/
structure KeepsScopes (db db' : Database) : Prop where
  kept : ∀ g ∈ db.graphIndexes, ∃ g' ∈ db'.graphIndexes, deleteInput g' = deleteInput g
  keys : GraphKeys db → GraphKeys db'
  found : ∀ orgId repoId, RepoFound db orgId repoId → RepoFound db' orgId repoId

section Keys

variable {db db' : Database}

theorem RepoFound.of_repos (h : db'.repos.map (fun r => (r.id, r.orgId)) =
    db.repos.map fun r => (r.id, r.orgId)) {orgId repoId : ℤ} (hfound : RepoFound db orgId repoId) :
    RepoFound db' orgId repoId := by
  obtain ⟨r, hr, hid, horg⟩ := hfound
  have hmem : (repoId, orgId) ∈ db'.repos.map fun r => (r.id, r.orgId) := by
    rw [h, ← hid, ← horg]
    exact List.mem_map_of_mem hr
  obtain ⟨r', hr', heq⟩ := List.mem_map.1 hmem
  exact ⟨r', hr', (Prod.mk.inj heq).1, (Prod.mk.inj heq).2⟩

theorem GraphKeys.deleteInput_eq (h : GraphKeys db) {g : CodeGraphIndex} {x : CodeGraphDeleteInput}
    (hg : g ∈ db.graphIndexes) (hkey : snapshotKey (deleteInput g) = snapshotKey x)
    (hfound : RepoFound db x.orgId x.repoId) : deleteInput g = x := by
  obtain ⟨r, hr, hid, horg⟩ := h.owned g hg
  obtain ⟨r', hr', hid', horg'⟩ := hfound
  simp only [snapshotKey, Prod.mk.injEq] at hkey
  obtain ⟨hrepo, hworkspace, hcommit, hschema, hbuilder⟩ := hkey
  obtain rfl := h.repos.eq_of_key_eq hr hr' ((hid.trans hrepo).trans hid'.symm)
  cases x
  simp_all [deleteInput]

theorem KeepsScopes.of_update {cond : CodeGraphIndex → Bool} {set : CodeGraphIndex → CodeGraphIndex}
    (hrows : db'.graphIndexes = updateWhere cond set db.graphIndexes)
    (hset : ∀ g, deleteInput (set g) = deleteInput g)
    (hrepos : db'.repos.map (fun r => (r.id, r.orgId)) = db.repos.map fun r => (r.id, r.orgId)) :
    KeepsScopes db db' := by
  have hscope : ∀ g, deleteInput (if cond g then set g else g) = deleteInput g := by
    intro g
    split
    · exact hset g
    · rfl
  refine ⟨fun g hg => ?_, fun h => ⟨?_, ?_, fun g hg => ?_⟩, fun _ _ => .of_repos hrepos⟩
  · rw [hrows]
    exact ⟨_, mem_updateWhere.2 ⟨g, hg, rfl⟩, hscope g⟩
  · rw [hrows]
    exact h.unique.map fun g => congrArg snapshotKey (hscope g)
  · have hids := congrArg (List.map Prod.fst) hrepos
    simp only [List.map_map] at hids
    exact (congrArg List.Nodup hids).mpr h.repos
  · rw [hrows] at hg
    obtain ⟨g₀, hg₀, rfl⟩ := mem_updateWhere.1 hg
    have hsame := hscope g₀
    have horg : (if cond g₀ then set g₀ else g₀).orgId = g₀.orgId :=
      congrArg CodeGraphDeleteInput.orgId hsame
    have hrepo : (if cond g₀ then set g₀ else g₀).repoId = g₀.repoId :=
      congrArg CodeGraphDeleteInput.repoId hsame
    rw [horg, hrepo]
    exact .of_repos hrepos (h.owned g₀ hg₀)

theorem KeepsScopes.of_upsert {conflict : CodeGraphIndex → Bool}
    {merge : CodeGraphIndex → CodeGraphIndex} {fresh : CodeGraphIndex}
    (hrows : db'.graphIndexes = upsert conflict merge fresh db.graphIndexes)
    (hconflict : ∀ g, conflict g = true ↔
      snapshotKey (deleteInput g) = snapshotKey (deleteInput fresh))
    (hmerge : ∀ g, deleteInput (merge g) = deleteInput g)
    (hfound : RepoFound db fresh.orgId fresh.repoId) (hrepos : db'.repos = db.repos) :
    KeepsScopes db db' := by
  by_cases hany : db.graphIndexes.any conflict = true
  · exact .of_update (hrows.trans (if_pos hany)) hmerge (congrArg _ hrepos)
  · have happend : db'.graphIndexes = db.graphIndexes ++ [fresh] := hrows.trans (if_neg hany)
    have hrepo : ∀ orgId repoId, RepoFound db orgId repoId → RepoFound db' orgId repoId :=
      fun _ _ => .of_repos (congrArg _ hrepos)
    refine ⟨fun g hg => ⟨g, by simp [happend, hg], rfl⟩, fun h => ⟨?_, hrepos ▸ h.repos, ?_⟩, hrepo⟩
    · rw [happend]
      exact h.unique.append_fresh fun g hg hkey =>
        hany (List.any_eq_true.2 ⟨g, hg, (hconflict g).2 hkey⟩)
    · intro g hg
      rw [happend] at hg
      rcases List.mem_append.1 hg with hold | hnew
      · exact hrepo _ _ (h.owned g hold)
      · obtain rfl := List.mem_singleton.1 hnew
        exact hrepo _ _ hfound

theorem KeepsScopes.of_same (hrows : db'.graphIndexes = db.graphIndexes)
    (hrepos : db'.repos.map (fun r => (r.id, r.orgId)) = db.repos.map fun r => (r.id, r.orgId)) :
    KeepsScopes db db' := by
  have hupdate : db'.graphIndexes = updateWhere (fun _ => false) id db.graphIndexes := by
    rw [hrows, updateWhere_eq_self fun _ _ => rfl]
  exact .of_update hupdate (fun _ => rfl) hrepos

end Keys

/-! ## Steps and runs -/

section Runs

variable {env : GraphServices} {x : GraphDraw} {db : Database}

def taskRepo : GraphTask → Option (ℤ × ℤ)
  | .admitted _ w => some (w.orgId, w.repoId)
  | .merge p | .create p _ => some (p.orgId, p.repoId)
  | _ => none

def TaskFound (db : Database) (t : GraphTask) : Prop :=
  ∀ ids ∈ taskRepo t, RepoFound db ids.1 ids.2

theorem snapshotKey_iff (g : CodeGraphIndex) (x : CodeGraphDeleteInput) :
    snapshotKey (deleteInput g) = snapshotKey x ↔
      g.repoId = x.repoId ∧ g.workspaceId = x.workspaceId ∧ g.commitHash = x.commitHash ∧
        g.schemaVersion = x.schemaVersion ∧ g.builderVersion = x.builderVersion := by
  simp [snapshotKey, deleteInput]

theorem writesSnapshot_iff (w : Writer.WritePayload) (g : CodeGraphIndex) :
    Writer.writesSnapshot w g = true ↔ snapshotKey (deleteInput g) = snapshotKey (writeScope w) := by
  rw [snapshotKey_iff]
  simp [Writer.writesSnapshot, writeScope, and_assoc]

theorem sameSnapshotKey_iff (p : Payload) (g : CodeGraphIndex) :
    sameSnapshotKey p g = true ↔ snapshotKey (deleteInput g) = snapshotKey (mergeScope p) := by
  rw [snapshotKey_iff]
  simp [sameSnapshotKey, mergeScope, and_assoc]

theorem markBuilding_keepsScopes (x : GraphDraw) (w : Writer.WritePayload)
    (hfound : RepoFound db w.orgId w.repoId) :
    KeepsScopes db (Writer.markBuilding x.now x.newId w db).2 := by
  refine .of_upsert rfl (writesSnapshot_iff w) (fun g => ?_) hfound rfl
  unfold Writer.rebuildGraphIndex
  split <;> rfl

theorem createPartial_keepsScopes (x : GraphDraw) (p : Payload) (hfound : RepoFound db p.orgId p.repoId) :
    KeepsScopes db (createPartialGraphIndexForSCIPOnly x.now x.newId p db) :=
  .of_upsert rfl (sameSnapshotKey_iff p) (fun _ => rfl) hfound rfl

theorem exec_keepsScopes (d : Digests) (now : Time) (gid : String) (w : Writer.WritePayload)
    (st : Writer.WriteStatement) : KeepsScopes db (st.exec d now gid w db) := by
  cases st with
  | markPartial | markReady | markSkipped | markFailed | repairReadyGraphCounts =>
    exact .of_update rfl (fun _ => rfl) rfl
  | upsertRevisionIfManifestReady newId =>
    unfold Writer.WriteStatement.exec
    dsimp only
    split <;> exact .of_same rfl rfl
  | _ => exact .of_same rfl rfl

theorem activate_keepsScopes (p : Payload) :
    KeepsScopes db (Core.activate x.now x.newId p db).2 := by
  have hrepos : ∀ manifests, (updateWhere (fun r => r.id = p.repoId && r.orgId = p.orgId)
      (publishRepo x.now p manifests) db.repos).map (fun r => (r.id, r.orgId)) =
      db.repos.map fun r => (r.id, r.orgId) := by
    intro manifests
    rw [updateWhere_eq_map, List.map_map]
    refine List.map_congr_left fun r _ => ?_
    rw [Function.comp_apply]
    split <;> rfl
  obtain ⟨e, heq⟩ | ⟨current, graph, -, -, heq⟩ := activate_cases x.now x.newId p db <;> rw [heq]
  · exact .of_same rfl rfl
  · exact .of_same rfl (hrepos _)

variable {t : GraphTask} {w : Writer.WritePayload} {v : StoredVertex}
  {arrives : StoredVertex → Bool} {s : StoreState}

theorem issue_keepsScopes (h : TaskFound db t) : KeepsScopes db (t.issue env x db).1 := by
  have hsame : KeepsScopes db db := .of_same rfl rfl
  cases t with
  | write opts w | merge p =>
    rw [GraphTask.issue]
    split <;> exact hsame
  | admitted opts w =>
    rw [GraphTask.issue]
    split
    · exact hsame
    · exact markBuilding_keepsScopes x w (h _ rfl)
  | writing gid w rest =>
    cases rest with
    | nil => exact hsame
    | cons st rest => exact exec_keepsScopes env.digests x.now gid w st
  | create p rows =>
    rw [GraphTask.issue]
    split
    · exact hsame
    · exact createPartial_keepsScopes x p (h _ rfl)
  | project p gid vertices edges =>
    cases vertices <;> cases edges <;> exact .of_same rfl rfl
  | promote p => exact .of_update rfl (fun _ => rfl) rfl
  | activate p => exact activate_keepsScopes p
  | finished => exact hsame

theorem exists_scope_of_upsert {db' : Database} {conflict : CodeGraphIndex → Bool}
    {merge : CodeGraphIndex → CodeGraphIndex} {fresh : CodeGraphIndex} {x : CodeGraphDeleteInput}
    (hrows : db'.graphIndexes = upsert conflict merge fresh db.graphIndexes)
    (hconflict : ∀ g, conflict g = true ↔ snapshotKey (deleteInput g) = snapshotKey x)
    (hmerge : ∀ g, deleteInput (merge g) = deleteInput g) (hfresh : deleteInput fresh = x)
    (hkeys : GraphKeys db') (hfound : RepoFound db' x.orgId x.repoId) :
    ∃ g ∈ db'.graphIndexes, deleteInput g = x := by
  have hmerged : ∀ g, conflict g = true → conflict (merge g) = true := by
    intro g hg
    rw [hconflict] at hg ⊢
    rwa [hmerge]
  obtain ⟨g, hfind⟩ : ∃ g, db'.graphIndexes.find? conflict = some g := by
    rw [hrows]
    exact exists_find?_upsert hmerged ((hconflict fresh).2 (congrArg snapshotKey hfresh))
  have hg : g ∈ db'.graphIndexes := List.mem_of_find?_eq_some hfind
  exact ⟨g, hg, hkeys.deleteInput_eq hg ((hconflict g).1 (List.find?_some hfind)) hfound⟩

theorem deleteInput_of_graphOfRevision {p : Payload} {g : CodeGraphIndex}
    (h : graphOfRevision p g = true) : deleteInput g = mergeScope p := by
  unfold graphOfRevision at h
  simp only [Bool.and_eq_true, decide_eq_true_eq] at h
  obtain ⟨⟨⟨⟨⟨⟨horg, hrepo⟩, hworkspace⟩, -⟩, hcommit⟩, hschema⟩, hbuilder⟩ := h
  simp [deleteInput, mergeScope, horg, hrepo, hworkspace, hcommit, hschema, hbuilder]

theorem scope_of_mem_renderedVertices (h : v ∈ renderedVertices env w) :
    v.scope = writeScope w := by
  unfold renderedVertices at h
  split at h
  · obtain ⟨row, -, rfl⟩ := List.mem_map.1 h
    rfl
  · cases h

theorem scope_of_mem_projectedVertices {p : Payload} {rows : ScipRows}
    (h : v ∈ (projectedVertices env p rows).filter arrives) :
    v.scope = mergeScope p := by
  obtain ⟨u, -, rfl⟩ := List.mem_map.1 (List.mem_filter.1 h).1
  rfl

theorem arrivedVertices_scope (hkeys : GraphKeys db) (htask : TaskFound db t)
    (hv : v ∈ arrivedVertices env x arrives db t) :
    ∃ g ∈ (t.issue env x db).1.graphIndexes, deleteInput g = v.scope := by
  cases t with
  | admitted opts w =>
    have hfound : RepoFound db w.orgId w.repoId := htask _ rfl
    have hkeeps := markBuilding_keepsScopes x w hfound
    unfold arrivedVertices at hv
    dsimp only at hv
    split at hv
    swap
    · cases hv
    rename_i hbuilds
    have hscope : v.scope = writeScope w := by
      split at hv
      · split at hv
        · exact scope_of_mem_renderedVertices hv
        · cases hv
      · exact scope_of_mem_renderedVertices (List.mem_filter.1 hv).1
    have hfree : ¬idTaken x.newId db = true := by
      simp only [buildsGraph, Bool.and_eq_true, Bool.not_eq_true'] at hbuilds
      exact Bool.eq_false_iff.1 hbuilds.1
    rw [GraphTask.issue]
    rw [if_neg hfree, hscope]
    refine exists_scope_of_upsert rfl (writesSnapshot_iff w) (fun g => ?_) rfl (hkeeps.keys hkeys)
      (hkeeps.found _ _ hfound)
    unfold Writer.rebuildGraphIndex
    split <;> rfl
  | merge p =>
    unfold arrivedVertices at hv
    dsimp only at hv
    split at hv
    · cases hv
    rename_i hsome
    rw [Bool.or_eq_true, not_or] at hsome
    obtain ⟨g, hg⟩ := Option.ne_none_iff_exists'.1 fun hnone => hsome.2 (Option.isNone_iff_eq_none.2 hnone)
    obtain ⟨hmem, hrevision⟩ := mem_of_argmax_filter hg
    rw [scope_of_mem_projectedVertices hv]
    have hrows : ((GraphTask.merge p).issue env x db).1 = db := by
      unfold GraphTask.issue
      dsimp only
      split <;> rfl
    rw [hrows]
    exact ⟨g, hmem, deleteInput_of_graphOfRevision (Bool.and_eq_true_iff.1 hrevision).1⟩
  | create p rows =>
    have hfound : RepoFound db p.orgId p.repoId := htask _ rfl
    have hkeeps := createPartial_keepsScopes x p hfound
    unfold arrivedVertices at hv
    unfold GraphTask.issue
    dsimp only at hv ⊢
    split at hv
    · cases hv
    rename_i hfree
    rw [if_neg hfree, scope_of_mem_projectedVertices hv]
    exact exists_scope_of_upsert rfl (sameSnapshotKey_iff p) (fun _ => rfl) rfl
      (hkeeps.keys hkeys) (hkeeps.found _ _ hfound)
  | write | writing | project | promote | activate | finished => cases hv

/-- Every vertex of the store has the row of its snapshot. -/
structure Covered (s : StoreState) : Prop where
  keys : GraphKeys s.graph.db
  tasks : ∀ t ∈ s.graph.tasks, TaskFound s.graph.db t
  vertices : ∀ v ∈ s.vertices, ∃ g ∈ s.graph.db.graphIndexes, deleteInput g = v.scope

theorem mem_foldl_putVertex {vertices arrived : List StoredVertex}
    (h : v ∈ arrived.foldl putVertex vertices) : v ∈ vertices ∨ v ∈ arrived := by
  refine List.foldlRecOn (motive := fun kept => v ∈ kept → v ∈ vertices ∨ v ∈ arrived) arrived _
    .inl (fun kept hkept u hu hput => ?_) h
  rcases List.mem_append.1 hput with hold | hnew
  · exact hkept (List.mem_filter.1 hold).1
  · exact .inr (List.mem_singleton.1 hnew ▸ hu)

theorem repoFound_of_refuseWrite {store : Writer.RenderedStore} {opts : Writer.WriteOptions}
    (h : Writer.refuseWrite store opts w db = none) :
    RepoFound db w.orgId w.repoId := by
  unfold Writer.refuseWrite at h
  split at h
  · cases h
  · cases h
  split at h
  · cases h
  rename_i workspaceId hscope
  unfold Writer.resolveScope at hscope
  split at hscope
  · rename_i hrepo
    obtain ⟨r, hr, hids⟩ := List.any_eq_true.1 hrepo
    simp only [Bool.and_eq_true, decide_eq_true_eq] at hids
    exact ⟨r, hr, hids⟩
  · cases hscope

theorem taskFound_issue (h : TaskFound db t) : TaskFound db (t.issue env x db).2 := by
  have hnone : ∀ t' : GraphTask, taskRepo t' = none → TaskFound db t' := by
    intro t' ht' ids hids
    rw [ht'] at hids
    cases hids
  cases t with
  | write opts w =>
    rw [GraphTask.issue]
    split
    · exact hnone _ rfl
    · rename_i hadmitted
      intro ids hids
      cases hids
      exact repoFound_of_refuseWrite hadmitted
  | admitted opts w | create p rows =>
    rw [GraphTask.issue]
    split <;> exact hnone _ rfl
  | writing gid w rest =>
    cases rest with
    | nil => exact hnone _ rfl
    | cons st rest =>
      unfold GraphTask.issue
      dsimp only
      split <;> exact hnone _ rfl
  | merge p =>
    rw [GraphTask.issue]
    split <;> split
    · exact hnone _ rfl
    · exact hnone _ rfl
    · exact hnone _ rfl
    · exact h
  | project p gid vertices edges => cases vertices <;> cases edges <;> exact hnone _ rfl
  | promote | activate | finished => exact hnone _ rfl

theorem step_covered {s' : StoreState} {l : StoreLabel} (h : Covered s)
    (hstep : (storeMachine env).step s l = some s') : Covered s' := by
  obtain ⟨graph, hgraph, rfl⟩ := Option.map_eq_some_iff.1 hstep
  obtain ⟨call, arrives⟩ := l
  cases call with
  | issue i x =>
    obtain ⟨t, ht, rfl⟩ := Option.map_eq_some_iff.1 hgraph
    have htask := h.tasks t (List.mem_of_getElem? ht)
    have hkeeps : KeepsScopes s.graph.db (t.issue env x s.graph.db).1 := issue_keepsScopes htask
    refine ⟨hkeeps.keys h.keys, fun t' ht' => ?_, fun v hv => ?_⟩
    · have hbefore : TaskFound s.graph.db t' := by
        rcases mem_set_cases ht' with rfl | hother
        · exact taskFound_issue htask
        · exact h.tasks t' (List.mem_of_mem_eraseIdx hother)
      exact fun ids hids => hkeeps.found _ _ (hbefore ids hids)
    · dsimp only at hv
      rw [ht] at hv
      rcases mem_foldl_putVertex hv with hold | hnew
      · obtain ⟨g, hg, hscope⟩ := h.vertices v hold
        obtain ⟨g', hg', hsame⟩ := hkeeps.kept g hg
        exact ⟨g', hg', hsame.trans hscope⟩
      · exact arrivedVertices_scope h.keys htask hnew
  | abort i reason =>
    obtain ⟨t, ht, rfl⟩ := Option.map_eq_some_iff.1 hgraph
    refine ⟨h.keys, fun t' ht' => ?_, h.vertices⟩
    rcases mem_set_cases ht' with rfl | hother
    · cases t <;> intro ids hids <;> cases hids
    · exact h.tasks t' (List.mem_of_mem_eraseIdx hother)

/-! ## The full cleanup -/

theorem mem_listGraphSnapshotsForCleanup {orgId repoId : ℤ} {snapshots : List CodeGraphDeleteInput}
    {ref : String} (href : trimSpace ref = "")
    (h : listGraphSnapshotsForCleanupRef orgId repoId ref db = .ok snapshots)
    (input : CodeGraphDeleteInput) :
    input ∈ snapshots ↔ ∃ g ∈ db.graphIndexes, g.orgId = orgId ∧ g.repoId = repoId ∧
      g.status = .ready ∧ deleteInput g = input := by
  have hnone : cleanupRefCandidates ref = [] := by
    unfold cleanupRefCandidates
    rw [href]
    rfl
  unfold listGraphSnapshotsForCleanupRef listGraphSnapshotsForCleanup at h
  rw [hnone] at h
  dsimp only at h
  split at h
  · cases h
  cases h
  simp only [List.mem_dedup, List.mem_map, List.mem_filter, Bool.and_eq_true, decide_eq_true_eq]
  refine exists_congr fun g => ?_
  tauto

theorem retired_cleanupRowsAndFiles (env : CleanupEnv) (now : Time) (orgId repoId : ℤ)
    (ref : String) (repo : PathsRepo) (retired : List CodeGraphDeleteInput) (db : Database)
    (fs : FileSystem) :
    (cleanupRowsAndFiles env now orgId repoId ref repo retired db fs).retired = retired := by
  unfold cleanupRowsAndFiles
  dsimp only
  split
  · rfl
  split
  · rfl
  · rfl

theorem mem_retired_of_full_cleanup {env : CleanupEnv} {now : Time} {orgId repoId : ℤ}
    {ref : String} {fs : FileSystem} (href : trimSpace ref = "")
    (hfound : RepoFound db orgId repoId)
    (hok : (dispatchCleanupScoped env now orgId repoId ref db fs).result = .ok ())
    (input : CodeGraphDeleteInput) :
    input ∈ (dispatchCleanupScoped env now orgId repoId ref db fs).retired ↔
      ∃ g ∈ db.graphIndexes, g.orgId = orgId ∧ g.repoId = repoId ∧ g.status = .ready ∧
        deleteInput g = input := by
  have htrim : trimSpace (trimSpace ref) = "" := by rw [trimSpace_trimSpace, href]
  rcases dispatchCleanupScoped_cases env now orgId repoId ref db fs with
    ⟨e, retired, -, hreply⟩ | ⟨hnone, -⟩ | ⟨repo, snapshots, hlist, -, -, hreply⟩
  · rw [hreply] at hok
    cases hok
  · exact absurd hfound hnone
  · rw [hreply, retired_cleanupRowsAndFiles, mem_listGraphSnapshotsForCleanup htrim hlist]

/-- The start of a history: the tables meet their keys, nothing is in the graph store, and
every execution is about to start, merges for a repository that has its row. -/
structure HistoryStart (s : StoreState) : Prop where
  keys : GraphKeys s.graph.db
  vertices : s.vertices = []
  unstarted : ∀ t ∈ s.graph.tasks, t.unstarted = true
  merges : ∀ p, GraphTask.merge p ∈ s.graph.tasks → RepoFound s.graph.db p.orgId p.repoId

theorem HistoryStart.covered (h : HistoryStart s) : Covered s := by
  refine ⟨h.keys, fun t ht ids hids => ?_, fun v hv => ?_⟩
  · cases t with
    | merge p =>
      cases hids
      exact h.merges p ht
    | admitted | create => exact absurd (h.unstarted _ ht) Bool.false_ne_true
    | write | writing | project | promote | activate | finished => cases hids
  · rw [h.vertices] at hv
    cases hv

/-- After any history of writes, merges, failures and activations, a full cleanup that
succeeds leaves no vertex of the repository exactly when the rows of the repository with
vertices in the store are all READY. -/
theorem full_cleanup_leaves_no_vertex_iff {s₀ s : StoreState} {history : List StoreLabel}
    {cleanup : CleanupEnv} {now : Time} {orgId repoId : ℤ} {ref : String} {fs : FileSystem}
    (hstart : HistoryStart s₀) (hrun : (storeMachine env).run s₀ history = some s)
    (href : trimSpace ref = "") (hfound : RepoFound s.graph.db orgId repoId)
    (hok : (dispatchCleanupScoped cleanup now orgId repoId ref s.graph.db fs).result = .ok ()) :
    (∀ v ∈ retireVertices (dispatchCleanupScoped cleanup now orgId repoId ref s.graph.db fs).retired
        s.vertices, ¬(v.scope.orgId = orgId ∧ v.scope.repoId = repoId)) ↔
      ∀ g ∈ s.graph.db.graphIndexes, g.orgId = orgId → g.repoId = repoId →
        (∃ v ∈ s.vertices, v.scope = deleteInput g) → g.status = .ready := by
  have hcovered : Covered s :=
    Machine.run_invariant Covered (fun _ _ _ h hstep => step_covered h hstep) hstart.covered hrun
  have hretired := mem_retired_of_full_cleanup href hfound hok
  constructor
  · rintro h g hg rfl rfl ⟨v, hv, hscope⟩
    by_contra hstatus
    have hkept : v ∈ retireVertices
        (dispatchCleanupScoped cleanup now g.orgId g.repoId ref s.graph.db fs).retired s.vertices := by
      refine List.mem_filter.2 ⟨hv, ?_⟩
      rw [Bool.not_eq_true', ← Bool.not_eq_true, List.contains_iff_mem, hretired, hscope]
      rintro ⟨g', hg', -, -, hready, hsame⟩
      have hg'g : g' = g := hcovered.keys.unique.eq_of_key_eq hg' hg (congrArg snapshotKey hsame)
      exact hstatus (hg'g ▸ hready)
    exact h v hkept ⟨congrArg CodeGraphDeleteInput.orgId hscope,
      congrArg CodeGraphDeleteInput.repoId hscope⟩
  · rintro h v hv ⟨horg, hrepo⟩
    obtain ⟨hv, hkept⟩ := List.mem_filter.1 hv
    obtain ⟨g, hg, hscope⟩ := hcovered.vertices v hv
    have hgorg : g.orgId = orgId := (congrArg CodeGraphDeleteInput.orgId hscope).trans horg
    have hgrepo : g.repoId = repoId := (congrArg CodeGraphDeleteInput.repoId hscope).trans hrepo
    have hready := h g hg hgorg hgrepo ⟨v, hv, hscope.symm⟩
    rw [Bool.not_eq_true', ← Bool.not_eq_true, List.contains_iff_mem] at hkept
    exact hkept ((hretired v.scope).2 ⟨g, hg, hgorg, hgrepo, hready, hscope⟩)

end Runs

/-! ## An AST snapshot that was never merged -/

def ingestHistory : StoreState where
  graph := ingestAndMerge
  vertices := []

def labels (calls : List GraphLabel) : List StoreLabel :=
  calls.map fun call => ⟨call, fun _ => false⟩

theorem ingestHistory_start : HistoryStart ingestHistory := by
  refine ⟨⟨by decide, by decide, fun g hg => by cases hg⟩, rfl, by decide, fun p hp => ?_⟩
  have hp : GraphTask.merge p = .merge sampleMergePayload := by
    simpa [ingestHistory, ingestAndMerge] using hp
  obtain rfl := GraphTask.merge.inj hp
  exact ⟨sampleRepo, List.mem_singleton.2 rfl, rfl, rfl⟩

def fullCleanup (s : StoreState) : CleanupReply :=
  dispatchCleanupScoped cleanupEnv 200 1 7 "" s.graph.db ⟨"/app", []⟩

def merged : List StoreLabel := labels (issues 0 7 "graph" ++ issues 2 2 "merge")

/-- A merged snapshot is retired. -/
theorem full_cleanup_retires_merged_snapshot :
    ∃ s, (storeMachine sampleServices).run ingestHistory merged = some s ∧ s.vertices ≠ [] ∧
      ∀ v ∈ retireVertices (fullCleanup s).retired s.vertices,
        ¬(v.scope.orgId = 1 ∧ v.scope.repoId = 7) := by
  refine Machine.exists_run_of_any_imp _
    (fun s => (fullCleanup s).result = .ok () ∧
      (s.graph.db.repos.any fun r => r.id = 7 && r.orgId = 1) = true ∧
      s.vertices ≠ [] ∧ ∀ g ∈ s.graph.db.graphIndexes, g.status = .ready) (by decide +kernel) ?_
  rintro s hrun ⟨hok, hrepo, hvertices, hready⟩
  have hfound : RepoFound s.graph.db 1 7 := by
    obtain ⟨r, hr, hids⟩ := List.any_eq_true.1 hrepo
    simp only [Bool.and_eq_true, decide_eq_true_eq] at hids
    exact ⟨r, hr, hids⟩
  exact ⟨hvertices, (full_cleanup_leaves_no_vertex_iff ingestHistory_start hrun (by decide)
    hfound hok).2 fun g hg _ _ _ => hready g hg⟩

/-- The AST ingest has ended well, but its snapshot was not merged: the cleanup deletes
its PARTIAL row and leaves its vertex. -/
theorem full_cleanup_leaves_partial_snapshot :
    ∃ s, (storeMachine sampleServices).run ingestHistory (labels (issues 0 7 "graph")) = some s ∧
      (fullCleanup s).result = .ok () ∧ (fullCleanup s).db.graphIndexes = [] ∧
      retireVertices (fullCleanup s).retired s.vertices =
        [⟨"cg:main", writeScope sampleWrite⟩] :=
  Machine.exists_run_of_any _ _ (by decide +kernel)

end CodeIntel.Cleanup
