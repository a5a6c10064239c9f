import CodeIntel.Core.MergeActivation
import CodeIntel.Core.MergeFrame
import CodeIntel.Core.SharedRow
import CodeIntel.Graph.Writer

/-!
# Two branches at one commit

An INDEX job that plans two branches at the same commit makes both of them write
one graph index row: the row is unique per commit, but merge and activation look
it up by the revision it carries, and every writer and merge may overwrite that
revision. The interleavings of the two branches are the runs of a machine on the
database; it refines the machine of `SharedRow`, so its merges always succeed and
its activations succeed exactly on undisturbed schedules.
-/

namespace CodeIntel.Core

open Relational Schema Subjobs CodeIntel.Graph

/-- The plan of two branches at one commit, their AST artifacts and the services the
steps rely on. The planner uses the branch name as the revision. -/
structure SharedCommit where
  jobId : String
  (orgId repoId : ℤ)
  (workspaceId commitHash : String)
  branch : Bool → String
  distinct : branch false ≠ branch true
  manifestId : Bool → String
  statements : Bool → List String
  anchors : Bool → List Writer.PayloadAnchor
  digests : Digests
  store : Writer.RenderedStore
  caps : ProjectionCaps

variable (c : SharedCommit)

namespace SharedCommit

def payload (b : Bool) (layer : Layer) : Payload where
  id := ""
  repoIndexingJobId := c.jobId
  orgId := c.orgId
  workspaceId := some c.workspaceId
  repoId := c.repoId
  branch := c.branch b
  revision := c.branch b
  commitHash := c.commitHash
  layer := layer
  language := none
  projectRoot := none
  indexer := none
  workerClass := "core"
  queueName := "codeintel-index-core"
  attempt := 1

def write (b : Bool) : Writer.WritePayload where
  orgId := c.orgId
  workspaceId := c.workspaceId
  repoId := c.repoId
  branch := c.branch b
  revision := c.branch b
  commitHash := c.commitHash
  schemaVersion := defaultSchemaVersion
  builderVersion := defaultBuilder
  indexJobId := c.jobId
  manifestId := c.manifestId b
  source := "syntactic-ast"
  statements := c.statements b
  anchors := c.anchors b

/-- What the graph store answers to a branch's artifact: the parsed rows are counted.
Only artifacts with a vertex and with counts in range finish their ingest. -/
def ingestResult (b : Bool) : Option Writer.WriteResult :=
  match c.store.extractRenderedRows (c.write b) with
  | .error _ => none
  | .ok (vertices, edges) =>
    let result : Writer.WriteResult :=
      { status := .ready
        vertexCount := vertices.length
        edgeCount := edges.length
        anchorCount := (c.anchors b).length
        linkedEdgeCount := Writer.countRenderedAnchorLinks edges (c.anchors b) }
    if vertices.isEmpty || !result.countsFit then none else some result

end SharedCommit

/-- How far a branch has come; `building` remembers what `markBuilding` returned. -/
inductive Progress where
  | planned
  | building (build : Writer.GraphBuildState)
  | ingested
  | merged
  | activated
  | failed

structure SharedState where
  db : Database
  progress : Bool → Progress

def SharedState.moved (s : SharedState) (b : Bool) (db : Database) (progress : Progress) :
    SharedState :=
  ⟨db, Function.update s.progress b progress⟩

/-- One step of one branch, with the clock and the fresh identifier it draws. -/
structure BranchStep where
  branch : Bool
  op : BranchOp
  now : Time
  newId : String
  deriving DecidableEq, Repr

def BranchStep.kind (l : BranchStep) : Bool × BranchOp := (l.branch, l.op)

/-- The executor marks the subjobs of the layer SUCCEEDED. -/
def finishLayer (now : Time) (p : Payload) (layer : Layer) (db : Database) : Database :=
  { db with
    subjobs := updateWhere (fun dep => dependencyOf p dep && dep.layer = layer)
      (succeedRow now) db.subjobs }

namespace SharedCommit

/-- The rest of a branch's AST ingest after `markBuilding`. A pending write never issues
the one statement that can end it early. -/
def ingest (l : BranchStep) (build : Writer.GraphBuildState) (result : Writer.WriteResult)
    (db : Database) : Database :=
  (Writer.writeStatements c.store Writer.pendingOptions l.newId (c.write l.branch) build
    (.ok result)).foldl (Writer.WriteStatement.exec c.digests l.now build.id (c.write l.branch)) db

def merge (l : BranchStep) (db : Database) : Reply Unit :=
  mergeGraph c.digests c.caps none l.now l.newId (c.payload l.branch .graphMerge) db

def publish (l : BranchStep) (db : Database) : Reply Unit :=
  activate l.now l.newId (c.payload l.branch .activate) db

/-- The answer of the handler a step runs; ingest steps without errors answer nothing. -/
def outcome (s : SharedState) (l : BranchStep) : Except String Unit :=
  match l.op with
  | .graphMerge => (c.merge l s.db).1
  | .activate => (c.publish l s.db).1
  | _ => .ok ()

/-- A branch takes its steps in order; a failed merge or activation ends it. -/
def step (s : SharedState) (l : BranchStep) : Option SharedState :=
  match l.op, s.progress l.branch with
  | .markBuilding, .planned =>
    let (build, db) := Writer.markBuilding l.now l.newId (c.write l.branch) s.db
    some (s.moved l.branch db (.building build))
  | .markPartial, .building build =>
    (c.ingestResult l.branch).map fun result =>
      s.moved l.branch
        (finishLayer l.now (c.payload l.branch .astTreeSitter) .astTreeSitter
          (c.ingest l build result s.db)) .ingested
  | .graphMerge, .ingested =>
    match c.merge l s.db with
    | (.ok (), db) => some (s.moved l.branch
        (finishLayer l.now (c.payload l.branch .graphMerge) .graphMerge db) .merged)
    | (.error _, db) => some (s.moved l.branch db .failed)
  | .activate, .merged =>
    match c.publish l s.db with
    | (.ok (), db) => some (s.moved l.branch
        (finishLayer l.now (c.payload l.branch .activate) .activate db) .activated)
    | (.error _, db) => some (s.moved l.branch db .failed)
  | _, _ => none

def machine : Machine SharedState BranchStep := ⟨c.step⟩

/-! ## The row of the commit -/

end SharedCommit

/-- The columns of the unique index on graph rows. -/
def snapshotKey (g : CodeGraphIndex) : ℤ × String × String × ℤ × String :=
  (g.repoId, g.workspaceId, g.commitHash, g.schemaVersion, g.builderVersion)

namespace SharedCommit

def key : ℤ × String × String × ℤ × String :=
  (c.repoId, c.workspaceId, c.commitHash, defaultSchemaVersion, defaultBuilder)

def graphRow (db : Database) : Option CodeGraphIndex :=
  lookup snapshotKey c.key db.graphIndexes

variable {c}

theorem sameSnapshotKey_payload (b : Bool) (layer : Layer) :
    sameSnapshotKey (c.payload b layer) = fun g => decide (snapshotKey g = c.key) := by
  funext g
  rw [Bool.eq_iff_iff]
  simp only [sameSnapshotKey, Bool.and_eq_true, decide_eq_true_eq, snapshotKey, key,
    Prod.mk.injEq, and_assoc]
  exact Iff.rfl

theorem writesSnapshot_write (b : Bool) :
    Writer.writesSnapshot (c.write b) = fun g => decide (snapshotKey g = c.key) := by
  funext g
  rw [Bool.eq_iff_iff]
  simp only [Writer.writesSnapshot, Bool.and_eq_true, decide_eq_true_eq, snapshotKey, key,
    Prod.mk.injEq, and_assoc]
  exact Iff.rfl

theorem graphOfRevision_payload (b : Bool) (layer : Layer) (g : CodeGraphIndex) :
    graphOfRevision (c.payload b layer) g = true ↔
      snapshotKey g = c.key ∧ g.orgId = c.orgId ∧ g.sourceRevision = c.branch b := by
  simp only [graphOfRevision, Bool.and_eq_true, decide_eq_true_eq, snapshotKey, key,
    Prod.mk.injEq]
  tauto

/-- With unique keys, a row of the revision is the shared row. -/
theorem exists_graphOfRevision_iff {db : Database} (hunique : UniqueKey snapshotKey db.graphIndexes)
    (b : Bool) (layer : Layer) (status : GraphIndexStatus) :
    (∃ g ∈ db.graphIndexes, graphOfRevision (c.payload b layer) g = true ∧ g.status = status) ↔
      ∃ g, c.graphRow db = some g ∧ g.orgId = c.orgId ∧ g.sourceRevision = c.branch b ∧
        g.status = status := by
  constructor
  · rintro ⟨g, hg, hrev, hstatus⟩
    obtain ⟨hkey, horg, hsource⟩ := (graphOfRevision_payload b layer g).1 hrev
    exact ⟨g, lookup_eq_some_of_mem hunique hg hkey, horg, hsource, hstatus⟩
  · rintro ⟨g, hg, horg, hsource, hstatus⟩
    exact ⟨g, mem_of_lookup hg,
      (graphOfRevision_payload b layer g).2 ⟨key_of_lookup hg, horg, hsource⟩, hstatus⟩

/-! ## The steps on the row -/

theorem rebuildGraphIndex_key (now : Time) (w : Writer.WritePayload) (g : CodeGraphIndex) :
    snapshotKey (Writer.rebuildGraphIndex now w g) = snapshotKey g := by
  unfold Writer.rebuildGraphIndex
  split <;> rfl

theorem markBuilding_graphRow (now : Time) (newId : String) (b : Bool) (db : Database) :
    ∃ g, c.graphRow (Writer.markBuilding now newId (c.write b) db).2 = some g ∧
      (Writer.markBuilding now newId (c.write b) db).1 = ⟨g.id, g.status⟩ ∧
      g = (c.graphRow db).elim (Writer.buildingGraphIndex now newId (c.write b))
        (Writer.rebuildGraphIndex now (c.write b)) := by
  have hrow : lookup snapshotKey c.key (upsert (fun g => snapshotKey g = c.key)
      (Writer.rebuildGraphIndex now (c.write b)) (Writer.buildingGraphIndex now newId (c.write b))
      db.graphIndexes) = some ((c.graphRow db).elim _ _) :=
    lookup_upsert (rebuildGraphIndex_key now (c.write b)) rfl
  refine ⟨_, ?_, ?_, rfl⟩
  · simpa [graphRow, Writer.markBuilding, writesSnapshot_write] using hrow
  · unfold lookup at hrow
    simp [Writer.markBuilding, writesSnapshot_write, hrow, graphRow, lookup]

end SharedCommit

section Ingest

variable (d : Digests) (now : Time) (graphIndexId : String) (w : Writer.WritePayload)

theorem exec_sameInputs (st : Writer.WriteStatement) (db : Database) :
    SameInputs db (st.exec d now graphIndexId w db) := by
  cases st with
  | upsertRevisionIfManifestReady newId =>
    unfold Writer.WriteStatement.exec
    dsimp only
    split
    · exact ⟨rfl, rfl, rfl, rfl, rfl, rfl, rfl, rfl⟩
    · exact .refl db
  | _ => exact ⟨rfl, rfl, rfl, rfl, rfl, rfl, rfl, rfl⟩

theorem foldl_exec_sameInputs (sts : List Writer.WriteStatement) (db : Database) :
    SameInputs db (sts.foldl (Writer.WriteStatement.exec d now graphIndexId w) db) :=
  List.foldlRecOn sts _ (.refl db) fun _ h st _ => h.trans (exec_sameInputs d now graphIndexId w st _)

theorem persist_graphIndexes (vertices : List Writer.RenderedVertexRow)
    (edges : List Writer.RenderedEdgeRow) (db : Database) :
    ((Writer.persistRenderedSemanticRows w vertices edges).foldl
      (Writer.WriteStatement.exec d now graphIndexId w) db).graphIndexes = db.graphIndexes := by
  have hkeep : ∀ st ∈ Writer.persistRenderedSemanticRows w vertices edges, ∀ db : Database,
      (st.exec d now graphIndexId w db).graphIndexes = db.graphIndexes := by
    intro st hst db
    simp only [Writer.persistRenderedSemanticRows, List.mem_append, List.mem_cons,
      List.not_mem_nil, or_false, List.mem_map] at hst
    rcases hst with (((rfl | rfl | rfl) | ⟨batch, -, rfl⟩) | ⟨batch, -, rfl⟩) | ⟨batch, -, rfl⟩ <;>
      rfl
  generalize Writer.persistRenderedSemanticRows w vertices edges = sts at hkeep
  induction sts generalizing db with
  | nil => rfl
  | cons st sts ih =>
    rw [List.foldl_cons, ih _ fun st' h => hkeep st' (List.mem_cons_of_mem _ h)]
    exact hkeep st List.mem_cons_self db

end Ingest

namespace SharedCommit

variable {c : SharedCommit}

/-- A row function that keeps what the steps identify a row by. -/
structure KeepsRow (f : CodeGraphIndex → CodeGraphIndex) : Prop where
  key : ∀ g, snapshotKey (f g) = snapshotKey g
  id : ∀ g, (f g).id = g.id
  org : ∀ g, (f g).orgId = g.orgId

theorem KeepsRow.guard {cond : CodeGraphIndex → Bool} {set : CodeGraphIndex → CodeGraphIndex}
    (h : KeepsRow set) : KeepsRow fun g => if cond g then set g else g where
  key g := by split <;> simp [h.key]
  id g := by split <;> simp [h.id]
  org g := by split <;> simp [h.org]

/-- What the rest of an ingest does to graph rows: it marks the row it was given
PARTIAL when `markBuilding` took it, and keeps every status when the row was finished. -/
structure IngestRow (c : SharedCommit) (b : Bool) (build : Writer.GraphBuildState)
    (f : CodeGraphIndex → CodeGraphIndex) : Prop where
  keeps : KeepsRow f
  source : ∀ g, (f g).sourceRevision = g.sourceRevision
  status : ∀ g, (f g).status =
    if build.status = .building ∧ Writer.writesRow build.id (c.write b) g = true
    then .partialReady else g.status

variable {build : Writer.GraphBuildState} {result : Writer.WriteResult} {l : BranchStep}

theorem writeStatements_taken {b : Bool} (hresult : c.ingestResult b = some result)
    (hbuild : build.status = .building) (newId : String) :
    ∃ vertices edges,
      Writer.writeStatements c.store Writer.pendingOptions newId (c.write b) build (.ok result) =
        Writer.persistRenderedSemanticRows (c.write b) vertices edges ++ [.markPartial result] := by
  unfold ingestResult at hresult
  cases hrows : c.store.extractRenderedRows (c.write b) with
  | error e => simp [hrows] at hresult
  | ok rows =>
    obtain ⟨vertices, edges⟩ := rows
    simp only [hrows] at hresult
    split at hresult
    · cases hresult
    · rename_i hfit
      simp only [Bool.or_eq_true, not_or, Bool.not_eq_true', Bool.not_eq_false] at hfit
      cases hresult
      have hanchors : (c.write b).anchors = c.anchors b := rfl
      refine ⟨vertices, edges, ?_⟩
      simp only [Writer.writeStatements, Writer.rebuildStatements, hbuild, hrows,
        Writer.finishWrite, hanchors, hfit.2, Bool.not_true, Bool.false_eq_true, if_false]
      rfl

theorem ingest_taken (hresult : c.ingestResult l.branch = some result)
    (hbuild : build.status = .building) (db : Database) :
    ∃ f, (c.ingest l build result db).graphIndexes = db.graphIndexes.map f ∧
      IngestRow c l.branch build f := by
  obtain ⟨vertices, edges, hlist⟩ := writeStatements_taken hresult hbuild l.newId
  refine ⟨fun g => if Writer.writesRow build.id (c.write l.branch) g then
    Writer.partialRow l.now result g else g, ?_, ?_, ?_, ?_⟩
  · rw [ingest, hlist, List.foldl_append]
    exact congrArg _ (persist_graphIndexes ..)
  · exact KeepsRow.guard ⟨fun _ => rfl, fun _ => rfl, fun _ => rfl⟩
  · intro g
    split <;> rfl
  · intro g
    simp only [hbuild, true_and]
    split <;> rfl

theorem ingest_passed (hbuild : build.status = .ready ∨ build.status = .skipped) (db : Database) :
    ∃ f, (c.ingest l build result db).graphIndexes = db.graphIndexes.map f ∧
      IngestRow c l.branch build f := by
  rcases hbuild with hbuild | hbuild
  · simp only [ingest, Writer.writeStatements, hbuild, Writer.pendingOptions]
    refine ⟨_, rfl, KeepsRow.guard ⟨fun _ => rfl, fun _ => rfl, fun _ => rfl⟩, ?_, ?_⟩
    · intro g
      split <;> rfl
    · intro g
      simp only [hbuild, reduceCtorEq, false_and, if_false]
      split <;> rfl
  · simp only [ingest, Writer.writeStatements, hbuild]
    refine ⟨id, by simp, ⟨fun _ => rfl, fun _ => rfl, fun _ => rfl⟩, fun _ => rfl, fun g => ?_⟩
    simp [hbuild]

end SharedCommit

end CodeIntel.Core
