import CodeIntel.Core.Activate
import CodeIntel.Graph.Writer
import CodeIntel.Relational.Run

/-!
# Concurrent executions on the code graph

Any number of graph writers, merges and activations run side by side. Each
execution is the list of SQL statements it still has to issue, or the point it
has reached, and one step of the system is one statement of one execution. A
writer decides what to issue from what `markBuilding` returned and does not look
at the row again, so an execution whose lease was lost keeps issuing.
-/

namespace CodeIntel.Core

open Relational Schema Subjobs CodeIntel.Graph

inductive GraphTask where
  /-- A writer before its checks. -/
  | write (opts : Writer.WriteOptions) (w : Writer.WritePayload)
  /-- A writer whose manifest was accepted, before `markBuilding`. -/
  | admitted (opts : Writer.WriteOptions) (w : Writer.WritePayload)
  /-- A writer with the statements it still has to issue on its row. -/
  | writing (graphIndexId : String) (w : Writer.WritePayload) (rest : List Writer.WriteStatement)
  /-- A merge before it reads the snapshot and the SCIP rows. -/
  | merge (p : Payload)
  /-- A merge that found no snapshot, before `createPartialGraphIndexForSCIPOnly`. -/
  | create (p : Payload) (rows : ScipRows)
  /-- A merge with the projected rows it still has to insert. -/
  | project (p : Payload) (graphIndexId : String) (vertices : List Vertex) (edges : List Edge)
  /-- A merge before its promotion. -/
  | promote (p : Payload)
  /-- An activation before its transaction. -/
  | activate (p : Payload)
  | finished

/-- The services the executions rely on. -/
structure GraphServices where
  digests : Digests
  store : Writer.RenderedStore
  caps : ProjectionCaps

/-- What one statement draws from outside: the clock, a fresh identifier, the answer of
the graph store to a writer and the size of the next insert batch of a merge. -/
structure GraphDraw where
  now : Time
  newId : String
  outcome : Except String Writer.WriteResult
  batch : ℕ

inductive GraphLabel where
  /-- The execution issues its next statement. -/
  | issue (i : ℕ) (draw : GraphDraw)
  /-- The execution dies, or meets an error that a writer records with `markFailed`. -/
  | abort (i : ℕ) (reason : Option String)

structure GraphState where
  db : Database
  tasks : List GraphTask

/-- An insert under an identifier that is taken violates the primary key. -/
def idTaken (newId : String) (db : Database) : Bool :=
  db.graphIndexes.any fun g => g.id = newId

def GraphTask.issue (env : GraphServices) (x : GraphDraw) (db : Database) :
    GraphTask → Database × GraphTask
  | .write opts w =>
    match Writer.refuseWrite env.store opts w db with
    | some _ => (db, .finished)
    | none => (db, .admitted opts w)
  | .admitted opts w =>
    if idTaken x.newId db then (db, .finished)
    else
      let (build, db') := Writer.markBuilding x.now x.newId w db
      (db', .writing build.id w (Writer.writeStatements env.store opts x.newId w build x.outcome))
  | .writing _ _ [] => (db, .finished)
  | .writing graphIndexId w (st :: rest) =>
    (st.exec env.digests x.now graphIndexId w db,
      if st.halts w db then .finished else .writing graphIndexId w rest)
  | .merge p =>
    let rows := loadSCIPProjectionRows env.caps p db
    match resolvePartialGraphIndex p db with
    | some g =>
      let snapshot := buildSCIPSnapshot env.digests p rows
      (db, if rows.isEmpty then .promote p else .project p g.id snapshot.vertices snapshot.edges)
    | none => (db, if rows.isEmpty then .finished else .create p rows)
  | .create p rows =>
    if idTaken x.newId db then (db, .finished)
    else
      let db' := createPartialGraphIndexForSCIPOnly x.now x.newId p db
      let graphIndexId := ((db'.graphIndexes.find? (sameSnapshotKey p)).map
        CodeGraphIndex.id).getD x.newId
      let snapshot := buildSCIPSnapshot env.digests p rows
      (db', .project p graphIndexId snapshot.vertices snapshot.edges)
  | .project p _ [] [] => (db, .promote p)
  | .project p graphIndexId [] edges =>
    (insertSCIPSemanticEdges env.digests x.now graphIndexId p (edges.take x.batch) db,
      .project p graphIndexId [] (edges.drop x.batch))
  | .project p graphIndexId vertices edges =>
    (insertSCIPSemanticFacts x.now graphIndexId p (vertices.take x.batch) db,
      .project p graphIndexId (vertices.drop x.batch) edges)
  | .promote p => ((promotePartialGraph x.now p db).2, .finished)
  | .activate p => ((Core.activate x.now x.newId p db).2, .finished)
  | .finished => (db, .finished)

def GraphTask.aborted (reason : Option String) : GraphTask → GraphTask
  | .writing graphIndexId w _ =>
    .writing graphIndexId w (reason.elim [] fun r => [.markFailed r])
  | _ => .finished

def GraphState.step (env : GraphServices) (s : GraphState) : GraphLabel → Option GraphState
  | .issue i x => (s.tasks[i]?).map fun t =>
    ⟨(t.issue env x s.db).1, s.tasks.set i (t.issue env x s.db).2⟩
  | .abort i reason => (s.tasks[i]?).map fun t => ⟨s.db, s.tasks.set i (t.aborted reason)⟩

def graphMachine (env : GraphServices) : Machine GraphState GraphLabel := ⟨GraphState.step env⟩

def GraphTask.unstarted : GraphTask → Bool
  | .write _ _ | .merge _ | .activate _ => true
  | _ => false

end CodeIntel.Core
