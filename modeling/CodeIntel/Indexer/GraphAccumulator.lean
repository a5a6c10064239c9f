import CodeIntel.Graph.VertexIds
import CodeIntel.Indexer.NebulaNgql
import CodeIntel.Relational.Fallible

/-!
# The indexer's graph accumulator

Vertices are kept by identifier and edges by their ends, kind and rank; the first write
wins. A vertex carries the tags of its scope with the caller's properties laid over
them, an edge only what `add_edge` writes itself. Facts of several languages become a
sequence of such calls; here the calls are arbitrary.
-/

namespace CodeIntel.Indexer.Nebula

open Text Relational Graph

variable {F : Type}

/-- The anchors are not rendered and left out. -/
structure GraphAccumulator (F : Type) where
  vertices : SortedMap String (CodeGraphVertex F) := .empty
  edges : SortedMap String (CodeGraphEdge F) := .empty

structure AddEdgeOptions (F : Type) where
  confidence : Option F := none
  confidenceTier : Option String := none
  evidenceFilePath : Option String := none
  startLine : Option ℤ := none
  endLine : Option ℤ := none
  provenance : Option String := none
  context : Option String := none
  normalizedKey : Option String := none

def scopeTags (scope : CodeGraphScope) (kind : String) : List (String × CodeGraphPrimitive F) :=
  [("kind", .string kind), ("orgId", .int scope.orgId), ("workspaceId", .string scope.workspaceId),
    ("repoId", .int scope.repoId), ("revision", .string scope.revision),
    ("commitHash", .string scope.commitHash), ("schemaVersion", .int (getSchemaVersion scope)),
    ("builderVersion", .string (getBuilderVersion scope))]

def vertexBag (scope : CodeGraphScope) (kind : String)
    (properties : SortedMap String (CodeGraphPrimitive F)) :
    SortedMap String (CodeGraphPrimitive F) :=
  (SortedMap.ofRows Prod.fst Prod.snd
    (scopeTags scope kind ++ [("provenance", .string "heuristic")])).overlay properties

def addVertex (d : Digests) (scope : CodeGraphScope) (kind key : String)
    (properties : SortedMap String (CodeGraphPrimitive F)) (graph : GraphAccumulator F) :
    Except String (String × GraphAccumulator F) := do
  let vid ← buildCodeGraphVertexId d scope kind key
  if (graph.vertices.get vid).isSome then pure (vid, graph)
  else pure (vid,
    { graph with
      vertices := graph.vertices.insert vid ⟨vid, kind, vertexBag scope kind properties⟩ })

/-- `unwrap_or(CodeGraphPrimitive::Null)`. -/
def orNull (value : Option (CodeGraphPrimitive F)) : CodeGraphPrimitive F := value.getD .null

def edgeBag (fmt : FloatText F) (scope : CodeGraphScope) (kind source : String)
    (options : AddEdgeOptions F) : SortedMap String (CodeGraphPrimitive F) :=
  SortedMap.ofRows Prod.fst Prod.snd
    (scopeTags scope kind ++
      [("confidence", .double (options.confidence.getD fmt.one)),
        ("confidenceTier", .string (options.confidenceTier.getD "EXTRACTED")),
        ("evidenceFilePath", orNull (options.evidenceFilePath.map .string)),
        ("startLine", orNull (options.startLine.map .int)),
        ("endLine", orNull (options.endLine.map .int)), ("source", .string source)] ++
      (options.normalizedKey.map fun key => ("normalizedKey", .string key)).toList ++
      [("provenance", .string (options.provenance.getD "heuristic")),
        ("context", orNull ((options.context.or (defaultContextForEdgeKind kind)).map .string))])

def addEdge (d : Digests) (fmt : FloatText F) (scope : CodeGraphScope)
    (fromVid toVid kind source : String) (options : AddEdgeOptions F)
    (graph : GraphAccumulator F) : GraphAccumulator F :=
  let rank := d.edgeRank (fromVid ++ "->" ++ toVid ++ ":" ++ kind ++ ":" ++ source)
  let edgeKey := fromVid ++ "|" ++ toVid ++ "|" ++ kind ++ "|" ++ toString rank
  if (graph.edges.get edgeKey).isSome then graph
  else
    { graph with
      edges := graph.edges.insert edgeKey
        ⟨fromVid, toVid, kind, rank, edgeBag fmt scope kind source options⟩ }

def accumulatorToSnapshot (graph : GraphAccumulator F) : CodeGraphSnapshot F where
  vertices := graph.vertices.entries.map Prod.snd
  edges := graph.edges.entries.map Prod.snd

/-! ## Sequences of calls -/

/-- A call on an accumulator, under a scope that does not change. -/
inductive GraphCall (F : Type) where
  | addVertex (kind key : String) (properties : SortedMap String (CodeGraphPrimitive F))
  | addEdge (fromVid toVid kind source : String) (options : AddEdgeOptions F)

def GraphCall.apply (d : Digests) (fmt : FloatText F) (scope : CodeGraphScope)
    (graph : GraphAccumulator F) : GraphCall F → Except String (GraphAccumulator F)
  | addVertex kind key properties =>
    (Nebula.addVertex d scope kind key properties graph).map Prod.snd
  | addEdge fromVid toVid kind source options =>
    .ok (Nebula.addEdge d fmt scope fromVid toVid kind source options graph)

/-- A new accumulator after a sequence of calls. -/
def fill (d : Digests) (fmt : FloatText F) (scope : CodeGraphScope) (calls : List (GraphCall F)) :
    Except String (GraphAccumulator F) :=
  calls.foldlM (GraphCall.apply d fmt scope) {}

variable {d : Digests} {fmt : FloatText F} {scope : CodeGraphScope}

/-- Properties of the vertices and edges that calls write hold of the whole accumulator. -/
structure Filled (V : CodeGraphVertex F → Prop) (E : CodeGraphEdge F → Prop)
    (graph : GraphAccumulator F) : Prop where
  vertices : ∀ v ∈ (accumulatorToSnapshot graph).vertices, V v
  edges : ∀ e ∈ (accumulatorToSnapshot graph).edges, E e

theorem forall_values_insert {α : Type} {P : α → Prop} {m : SortedMap String α} {k : String} {v : α}
    (hm : ∀ a ∈ m.entries.map Prod.snd, P a) (hv : P v) :
    ∀ a ∈ (m.insert k v).entries.map Prod.snd, P a := by
  refine List.forall_mem_map.2 fun entry hentry => ?_
  rcases SortedMap.mem_insert_entries.1 hentry with rfl | ⟨hmem, -⟩
  · exact hv
  · exact List.forall_mem_map.1 hm entry hmem

theorem Filled.apply {V : CodeGraphVertex F → Prop} {E : CodeGraphEdge F → Prop}
    {graph graph' : GraphAccumulator F} {call : GraphCall F} (h : Filled V E graph)
    (happly : call.apply d fmt scope graph = .ok graph')
    (hvertex : ∀ kind key properties vid, call = .addVertex kind key properties →
      buildCodeGraphVertexId d scope kind key = .ok vid →
      V ⟨vid, kind, vertexBag scope kind properties⟩)
    (hedge : ∀ fromVid toVid kind source options,
      call = .addEdge fromVid toVid kind source options →
      E ⟨fromVid, toVid, kind,
        d.edgeRank (fromVid ++ "->" ++ toVid ++ ":" ++ kind ++ ":" ++ source),
        edgeBag fmt scope kind source options⟩) :
    Filled V E graph' := by
  cases call with
  | addVertex kind key properties =>
    obtain ⟨added, hadd, rfl⟩ := map_eq_ok.1 happly
    obtain ⟨vid, hvid, hadd⟩ := bind_eq_ok.1 hadd
    split_ifs at hadd with hpresent
    · cases hadd
      exact h
    · cases hadd
      exact ⟨forall_values_insert h.vertices (hvertex _ _ _ _ rfl hvid), h.edges⟩
  | addEdge fromVid toVid kind source options =>
    cases happly
    unfold addEdge
    dsimp only
    split_ifs with hpresent
    · exact h
    · exact ⟨h.vertices, forall_values_insert h.edges (hedge _ _ _ _ _ rfl)⟩

theorem apply_ne_error (hvalid : assertValidScope scope = .ok ()) (graph : GraphAccumulator F)
    (call : GraphCall F) : ∃ graph', call.apply d fmt scope graph = .ok graph' := by
  cases call with
  | addVertex kind key properties =>
    have hvid : buildCodeGraphVertexId d scope kind key = .ok _ :=
      buildCodeGraphVertexId_eq_ok.2 ⟨hvalid, rfl⟩
    simp only [GraphCall.apply, addVertex, hvid, bind, Except.bind, pure, Except.pure]
    split_ifs
    · exact ⟨_, rfl⟩
    · exact ⟨_, rfl⟩
  | addEdge fromVid toVid kind source options => exact ⟨_, rfl⟩

/-- Under a valid scope every sequence of calls succeeds, and what each call keeps holds at
the end. -/
theorem exists_fill {V : CodeGraphVertex F → Prop} {E : CodeGraphEdge F → Prop}
    (hvalid : assertValidScope scope = .ok ()) {calls : List (GraphCall F)}
    (hstep : ∀ call ∈ calls, ∀ graph graph', Filled V E graph →
      call.apply d fmt scope graph = .ok graph' → Filled V E graph') :
    ∃ graph, fill d fmt scope calls = .ok graph ∧ Filled V E graph := by
  have hrun : ∀ graph : GraphAccumulator F, Filled V E graph →
      ∃ graph', calls.foldlM (GraphCall.apply d fmt scope) graph = .ok graph' ∧
        Filled V E graph' := by
    induction calls with
    | nil => exact fun graph h => ⟨graph, rfl, h⟩
    | cons call calls ih =>
      intro graph h
      obtain ⟨graph', happly⟩ := apply_ne_error hvalid graph call
      obtain ⟨hcall, hcalls⟩ := List.forall_mem_cons.1 hstep
      obtain ⟨final, hrest, hfinal⟩ := ih hcalls graph' (hcall graph graph' h happly)
      refine ⟨final, ?_, hfinal⟩
      rw [List.foldlM_cons, happly]
      exact hrest
  exact hrun {} ⟨by simp [accumulatorToSnapshot, SortedMap.empty],
    by simp [accumulatorToSnapshot, SortedMap.empty]⟩

end CodeIntel.Indexer.Nebula
