import CodeIntel.Graph.VertexIds
import CodeIntel.Relational.Fallible

/-!
# The graph of the SCIP projection

Every step of the projection stores a vertex of its own making or adds an edge between
stored vertices. What holds of all projections follows by induction over such steps:
identifiers are unique, an edge is determined by its ends and its kind, and no edge
leaves the graph.
-/

namespace CodeIntel.Graph

open Relational Subjobs Text

variable {d : Digests} {p : Payload} {b : SnapshotBuild}

/-! ## Steps -/

def SnapshotBuild.vids (b : SnapshotBuild) : List String := b.vertices.map Vertex.vid

inductive ScipVertex (d : Digests) (p : Payload) : Vertex → Prop
  | symbol (s : SymbolProjection) : ScipVertex d p (symbolVertex d p s)
  | bareSymbol (symbol : String) : ScipVertex d p (bareSymbolVertex d p symbol)
  | file (path : String) : ScipVertex d p (fileVertex d p path)

/-- What the loops of `buildSCIPSnapshot` can build. -/
inductive Built (d : Digests) (p : Payload) : SnapshotBuild → Prop
  | empty : Built d p {}
  | put {b : SnapshotBuild} {v : Vertex} : Built d p b → ScipVertex d p v → Built d p (b.put v)
  | ensure {b : SnapshotBuild} {v : Vertex} :
    Built d p b → ScipVertex d p v → Built d p (b.ensure v)
  | addEdge {b : SnapshotBuild} {fromVid toVid : String} (e : EdgeEvidence) :
    Built d p b → fromVid ∈ b.vids → toVid ∈ b.vids → Built d p (b.addEdge d p fromVid toVid e)

theorem any_vid_iff (v : Vertex) :
    (b.vertices.any fun v' => v'.vid = v.vid) = true ↔ v.vid ∈ b.vids := by
  simp [SnapshotBuild.vids]

theorem vids_put (v : Vertex) :
    (b.put v).vids = if v.vid ∈ b.vids then b.vids else b.vids ++ [v.vid] := by
  unfold SnapshotBuild.put upsert
  by_cases hmem : v.vid ∈ b.vids
  · rw [if_pos hmem, if_pos ((any_vid_iff v).2 hmem), SnapshotBuild.vids, updateWhere, List.map_map]
    refine List.map_congr_left fun v' _ => ?_
    simp only [Function.comp_apply, decide_eq_true_eq]
    split_ifs with heq
    · exact heq.symm
    · rfl
  · rw [if_neg hmem, if_neg (mt (any_vid_iff v).1 hmem)]
    exact List.map_append

theorem vids_ensure (v : Vertex) :
    (b.ensure v).vids = if v.vid ∈ b.vids then b.vids else b.vids ++ [v.vid] := by
  unfold SnapshotBuild.ensure
  by_cases hmem : v.vid ∈ b.vids
  · rw [if_pos hmem, if_pos ((any_vid_iff v).2 hmem)]
  · rw [if_neg hmem, if_neg (mt (any_vid_iff v).1 hmem)]
    exact List.map_append

theorem vertices_addEdge (fromVid toVid : String) (e : EdgeEvidence) :
    (b.addEdge d p fromVid toVid e).vertices = b.vertices := by
  unfold SnapshotBuild.addEdge
  split_ifs <;> rfl

@[simp] theorem vids_addEdge (fromVid toVid : String) (e : EdgeEvidence) :
    (b.addEdge d p fromVid toVid e).vids = b.vids := by
  rw [SnapshotBuild.vids, vertices_addEdge, SnapshotBuild.vids]

variable {vid : String} {vids : List String}

theorem mem_vids_ensure {v : Vertex} : vid ∈ (b.ensure v).vids ↔ vid ∈ b.vids ∨ vid = v.vid := by
  rw [vids_ensure]
  split_ifs with hmem
  · exact ⟨Or.inl, fun h => h.elim id fun heq => heq ▸ hmem⟩
  · rw [List.mem_append, List.mem_singleton]

/-! ## The loops -/

theorem Built.addRelationship (hb : Built d p b) (rel : RelationshipProjection) :
    Built d p (addRelationship d p b rel) := by
  have hends : Built d p ((b.ensure (bareSymbolVertex d p rel.sourceSymbol)).ensure
      (bareSymbolVertex d p rel.targetSymbol)) :=
    (hb.ensure (.bareSymbol _)).ensure (.bareSymbol _)
  -- Both ends stay stored while the kinds of the relationship are added.
  exact (List.foldlRecOn (motive := fun b => Built d p b ∧
      (bareSymbolVertex d p rel.sourceSymbol).vid ∈ b.vids ∧
      (bareSymbolVertex d p rel.targetSymbol).vid ∈ b.vids) (scipRelationKinds rel) _
    ⟨hends, by simp [mem_vids_ensure], by simp [mem_vids_ensure]⟩
    fun b h item _ => ⟨h.1.addEdge _ h.2.1 h.2.2, by simpa using h.2⟩).1

theorem Built.addImport (hb : Built d p b) (occ : OccurrenceProjection)
    (htarget : (bareSymbolVertex d p occ.symbol).vid ∈ b.vids) :
    Built d p (addImport d p b occ) := by
  unfold Graph.addImport
  dsimp only
  split_ifs with hpath
  · exact hb
  · refine (hb.ensure (.file _)).addEdge _ ?_ ?_
    · exact mem_vids_ensure.2 (.inr rfl)
    · exact mem_vids_ensure.2 (.inl htarget)

theorem Built.addReference (hb : Built d p b) (occ : OccurrenceProjection)
    (htarget : (bareSymbolVertex d p occ.symbol).vid ∈ b.vids) :
    Built d p (addReference d p b occ) := by
  unfold Graph.addReference
  dsimp only
  split_ifs with hsource
  · exact hb
  · refine (hb.ensure (.bareSymbol _)).addEdge _ ?_ ?_
    · exact mem_vids_ensure.2 (.inr rfl)
    · exact mem_vids_ensure.2 (.inl htarget)

theorem Built.addOccurrence (hb : Built d p b) (occ : OccurrenceProjection) :
    Built d p (addOccurrence d p b occ) := by
  have htarget : (bareSymbolVertex d p occ.symbol).vid ∈
      (b.ensure (bareSymbolVertex d p occ.symbol)).vids := mem_vids_ensure.2 (.inr rfl)
  have hsymbol : Built d p (b.ensure (bareSymbolVertex d p occ.symbol)) := hb.ensure (.bareSymbol _)
  unfold Graph.addOccurrence
  cases occ.role with
  | imported => exact hsymbol.addImport occ htarget
  | reference | read =>
    split_ifs with himport
    · exact hsymbol.addImport occ htarget
    · exact hsymbol.addReference occ htarget
  | _ => exact hsymbol

theorem buildSCIPSnapshot_built (rows : ScipRows) : Built d p (buildSCIPSnapshot d p rows) := by
  refine List.foldlRecOn _ _ (List.foldlRecOn _ _ (List.foldlRecOn _ _ .empty ?_) ?_) ?_
  · exact fun b h s _ => h.put (.symbol s)
  · exact fun b h rel _ => h.addRelationship rel
  · exact fun b h occ _ => h.addOccurrence occ

/-! ## What every projection has -/

/-- Unique identifiers, one edge for its ends and kind, and no edge that leaves the graph. -/
structure WellFormed (b : SnapshotBuild) : Prop where
  vids : b.vids.Nodup
  edges : UniqueKey (fun e : Edge => (e.fromVid, e.toVid, e.kind)) b.edges
  closed : ∀ e ∈ b.edges, e.fromVid ∈ b.vids ∧ e.toVid ∈ b.vids

theorem nodup_ite_append (h : vids.Nodup) (vid : String) :
    (if vid ∈ vids then vids else vids ++ [vid]).Nodup := by
  split_ifs with hmem
  · exact h
  · rw [List.nodup_append]
    refine ⟨h, List.nodup_singleton vid, fun a ha c hc heq => hmem ?_⟩
    rwa [← List.mem_singleton.1 hc, ← heq]

theorem subset_ite_append : vids ⊆ if vid ∈ vids then vids else vids ++ [vid] := by
  split_ifs with hmem
  · exact List.Subset.refl _
  · exact List.subset_append_left _ _

theorem WellFormed.store {b' : SnapshotBuild} (hb : WellFormed b)
    (hvids : b'.vids = if vid ∈ b.vids then b.vids else b.vids ++ [vid])
    (hedges : b'.edges = b.edges) : WellFormed b' where
  vids := hvids ▸ nodup_ite_append hb.vids vid
  edges := hedges ▸ hb.edges
  closed := by
    rw [hedges, hvids]
    exact fun e he => ⟨subset_ite_append (hb.closed e he).1, subset_ite_append (hb.closed e he).2⟩

theorem WellFormed.addEdge (hb : WellFormed b) {fromVid toVid : String} (hfrom : fromVid ∈ b.vids)
    (hto : toVid ∈ b.vids) (e : EdgeEvidence) : WellFormed (b.addEdge d p fromVid toVid e) := by
  unfold SnapshotBuild.addEdge
  split_ifs with hskip
  · exact hb
  · refine ⟨hb.vids, ?_, ?_⟩
    · apply hb.edges.append_fresh
      intro e' he' heq
      simp only [scipEdge, Prod.mk.injEq] at heq
      simp only [Bool.or_eq_true, List.any_eq_true, not_or, not_exists, not_and] at hskip
      exact hskip.2 e' he' (by simp [heq])
    · exact List.forall_mem_append.2 ⟨hb.closed, List.forall_mem_singleton.2 ⟨hfrom, hto⟩⟩

theorem Built.wellFormed (hb : Built d p b) : WellFormed b := by
  induction hb with
  | empty => exact ⟨List.nodup_nil, List.nodup_nil, by simp⟩
  | put _ _ ih => exact ih.store (vids_put _) rfl
  | @ensure b v _ _ ih =>
    refine ih.store (vids_ensure v) ?_
    unfold SnapshotBuild.ensure
    split_ifs <;> rfl
  | addEdge e _ hfrom hto ih => exact ih.addEdge hfrom hto e

theorem Built.scipVertex (hb : Built d p b) : ∀ v ∈ b.vertices, ScipVertex d p v := by
  induction hb with
  | empty => simp
  | @put b v _ hv ih =>
    intro v' hv'
    rcases mem_upsert.1 hv' with ⟨old, hold, rfl⟩ | ⟨rfl, -⟩
    · split_ifs with hsame
      · exact hv
      · exact ih old hold
    · exact hv
  | @ensure b v _ hv ih =>
    unfold SnapshotBuild.ensure
    split_ifs with hpresent
    · exact ih
    · exact List.forall_mem_append.2 ⟨ih, List.forall_mem_singleton.2 hv⟩
  | addEdge e _ _ _ ih =>
    rw [vertices_addEdge]
    exact ih

def IsScipEdge (d : Digests) (p : Payload) (e : Edge) : Prop :=
  ∃ evidence, evidence.kind ≠ "" ∧ e = scipEdge d p e.fromVid e.toVid evidence

theorem Built.isScipEdge (hb : Built d p b) : ∀ e ∈ b.edges, IsScipEdge d p e := by
  induction hb with
  | empty => simp
  | put _ _ ih => exact ih
  | @ensure b v _ _ ih =>
    unfold SnapshotBuild.ensure
    split_ifs
    · exact ih
    · exact ih
  | @addEdge b fromVid toVid evidence _ _ _ ih =>
    unfold SnapshotBuild.addEdge
    split_ifs with hskip
    · exact ih
    · simp only [Bool.or_eq_true, decide_eq_true_eq, not_or] at hskip
      exact List.forall_mem_append.2 ⟨ih, List.forall_mem_singleton.2 ⟨evidence, hskip.1.2, rfl⟩⟩

/-! ## Empty projections -/

/-- A loop whose body makes a predicate true makes it true unless it is empty. -/
theorem foldl_makes {α β : Type} {P : β → Prop} {f : β → α → β} (hf : ∀ b a, P (f b a))
    {batch : List α} (hne : batch ≠ []) (b : β) : P (batch.foldl f b) := by
  obtain ⟨front, last, rfl⟩ := (List.eq_nil_or_concat batch).resolve_left hne
  rw [List.concat_eq_append, List.foldl_append, List.foldl_cons, List.foldl_nil]
  exact hf _ last

theorem vids_ensure_ne_nil (v : Vertex) : (b.ensure v).vids ≠ [] :=
  List.ne_nil_of_mem (mem_vids_ensure.2 (.inr rfl))

theorem vids_put_ne_nil (v : Vertex) : (b.put v).vids ≠ [] := by
  rw [vids_put]
  split_ifs with hmem
  · exact List.ne_nil_of_mem hmem
  · simp

theorem vids_addRelationship_ne_nil (rel : RelationshipProjection) :
    (addRelationship d p b rel).vids ≠ [] := by
  refine List.foldlRecOn (motive := fun b : SnapshotBuild => b.vids ≠ []) (scipRelationKinds rel) _
    (vids_ensure_ne_nil _) fun b h item _ => ?_
  rw [vids_addEdge]
  exact h

theorem vids_addOccurrence_ne_nil (occ : OccurrenceProjection) :
    (addOccurrence d p b occ).vids ≠ [] := by
  have hsymbol := vids_ensure_ne_nil (b := b) (bareSymbolVertex d p occ.symbol)
  have himport : (addImport d p (b.ensure (bareSymbolVertex d p occ.symbol)) occ).vids ≠ [] := by
    unfold addImport
    dsimp only
    split_ifs
    · exact hsymbol
    · rw [vids_addEdge]
      exact vids_ensure_ne_nil _
  have hreference :
      (addReference d p (b.ensure (bareSymbolVertex d p occ.symbol)) occ).vids ≠ [] := by
    unfold addReference
    dsimp only
    split_ifs
    · exact hsymbol
    · rw [vids_addEdge]
      exact vids_ensure_ne_nil _
  unfold addOccurrence
  cases occ.role with
  | imported => exact himport
  | reference | read =>
    split_ifs
    · exact himport
    · exact hreference
  | _ => exact hsymbol

theorem vids_buildSCIPSnapshot_eq_nil {rows : ScipRows} :
    (buildSCIPSnapshot d p rows).vids = [] ↔ rows.isEmpty = true := by
  constructor
  · intro hnil
    by_contra hrows
    simp only [ScipRows.isEmpty, Bool.and_eq_true, List.isEmpty_iff, not_and] at hrows
    refine absurd hnil ?_
    -- Whatever the first two loops have stored, the last one keeps.
    by_cases hocc : rows.occurrences = []
    · by_cases hrel : rows.relationships = []
      · have hsym : rows.symbols ≠ [] := fun hsym => hrows ⟨hsym, hrel⟩ hocc
        simp only [buildSCIPSnapshot, hocc, hrel, List.foldl_nil]
        exact foldl_makes (P := fun b : SnapshotBuild => b.vids ≠ [])
          (fun b s => vids_put_ne_nil _) hsym _
      · simp only [buildSCIPSnapshot, hocc, List.foldl_nil]
        exact foldl_makes (P := fun b : SnapshotBuild => b.vids ≠ [])
          (fun b rel => vids_addRelationship_ne_nil rel) hrel _
    · exact foldl_makes (P := fun b : SnapshotBuild => b.vids ≠ [])
        (fun b occ => vids_addOccurrence_ne_nil occ) hocc _
  · intro hrows
    simp only [ScipRows.isEmpty, Bool.and_eq_true, List.isEmpty_iff] at hrows
    obtain ⟨⟨hsym, hrel⟩, hocc⟩ := hrows
    simp only [buildSCIPSnapshot, hsym, hrel, hocc, List.foldl_nil]
    rfl

end CodeIntel.Graph
