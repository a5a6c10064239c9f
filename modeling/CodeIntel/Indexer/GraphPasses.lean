import CodeIntel.Indexer.GraphAccumulator
import Mathlib.Data.Rat.Defs

/-!
# The passes over a finished graph

`reconcile_edge_provenance` keeps one best edge of every kind between two vertices.
`materialize_graph_anchors` links the ends of eligible edges; its budget counts the edges it
looks at and not the links it adds.
-/

namespace CodeIntel.Indexer.Nebula

open Text Relational Graph

variable {F : Type}

/-! ## Reconciliation -/

section Reconcile

abbrev Triple := String ×ₗ String ×ₗ String

def CodeGraphEdge.triple (edge : CodeGraphEdge F) : Triple :=
  toLex (edge.fromVid, toLex (edge.toVid, edge.kind))

/-- `rational` gives the value of a finite number. -/
def edgeScore (rational : F → Option ℚ) (edge : CodeGraphEdge F) : ℤ :=
  let confidence : ℤ := match edge.properties.get "confidence" with
    | some (.double d) => ((rational d).map fun q => (q * 1000).num.tdiv (q * 1000).den).getD 0
    | _ => 0
  let provenanceBonus : ℤ := match edge.properties.get "provenance" with
    | some (.string s) =>
      if s = "scip" then 5 else if s = "tree-sitter" then 3 else if s = "heuristic" then 1 else 0
    | _ => 0
  confidence * 10 + provenanceBonus

def electWinner (winners : SortedMap Triple (String × ℤ)) (scored : String × Triple × ℤ) :
    SortedMap Triple (String × ℤ) :=
  match winners.get scored.2.1 with
  | some (_, existing) =>
    if scored.2.2 ≤ existing then winners
    else winners.insert scored.2.1 (scored.1, scored.2.2)
  | none => winners.insert scored.2.1 (scored.1, scored.2.2)

def winnerKeys (scored : List (String × Triple × ℤ)) : SortedMap Triple (String × ℤ) :=
  scored.foldl electWinner .empty

def scoredEdges (rational : F → Option ℚ) (graph : GraphAccumulator F) :
    List (String × Triple × ℤ) :=
  graph.edges.entries.map fun e => (e.1, e.2.triple, edgeScore rational e.2)

def reconcileEdgeProvenance (rational : F → Option ℚ) (graph : GraphAccumulator F) :
    GraphAccumulator F :=
  let kept := (winnerKeys (scoredEdges rational graph)).entries.map fun w => w.2.1
  { graph with edges := graph.edges.retain fun key => kept.contains key }

/-- The winners of what was seen: an entry of each group, of the greatest score. -/
structure Elected (seen : List (String × Triple × ℤ)) (winners : SortedMap Triple (String × ℤ)) :
    Prop where
  sound : ∀ t w, winners.get t = some w → (w.1, t, w.2) ∈ seen
  best : ∀ t w, winners.get t = some w → ∀ e ∈ seen, e.2.1 = t → e.2.2 ≤ w.2
  complete : ∀ e ∈ seen, ∃ w, winners.get e.2.1 = some w

variable {seen : List (String × Triple × ℤ)} {winners : SortedMap Triple (String × ℤ)}

theorem Elected.insert {e : String × Triple × ℤ} (h : Elected seen winners)
    (hbest : ∀ w, winners.get e.2.1 = some w → w.2 ≤ e.2.2) :
    Elected (seen ++ [e]) (winners.insert e.2.1 (e.1, e.2.2)) := by
  have hget : ∀ t w, (winners.insert e.2.1 (e.1, e.2.2)).get t = some w →
      t = e.2.1 ∧ w = (e.1, e.2.2) ∨ t ≠ e.2.1 ∧ winners.get t = some w := by
    intro t w hw
    by_cases ht : t = e.2.1
    · subst ht
      rw [SortedMap.get_insert_self] at hw
      exact .inl ⟨rfl, (Option.some.inj hw).symm⟩
    · rw [SortedMap.get_insert_of_ne ht] at hw
      exact .inr ⟨ht, hw⟩
  refine ⟨fun t w hw => ?_, fun t w hw e' he' ht => ?_, fun e' he' => ?_⟩
  · rcases hget t w hw with ⟨rfl, rfl⟩ | ⟨-, hold⟩
    · exact List.mem_append_right _ (List.mem_singleton_self _)
    · exact List.mem_append_left _ (h.sound t w hold)
  · rcases hget t w hw with ⟨rfl, rfl⟩ | ⟨hne, hold⟩
    · rcases List.mem_append.1 he' with hin | hin
      · obtain ⟨w, hw⟩ := h.complete e' hin
        rw [ht] at hw
        exact (h.best _ w hw e' hin ht).trans (hbest w hw)
      · rw [List.mem_singleton.1 hin]
    · rcases List.mem_append.1 he' with hin | hin
      · exact h.best t w hold e' hin ht
      · rw [List.mem_singleton.1 hin] at ht
        exact absurd ht.symm hne
  · by_cases ht : e'.2.1 = e.2.1
    · exact ⟨_, by rw [ht]; exact SortedMap.get_insert_self⟩
    · rcases List.mem_append.1 he' with hin | hin
      · obtain ⟨w, hw⟩ := h.complete e' hin
        exact ⟨w, (SortedMap.get_insert_of_ne ht).trans hw⟩
      · exact absurd (by rw [List.mem_singleton.1 hin]) ht

theorem Elected.step (h : Elected seen winners) (e : String × Triple × ℤ) :
    Elected (seen ++ [e]) (electWinner winners e) := by
  unfold electWinner
  split
  · rename_i key existing hget
    split_ifs with hle
    · -- the group keeps its winner
      refine ⟨fun t w hw => List.mem_append_left _ (h.sound t w hw), fun t w hw e' he' ht => ?_,
        fun e' he' => ?_⟩
      · rcases List.mem_append.1 he' with hin | hin
        · exact h.best t w hw e' hin ht
        · obtain rfl := List.mem_singleton.1 hin
          rw [← ht, hget] at hw
          exact Option.some.inj hw ▸ hle
      · rcases List.mem_append.1 he' with hin | hin
        · exact h.complete e' hin
        · exact ⟨_, List.mem_singleton.1 hin ▸ hget⟩
    · refine h.insert fun w hw => ?_
      rw [hget] at hw
      exact Option.some.inj hw ▸ (Int.not_le.1 hle).le
  · rename_i hnone
    exact h.insert fun w hw => absurd (hnone.symm.trans hw) (Option.some_ne_none w).symm

theorem elected_winnerKeys (scored : List (String × Triple × ℤ)) :
    Elected scored (winnerKeys scored) := by
  induction scored using List.reverseRecOn with
  | nil =>
    have hnone : ∀ t, (winnerKeys []).get t = none := fun _ => rfl
    exact ⟨fun t w hw => absurd ((hnone t).symm.trans hw) (Option.some_ne_none w).symm,
      fun _ _ _ _ he => absurd he List.not_mem_nil, fun _ he => absurd he List.not_mem_nil⟩
  | append_singleton scored e ih =>
    unfold winnerKeys at ih ⊢
    rw [List.foldl_append]
    exact ih.step e

variable {rational : F → Option ℚ} {graph : GraphAccumulator F} {key : String}
  {edge : CodeGraphEdge F}

theorem get_reconcile_iff :
    (reconcileEdgeProvenance rational graph).edges.get key = some edge ↔
      graph.edges.get key = some edge ∧
        (winnerKeys (scoredEdges rational graph)).get edge.triple =
          some (key, edgeScore rational edge) := by
  have helected := elected_winnerKeys (scoredEdges rational graph)
  unfold reconcileEdgeProvenance
  rw [SortedMap.get_retain_eq_some_iff, List.contains_iff_mem]
  refine and_congr_right fun hget => ⟨fun hkept => ?_, fun hwinner => ?_⟩
  · obtain ⟨⟨t, w⟩, hw, rfl⟩ := List.mem_map.1 hkept
    rw [← SortedMap.get_eq_some_iff] at hw
    -- the winner's key is the key of one edge only
    obtain ⟨⟨key', edge'⟩, hin, heq⟩ := List.mem_map.1 (helected.sound t w hw)
    obtain ⟨hkey, htriple, hscore⟩ : key' = w.1 ∧ edge'.triple = t ∧
        edgeScore rational edge' = w.2 := by simpa using heq
    rw [← SortedMap.get_eq_some_iff, hkey] at hin
    obtain rfl := Option.some.inj (hget.symm.trans hin)
    rw [htriple, hw, hscore]
  · exact List.mem_map.2 ⟨_, SortedMap.get_eq_some_iff.1 hwinner, rfl⟩

/-- One edge of each kind between two vertices is left, an original one of greatest score. -/
structure Reconciled (rational : F → Option ℚ) (graph out : GraphAccumulator F) : Prop where
  vertices : out.vertices = graph.vertices
  original : ∀ key edge, out.edges.get key = some edge → graph.edges.get key = some edge
  best : ∀ key edge key' edge', out.edges.get key = some edge →
    graph.edges.get key' = some edge' → edge'.triple = edge.triple →
      edgeScore rational edge' ≤ edgeScore rational edge
  one : ∀ key edge, graph.edges.get key = some edge →
    ∃! key', ∃ edge', out.edges.get key' = some edge' ∧ edge'.triple = edge.triple

theorem reconciled_reconcileEdgeProvenance (rational : F → Option ℚ)
    (graph : GraphAccumulator F) :
    Reconciled rational graph (reconcileEdgeProvenance rational graph) := by
  have helected := elected_winnerKeys (scoredEdges rational graph)
  have hscored : ∀ {key edge}, graph.edges.get key = some edge →
      (key, edge.triple, edgeScore rational edge) ∈ scoredEdges rational graph := fun hget =>
    List.mem_map.2 ⟨_, SortedMap.get_eq_some_iff.1 hget, rfl⟩
  refine ⟨rfl, fun key edge h => (get_reconcile_iff.1 h).1, ?_, ?_⟩
  · intro key edge key' edge' h h' htriple
    exact helected.best _ _ (get_reconcile_iff.1 h).2 _ (hscored h') htriple
  · intro key edge hget
    obtain ⟨w, hw⟩ := helected.complete _ (hscored hget)
    obtain ⟨⟨key', edge'⟩, hin, heq⟩ := List.mem_map.1 (helected.sound _ w hw)
    obtain ⟨hkey, htriple, hscore⟩ : key' = w.1 ∧ edge'.triple = edge.triple ∧
        edgeScore rational edge' = w.2 := by simpa using heq
    refine ⟨key', ⟨edge', get_reconcile_iff.2 ⟨SortedMap.get_eq_some_iff.2 hin, ?_⟩, htriple⟩, ?_⟩
    · rw [htriple, hkey, hscore]
      exact hw
    · rintro other ⟨edge'', hother, htriple'⟩
      have hwinner := (get_reconcile_iff.1 hother).2
      rw [htriple'] at hwinner
      rw [hkey]
      exact (congrArg Prod.fst (Option.some.inj (hw.symm.trans hwinner))).symm

theorem reconcile_eq_self (h : ∀ key edge key' edge', graph.edges.get key = some edge →
    graph.edges.get key' = some edge' → edge'.triple = edge.triple → key' = key) :
    reconcileEdgeProvenance rational graph = graph := by
  have hreconciled := reconciled_reconcileEdgeProvenance rational graph
  have hedges : (reconcileEdgeProvenance rational graph).edges = graph.edges := by
    refine SortedMap.retain_eq_self fun e he => ?_
    rw [← SortedMap.get_eq_some_iff] at he
    obtain ⟨key', ⟨edge', hout, htriple⟩, -⟩ := hreconciled.one e.1 e.2 he
    obtain rfl := h _ _ _ _ he (hreconciled.original _ _ hout) htriple
    exact (SortedMap.get_retain_eq_some_iff.1 hout).2
  cases graph
  exact congrArg (GraphAccumulator.mk _) hedges

theorem reconcile_edges (rational : F → Option ℚ) (graph : GraphAccumulator F) :
    Reconciled rational graph (reconcileEdgeProvenance rational graph) ∧
      reconcileEdgeProvenance rational (reconcileEdgeProvenance rational graph) =
        reconcileEdgeProvenance rational graph := by
  have hreconciled := reconciled_reconcileEdgeProvenance rational graph
  refine ⟨hreconciled, reconcile_eq_self fun key edge key' edge' h h' htriple => ?_⟩
  exact (hreconciled.one key edge (hreconciled.original _ _ h)).unique ⟨edge', h', htriple⟩
    ⟨edge, h, rfl⟩

end Reconcile

/-! ## Anchor links -/

section Anchors

def stringProp (properties : SortedMap String (CodeGraphPrimitive F)) (key : String) :
    Option String :=
  match properties.get key with
  | some (.string value) => if isBlank value then none else some value
  | _ => none

def vertexStringProp (vertex : CodeGraphVertex F) (key : String) : Option String :=
  stringProp vertex.properties key

def edgeStringProp (edge : CodeGraphEdge F) (key : String) : Option String :=
  stringProp edge.properties key

def edgeIntProp (edge : CodeGraphEdge F) (key : String) : Option ℤ :=
  match edge.properties.get key with
  | some (.int value) => some value
  | _ => none

/-- The arithmetic on confidences: `as f64`, `0.75`, `.min(0.9)` and `>= 0.8`. -/
structure Confidences (F : Type) where
  ofInt : ℤ → F
  fallback : F
  capped : F → F
  isExtracted : F → Bool

def edgeDoubleProp (fmt : FloatText F) (conf : Confidences F) (edge : CodeGraphEdge F)
    (key : String) : Option F :=
  match edge.properties.get key with
  | some (.double value) => if fmt.isFinite value then some value else none
  | some (.int value) => some (conf.ofInt value)
  | _ => none

def anchorKindForVertex (vertex : CodeGraphVertex F) : Option String :=
  if vertex.kind = "file" then some "file"
  else if ["function", "method", "class", "symbol"].contains vertex.kind then some "symbol"
  else none

def anchorKeyForVertex (vertex : CodeGraphVertex F) : String :=
  ((vertexStringProp vertex "label").or ((vertexStringProp vertex "key").or
    (vertexStringProp vertex "path"))).getD ""

/-- The normalized key of the anchor that a vertex gets. -/
def primaryAnchor (vertex : CodeGraphVertex F) : Option String :=
  let key := anchorKeyForVertex vertex
  let normalizedKey := normalizeToken key
  if (anchorKindForVertex vertex).isNone || key = "" || normalizedKey = "" ||
      isLowSignalAnchorKey normalizedKey then none
  else some normalizedKey

def primaryAnchorByVid (graph : GraphAccumulator F) : SortedMap String String :=
  (graph.vertices.entries.map Prod.snd).foldl (fun anchors vertex =>
    match primaryAnchor vertex with
    | some key =>
      if (anchors.get vertex.vid).isSome then anchors else anchors.insert vertex.vid key
    | none => anchors) .empty

def scopeFromEdge (edge : CodeGraphEdge F) : CodeGraphScope where
  orgId := (edgeIntProp edge "orgId").getD 0
  repoId := (edgeIntProp edge "repoId").getD 0
  revision := (edgeStringProp edge "revision").getD ""
  commitHash := (edgeStringProp edge "commitHash").getD ""
  workspaceId := (edgeStringProp edge "workspaceId").getD ""
  schemaVersion := edgeIntProp edge "schemaVersion"
  builderVersion := edgeStringProp edge "builderVersion"

/-- The keys at the two ends of an edge that emits a link. -/
def linkEnds (anchors : SortedMap String String) (edge : CodeGraphEdge F) :
    Option (String × String) :=
  if edgeKindCanEmitAnchorLink edge.kind then
    match anchors.get edge.fromVid, anchors.get edge.toVid with
    | some fromKey, some toKey => if fromKey = toKey then none else some (fromKey, toKey)
    | _, _ => none
  else none

variable (d : Digests) (fmt : FloatText F) (conf : Confidences F)

def linkOptions (edge : CodeGraphEdge F) (ends : String × String) : AddEdgeOptions F :=
  let confidence := conf.capped ((edgeDoubleProp fmt conf edge "confidence").getD conf.fallback)
  { confidence := some confidence
    confidenceTier := some ((edgeStringProp edge "confidenceTier").getD
      (if conf.isExtracted confidence then "EXTRACTED" else "INFERRED"))
    evidenceFilePath := edgeStringProp edge "evidenceFilePath"
    startLine := edgeIntProp edge "startLine"
    endLine := edgeIntProp edge "endLine"
    provenance := some "anchor-linker"
    context := edgeStringProp edge "context"
    normalizedKey := some (ends.1 ++ "->" ++ ends.2 ++ ":" ++
      lowerAscii edge.kind) }

/-- One round of the loop; from the cap on it has been left. -/
def emitLink (anchors : SortedMap String String) (state : GraphAccumulator F × ℕ)
    (edge : CodeGraphEdge F) : GraphAccumulator F × ℕ :=
  if maxAnchorLinkEdges ≤ state.2 then state
  else
    match linkEnds anchors edge with
    | none => state
    | some ends =>
      (addEdge d fmt (scopeFromEdge edge) edge.fromVid edge.toVid "ANCHOR_LINK" "anchor-linker"
        (linkOptions fmt conf edge ends) state.1, state.2 + 1)

/-- `materialize_graph_anchors`, without the anchors themselves. -/
def materializeGraphAnchors (graph : GraphAccumulator F) : GraphAccumulator F :=
  ((graph.edges.entries.map Prod.snd).foldl (emitLink d fmt conf (primaryAnchorByVid graph))
    (graph, 0)).1

/-! ### What the loop adds -/

/-- The edges that emit a link, in order. -/
def eligibleEdges (graph : GraphAccumulator F) : List (CodeGraphEdge F) :=
  (graph.edges.entries.map Prod.snd).filter fun edge =>
    (linkEnds (primaryAnchorByVid graph) edge).isSome

/-- The edges the loop comes to before the cap. -/
def emittingEdges (graph : GraphAccumulator F) : List (CodeGraphEdge F) :=
  (eligibleEdges graph).take maxAnchorLinkEdges

def CodeGraphEdge.ends (edge : CodeGraphEdge F) : String × String := (edge.fromVid, edge.toVid)

def linkKey (ends : String × String) : String :=
  ends.1 ++ "|" ++ ends.2 ++ "|" ++ "ANCHOR_LINK" ++ "|" ++
    toString (d.edgeRank (ends.1 ++ "->" ++ ends.2 ++ ":" ++ "ANCHOR_LINK" ++ ":" ++ "anchor-linker"))

def linkOf (anchors : SortedMap String String) (edge : CodeGraphEdge F) : CodeGraphEdge F where
  fromVid := edge.fromVid
  toVid := edge.toVid
  kind := "ANCHOR_LINK"
  rank := d.edgeRank
    (edge.fromVid ++ "->" ++ edge.toVid ++ ":" ++ "ANCHOR_LINK" ++ ":" ++ "anchor-linker")
  properties := edgeBag fmt (scopeFromEdge edge) "ANCHOR_LINK" "anchor-linker"
    (linkOptions fmt conf edge ((linkEnds anchors edge).getD ("", "")))

variable {d fmt conf} {anchors : SortedMap String String} {graph : GraphAccumulator F}

theorem get_addEdge_link {edge : CodeGraphEdge F} {ends : String × String}
    (hends : linkEnds anchors edge = some ends) (graph : GraphAccumulator F) (key : String) :
    (addEdge d fmt (scopeFromEdge edge) edge.fromVid edge.toVid "ANCHOR_LINK" "anchor-linker"
        (linkOptions fmt conf edge ends) graph).edges.get key =
      (graph.edges.get key).or
        (if linkKey d edge.ends = key then some (linkOf d fmt conf anchors edge) else none) := by
  have hlink : addEdge d fmt (scopeFromEdge edge) edge.fromVid edge.toVid "ANCHOR_LINK"
      "anchor-linker" (linkOptions fmt conf edge ends) graph =
        if (graph.edges.get (linkKey d edge.ends)).isSome then graph
        else { graph with
          edges := graph.edges.insert (linkKey d edge.ends) (linkOf d fmt conf anchors edge) } := by
    unfold linkOf
    rw [hends]
    rfl
  rw [hlink]
  by_cases hkey : linkKey d edge.ends = key
  · subst hkey
    rw [if_pos rfl]
    split_ifs with hold
    · obtain ⟨old, hget⟩ := Option.isSome_iff_exists.1 hold
      rw [hget, Option.some_or]
    · rw [Option.not_isSome_iff_eq_none.1 hold, Option.none_or]
      exact SortedMap.get_insert_self
  · rw [if_neg hkey, Option.or_none]
    split_ifs
    · rfl
    · exact SortedMap.get_insert_of_ne (Ne.symm hkey)

/-- The edges after the loop: those before it, and under each new key the first link. -/
theorem get_foldl_emitLink (edges : List (CodeGraphEdge F)) (graph : GraphAccumulator F)
    (emitted : ℕ) (key : String) :
    (edges.foldl (emitLink d fmt conf anchors) (graph, emitted)).1.edges.get key =
      (graph.edges.get key).or ((((edges.filter fun edge => (linkEnds anchors edge).isSome).take
        (maxAnchorLinkEdges - emitted)).find? fun edge => linkKey d edge.ends = key).map
          (linkOf d fmt conf anchors)) := by
  induction edges generalizing graph emitted with
  | nil => simp
  | cons edge edges ih =>
    rw [List.foldl_cons]
    by_cases hcap : maxAnchorLinkEdges ≤ emitted
    · have hstep : emitLink d fmt conf anchors (graph, emitted) edge = (graph, emitted) :=
        if_pos hcap
      rw [hstep, ih, Nat.sub_eq_zero_of_le hcap, List.take_zero, List.take_zero]
    cases hends : linkEnds anchors edge with
    | none =>
      have hstep : emitLink d fmt conf anchors (graph, emitted) edge = (graph, emitted) := by
        simp [emitLink, hends]
      rw [hstep, ih, List.filter_cons_of_neg (by simp [hends])]
    | some ends =>
      have hstep : emitLink d fmt conf anchors (graph, emitted) edge =
          (addEdge d fmt (scopeFromEdge edge) edge.fromVid edge.toVid "ANCHOR_LINK"
            "anchor-linker" (linkOptions fmt conf edge ends) graph, emitted + 1) := by
        rw [emitLink, if_neg hcap, hends]
      have hleft : maxAnchorLinkEdges - emitted = maxAnchorLinkEdges - (emitted + 1) + 1 := by
        omega
      rw [hstep, ih, get_addEdge_link hends, List.filter_cons_of_pos (by simp [hends]), hleft,
        List.take_succ_cons, Option.or_assoc]
      by_cases hkey : linkKey d edge.ends = key
      · rw [if_pos hkey, List.find?_cons_of_pos (by simpa using hkey)]
        rfl
      · rw [if_neg hkey, Option.none_or, List.find?_cons_of_neg (by simpa using hkey)]

def Added (graph out : GraphAccumulator F) (key : String) (link : CodeGraphEdge F) : Prop :=
  graph.edges.get key = none ∧ out.edges.get key = some link

theorem added_iff {key : String} {link : CodeGraphEdge F} :
    Added graph (materializeGraphAnchors d fmt conf graph) key link ↔
      graph.edges.get key = none ∧ ∃ edge,
        (emittingEdges graph).find? (fun edge => linkKey d edge.ends = key) = some edge ∧
          linkOf d fmt conf (primaryAnchorByVid graph) edge = link := by
  unfold Added
  have hget := @get_foldl_emitLink _ d fmt conf (primaryAnchorByVid graph)
    (graph.edges.entries.map Prod.snd) graph 0 key
  rw [materializeGraphAnchors, hget]
  refine and_congr_right fun hnone => ?_
  rw [hnone, Option.none_or, Option.map_eq_some_iff]
  rfl

def GetsOneLink (graph out : GraphAccumulator F) (ends : String × String) : Prop :=
  ∃! key, ∃ link, Added graph out key link ∧ link.kind = "ANCHOR_LINK" ∧ link.ends = ends

theorem getsOneLink_iff {ends : String × String} :
    GetsOneLink graph (materializeGraphAnchors d fmt conf graph) ends ↔
      graph.edges.get (linkKey d ends) = none ∧ ∃ edge,
        (emittingEdges graph).find? (fun edge => linkKey d edge.ends = linkKey d ends) =
          some edge ∧ edge.ends = ends := by
  -- a link stands under the key of its ends
  have hkey : ∀ {key link}, Added graph (materializeGraphAnchors d fmt conf graph) key link →
      link.ends = ends → key = linkKey d ends := by
    intro key link hadded hends
    obtain ⟨-, edge, hfind, rfl⟩ := added_iff.1 hadded
    have hedge : linkKey d edge.ends = key := by simpa using List.find?_some hfind
    exact hedge.symm.trans (congrArg (linkKey d) hends)
  constructor
  · rintro ⟨key, ⟨link, hadded, -, hends⟩, -⟩
    obtain rfl := hkey hadded hends
    obtain ⟨hnone, edge, hfind, rfl⟩ := added_iff.1 hadded
    exact ⟨hnone, edge, hfind, hends⟩
  · rintro ⟨hnone, edge, hfind, hends⟩
    refine ⟨linkKey d ends, ⟨_, added_iff.2 ⟨hnone, edge, hfind, rfl⟩, rfl, hends⟩, ?_⟩
    rintro key ⟨link, hadded, -, hlink⟩
    exact hkey hadded hlink

theorem length_added_le (d : Digests) (fmt : FloatText F) (conf : Confidences F)
    (graph : GraphAccumulator F) :
    ((materializeGraphAnchors d fmt conf graph).edges.keys.filter fun key =>
      (graph.edges.get key).isNone).length ≤ maxAnchorLinkEdges := by
  have hnodup := ((materializeGraphAnchors d fmt conf graph).edges.keys_increasing.imp
    ne_of_lt).sublist (List.filter_sublist (p := fun key => (graph.edges.get key).isNone))
  have hsub : ((materializeGraphAnchors d fmt conf graph).edges.keys.filter fun key =>
      (graph.edges.get key).isNone) ⊆ (emittingEdges graph).map fun edge => linkKey d edge.ends := by
    intro key hkey
    obtain ⟨hmem, hnone⟩ := List.mem_filter.1 hkey
    obtain ⟨link, hlink⟩ := SortedMap.mem_keys.1 hmem
    obtain ⟨-, edge, hfind, -⟩ := added_iff.1 ⟨Option.isNone_iff_eq_none.1 hnone, hlink⟩
    exact List.mem_map.2 ⟨edge, List.mem_of_find?_eq_some hfind, by simpa using List.find?_some hfind⟩
  have hle := (List.subperm_of_subset hnodup hsub).length_le
  rw [List.length_map] at hle
  exact hle.trans (List.length_take_le _ _)

theorem replicate_lt_replicate {i j : ℕ} (h : i < j) :
    List.replicate i 'a' < List.replicate j 'a' := by
  induction i generalizing j with
  | zero =>
    obtain ⟨j, rfl⟩ := Nat.exists_eq_succ_of_ne_zero h.ne'
    exact List.nil_lt_cons _ _
  | succ i ih =>
    obtain ⟨j, rfl⟩ := Nat.exists_eq_succ_of_ne_zero (Nat.ne_zero_of_lt h)
    exact List.cons_lt_cons_iff.2 (.inr ⟨rfl, ih (Nat.lt_of_succ_lt_succ h)⟩)

def crowdedKey (i : ℕ) : String := String.ofList (List.replicate i 'a')

def functionVertex (vid : String) : CodeGraphVertex Unit :=
  ⟨vid, "function", SortedMap.empty.insert "label" (.string vid)⟩

def callEdge (toVid : String) : CodeGraphEdge Unit := ⟨"a", toVid, "CALLS", 0, .empty⟩

/-- As many calls from `a` to `b` as the cap allows, and then one to `c`. -/
def crowdedGraph : GraphAccumulator Unit where
  vertices := SortedMap.ofRows CodeGraphVertex.vid id (["a", "b", "c"].map functionVertex)
  edges :=
    { entries := ((List.range maxAnchorLinkEdges).map fun i => (crowdedKey i, callEdge "b")) ++
        [("b", callEdge "c")]
      increasing := by
        rw [List.map_append, List.map_map, List.pairwise_append]
        refine ⟨List.pairwise_map.2 (List.pairwise_lt_range.imp fun h => ?_),
          List.pairwise_singleton _ _, ?_⟩
        · rw [Function.comp_apply, Function.comp_apply, String.lt_iff_toList_lt]
          simpa [crowdedKey] using replicate_lt_replicate h
        · rintro _ hkey _ hlast
          obtain ⟨i, -, rfl⟩ := List.mem_map.1 hkey
          rw [List.mem_singleton.1 hlast, String.lt_iff_toList_lt, Function.comp_apply, crowdedKey,
            String.toList_ofList]
          cases i with
          | zero => exact List.nil_lt_cons _ _
          | succ i => exact List.cons_lt_cons_iff.2 (.inl (by decide)) }

theorem eligibleEdges_crowdedGraph : eligibleEdges crowdedGraph =
    List.replicate maxAnchorLinkEdges (callEdge "b") ++ [callEdge "c"] := by
  have hedges : crowdedGraph.edges.entries.map Prod.snd =
      List.replicate maxAnchorLinkEdges (callEdge "b") ++ [callEdge "c"] := by
    simp [crowdedGraph, Function.comp_def, List.map_const']
  have heligible : ∀ toVid ∈ ["b", "c"],
      (linkEnds (primaryAnchorByVid crowdedGraph) (callEdge toVid)).isSome = true := by
    decide +kernel
  unfold eligibleEdges
  rw [hedges]
  refine List.filter_eq_self.2 fun edge hedge => ?_
  rcases List.mem_append.1 hedge with hin | hin
  · rw [List.eq_of_mem_replicate hin]
    exact heligible "b" (by simp)
  · rw [List.mem_singleton.1 hin]
    exact heligible "c" (by simp)

end Anchors

end CodeIntel.Indexer.Nebula
