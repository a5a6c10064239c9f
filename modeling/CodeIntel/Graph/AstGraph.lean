import CodeIntel.Graph.Visibility

/-!
# The graph of the AST layer

Facts add vertices and connect them. Every file is also connected to the repository, by
an identifier that is computed and never stored as a vertex. So an AST graph with a
fact has edges that start outside of it; every other end and every anchor is a vertex.
-/

namespace CodeIntel.Graph

open Relational Schema Subjobs Text

/-! ## Anchors -/

/-- `confidence` counts hundredths. -/
structure CodeGraphSnapshotAnchor where
  (kind direction key normalizedKey nodeVid : String)
  evidenceFilePath : Option String
  (startLine endLine : Option ℤ)
  confidence : ℕ
  (confidenceTier source : String)
  deriving DecidableEq, Repr

def anchorKindForVertex (v : Vertex) : Option String :=
  if v.kind = "file" then some "file"
  else if ["function", "method", "class", "symbol"].contains v.kind then some "symbol"
  else none

def anchorOf (v : Vertex) : Option CodeGraphSnapshotAnchor := do
  let kind ← anchorKindForVertex v
  let normalizedKey ← primaryAnchor v
  let source := (textProp v.props "source").getD "graph-builder"
  let confidence := (doubleProp v.props "confidence").getD (if hasPrefix source "scip" then 95 else 60)
  pure
    { kind
      direction := "PROVIDES"
      key := anchorKeyForVertex v
      normalizedKey
      nodeVid := v.vid
      evidenceFilePath := (textProp v.props "evidenceFilePath").or (textProp v.props "path")
      startLine := intProp v.props "startLine"
      endLine := intProp v.props "endLine"
      confidence
      confidenceTier := (textProp v.props "confidenceTier").getD
        (if 80 ≤ confidence then "EXTRACTED" else "INFERRED")
      source }

/-- The key of `add_anchor`. -/
def anchorKey (a : CodeGraphSnapshotAnchor) : String :=
  a.kind ++ "|" ++ a.direction ++ "|" ++ a.normalizedKey ++ "|" ++ a.nodeVid

/-- The first anchor of a key stays. -/
def addAnchor (anchors : List (String × CodeGraphSnapshotAnchor)) (a : CodeGraphSnapshotAnchor) :
    List (String × CodeGraphSnapshotAnchor) :=
  insertMissing (fun new old => old.1 = new.1) anchors (anchorKey a, a)

def materializedAnchors (graph : GraphAccumulator) : List (String × CodeGraphSnapshotAnchor) :=
  ((sortedEntries graph.vertices).filterMap fun entry => anchorOf entry.2).foldl addAnchor []

def accumulatorToSnapshotAndAnchors (d : Digests) (graph : GraphAccumulator) :
    SnapshotBuild × List CodeGraphSnapshotAnchor :=
  let final := materializeGraphAnchors d graph
  (⟨(sortedEntries final.vertices).map Prod.snd, (sortedEntries final.edges).map Prod.snd⟩,
    (sortedEntries (materializedAnchors graph)).map Prod.snd)

def repoVidOf (d : Digests) (scope : CodeGraphScope) : Except String String :=
  buildCodeGraphVertexId d scope "repo" ("repo:" ++ toString scope.repoId)

/-- The loop of `execute_ast` over the results of the languages. -/
def addLanguages (d : Digests) (scope : CodeGraphScope) (repoVid : String)
    (results : List (String × List SyntacticAstFact)) (graph : GraphAccumulator) :
    Except String GraphAccumulator :=
  results.foldlM (fun graph (language, facts) =>
    if facts.isEmpty then pure graph
    else addSyntacticLanguageAstFacts d scope repoVid language facts graph) graph

/-- `execute_ast`, from the facts to the snapshot and the anchors. -/
def executeAst (d : Digests) (scope : CodeGraphScope)
    (results : List (String × List SyntacticAstFact)) :
    Except String (SnapshotBuild × List CodeGraphSnapshotAnchor) := do
  let repoVid ← repoVidOf d scope
  let graph ← addLanguages d scope repoVid results {}
  pure (accumulatorToSnapshotAndAnchors d (reconcileEdgeProvenance graph))

/-- The snapshot the visibility results speak about is the executor's. -/
theorem buildAstSnapshot_eq (d : Digests) (scope : CodeGraphScope)
    (results : List (String × List SyntacticAstFact)) :
    buildAstSnapshot d scope results = (executeAst d scope results).map Prod.fst := by
  unfold buildAstSnapshot executeAst repoVidOf
  cases buildCodeGraphVertexId d scope "repo" ("repo:" ++ toString scope.repoId) with
  | error e => rfl
  | ok repoVid =>
    unfold addLanguages
    simp only [bind, Except.bind]
    split <;> rfl

/-! ## Steps -/

def GraphAccumulator.vids (graph : GraphAccumulator) : List String := graph.vertices.map Prod.fst

def HasRepoEdge (repoVid : String) (graph : GraphAccumulator) : Prop :=
  ∃ entry ∈ graph.edges, entry.2.fromVid = repoVid

/-- What holds of every accumulator of the executor. -/
structure AstGraph (repoVid : String) (graph : GraphAccumulator) : Prop where
  vid_eq : ∀ entry ∈ graph.vertices, entry.2.vid = entry.1
  repo_notMem : repoVid ∉ graph.vids
  fromVid : ∀ entry ∈ graph.edges, entry.2.fromVid ∈ graph.vids ∨ entry.2.fromVid = repoVid
  toVid : ∀ entry ∈ graph.edges, entry.2.toVid ∈ graph.vids
  rooted : graph.edges ≠ [] → HasRepoEdge repoVid graph

/-- A call that keeps this and removes nothing. -/
structure Grows (repoVid : String) (graph graph' : GraphAccumulator) : Prop where
  keeps : AstGraph repoVid graph → AstGraph repoVid graph'
  vids : graph.vids ⊆ graph'.vids
  edges : graph.edges ⊆ graph'.edges

section Steps

variable {d : HexDigests} {scope : CodeGraphScope} {repoVid : String}
  {graph graph₁ graph₂ : GraphAccumulator}

theorem Grows.refl (repoVid : String) (graph : GraphAccumulator) : Grows repoVid graph graph :=
  ⟨id, List.Subset.refl _, List.Subset.refl _⟩

theorem Grows.trans (h : Grows repoVid graph graph₁) (h' : Grows repoVid graph₁ graph₂) :
    Grows repoVid graph graph₂ :=
  ⟨h'.keeps ∘ h.keeps, List.Subset.trans h.vids h'.vids, List.Subset.trans h.edges h'.edges⟩

theorem Grows.hasRepoEdge (h : Grows repoVid graph graph₁) (hroot : HasRepoEdge repoVid graph) :
    HasRepoEdge repoVid graph₁ := by
  obtain ⟨entry, hentry, hfrom⟩ := hroot
  exact ⟨entry, h.edges hentry, hfrom⟩

theorem addVertex_grows (hvalid : assertValidScope scope = .ok ()) {kind : String}
    (hkind : kind ≠ "repo") (key repoKey : String) (properties : Props) (graph : GraphAccumulator) :
    ∃ graph', addVertex d.toDigests scope kind key properties graph =
        .ok ((scopeIdentity scope kind key).vid d.toDigests, graph') ∧
      Grows ((scopeIdentity scope "repo" repoKey).vid d.toDigests) graph graph' ∧
      (scopeIdentity scope kind key).vid d.toDigests ∈ graph'.vids := by
  have hvid : buildCodeGraphVertexId d.toDigests scope kind key = .ok _ :=
    buildCodeGraphVertexId_eq_ok.2 ⟨hvalid, rfl⟩
  have hne : (scopeIdentity scope kind key).vid d.toDigests ≠
      (scopeIdentity scope "repo" repoKey).vid d.toDigests :=
    fun heq => hkind (VertexIdentity.kind_eq_of_vid_eq heq)
  unfold addVertex
  rw [hvid]
  simp only [bind, Except.bind, pure, Except.pure]
  generalize (scopeIdentity scope kind key).vid d.toDigests = vid at hne ⊢
  split_ifs with hpresent
  · refine ⟨graph, rfl, Grows.refl _ graph, ?_⟩
    obtain ⟨entry, hentry, heq⟩ := List.any_eq_true.1 hpresent
    exact List.mem_map.2 ⟨entry, hentry, by simpa using heq⟩
  · have hvids : ({ graph with vertices := graph.vertices ++
        [(vid, astVertex scope vid kind properties)] } : GraphAccumulator).vids =
          graph.vids ++ [vid] := by
      simp [GraphAccumulator.vids]
    refine ⟨_, rfl, ⟨fun hgraph => ?_, ?_, List.Subset.refl _⟩, ?_⟩
    · refine ⟨?_, ?_, ?_, ?_, hgraph.rooted⟩
      · exact List.forall_mem_append.2 ⟨hgraph.vid_eq, List.forall_mem_singleton.2 rfl⟩
      · rw [hvids, List.mem_append, List.mem_singleton]
        exact fun hmem => hmem.elim hgraph.repo_notMem (Ne.symm hne)
      · rw [hvids]
        exact fun entry hentry => (hgraph.fromVid entry hentry).imp_left (List.mem_append_left _)
      · rw [hvids]
        exact fun entry hentry => List.mem_append_left _ (hgraph.toVid entry hentry)
    · rw [hvids]
      exact List.subset_append_left _ _
    · rw [hvids]
      exact List.mem_append_right _ (List.mem_singleton_self _)

theorem addEdge_grows {d : Digests} {fromVid toVid : String} (kind source : String)
    (options : AddEdgeOptions) (scope : CodeGraphScope)
    (hfrom : fromVid ∈ graph.vids ∨ fromVid = repoVid) (hto : toVid ∈ graph.vids)
    (hroot : HasRepoEdge repoVid graph ∨ fromVid = repoVid) :
    Grows repoVid graph (addEdge d scope fromVid toVid kind source options graph) := by
  unfold addEdge
  dsimp only
  split_ifs with hpresent
  · exact Grows.refl _ graph
  · refine ⟨fun hgraph => ⟨hgraph.vid_eq, hgraph.repo_notMem, ?_, ?_, fun _ => ?_⟩,
      List.Subset.refl _, List.subset_append_left _ _⟩
    · exact List.forall_mem_append.2 ⟨hgraph.fromVid, List.forall_mem_singleton.2 hfrom⟩
    · exact List.forall_mem_append.2 ⟨hgraph.toVid, List.forall_mem_singleton.2 hto⟩
    · rcases hroot with ⟨entry, hentry, heq⟩ | heq
      · exact ⟨entry, List.mem_append_left _ hentry, heq⟩
      · exact ⟨_, List.mem_append_right _ (List.mem_singleton_self _), heq⟩

theorem edges_addEdge_ne_nil {d : Digests} (scope : CodeGraphScope)
    (fromVid toVid kind source : String) (options : AddEdgeOptions) (graph : GraphAccumulator) :
    (addEdge d scope fromVid toVid kind source options graph).edges ≠ [] := by
  unfold addEdge
  dsimp only
  split_ifs with hpresent
  · obtain ⟨entry, hentry, -⟩ := List.any_eq_true.1 hpresent
    exact List.ne_nil_of_mem hentry
  · simp

end Steps

/-! ## Facts -/

section Facts

variable {d : HexDigests} {scope : CodeGraphScope} {graph : GraphAccumulator}

variable (d scope) in
def repoVertexVid : String :=
  (scopeIdentity scope "repo" ("repo:" ++ toString scope.repoId)).vid d.toDigests

theorem addFileVertex_eq (hvalid : assertValidScope scope = .ok ()) (repoVid path : String)
    (graph : GraphAccumulator) :
    ∃ stored, addFileVertex d.toDigests scope repoVid path graph =
        .ok ((scopeIdentity scope "file" ("file:" ++ path)).vid d.toDigests,
          addEdge d.toDigests scope repoVid
            ((scopeIdentity scope "file" ("file:" ++ path)).vid d.toDigests) "CONTAINS" "scip" {}
            stored) ∧
      Grows (repoVertexVid d scope) graph stored ∧
      (scopeIdentity scope "file" ("file:" ++ path)).vid d.toDigests ∈ stored.vids := by
  obtain ⟨stored, hadd, hgrows, hmem⟩ := addVertex_grows (d := d) hvalid (by decide : "file" ≠ "repo")
    ("file:" ++ path) ("repo:" ++ toString scope.repoId)
    [("key", .str path), ("label", .str path), ("path", .str path), ("source", .str "scip")] graph
  refine ⟨stored, ?_, hgrows, hmem⟩
  unfold addFileVertex
  rw [hadd]
  rfl

theorem addFileVertex_grows (hvalid : assertValidScope scope = .ok ()) (path : String)
    (hgraph : AstGraph (repoVertexVid d scope) graph) :
    ∃ graph', addFileVertex d.toDigests scope (repoVertexVid d scope) path graph =
        .ok ((scopeIdentity scope "file" ("file:" ++ path)).vid d.toDigests, graph') ∧
      Grows (repoVertexVid d scope) graph graph' ∧
      (scopeIdentity scope "file" ("file:" ++ path)).vid d.toDigests ∈ graph'.vids ∧
      HasRepoEdge (repoVertexVid d scope) graph' := by
  obtain ⟨stored, hadd, hgrows, hmem⟩ :=
    addFileVertex_eq (d := d) hvalid (repoVertexVid d scope) path graph
  have hedge := addEdge_grows (d := d.toDigests) "CONTAINS" "scip" {} scope (.inr rfl) hmem
    (.inr (Eq.refl (repoVertexVid d scope)))
  refine ⟨_, hadd, hgrows.trans hedge, hedge.vids hmem, ?_⟩
  exact (hedge.keeps (hgrows.keeps hgraph)).rooted (edges_addEdge_ne_nil _ _ _ _ _ _ _)

/-- The cached files are stored, and the repository is connected to one of them. -/
def CacheValid (repoVid : String) (fileVids : List (String × String)) (graph : GraphAccumulator) :
    Prop :=
  ∀ entry ∈ fileVids, entry.2 ∈ graph.vids ∧ HasRepoEdge repoVid graph

variable {fileVids : List (String × String)}

theorem CacheValid.grows {repoVid : String} {graph' : GraphAccumulator}
    (h : CacheValid repoVid fileVids graph) (hgrows : Grows repoVid graph graph') :
    CacheValid repoVid fileVids graph' :=
  fun entry hentry => ⟨hgrows.vids (h entry hentry).1, hgrows.hasRepoEdge (h entry hentry).2⟩

section ValidScope

variable (hvalid : assertValidScope scope = .ok ())
include hvalid

theorem ensureFile_grows (path : String) (hgraph : AstGraph (repoVertexVid d scope) graph)
    (hcache : CacheValid (repoVertexVid d scope) fileVids graph) :
    ∃ file, ensureFile d.toDigests scope (repoVertexVid d scope) path fileVids graph = .ok file ∧
      Grows (repoVertexVid d scope) graph file.2.2 ∧ file.1 ∈ file.2.2.vids ∧
      HasRepoEdge (repoVertexVid d scope) file.2.2 ∧
      CacheValid (repoVertexVid d scope) file.2.1 file.2.2 := by
  unfold ensureFile
  cases hlookup : fileVids.lookup path with
  | some vid =>
    obtain ⟨before, after, hlist, -⟩ := List.lookup_eq_some_iff.1 hlookup
    have hcached := hcache (path, vid) (by rw [hlist]; simp)
    exact ⟨_, rfl, Grows.refl _ graph, hcached.1, hcached.2, hcache⟩
  | none =>
    obtain ⟨graph', hadd, hgrows, hmem, hroot⟩ := addFileVertex_grows hvalid path hgraph
    rw [hadd]
    refine ⟨_, rfl, hgrows, hmem, hroot, List.forall_mem_cons.2 ⟨⟨hmem, hroot⟩, ?_⟩⟩
    exact hcache.grows hgrows

theorem addSource_grows {fileVid : String} (language source tier : String)
    (fact : SyntacticAstFact) (hfile : fileVid ∈ graph.vids) :
    ∃ src, addSource d.toDigests scope language source tier fileVid fact graph = .ok src ∧
      Grows (repoVertexVid d scope) graph src.2 ∧ src.1 ∈ src.2.vids := by
  unfold addSource
  split_ifs with hmodule
  · exact ⟨_, rfl, Grows.refl _ graph, hfile⟩
  · have hkind : sourceVertexKind fact.sourceKind ≠ "repo" := by
      cases fact.sourceKind <;> decide
    obtain ⟨graph', hadd, hgrows, hmem⟩ := addVertex_grows (d := d) hvalid hkind
      ("ast:" ++ fact.sourceSymbol) ("repo:" ++ toString scope.repoId) _ graph
    exact ⟨_, hadd, hgrows, hmem⟩

theorem addTarget_grows (language source tier : String) (fact : SyntacticAstFact)
    (graph : GraphAccumulator) :
    ∃ dst, addTarget d.toDigests scope language source tier fact graph = .ok dst ∧
      Grows (repoVertexVid d scope) graph dst.2 ∧ dst.1 ∈ dst.2.vids := by
  have hkind : targetVertexKind fact.targetKind ≠ "repo" := by
    cases fact.targetKind <;> decide
  obtain ⟨graph', hadd, hgrows, hmem⟩ := addVertex_grows (d := d) hvalid hkind
    ("ast:" ++ fact.targetSymbol) ("repo:" ++ toString scope.repoId) _ graph
  exact ⟨_, hadd, hgrows, hmem⟩

theorem addFacts_grows (language source tier : String) {facts : List SyntacticAstFact}
    (hgraph : AstGraph (repoVertexVid d scope) graph)
    (hcache : CacheValid (repoVertexVid d scope) fileVids graph) :
    ∃ graph', addFacts d.toDigests scope (repoVertexVid d scope) language source tier facts fileVids
        graph = .ok graph' ∧
      Grows (repoVertexVid d scope) graph graph' ∧
      (facts ≠ [] → HasRepoEdge (repoVertexVid d scope) graph') := by
  induction facts generalizing fileVids graph with
  | nil => exact ⟨graph, rfl, Grows.refl _ graph, fun hne => absurd rfl hne⟩
  | cons fact facts ih =>
    obtain ⟨file, hfile, hfiled, hfileVid, hroot, hcached⟩ :=
      ensureFile_grows hvalid fact.filePath hgraph hcache
    obtain ⟨src, hsrc, hsourced, hsrcVid⟩ :=
      addSource_grows (d := d) hvalid language source tier fact hfileVid
    obtain ⟨dst, hdst, htargeted, hdstVid⟩ :=
      addTarget_grows (d := d) hvalid language source tier fact src.2
    have hroot' := htargeted.hasRepoEdge (hsourced.hasRepoEdge hroot)
    have hlinked := addEdge_grows (d := d.toDigests) (factEdgeKind fact.kind) source
      { confidence := some fact.confidence, confidenceTier := some tier,
        evidenceFilePath := some fact.filePath, startLine := some fact.startLine,
        endLine := some fact.endLine, provenance := some "heuristic" } scope
      (.inl (htargeted.vids hsrcVid)) hdstVid (.inl hroot')
    have hgrows := ((hfiled.trans hsourced).trans htargeted).trans hlinked
    have hlater := (hsourced.trans htargeted).trans hlinked
    obtain ⟨graph', hrest, hgrown, -⟩ := ih (hgrows.keeps hgraph) (hcached.grows hlater)
    refine ⟨graph', ?_, hgrows.trans hgrown, fun _ => ?_⟩
    · unfold addFacts
      rw [hfile]
      simp only [bind, Except.bind]
      rw [hsrc]
      simp only
      rw [hdst]
      exact hrest
    · exact hgrown.hasRepoEdge (hlinked.hasRepoEdge hroot')

/-- The languages are all added; with some fact the repository is connected. -/
theorem addLanguages_grows {results : List (String × List SyntacticAstFact)}
    (hgraph : AstGraph (repoVertexVid d scope) graph) :
    ∃ graph', addLanguages d.toDigests scope (repoVertexVid d scope) results graph = .ok graph' ∧
      Grows (repoVertexVid d scope) graph graph' ∧
      ((∃ result ∈ results, result.2 ≠ []) → HasRepoEdge (repoVertexVid d scope) graph') ∧
      ((∀ result ∈ results, result.2 = []) → graph' = graph) := by
  induction results generalizing graph with
  | nil => exact ⟨graph, rfl, Grows.refl _ graph, by simp, fun _ => rfl⟩
  | cons result results ih =>
    obtain ⟨language, facts⟩ := result
    by_cases hempty : facts = []
    · obtain ⟨graph', hrest, hgrown, hroot, hsame⟩ := ih hgraph
      refine ⟨graph', ?_, hgrown, ?_, fun hall => hsame (List.forall_mem_cons.1 hall).2⟩
      · unfold addLanguages at hrest ⊢
        simp only [hempty]
        exact hrest
      · rintro ⟨other, hother, hne⟩
        rcases List.mem_cons.1 hother with rfl | hother
        · exact absurd hempty hne
        · exact hroot ⟨other, hother, hne⟩
    · obtain ⟨middle, hfacts, hgrows, hroot⟩ := addFacts_grows hvalid language ("ast-" ++ language)
        (if facts.head?.any fun fact => 80 ≤ fact.confidence then "EXTRACTED" else "INFERRED")
        hgraph (fun entry hentry => absurd hentry List.not_mem_nil : CacheValid _ [] graph)
      obtain ⟨graph', hrest, hgrown, -, -⟩ := ih (hgrows.keeps hgraph)
      refine ⟨graph', ?_, hgrows.trans hgrown, fun _ => hgrown.hasRepoEdge (hroot hempty), ?_⟩
      · unfold addLanguages at hrest ⊢
        rw [List.foldlM_cons]
        have hnot : facts.isEmpty = false := by simpa using hempty
        simp only [hnot, Bool.false_eq_true, if_false]
        unfold addSyntacticLanguageAstFacts
        rw [hfacts]
        exact hrest
      · exact fun hall => absurd (List.forall_mem_cons.1 hall).1 hempty

end ValidScope

end Facts

/-! ## Reconciled edges and anchor links -/

section Links

variable {repoVid : String} {graph : GraphAccumulator}

variable {entries : List (String × Edge)}

theorem exists_winner {entry : String × Edge} (h : entry ∈ entries) :
    ∃ winner ∈ entries, winnerKey entries entry.2 = some winner.1 ∧
      winner.2.fromVid = entry.2.fromVid ∧ winner.2.toVid = entry.2.toVid ∧
      winner.2.kind = entry.2.kind := by
  have hbest : ∀ peers : List (String × Edge), peers ≠ [] → ∃ winner ∈ peers,
      peers.foldl (fun best entry => match best with
        | some (key, score) => if score ≥ edgeScore entry.2 then some (key, score)
          else some (entry.1, edgeScore entry.2)
        | none => some (entry.1, edgeScore entry.2)) none =
          some (winner.1, edgeScore winner.2) := by
    intro peers
    induction peers using List.reverseRecOn with
    | nil => exact fun hne => absurd rfl hne
    | append_singleton front last ih =>
      intro _
      rw [List.foldl_append, List.foldl_cons, List.foldl_nil]
      by_cases hfront : front = []
      · exact ⟨last, by simp, by rw [hfront]; rfl⟩
      · obtain ⟨winner, hwinner, heq⟩ := ih hfront
        rw [heq]
        dsimp only
        split_ifs with hscore
        · exact ⟨winner, List.mem_append_left _ hwinner, rfl⟩
        · exact ⟨last, List.mem_append_right _ (List.mem_singleton_self _), rfl⟩
  have hpeer : entry ∈ entries.filter fun other =>
      other.2.fromVid = entry.2.fromVid && other.2.toVid = entry.2.toVid &&
        other.2.kind = entry.2.kind := List.mem_filter.2 ⟨h, by simp⟩
  obtain ⟨winner, hwinner, heq⟩ := hbest _ (List.ne_nil_of_mem hpeer)
  obtain ⟨hmem, hsame⟩ := List.mem_filter.1 hwinner
  simp only [Bool.and_eq_true, decide_eq_true_eq] at hsame
  refine ⟨winner, hmem, ?_, hsame.1.1, hsame.1.2, hsame.2⟩
  exact congrArg (Option.map Prod.fst) heq

theorem winnerKey_congr {e e' : Edge} (hfrom : e.fromVid = e'.fromVid) (hto : e.toVid = e'.toVid)
    (hkind : e.kind = e'.kind) :
    winnerKey entries e = winnerKey entries e' := by
  unfold winnerKey
  rw [hfrom, hto, hkind]

theorem reconcileEdgeProvenance_hasRepoEdge (h : HasRepoEdge repoVid graph) :
    HasRepoEdge repoVid (reconcileEdgeProvenance graph) := by
  obtain ⟨entry, hentry, hfrom⟩ := h
  obtain ⟨winner, hwinner, hkey, hsame⟩ := exists_winner (mem_sortedEntries.2 hentry)
  refine ⟨winner, List.mem_filter.2 ⟨mem_sortedEntries.1 hwinner, ?_⟩, hsame.1.trans hfrom⟩
  rw [winnerKey_congr hsame.1 hsame.2.1 hsame.2.2, hkey]
  exact decide_eq_true rfl

theorem AstGraph.reconcileEdgeProvenance (h : AstGraph repoVid graph) :
    AstGraph repoVid (reconcileEdgeProvenance graph) where
  vid_eq := h.vid_eq
  repo_notMem := h.repo_notMem
  fromVid entry hentry := h.fromVid entry (List.mem_filter.1 hentry).1
  toVid entry hentry := h.toVid entry (List.mem_filter.1 hentry).1
  rooted hne := by
    apply reconcileEdgeProvenance_hasRepoEdge
    apply h.rooted
    rintro hnil
    exact hne (by rw [Graph.reconcileEdgeProvenance, hnil]; rfl)

theorem materializeGraphAnchors_grows (d : Digests) (h : AstGraph repoVid graph) :
    Grows repoVid graph (materializeGraphAnchors d graph) := by
  refine materializeGraphAnchors_keeps (Grows.refl _ graph) fun linked hlinked entry hentry _ => ?_
  refine hlinked.trans (addEdge_grows _ _ _ _ ?_ (hlinked.vids (h.toVid entry hentry)) (.inl ?_))
  · exact (h.fromVid entry hentry).imp_left fun hmem => hlinked.vids hmem
  · exact hlinked.hasRepoEdge (h.rooted (List.ne_nil_of_mem hentry))

theorem forall_mem_foldl_addAnchor {P : CodeGraphSnapshotAnchor → Prop}
    {anchors : List CodeGraphSnapshotAnchor} {kept : List (String × CodeGraphSnapshotAnchor)}
    (hanchors : ∀ a ∈ anchors, P a) (hkept : ∀ entry ∈ kept, P entry.2) :
    ∀ entry ∈ anchors.foldl addAnchor kept, P entry.2 := by
  refine List.foldlRecOn (motive := fun kept => ∀ entry ∈ kept, P entry.2) anchors addAnchor hkept
    fun kept hkept a ha => ?_
  unfold addAnchor insertMissing
  split_ifs with hpresent
  · exact hkept
  · exact List.forall_mem_append.2 ⟨hkept, List.forall_mem_singleton.2 (hanchors a ha)⟩

theorem nodeVid_of_mem_materializedAnchors (h : AstGraph repoVid graph) :
    ∀ entry ∈ materializedAnchors graph, entry.2.nodeVid ∈ graph.vids := by
  apply forall_mem_foldl_addAnchor (P := fun a => a.nodeVid ∈ graph.vids)
  · intro a ha
    obtain ⟨vertex, hvertex, hanchor⟩ := List.mem_filterMap.1 ha
    have hmem := mem_sortedEntries.1 hvertex
    have hvid : a.nodeVid = vertex.2.vid := by
      obtain ⟨kind, -, hanchor⟩ := Option.bind_eq_some_iff.1 hanchor
      obtain ⟨normalizedKey, -, hanchor⟩ := Option.bind_eq_some_iff.1 hanchor
      rw [← Option.some.inj hanchor]
    rw [hvid, h.vid_eq vertex hmem]
    exact List.mem_map_of_mem hmem
  · exact fun entry hentry => absurd hentry List.not_mem_nil

end Links

/-! ## The snapshot -/

section Snapshot

variable {d : HexDigests} {scope : CodeGraphScope}

/-- Every edge connects vertices of the snapshot, and every anchor is at one. -/
def ClosedGraph (result : SnapshotBuild × List CodeGraphSnapshotAnchor) : Prop :=
  (∀ e ∈ result.1.edges, e.fromVid ∈ result.1.vids ∧ e.toVid ∈ result.1.vids) ∧
    ∀ a ∈ result.2, a.nodeVid ∈ result.1.vids

/-- What the snapshot of an accumulator has: ends and anchors are vertices, except for the
repository, which is none. -/
structure RootedSnapshot (repoVid : String)
    (result : SnapshotBuild × List CodeGraphSnapshotAnchor) : Prop where
  fromVid : ∀ e ∈ result.1.edges, e.fromVid ∈ result.1.vids ∨ e.fromVid = repoVid
  toVid : ∀ e ∈ result.1.edges, e.toVid ∈ result.1.vids
  nodeVid : ∀ a ∈ result.2, a.nodeVid ∈ result.1.vids
  repo_notMem : repoVid ∉ result.1.vids

theorem rootedSnapshot_of_astGraph {repoVid : String} (d : Digests) {graph : GraphAccumulator}
    (h : AstGraph repoVid graph) :
    RootedSnapshot repoVid (accumulatorToSnapshotAndAnchors d graph) := by
  have hlinked := materializeGraphAnchors_grows d h
  have hfinal := hlinked.keeps h
  have hvids : ∀ vid, vid ∈ (accumulatorToSnapshotAndAnchors d graph).1.vids ↔
      vid ∈ (materializeGraphAnchors d graph).vids := by
    intro vid
    have hmap : ((sortedEntries (materializeGraphAnchors d graph).vertices).map Prod.snd).map
        Vertex.vid = (sortedEntries (materializeGraphAnchors d graph).vertices).map Prod.fst := by
      rw [List.map_map]
      exact List.map_congr_left fun entry hentry => hfinal.vid_eq entry (mem_sortedEntries.1 hentry)
    unfold SnapshotBuild.vids accumulatorToSnapshotAndAnchors GraphAccumulator.vids
    rw [hmap]
    simp only [List.mem_map, mem_sortedEntries]
  refine ⟨?_, ?_, ?_, fun hmem => hfinal.repo_notMem ((hvids _).1 hmem)⟩
  · refine List.forall_mem_map.2 fun entry hentry => ?_
    rw [hvids]
    exact hfinal.fromVid entry (mem_sortedEntries.1 hentry)
  · refine List.forall_mem_map.2 fun entry hentry => (hvids _).2 ?_
    exact hfinal.toVid entry (mem_sortedEntries.1 hentry)
  · refine List.forall_mem_map.2 fun entry hentry => (hvids _).2 (hlinked.vids ?_)
    exact nodeVid_of_mem_materializedAnchors h entry (mem_sortedEntries.1 hentry)

theorem exists_repoEdge_snapshot {repoVid : String} (d : Digests) {graph : GraphAccumulator}
    (h : AstGraph repoVid graph) (hroot : HasRepoEdge repoVid graph) :
    ∃ e ∈ (accumulatorToSnapshotAndAnchors d graph).1.edges, e.fromVid = repoVid := by
  obtain ⟨entry, hentry, hfrom⟩ := (materializeGraphAnchors_grows d h).hasRepoEdge hroot
  exact ⟨entry.2, List.mem_map.2 ⟨entry, mem_sortedEntries.2 hentry, rfl⟩, hfrom⟩

theorem astGraph_empty (repoVid : String) : AstGraph repoVid {} :=
  ⟨by simp, by simp [GraphAccumulator.vids], by simp, by simp, fun hne => absurd rfl hne⟩

/-- What the executor makes of facts: with a fact the repository is connected, without one
the graph is empty. -/
theorem exists_executeAst (d : HexDigests) (hvalid : assertValidScope scope = .ok ())
    (results : List (String × List SyntacticAstFact)) :
    ∃ result, executeAst d.toDigests scope results = .ok result ∧
      RootedSnapshot (repoVertexVid d scope) result ∧
      ((∃ facts ∈ results, facts.2 ≠ []) →
        ∃ e ∈ result.1.edges, e.fromVid = repoVertexVid d scope) ∧
      ((∀ facts ∈ results, facts.2 = []) → result = ({}, [])) := by
  obtain ⟨graph, hfold, hgrows, hroot, hsame⟩ :
      ∃ graph', addLanguages d.toDigests scope (repoVertexVid d scope) results {} = .ok graph' ∧
        Grows (repoVertexVid d scope) {} graph' ∧ _ :=
    addLanguages_grows hvalid (astGraph_empty _)
  have hgraph := (hgrows.keeps (astGraph_empty _)).reconcileEdgeProvenance
  refine ⟨_, ?_, rootedSnapshot_of_astGraph d.toDigests hgraph, fun hfacts => ?_, fun hfacts => ?_⟩
  · have hrepo : repoVidOf d.toDigests scope = .ok (repoVertexVid d scope) :=
      buildCodeGraphVertexId_eq_ok.2 ⟨hvalid, rfl⟩
    unfold executeAst
    rw [hrepo]
    simp only [bind, Except.bind]
    rw [hfold]
    rfl
  · exact exists_repoEdge_snapshot d.toDigests hgraph
      (reconcileEdgeProvenance_hasRepoEdge (hroot hfacts))
  · rw [hsame hfacts]
    rfl

/-- Under a valid scope the executor makes a graph in which everything but the repository is
a vertex; it is closed exactly if no language has a fact. -/
theorem executeAst_closed_iff (d : HexDigests) (hvalid : assertValidScope scope = .ok ())
    (results : List (String × List SyntacticAstFact)) :
    ∃ result, executeAst d.toDigests scope results = .ok result ∧
      RootedSnapshot (repoVertexVid d scope) result ∧
      (ClosedGraph result ↔ ∀ facts ∈ results, facts.2 = []) := by
  obtain ⟨result, hresult, hrooted, hconnected, hempty⟩ := exists_executeAst d hvalid results
  refine ⟨result, hresult, hrooted, ?_, ?_⟩
  · intro hclosed
    by_contra hfacts
    push Not at hfacts
    obtain ⟨e, he, hfrom⟩ := hconnected hfacts
    exact hrooted.repo_notMem (hfrom ▸ (hclosed.1 e he).1)
  · intro hfacts
    rw [hempty hfacts]
    exact ⟨fun e he => absurd he List.not_mem_nil, fun a ha => absurd ha List.not_mem_nil⟩

def definesFact : SyntacticAstFact where
  kind := .defines
  sourceSymbol := "module:main.go"
  sourceDisplayName := "main.go"
  sourceKind := .module
  targetSymbol := "function:main.go:Foo"
  targetDisplayName := "Foo"
  targetKind := .function
  filePath := "main.go"
  startLine := 5
  endLine := 5
  confidence := 90

theorem executeAst_closed_iff_definesFact :
    ∃ result, executeAst firstCharDigests.toDigests (tenantScope 1) [("go", [definesFact])] =
        .ok result ∧
      RootedSnapshot (repoVertexVid firstCharDigests (tenantScope 1)) result ∧
      (ClosedGraph result ↔ ∀ facts ∈ [("go", [definesFact])], facts.2 = []) :=
  executeAst_closed_iff firstCharDigests (by decide +kernel) [("go", [definesFact])]

/-- One fact is enough for an edge that starts at no vertex. -/
theorem definesFact_not_closed :
    ∃ result, executeAst firstCharDigests.toDigests (tenantScope 1) [("go", [definesFact])] =
        .ok result ∧ ∃ e ∈ result.1.edges, e.fromVid ∉ result.1.vids := by
  obtain ⟨result, hresult, hrooted, hconnected, -⟩ := exists_executeAst firstCharDigests
    (by decide +kernel : assertValidScope (tenantScope 1) = .ok ()) [("go", [definesFact])]
  obtain ⟨e, he, hfrom⟩ := hconnected ⟨_, List.mem_singleton_self _, by simp⟩
  exact ⟨result, hresult, e, he, hfrom ▸ hrooted.repo_notMem⟩

end Snapshot

/-! ## Files in both layers -/

section Layers

variable {d : HexDigests} {p : Payload} {scope : CodeGraphScope}

/-- The scope and the payload name the same tenant, repository, commit and versions. -/
structure SameScopeAs (scope : CodeGraphScope) (p : Payload) : Prop where
  orgId : scope.orgId = p.orgId
  workspaceId : scope.workspaceId = workspaceOf p
  repoId : scope.repoId = p.repoId
  revision : scope.revision = p.revision
  commitHash : scope.commitHash = p.commitHash
  schemaVersion : getSchemaVersion scope = defaultSchemaVersion
  builderVersion : getBuilderVersion scope = defaultBuilder

theorem SameScopeAs.scopeIdentity_eq (h : SameScopeAs scope p) (kind key : String) :
    scopeIdentity scope kind key = payloadIdentity p kind key := by
  simp only [scopeIdentity, payloadIdentity, h.orgId, h.workspaceId, h.repoId, h.commitHash,
    h.schemaVersion, h.builderVersion]

theorem addFileVertex_eq_ok (hvalid : assertValidScope scope = .ok ()) (repoVid path : String)
    (graph : GraphAccumulator) :
    ∃ graph', addFileVertex d.toDigests scope repoVid path graph =
        .ok ((scopeIdentity scope "file" ("file:" ++ path)).vid d.toDigests, graph') ∧
      (scopeIdentity scope "file" ("file:" ++ path)).vid d.toDigests ∈ graph'.vids := by
  obtain ⟨stored, hadd, -, hmem⟩ := addFileVertex_eq (d := d) hvalid repoVid path graph
  refine ⟨_, hadd, ?_⟩
  unfold addEdge
  dsimp only
  split_ifs <;> exact hmem

theorem fileVertex_of_kind {rows : ScipRows} {v : Vertex}
    (hv : v ∈ (buildSCIPSnapshot d.toDigests p rows).vertices) (hkind : v.kind = "file") :
    ∃ path, v = fileVertex d.toDigests p path := by
  have hother : ("symbol" : String) ≠ "file" := by decide
  cases (buildSCIPSnapshot_built rows).scipVertex v hv with
  | symbol s | bareSymbol symbol => exact absurd hkind hother
  | file path => exact ⟨path, rfl⟩

theorem hashedText_ne_of_key_length {kind key key' : String}
    (h : key.toList.length ≠ key'.toList.length) :
    (payloadIdentity p kind key).hashedText ≠ (payloadIdentity p kind key').hashedText := by
  intro heq
  have hlength := congrArg (fun s : String => s.toList.length) heq
  simp only [VertexIdentity.hashedText, VertexIdentity.parts, payloadIdentity,
    String.toList_intercalate, List.map_cons, List.map_nil, List.intercalate_cons_cons,
    List.intercalate_singleton, List.length_append] at hlength
  omega

/-- A digest that sees the parity of the length of its text. -/
def parityDigests : HexDigests where
  sha256Hex text :=
    String.ofList (List.replicate 64 (match text.toList.length % 2 with | 0 => '0' | _ => '1'))
  edgeRank _ := 0
  length_sha256Hex text := by simp
  isLower_sha256Hex text c hc := by
    rw [String.toList_ofList] at hc
    rw [List.eq_of_mem_replicate hc]
    split <;> decide
  edgeRank_nonneg := rank_nonneg
  edgeRank_le := rank_le

def importRows (path : String) : ScipRows :=
  ⟨[], [],
    [{ symbol := "fmt", filePath := path, startLine := none, endLine := none
       role := .imported, syntaxKind := "", lineContent := "", enclosingSymbol := "" }]⟩

end Layers

end CodeIntel.Graph
