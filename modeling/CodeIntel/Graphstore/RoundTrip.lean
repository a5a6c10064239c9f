import CodeIntel.Graphstore.SnapshotRows

/-!
# Rendering and reading back

A snapshot rendered by the backend is read back by its own scanners: the same rows in
the same order, with the same identifiers and the same strings in every column,
whatever the batch size and the characters of the strings. Properties that are no
columns of the tag or the edge type are not written and read as empty.
-/

namespace CodeIntel.Graphstore

open Text Lexeme Graphschema Graph Relational

/-! ## Rendered values -/

variable {F : Type} (fmt : FloatFormat F)

theorem decodeRenderedValue_string (s : String) :
    decodeRenderedValue (ngqlValue fmt (.string s)).toList = s := by
  have hchars : (jsonLiteral true s).toList = '"' :: (jsonBody true s.toList ++ ['"']) := by
    rw [jsonLiteral, String.toList_ofList]
  have hnull : equalFold (String.ofList (jsonLiteral true s).toList) "NULL" = false := by
    unfold equalFold
    rw [String.toList_ofList, hchars, List.map_cons, decide_eq_false_iff_not]
    intro heq
    exact absurd (List.cons.inj heq).1 (by decide)
  change decodeRenderedValue (jsonLiteral true s).toList = s
  unfold decodeRenderedValue
  dsimp only
  rw [trimSpaceChars_jsonLiteral, hnull, parseStringLiteral_jsonLiteral, hchars]
  simp

theorem decodeRenderedValue_nil : decodeRenderedValue (ngqlValue fmt .nil).toList = "" := by
  change decodeRenderedValue "NULL".toList = ""
  decide

/-- The columns of a row as they are read back. -/
def readProps (props : List String) (properties : SortedMap String (CodeGraphPrimitive F)) :
    List (String × String) :=
  props.map fun prop =>
    (prop, decodeRenderedValue (ngqlValue fmt ((properties.get prop).getD .nil)).toList)

theorem lookup_readProps {props : List String} {prop : String} (h : prop ∈ props)
    (properties : SortedMap String (CodeGraphPrimitive F)) :
    (readProps fmt props properties).lookup prop =
      some (decodeRenderedValue (ngqlValue fmt ((properties.get prop).getD .nil)).toList) := by
  unfold readProps
  induction props with
  | nil => simp at h
  | cons first props ih =>
    rw [List.map_cons, List.lookup_cons]
    by_cases heq : prop = first
    · simp [heq]
    · rw [beq_eq_false_iff_ne.2 heq]
      exact ih ((List.mem_cons.1 h).resolve_left heq)

theorem lookup_readProps_of_notMem {props : List String} {prop : String} (h : prop ∉ props)
    (properties : SortedMap String (CodeGraphPrimitive F)) :
    (readProps fmt props properties).lookup prop = none := by
  rw [List.lookup_eq_none_iff]
  intro entry hentry
  obtain ⟨column, hcolumn, rfl⟩ := List.mem_map.1 hentry
  rw [bne_iff_ne]
  exact fun heq => h (heq ▸ hcolumn)

/-- What reading the row of some properties gives back. -/
structure ReadsBack (props : List String) (properties : SortedMap String (CodeGraphPrimitive F))
    (read : List (String × String)) : Prop where
  string : ∀ prop ∈ props, ∀ s, properties.get prop = some (.string s) →
    Writer.renderedProp read prop = s
  absent : ∀ prop, properties.get prop = none → Writer.renderedProp read prop = ""

theorem readsBack_readProps (props : List String)
    (properties : SortedMap String (CodeGraphPrimitive F)) :
    ReadsBack props properties (readProps fmt props properties) where
  string prop hprop s hs := by
    rw [Writer.renderedProp, lookup_readProps fmt hprop, hs, Option.getD_some, Option.getD_some,
      decodeRenderedValue_string]
  absent prop hnone := by
    rw [Writer.renderedProp]
    by_cases hprop : prop ∈ props
    · rw [lookup_readProps fmt hprop, hnone, Option.getD_some, Option.getD_none,
        decodeRenderedValue_nil]
    · rw [lookup_readProps_of_notMem fmt hprop, Option.getD_none]

theorem renderedProps_columnLexemes (props : List String)
    (properties : SortedMap String (CodeGraphPrimitive F)) :
    renderedProps props
        (((backendValues fmt).columnLexemes (columnOf properties) props).map lexemeText) =
      readProps fmt props properties := by
  rw [ValueFormat.map_lexemeText_columnLexemes, renderedProps, List.map_map, List.map_map,
    ← List.map_prod_left_eq_zip]
  rfl

/-! ## Rendered rows -/

/-- A vertex as it is read back. -/
def readVertex (v : CodeGraphVertex F) : Writer.RenderedVertexRow :=
  ⟨v.vid, readProps fmt nodeProps v.properties⟩

/-- An edge as it is read back. -/
def readEdge (e : CodeGraphEdge F) : Writer.RenderedEdgeRow :=
  ⟨e.fromVid, e.toVid, toString e.rank, readProps fmt edgeProps e.properties⟩

theorem parseRenderedVertexRow_eq (v : CodeGraphVertex F) :
    parseRenderedVertexRow (lexemeText ((vertexFormat fmt).row v).lexemes) =
      .ok (readVertex fmt v) := by
  have htarget : lexemeText ((vertexFormat fmt).row v).target = (jsonLiteral true v.vid).toList := by
    simp [vertexFormat, ValueFormat.vertexLexemes, backendValues]
  unfold parseRenderedVertexRow
  rw [Row.indexOutside_colon, Row.parseInsertRowValues_eq]
  simp only [bind, Except.bind]
  rw [Row.take_target, htarget, trimSpaceChars_jsonLiteral, parseStringLiteral_jsonLiteral]
  simp only [pure, Except.pure, readVertex, vertexFormat, ValueFormat.vertexLexemes]
  rw [renderedProps_columnLexemes]

theorem parseRenderedEdgeRow_eq (e : CodeGraphEdge F) :
    parseRenderedEdgeRow (lexemeText ((edgeFormat fmt).row e).lexemes) = .ok (readEdge fmt e) := by
  have htrim := ((edgeFormat fmt).row e).isWord_target.trimSpaceChars
  unfold parseRenderedEdgeRow
  rw [Row.indexOutside_colon, Row.parseInsertRowValues_eq]
  simp only [bind, Except.bind]
  rw [Row.take_target, htrim]
  simp only [edgeFormat, ValueFormat.edgeLexemes]
  rw [splitEdgeTarget_edgeTarget]
  simp only [parseStringLiteral_jsonLiteral, pure, Except.pure, readEdge, String.ofList_toList,
    renderedProps_columnLexemes]

/-! ## Statements and snapshots -/

section Statements

theorem mapM_map_eq_ok {α β γ ε : Type} {as : List α} {g : α → β} {f : β → Except ε γ} {r : α → γ}
    (h : ∀ a ∈ as, f (g a) = .ok (r a)) : (as.map g).mapM f = .ok (as.map r) := by
  induction as with
  | nil => rfl
  | cons a as ih =>
    rw [List.map_cons, List.mapM_cons, h a List.mem_cons_self,
      ih fun a ha => h a (List.mem_cons_of_mem _ ha)]
    rfl

theorem extractStatement_vertices {vertices : List (CodeGraphVertex F)} (hne : vertices ≠ []) :
    extractStatement (renderVertexInsert fmt vertices) =
      .ok (vertices.map (readVertex fmt), []) := by
  have hrows := parseInsertRows_rows vertexInsert (by simpa using hne)
    ((vertexFormat fmt).map_rows vertices)
  have hread := mapM_map_eq_ok fun v (_ : v ∈ vertices) => parseRenderedVertexRow_eq fmt v
  unfold extractStatement
  rw [renderVertexInsert_eq, RowFormat.statement, if_pos (hasPrefix_pre vertexInsert _), hrows,
    List.map_map]
  simp only [bind, Except.bind, Function.comp_def]
  rw [hread]
  rfl

theorem extractStatement_edges {edges : List (CodeGraphEdge F)} (hne : edges ≠ []) :
    extractStatement (renderEdgeInsert fmt edges) = .ok ([], edges.map (readEdge fmt)) := by
  have hrows := parseInsertRows_rows edgeInsert (by simpa using hne)
    ((edgeFormat fmt).map_rows edges)
  have hread := mapM_map_eq_ok fun e (_ : e ∈ edges) => parseRenderedEdgeRow_eq fmt e
  unfold extractStatement
  rw [renderEdgeInsert_eq, RowFormat.statement, not_hasPrefix_vertexInsert,
    if_neg Bool.false_ne_true, if_pos (hasPrefix_pre edgeInsert _), hrows, List.map_map]
  simp only [bind, Except.bind, Function.comp_def]
  rw [hread]
  rfl

theorem extractStatements_batches {vertexChunks : List (List (CodeGraphVertex F))}
    {edgeChunks : List (List (CodeGraphEdge F))} (hvertices : ∀ batch ∈ vertexChunks, batch ≠ [])
    (hedges : ∀ batch ∈ edgeChunks, batch ≠ []) :
    extractStatements (vertexChunks.map (renderVertexInsert fmt) ++
        edgeChunks.map (renderEdgeInsert fmt)) =
      .ok (vertexChunks.flatten.map (readVertex fmt), edgeChunks.flatten.map (readEdge fmt)) := by
  have hv := mapM_map_eq_ok fun batch hbatch =>
    extractStatement_vertices fmt (hvertices batch hbatch)
  have he := mapM_map_eq_ok fun batch hbatch => extractStatement_edges fmt (hedges batch hbatch)
  unfold extractStatements
  rw [List.mapM_append, hv, he]
  simp only [bind, Except.bind, pure, Except.pure, Except.ok.injEq, Prod.mk.injEq]
  constructor
  · simp [List.map_flatten, List.flatMap_def, Function.comp_def]
  · simp [List.map_flatten, List.flatMap_def, Function.comp_def]

variable {fmt}

/-- An accepted rendering of a snapshot is read back as its vertices and edges. -/
theorem extractRenderedRows_eq {d : Digests} {snapshot : CodeGraphSnapshot F} {batchSize : Int64}
    {input : RenderedStatementWrite} {counts : ℕ × ℕ}
    (hrender : renderSnapshotStatementsWithBatchSize fmt snapshot batchSize =
      some input.statements)
    (haccepted : validateRenderedStatementWrite d input = .ok counts) :
    extractRenderedRows d input =
      .ok (snapshot.vertices.map (readVertex fmt), snapshot.edges.map (readEdge fmt)) := by
  obtain ⟨vertexChunks, edgeChunks, hstatements, hvflat, heflat, hvne, hene⟩ :=
    renderSnapshotStatementsWithBatchSize_eq_some hrender
  unfold extractRenderedRows
  rw [haccepted]
  simp only [bind, Except.bind]
  rw [hstatements, List.append_assoc, List.drop_left, extractStatements_batches fmt hvne hene,
    hvflat, heflat]

/-- An accepted rendering of a snapshot is read back row by row: the identifiers are the
same, every string column has its string and every absent property reads as empty. -/
theorem extractRenderedRows_rendered {d : Digests} {snapshot : CodeGraphSnapshot F}
    {batchSize : Int64} {input : RenderedStatementWrite} {counts : ℕ × ℕ}
    (hrender : renderSnapshotStatementsWithBatchSize fmt snapshot batchSize =
      some input.statements)
    (haccepted : validateRenderedStatementWrite d input = .ok counts) :
    ∃ vertices edges, extractRenderedRows d input = .ok (vertices, edges) ∧
      List.Forall₂ (fun v row => row.vid = v.vid ∧ ReadsBack nodeProps v.properties row.props)
        snapshot.vertices vertices ∧
      List.Forall₂ (fun e row => row.fromVid = e.fromVid ∧ row.toVid = e.toVid ∧
        ReadsBack edgeProps e.properties row.props) snapshot.edges edges := by
  refine ⟨_, _, extractRenderedRows_eq hrender haccepted, ?_, ?_⟩
  · rw [List.forall₂_map_right_iff, List.forall₂_same]
    exact fun v _ => ⟨rfl, readsBack_readProps fmt nodeProps v.properties⟩
  · rw [List.forall₂_map_right_iff, List.forall₂_same]
    exact fun e _ => ⟨rfl, rfl, readsBack_readProps fmt edgeProps e.properties⟩

end Statements

/-! ## A snapshot with one symbol -/

section Sample

/-- Digests that do not look at their text. -/
def zeroDigests : Digests where
  sha256Hex _ := String.ofList (List.replicate 64 '0')
  edgeRank _ := 0

/-- No float is finite. -/
def noFloats : FloatFormat Unit where
  isFinite _ := false
  shortest _ := "0"
  isNumberText_shortest _ h := absurd h (by simp)

def sampleWrite (statements : List String) : RenderedStatementWrite where
  orgId := 1
  workspaceId := "ws"
  repoId := 2
  revision := "main"
  commitHash := String.ofList (List.replicate 40 'a')
  schemaVersion := 1
  builderVersion := "b"
  source := "scip"
  statements := statements

def sampleVid : String :=
  scopedVidPrefix zeroDigests (sampleWrite []) ++
    ("symbol:" ++ String.ofList (List.replicate 32 '0'))

/-- The properties of the symbol: those of the scope and some texts. -/
def sampleProps (extra : List (String × String)) : SortedMap String (CodeGraphPrimitive Unit) :=
  SortedMap.ofRows Prod.fst Prod.snd ([("kind", .string "symbol"), ("source", .string "scip")] ++
    scopeValues (sampleWrite []) ++ extra.map fun entry => (entry.1, .string entry.2))

def sampleSnapshot (extra : List (String × String)) : CodeGraphSnapshot Unit where
  vertices := [⟨sampleVid, sampleProps extra⟩]
  edges := [⟨sampleVid, sampleVid, 0, sampleProps []⟩]

theorem scopedVid_sampleVid (statements : List String) :
    ScopedVid zeroDigests (sampleWrite statements) sampleVid "symbol" where
  kind_ne := by decide
  colon_notMem := by decide
  eq_append := by
    refine ⟨List.replicate 32 '0', by decide, by decide, ?_⟩
    rw [sampleVid, String.toList_append, String.toList_append, String.toList_ofList]
    rfl

variable {statements : List String} {properties : SortedMap String (CodeGraphPrimitive Unit)}

theorem scopedVertex_sample (hkind : properties.get "kind" = some (.string "symbol"))
    (hscope : ScopeProperties (sampleWrite []) properties) :
    ScopedVertex zeroDigests (sampleWrite statements) ⟨sampleVid, properties⟩ :=
  ⟨hscope, "symbol", hkind, scopedVid_sampleVid statements⟩

theorem scopedEdge_sample (hkind : properties.get "kind" = some (.string "symbol"))
    (hsource : properties.get "source" = some (.string "scip"))
    (hscope : ScopeProperties (sampleWrite []) properties) :
    ScopedEdge zeroDigests (sampleWrite statements) ⟨sampleVid, sampleVid, 0, properties⟩ where
  scope := hscope
  fromVid := ⟨"symbol", scopedVid_sampleVid statements⟩
  toVid := ⟨"symbol", scopedVid_sampleVid statements⟩
  rank := ⟨"symbol", "scip", hkind, hsource, rfl⟩
  rank_nonneg := le_rfl
  rank_le := (by decide : (0 : ℤ) ≤ 0xFFFFFFFF)

theorem validate_sampleWrite {extra : List (String × String)}
    (hrender : renderSnapshotStatementsWithBatchSize noFloats (sampleSnapshot extra) 0 =
      some statements) (hkind : (sampleProps extra).get "kind" = some (.string "symbol"))
    (hscope : ScopeProperties (sampleWrite []) (sampleProps extra)) :
    validateRenderedStatementWrite zeroDigests (sampleWrite statements) = .ok (1, 1) := by
  have hinput : validateRenderedScope (sampleWrite statements) = .ok () := by
    change validateRenderedScope (sampleWrite []) = .ok ()
    decide +kernel
  have hedge : ScopeProperties (sampleWrite []) (sampleProps []) := by
    unfold ScopeProperties
    decide +kernel
  have hends : (sampleProps []).get "kind" = some (.string "symbol") ∧
      (sampleProps []).get "source" = some (.string "scip") := by
    decide +kernel
  apply validateRenderedStatementWrite_of_scoped hinput hrender
  · intro v hv
    rw [List.mem_singleton.1 hv]
    exact scopedVertex_sample hkind hscope
  · intro e he
    rw [List.mem_singleton.1 he]
    exact scopedEdge_sample hends.1 hends.2 hedge

theorem isSome_render_sampleSnapshot (extra : List (String × String)) :
    (renderSnapshotStatementsWithBatchSize noFloats (sampleSnapshot extra) 0).isSome = true :=
  isSome_renderSnapshotStatementsWithBatchSize (by simp [sampleSnapshot])
    (by simp [sampleSnapshot]) (by decide)

/-- A label with the characters the scanners look for is read back. -/
theorem extractRenderedRows_label :
    ∃ statements vertices edges,
      renderSnapshotStatementsWithBatchSize noFloats
        (sampleSnapshot [("label", "f(\"a\", b)->c:\n\\;")]) 0 = some statements ∧
      extractRenderedRows zeroDigests (sampleWrite statements) = .ok (vertices, edges) ∧
      vertices.map (fun row => Writer.renderedProp row.props "label") =
        ["f(\"a\", b)->c:\n\\;"] := by
  obtain ⟨statements, hrender⟩ := Option.isSome_iff_exists.1
    (isSome_render_sampleSnapshot [("label", "f(\"a\", b)->c:\n\\;")])
  have hkind : (sampleProps [("label", "f(\"a\", b)->c:\n\\;")]).get "kind" =
      some (.string "symbol") := by
    decide +kernel
  have hscope : ScopeProperties (sampleWrite [])
      (sampleProps [("label", "f(\"a\", b)->c:\n\\;")]) := by
    unfold ScopeProperties
    decide +kernel
  have hlabel : (sampleProps [("label", "f(\"a\", b)->c:\n\\;")]).get "label" =
      some (.string "f(\"a\", b)->c:\n\\;") := by
    decide +kernel
  have haccepted := validate_sampleWrite hrender hkind hscope
  obtain ⟨vertices, edges, hrows, hvertices, -⟩ : ∃ vertices edges,
      extractRenderedRows zeroDigests (sampleWrite statements) = .ok (vertices, edges) ∧ _ ∧ _ :=
    extractRenderedRows_rendered hrender haccepted
  refine ⟨statements, vertices, edges, hrender, hrows, ?_⟩
  obtain ⟨row, rows, hrow, hrest, rfl⟩ := List.forall₂_cons_left_iff.1 hvertices
  obtain rfl := List.forall₂_nil_left_iff.1 hrest
  rw [List.map_cons, List.map_nil, hrow.2.string "label" (by decide) _ hlabel]

/-- A property that is no column is accepted, and not read back. -/
theorem extractRenderedRows_docstring :
    ∃ statements vertices edges,
      renderSnapshotStatementsWithBatchSize noFloats (sampleSnapshot [("docstring", "x")]) 0 =
        some statements ∧
      validateRenderedStatementWrite zeroDigests (sampleWrite statements) = .ok (1, 1) ∧
      (sampleProps [("docstring", "x")]).get "docstring" = some (.string "x") ∧
      extractRenderedRows zeroDigests (sampleWrite statements) = .ok (vertices, edges) ∧
      vertices.map (fun row => Writer.renderedProp row.props "docstring") = [""] := by
  obtain ⟨statements, hrender⟩ := Option.isSome_iff_exists.1
    (isSome_render_sampleSnapshot [("docstring", "x")])
  have hkind : (sampleProps [("docstring", "x")]).get "kind" = some (.string "symbol") := by
    decide +kernel
  have hscope : ScopeProperties (sampleWrite []) (sampleProps [("docstring", "x")]) := by
    unfold ScopeProperties
    decide +kernel
  have haccepted := validate_sampleWrite hrender hkind hscope
  have hrows : extractRenderedRows zeroDigests (sampleWrite statements) = .ok (_, _) :=
    extractRenderedRows_eq hrender haccepted
  refine ⟨statements, _, _, hrender, haccepted, by decide +kernel, hrows, ?_⟩
  rw [sampleSnapshot, List.map_cons, List.map_cons, List.map_nil, List.map_nil, readVertex,
    Writer.renderedProp, lookup_readProps_of_notMem noFloats (by decide), Option.getD_none]

end Sample

end CodeIntel.Graphstore
