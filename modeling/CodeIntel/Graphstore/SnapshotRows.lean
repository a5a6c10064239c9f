import CodeIntel.Graphstore.Acceptance

/-!
# Rendered snapshots and the validator

Both renderers write a row as a target and the values of its columns; they differ in
how they write strings and numbers. The rows of such a format are lexemes the scanners
can read, and they pass the validator if they carry the scope of the payload. A
snapshot of the backend then renders to accepted statements, whatever the batch size
and the characters of its strings.
-/

namespace CodeIntel.Graphstore

open Text Lexeme Graphschema Graph Relational

/-! ## Formats of values -/

/-- How a renderer writes the values of properties. -/
structure ValueFormat (P : Type) where
  /-- Whether its strings escape the line separators. -/
  separators : Bool
  text : P → String
  lexemes : P → List Lexeme
  lexemeText_lexemes : ∀ value, lexemeText (lexemes value) = (text value).toList
  isWord_lexemes : ∀ value, IsWord (lexemes value)
  isIdentifier_lexemes : ∀ value, ∀ t ∈ lexemes value, isIdentifier t = false

theorem isWord_keyword : ∀ word ∈ ["NULL", "true", "false"], IsWord (word.toList.map plain) := by
  intro word hword
  have hchars : ∀ word ∈ ["NULL", "true", "false"], word.toList ≠ [] ∧ ∀ c ∈ word.toList,
      Text.isSpace c = false ∧ ∀ d ∈ ['"', '\x60', ',', '(', ')', ':', ';'], c ≠ d := by
    decide
  exact isWord_map_plain (hchars word hword).1 (hchars word hword).2

theorem isIdentifier_map_plain (cs : List Char) : ∀ t ∈ cs.map plain, isIdentifier t = false :=
  List.forall_mem_map.2 fun _ _ => rfl

theorem isIdentifier_edgeTarget (separators : Bool) (fromVid toVid : String) (rank : ℤ) :
    ∀ t ∈ edgeTarget separators fromVid toVid rank, isIdentifier t = false := by
  intro t ht
  simp only [edgeTarget, List.mem_append, List.mem_singleton, List.mem_map] at ht
  rcases ht with rfl | ⟨c, -, rfl⟩ | rfl | ⟨c, -, rfl⟩ | ⟨c, -, rfl⟩ <;> rfl

namespace ValueFormat

variable {P : Type} (format : ValueFormat P) (column : String → P)

/-- The values of a row as lexemes. -/
def columnLexemes (props : List String) : List (List Lexeme) :=
  props.map fun prop => format.lexemes (column prop)

theorem map_lexemeText_columnLexemes (props : List String) :
    (format.columnLexemes column props).map lexemeText =
      (props.map fun prop => format.text (column prop)).map String.toList := by
  rw [columnLexemes, List.map_map, List.map_map]
  exact List.map_congr_left fun prop _ => format.lexemeText_lexemes _

theorem isIdentifier_columnLexemes (props : List String) :
    ∀ word ∈ format.columnLexemes column props, ∀ t ∈ word, isIdentifier t = false := by
  intro word hword
  obtain ⟨prop, -, rfl⟩ := List.mem_map.1 hword
  exact format.isIdentifier_lexemes _

def vertexLexemes (vid : String) : Row where
  target := [literal format.separators vid]
  values := format.columnLexemes column nodeProps
  isWord_target := isWord_literal
  values_ne_nil := by simp [columnLexemes, nodeProps]
  isWord_value := List.forall_mem_map.2 fun prop _ => format.isWord_lexemes _

def edgeLexemes (fromVid toVid : String) (rank : ℤ) : Row where
  target := edgeTarget format.separators fromVid toVid rank
  values := format.columnLexemes column edgeProps
  isWord_target := isWord_edgeTarget format.separators fromVid toVid rank
  values_ne_nil := by simp [columnLexemes, edgeProps]
  isWord_value := List.forall_mem_map.2 fun prop _ => format.isWord_lexemes _

theorem lexemeText_vertexLexemes (vid : String) :
    lexemeText (format.vertexLexemes column vid).lexemes =
      (insertRow (jsonLiteral format.separators vid)
        (nodeProps.map fun prop => format.text (column prop))).toList := by
  apply Row.lexemeText_lexemes
  · simp [vertexLexemes]
  · exact format.map_lexemeText_columnLexemes column nodeProps

theorem lexemeText_edgeLexemes (fromVid toVid : String) (rank : ℤ) :
    lexemeText (format.edgeLexemes column fromVid toVid rank).lexemes =
      (insertRow (jsonLiteral format.separators fromVid ++ "->" ++
        jsonLiteral format.separators toVid ++ "@" ++ toString rank)
        (edgeProps.map fun prop => format.text (column prop))).toList := by
  apply Row.lexemeText_lexemes
  · exact lexemeText_edgeTarget format.separators fromVid toVid rank
  · exact format.map_lexemeText_columnLexemes column edgeProps

theorem separated_vertexLexemes (vid : String) :
    Separated (format.vertexLexemes column vid).lexemes := by
  apply Row.separated
  refine List.forall_mem_cons.2 ⟨?_, format.isIdentifier_columnLexemes column nodeProps⟩
  exact List.forall_mem_singleton.2 rfl

theorem separated_edgeLexemes (fromVid toVid : String) (rank : ℤ) :
    Separated (format.edgeLexemes column fromVid toVid rank).lexemes := by
  apply Row.separated
  refine List.forall_mem_cons.2 ⟨?_, format.isIdentifier_columnLexemes column edgeProps⟩
  exact isIdentifier_edgeTarget format.separators fromVid toVid rank

variable {format column} {d : Digests} {input : RenderedStatementWrite}

/-- The scope columns of a row read as the payload's values. -/
def CarriesScope (format : ValueFormat P) (column : String → P) (input : RenderedStatementWrite) :
    Prop :=
  ∀ wanted ∈ wantedValues input, format.text (column wanted.1) = wanted.2

theorem scopeColumns_iff :
    ScopeColumns input (fun prop => format.lexemes (column prop)) ↔
      format.CarriesScope column input := by
  unfold ScopeColumns CarriesScope
  simp only [format.lexemeText_lexemes, String.toList_inj]

theorem validateRow_vertexLexemes {vid kind : String}
    (hkind : format.lexemes (column "kind") = [literal format.separators kind]) :
    vertexInsert.validateRow d input (lexemeText (format.vertexLexemes column vid).lexemes) =
        .ok () ↔
      (∃ named, ScopedVid d input vid named ∧ (kind ≠ "" → named = kind)) ∧
        format.CarriesScope column input := by
  rw [← scopeColumns_iff]
  have hvalues : (format.vertexLexemes column vid).values =
      nodeProps.map fun prop => format.lexemes (column prop) := rfl
  exact validateRow_vertex rfl hvalues hkind

theorem validateRow_edgeLexemes {fromVid toVid kind source : String} {rank : ℤ}
    (hkind : format.lexemes (column "kind") = [literal format.separators kind])
    (hsource : format.lexemes (column "source") = [literal format.separators source])
    (hlo : 0 ≤ rank) (hhi : rank ≤ 0xFFFFFFFF) :
    edgeInsert.validateRow d input
        (lexemeText (format.edgeLexemes column fromVid toVid rank).lexemes) = .ok () ↔
      (rank = d.edgeRank (fromVid ++ "->" ++ toVid ++ ":" ++ kind ++ ":" ++ source) ∧
        (∃ kind, ScopedVid d input fromVid kind) ∧ ∃ kind, ScopedVid d input toVid kind) ∧
        format.CarriesScope column input := by
  rw [← scopeColumns_iff]
  have hvalues : (format.edgeLexemes column fromVid toVid rank).values =
      edgeProps.map fun prop => format.lexemes (column prop) := rfl
  exact validateRow_edge rfl hvalues hkind hsource hlo hhi

end ValueFormat

/-! ## The backend's renderer -/

section Backend

variable {F : Type} (fmt : FloatFormat F)

/-- A value as lexemes. -/
def valueLexemes : CodeGraphPrimitive F → List Lexeme
  | .string s => [literal true s]
  | value => (ngqlValue fmt value).toList.map plain

theorem lexemeText_valueLexemes (value : CodeGraphPrimitive F) :
    lexemeText (valueLexemes fmt value) = (ngqlValue fmt value).toList := by
  cases value with
  | string s =>
    rw [valueLexemes, lexemeText_cons, lexemeText_nil, List.append_nil, text_literal]
    rfl
  | _ => exact lexemeText_map_plain _

theorem isWord_valueLexemes (value : CodeGraphPrimitive F) : IsWord (valueLexemes fmt value) := by
  cases value with
  | nil | other => exact isWord_keyword "NULL" (by simp)
  | string s => exact isWord_literal
  | bool b =>
    cases b with
    | true => exact isWord_keyword "true" (by simp)
    | false => exact isWord_keyword "false" (by simp)
  | int n => exact isWord_of_isNumberText (isNumberText_toString n)
  | float x =>
    simp only [valueLexemes, ngqlValue, formatFloat]
    split_ifs with hfinite
    · exact isWord_of_isNumberText (fmt.isNumberText_shortest x hfinite)
    · exact isWord_keyword "NULL" (by simp)

theorem isIdentifier_valueLexemes (value : CodeGraphPrimitive F) :
    ∀ t ∈ valueLexemes fmt value, isIdentifier t = false := by
  cases value with
  | string s => exact List.forall_mem_singleton.2 rfl
  | _ => exact isIdentifier_map_plain _

/-- The values as `ngqlValue` writes them. -/
def backendValues : ValueFormat (CodeGraphPrimitive F) where
  separators := true
  text := ngqlValue fmt
  lexemes := valueLexemes fmt
  lexemeText_lexemes := lexemeText_valueLexemes fmt
  isWord_lexemes := isWord_valueLexemes fmt
  isIdentifier_lexemes := isIdentifier_valueLexemes fmt

/-- A property as the renderer reads it. -/
def columnOf (properties : SortedMap String (CodeGraphPrimitive F)) (prop : String) :
    CodeGraphPrimitive F :=
  (properties.get prop).getD .nil

def vertexFormat : RowFormat (CodeGraphVertex F) where
  text := vertexRow fmt
  row v := (backendValues fmt).vertexLexemes (columnOf v.properties) v.vid
  lexemeText_row v := (backendValues fmt).lexemeText_vertexLexemes (columnOf v.properties) v.vid
  separated_row v := (backendValues fmt).separated_vertexLexemes (columnOf v.properties) v.vid

def edgeFormat : RowFormat (CodeGraphEdge F) where
  text := edgeRow fmt
  row e := (backendValues fmt).edgeLexemes (columnOf e.properties) e.fromVid e.toVid e.rank
  lexemeText_row e :=
    (backendValues fmt).lexemeText_edgeLexemes (columnOf e.properties) e.fromVid e.toVid e.rank
  separated_row e :=
    (backendValues fmt).separated_edgeLexemes (columnOf e.properties) e.fromVid e.toVid e.rank

theorem renderVertexInsert_eq (vertices : List (CodeGraphVertex F)) :
    renderVertexInsert fmt vertices = (vertexFormat fmt).statement vertexInsert vertices :=
  insertStatement_eq vertexInsert _

theorem renderEdgeInsert_eq (edges : List (CodeGraphEdge F)) :
    renderEdgeInsert fmt edges = (edgeFormat fmt).statement edgeInsert edges :=
  insertStatement_eq edgeInsert _

end Backend

/-! ## Snapshots of the payload's scope -/

section Scoped

variable {F : Type} {fmt : FloatFormat F} {d : Digests} {input : RenderedStatementWrite}

/-- The values of the scope columns. -/
def scopeValues (input : RenderedStatementWrite) : List (String × CodeGraphPrimitive F) :=
  [("orgId", .int input.orgId), ("workspaceId", .string input.workspaceId),
    ("repoId", .int input.repoId), ("revision", .string input.revision),
    ("commitHash", .string input.commitHash), ("schemaVersion", .int input.schemaVersion),
    ("builderVersion", .string input.builderVersion)]

/-- The scope columns of a property map have the payload's values. -/
def ScopeProperties (input : RenderedStatementWrite)
    (properties : SortedMap String (CodeGraphPrimitive F)) : Prop :=
  ∀ column ∈ scopeValues input, properties.get column.1 = some column.2

variable {properties : SortedMap String (CodeGraphPrimitive F)}

theorem carriesScope_of_scopeProperties (h : ScopeProperties input properties) :
    (backendValues fmt).CarriesScope (columnOf properties) input := by
  have hwanted : wantedValues input =
      (scopeValues input).map fun column => (column.1, ngqlValue fmt column.2) := rfl
  unfold ValueFormat.CarriesScope
  rw [hwanted]
  refine List.forall_mem_map.2 fun column hcolumn => ?_
  rw [columnOf, h column hcolumn]
  rfl

/-- A vertex of the scope: its identifier and its columns. -/
structure ScopedVertex (d : Digests) (input : RenderedStatementWrite) (v : CodeGraphVertex F) :
    Prop where
  scope : ScopeProperties input v.properties
  vid : ∃ kind, v.properties.get "kind" = some (.string kind) ∧ ScopedVid d input v.vid kind

/-- An edge of the scope: its ends, its columns and its rank. -/
structure ScopedEdge (d : Digests) (input : RenderedStatementWrite) (e : CodeGraphEdge F) :
    Prop where
  scope : ScopeProperties input e.properties
  fromVid : ∃ kind, ScopedVid d input e.fromVid kind
  toVid : ∃ kind, ScopedVid d input e.toVid kind
  rank : ∃ kind source, e.properties.get "kind" = some (.string kind) ∧
    e.properties.get "source" = some (.string source) ∧
    e.rank = d.edgeRank (e.fromVid ++ "->" ++ e.toVid ++ ":" ++ kind ++ ":" ++ source)
  rank_nonneg : 0 ≤ e.rank
  rank_le : e.rank ≤ 0xFFFFFFFF

theorem lexemes_columnOf_string {prop s : String} (h : properties.get prop = some (.string s)) :
    (backendValues fmt).lexemes (columnOf properties prop) =
      [literal (backendValues fmt).separators s] := by
  rw [columnOf, h]
  rfl

theorem ScopedVertex.validateRow {v : CodeGraphVertex F} (h : ScopedVertex d input v) :
    vertexInsert.validateRow d input (lexemeText ((vertexFormat fmt).row v).lexemes) = .ok () := by
  obtain ⟨kind, hkind, hvid⟩ := h.vid
  exact (ValueFormat.validateRow_vertexLexemes (lexemes_columnOf_string hkind)).2
    ⟨⟨kind, hvid, fun _ => rfl⟩, carriesScope_of_scopeProperties h.scope⟩

theorem ScopedEdge.validateRow {e : CodeGraphEdge F} (h : ScopedEdge d input e) :
    edgeInsert.validateRow d input (lexemeText ((edgeFormat fmt).row e).lexemes) = .ok () := by
  obtain ⟨kind, source, hkind, hsource, hrank⟩ := h.rank
  exact (ValueFormat.validateRow_edgeLexemes (lexemes_columnOf_string hkind)
    (lexemes_columnOf_string hsource) h.rank_nonneg h.rank_le).2
    ⟨⟨hrank, h.fromVid, h.toVid⟩, carriesScope_of_scopeProperties h.scope⟩

/-- A rendered snapshot of the payload's scope is accepted, with its numbers of vertices and
edges. -/
theorem validateRenderedStatementWrite_of_scoped {snapshot : CodeGraphSnapshot F}
    {batchSize : Int64} (hscope : validateRenderedScope input = .ok ())
    (hrender : renderSnapshotStatementsWithBatchSize fmt snapshot batchSize =
      some input.statements)
    (hvertices : ∀ v ∈ snapshot.vertices, ScopedVertex d input v)
    (hedges : ∀ e ∈ snapshot.edges, ScopedEdge d input e) :
    validateRenderedStatementWrite d input =
      .ok (snapshot.vertices.length, snapshot.edges.length) := by
  obtain ⟨vertexChunks, edgeChunks, hstatements, hvflat, heflat, hvne, hene⟩ :=
    renderSnapshotStatementsWithBatchSize_eq_some hrender
  rw [funext (renderVertexInsert_eq fmt), funext (renderEdgeInsert_eq fmt)] at hstatements
  rw [← hvflat, ← heflat]
  apply validateRenderedStatementWrite_batches hscope hstatements hvne hene
  · intro v hv
    exact (hvertices v (hvflat ▸ hv)).validateRow
  · intro e he
    exact (hedges e (heflat ▸ he)).validateRow

end Scoped

end CodeIntel.Graphstore
