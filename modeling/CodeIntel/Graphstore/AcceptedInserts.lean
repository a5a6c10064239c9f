import CodeIntel.Graphstore.ScopedInserts

/-!
# Accepted statements in the reading of nGQL

A statement the validator accepts is one INSERT of the scope if its quoted parts do not
disrupt the scanners. What the backend renders is of that kind, since its strings are
double-quoted. A payload written by hand need not be: a double quote in single quotes
hides the end of the statement and the commands after it.
-/

namespace CodeIntel.Graphstore

open Text Lexeme Graphschema Graph Relational

/-! ## Accepted statements -/

section Statements

variable {d : Digests} {input : RenderedStatementWrite} {kind : InsertKind}
  {isTarget : List Lexeme → Prop} {stmt : String} {n i : ℕ} {counts : ℕ × ℕ}

theorem scanStatement_of_validateSingle
    (h : validateSingleTerminatedStatement stmt.toList = .ok ()) :
    stmt.toList.getLast? = some ';' ∧
      ∃ mode, scanStatement .code stmt.toList.dropLast = .ok mode := by
  unfold validateSingleTerminatedStatement at h
  split_ifs at h with htrim hlast
  · simp [failure] at h
  · simp [failure] at h
  · refine ⟨not_not.1 hlast, ?_⟩
    cases hscan : scanStatement .code stmt.toList.dropLast with
    | error e =>
      rw [hscan] at h
      simp at h
    | ok mode => exact ⟨mode, rfl⟩

theorem exists_values_of_lex {ts : List Lexeme} (hkind : kind.Inert)
    (hkeyword : '\'' ∉ kind.keyword.toList) (hpre : hasPrefix stmt kind.pre = true)
    (hlex : lex stmt.toList = some ts) (hlast : stmt.toList.getLast? = some ';') :
    ∃ values, ts = kind.preLexemes ++ values ++ [plain ';'] := by
  obtain ⟨htext, hwell, -⟩ := lex_eq_some_iff.1 hlex
  obtain ⟨body, rfl⟩ := exists_of_getLast? hwell (by decide) (htext ▸ hlast)
  obtain ⟨rest, hrest⟩ := hasPrefix_iff.1 hpre
  rw [← hrest, kind.lex_pre_append hkind hkeyword] at hlex
  obtain ⟨later, -, heq⟩ := Option.map_eq_some_iff.1 hlex
  rcases List.eq_nil_or_concat' later with rfl | ⟨values, t, rfl⟩
  · rw [List.append_nil] at heq
    have hmem : plain ';' ∈ kind.preLexemes := by simp [heq]
    exact absurd hmem (kind.semicolon_notMem_preLexemes hkind)
  · rw [← List.append_assoc] at heq
    exact ⟨values, by rw [(List.append_inj' heq rfl).1]⟩

theorem eq_of_lex_values {values : List Lexeme} (hkind : kind.Inert)
    (hlex : lex stmt.toList = some (kind.preLexemes ++ values ++ [plain ';'])) :
    stmt = kind.pre ++ String.ofList (lexemeText values) ++ ";" := by
  have htext := (lex_eq_some_iff.1 hlex).1
  rw [← String.toList_inj, ← htext, lexemeText_append, lexemeText_append,
    kind.lexemeText_preLexemes hkind, String.toList_append, String.toList_append,
    String.toList_ofList]
  rfl

theorem isScopedInsert_of_validateRows (hkind : kind.Inert)
    (hkeyword : '\'' ∉ kind.keyword.toList) (hcheck : ChecksTarget d input kind isTarget)
    (hread : ReadAlike stmt) (hsingle : validateSingleTerminatedStatement stmt.toList = .ok ())
    (hpre : hasPrefix stmt kind.pre = true) (hrows : kind.validateRows d input stmt = .ok n) :
    IsScopedInsert input kind isTarget stmt := by
  obtain ⟨ts, hlex, hquiet⟩ := hread
  obtain ⟨hlast, mode, hscan⟩ := scanStatement_of_validateSingle hsingle
  obtain ⟨values, rfl⟩ := exists_values_of_lex hkind hkeyword hpre hlex hlast
  obtain ⟨htext, hwell, hsep⟩ := lex_eq_some_iff.1 hlex
  have hall : ∀ t ∈ kind.preLexemes ++ values ++ [plain ';'], WellQuoted t ∧ Tame t := by
    intro t ht
    refine ⟨hwell t ht, tame_of_wellQuoted (hwell t ht) ?_⟩
    rintro mark body rfl
    exact hquiet mark body ht
  have hfront : ∀ t ∈ kind.preLexemes ++ values, WellQuoted t ∧ Tame t := fun t ht =>
    hall t (List.mem_append_left _ ht)
  rw [← htext, lexemeText_append, lexemeText_cons, lexemeText_nil, text, List.append_nil,
    List.dropLast_concat] at hscan
  have hsemi : plain ';' ∉ kind.preLexemes ++ values :=
    semicolon_notMem_of_scanStatement hfront (List.isChain_append.1 hsep).1 hscan
  have hvalues : ∀ t ∈ values, WellQuoted t ∧ Tame t := fun t ht =>
    hfront t (List.mem_append_right _ ht)
  obtain ⟨rows, hsplit, hne, hpass, -⟩ := validateRows_eq_ok.1 hrows
  rw [eq_of_lex_values hkind hlex, valuesPart_append, String.toList_ofList,
    splitTopLevel_eq_ok fun t ht => (hvalues t ht).2] at hsplit
  obtain ⟨parts, hparts, -, rfl⟩ := hsplit
  refine ⟨values, parts, hlex, hsemi, hparts, ?_, ?_⟩
  · rintro rfl
    exact hne rfl
  · intro part hpart
    have hrow : kind.validateRow d input (lexemeText (trimLexemes part)) = .ok () :=
      hpass _ (List.mem_map_of_mem hpart)
    refine isScopedRow_of_validateRow hcheck (fun t ht => ?_) hrow
    exact hvalues t (mem_of_splitLexemes hparts part hpart t (mem_of_mem_trimLexemes ht))

/-- A statement the validator accepts is of the scope if the scanners read it as nGQL does. -/
theorem isScopedInsert_of_validateStatement (hread : ReadAlike stmt)
    (h : validateStatement d input i stmt = .ok counts) :
    IsScopedInsert input vertexInsert (IsVertexTarget d input) stmt ∨
      IsScopedInsert input edgeInsert (IsEdgeTarget d input) stmt := by
  obtain ⟨hsingle, ⟨hpre, n, hrows, -⟩ | ⟨hpre, n, hrows, -⟩⟩ := validateStatement_eq_ok h
  · exact .inl (isScopedInsert_of_validateRows InsertKind.inert_vertexInsert (by decide)
      isVertexTarget_of_identity hread hsingle hpre hrows)
  · exact .inr (isScopedInsert_of_validateRows InsertKind.inert_edgeInsert (by decide)
      isEdgeTarget_of_identity hread hsingle hpre hrows)

end Statements

/-! ## Rendered statements -/

section Rendered

variable {kind : InsertKind} {rows : List Row} {texts : List String} {F : Type}

theorem wellQuoted_literalLexeme {separators : Bool} {s : String} :
    WellQuoted (literal separators s) :=
  (wellQuoted_literal (.inl rfl)).2 (isClosedBody_jsonBody _)

theorem wellQuoted_of_isNumberText {s : String} (h : IsNumberText s) :
    ∀ t ∈ s.toList.map plain, WellQuoted t := by
  refine List.forall_mem_map.2 fun c hc => ?_
  have hnumber := h.2 c hc
  refine ⟨?_, ?_, ?_⟩ <;> rintro rfl <;> exact absurd hnumber (by decide)

theorem wellQuoted_valueLexemes (fmt : FloatFormat F) (value : CodeGraphPrimitive F) :
    ∀ t ∈ valueLexemes fmt value, WellQuoted t := by
  have hword : ∀ word ∈ ["NULL", "true", "false"], ∀ t ∈ word.toList.map plain, WellQuoted t := by
    decide
  cases value with
  | nil | other => exact hword "NULL" (by simp)
  | string s => exact List.forall_mem_singleton.2 wellQuoted_literalLexeme
  | bool b =>
    cases b with
    | true => exact hword "true" (by simp)
    | false => exact hword "false" (by simp)
  | int n => exact wellQuoted_of_isNumberText (isNumberText_toString n)
  | float x =>
    simp only [valueLexemes, ngqlValue, formatFloat]
    split_ifs with hfinite
    · exact wellQuoted_of_isNumberText (fmt.isNumberText_shortest x hfinite)
    · exact hword "NULL" (by simp)

theorem wellQuoted_edgeTarget (separators : Bool) (fromVid toVid : String) (rank : ℤ) :
    ∀ t ∈ edgeTarget separators fromVid toVid rank, WellQuoted t := by
  have hplain : ∀ c ∈ ['-', '>', '@'], WellQuoted (plain c) := by decide
  intro t ht
  simp only [edgeTarget, List.mem_append, List.mem_singleton, List.mem_map] at ht
  rcases ht with rfl | ⟨c, hc, rfl⟩ | rfl | ⟨c, hc, rfl⟩ | ⟨c, hc, rfl⟩
  · exact wellQuoted_literalLexeme
  · exact hplain c (List.mem_of_mem_take (show c ∈ ['-', '>', '@'].take 2 from hc))
  · exact wellQuoted_literalLexeme
  · rw [hc]
    exact hplain '@' (by decide)
  · exact wellQuoted_of_isNumberText (isNumberText_toString rank) _ (List.mem_map_of_mem hc)

theorem readAlike_statement (hkind : kind.Inert) (hkeyword : '\'' ∉ kind.keyword.toList)
    (hsep : ∀ row ∈ rows, Separated row.lexemes)
    (hwords : ∀ row ∈ rows, ∀ word ∈ row.target :: row.values, ∀ t ∈ word, WellQuoted t)
    (htexts : rows.map (fun row => lexemeText row.lexemes) = texts.map String.toList) :
    ReadAlike (kind.pre ++ ", ".intercalate texts ++ ";") := by
  have hrows : ∀ row ∈ rows, ∀ t ∈ row.lexemes, WellQuoted t := fun row hrow =>
    row.forall_mem_lexemes (by decide) (hwords row hrow)
  have hwell : ∀ t ∈ statementLexemes kind rows, WellQuoted t := by
    intro t ht
    rcases List.mem_append.1 ht with ht | ht
    · exact kind.wellQuoted_preLexemes hkind hkeyword t ht
    · exact forall_mem_joinLexemes (by decide) (List.forall_mem_map.2 hrows) t ht
  have hseparated : Separated (statementLexemes kind rows ++ plain ';' :: []) :=
    (kind.separated_preLexemes_append
      (separated_joinLexemes (List.forall_mem_map.2 hsep))).append_plain List.isChain_nil
  refine ⟨statementLexemes kind rows ++ [plain ';'], lex_eq_some_iff.2 ⟨?_, ?_, hseparated⟩, ?_⟩
  · rw [toList_statement hkind htexts, lexemeText_append, lexemeText_cons, lexemeText_nil, text,
      List.append_nil]
  · intro t ht
    rcases List.mem_append.1 ht with ht | ht
    · exact hwell t ht
    · rw [List.mem_singleton.1 ht]
      decide
  · intro mark body hmem hmark c hc
    have hlegible : Legible (quoted mark body) := by
      rcases List.mem_append.1 hmem with hmem | hmem
      · exact legible_statementLexemes hkind _ hmem
      · exact absurd (List.mem_singleton.1 hmem) (by simp)
    exact (hlegible.tame.notMem_disruptive hmark).2 c hc

variable {fmt : FloatFormat F}

theorem readAlike_renderVertexInsert (vertices : List (CodeGraphVertex F)) :
    ReadAlike (renderVertexInsert fmt vertices) := by
  rw [renderVertexInsert_eq]
  refine readAlike_statement InsertKind.inert_vertexInsert (by decide)
    (List.forall_mem_map.2 fun v _ => (vertexFormat fmt).separated_row v) ?_
    ((vertexFormat fmt).map_rows vertices)
  refine List.forall_mem_map.2 fun v _ => List.forall_mem_cons.2 ⟨?_, ?_⟩
  · exact List.forall_mem_singleton.2 wellQuoted_literalLexeme
  · exact List.forall_mem_map.2 fun prop _ => wellQuoted_valueLexemes fmt _

theorem readAlike_renderEdgeInsert (edges : List (CodeGraphEdge F)) :
    ReadAlike (renderEdgeInsert fmt edges) := by
  rw [renderEdgeInsert_eq]
  refine readAlike_statement InsertKind.inert_edgeInsert (by decide)
    (List.forall_mem_map.2 fun e _ => (edgeFormat fmt).separated_row e) ?_
    ((edgeFormat fmt).map_rows edges)
  refine List.forall_mem_map.2 fun e _ => List.forall_mem_cons.2 ⟨?_, ?_⟩
  · exact wellQuoted_edgeTarget _ _ _ _
  · exact List.forall_mem_map.2 fun prop _ => wellQuoted_valueLexemes fmt _

/-- What the backend renders is read alike by the scanners and by the database, whatever the
characters of its strings. -/
theorem readAlike_of_rendered {snapshot : CodeGraphSnapshot F} {batchSize : Int64}
    {statements : List String}
    (hrender : renderSnapshotStatementsWithBatchSize fmt snapshot batchSize = some statements) :
    ∀ stmt ∈ statements, stmt ∈ renderSchemaStatements ∨ ReadAlike stmt := by
  obtain ⟨vertexChunks, edgeChunks, rfl, -⟩ := renderSnapshotStatementsWithBatchSize_eq_some hrender
  intro stmt hstmt
  simp only [List.mem_append, List.mem_map] at hstmt
  rcases hstmt with (hschema | ⟨batch, -, rfl⟩) | ⟨batch, -, rfl⟩
  · exact .inl hschema
  · exact .inr (readAlike_renderVertexInsert batch)
  · exact .inr (readAlike_renderEdgeInsert batch)

end Rendered

/-! ## Accepted payloads -/

/-- The statements of an accepted payload are schema statements and INSERTs of the scope if the
scanners read them as nGQL does. -/
theorem onlyScopedInserts_of_accepted {d : Digests} {input : RenderedStatementWrite}
    {counts : ℕ × ℕ} (hok : validateRenderedStatementWrite d input = .ok counts)
    (hread : ∀ stmt ∈ input.statements, stmt ∈ renderSchemaStatements ∨ ReadAlike stmt) :
    OnlyScopedInserts d input := by
  obtain ⟨-, inserts, hstatements, hchecked⟩ := validateRenderedStatementWrite_eq_ok.1 hok
  intro stmt hstmt
  rcases hread stmt hstmt with hschema | halike
  · exact .inl hschema
  rw [hstatements] at hstmt
  rcases List.mem_append.1 hstmt with hschema | hinsert
  · exact .inl hschema
  · obtain ⟨i, here, hvalid⟩ := validateStatements_eq_ok hchecked stmt hinsert
    exact .inr (isScopedInsert_of_validateStatement halike hvalid)

/-- A label with quotes, a semicolon and a command in it stays a label. -/
theorem onlyScopedInserts_label :
    ∃ statements, renderSnapshotStatementsWithBatchSize noFloats
        (sampleSnapshot [("label", "'\"'); DROP SPACE codeintel;")]) 0 = some statements ∧
      validateRenderedStatementWrite zeroDigests (sampleWrite statements) = .ok (1, 1) ∧
      OnlyScopedInserts zeroDigests (sampleWrite statements) := by
  obtain ⟨statements, hrender⟩ := Option.isSome_iff_exists.1
    (isSome_render_sampleSnapshot [("label", "'\"'); DROP SPACE codeintel;")])
  have hkind : (sampleProps [("label", "'\"'); DROP SPACE codeintel;")]).get "kind" =
      some (.string "symbol") := by
    decide +kernel
  have hscope : ScopeProperties (sampleWrite [])
      (sampleProps [("label", "'\"'); DROP SPACE codeintel;")]) := by
    unfold ScopeProperties
    decide +kernel
  have haccepted := validate_sampleWrite hrender hkind hscope
  exact ⟨statements, hrender, haccepted,
    onlyScopedInserts_of_accepted haccepted (readAlike_of_rendered hrender)⟩

/-! ## A payload with other commands in it -/

section Smuggled

/-- A value that the scanners take for a literal between two single quotes, and nGQL for two
literals with the end of the statement and two commands between them. -/
def smuggled : String :=
  "'\"'); DROP SPACE codeintel; INSERT VERTEX t(a) VALUES 'v': ('\"'"

/-- The value as the scanners see it. -/
def smuggledLexemes : List Lexeme :=
  [plain '\'', quoted '"' "'); DROP SPACE codeintel; INSERT VERTEX t(a) VALUES 'v': ('".toList,
    plain '\'']

/-- The values of the sample symbol, and the smuggled one. -/
def smuggledValues : ValueFormat (Option (CodeGraphPrimitive Unit)) where
  separators := true
  text value := value.elim smuggled (ngqlValue noFloats)
  lexemes value := value.elim smuggledLexemes (valueLexemes noFloats)
  lexemeText_lexemes
    | none => by decide +kernel
    | some value => lexemeText_valueLexemes noFloats value
  isWord_lexemes
    | none => by
      unfold IsWord
      decide +kernel
    | some value => isWord_valueLexemes noFloats value
  isIdentifier_lexemes
    | none => by decide
    | some value => isIdentifier_valueLexemes noFloats value

/-- The columns of the sample symbol with the smuggled value as the last one. -/
def smuggledColumn (prop : String) : Option (CodeGraphPrimitive Unit) :=
  if prop = "provenance" then none else some (columnOf (sampleProps []) prop)

def smuggledFormat : RowFormat Unit where
  text _ := insertRow (jsonLiteral true sampleVid)
    (nodeProps.map fun prop => smuggledValues.text (smuggledColumn prop))
  row _ := smuggledValues.vertexLexemes smuggledColumn sampleVid
  lexemeText_row _ := smuggledValues.lexemeText_vertexLexemes smuggledColumn sampleVid
  separated_row _ := smuggledValues.separated_vertexLexemes smuggledColumn sampleVid

def smuggledInsert : String := smuggledFormat.statement vertexInsert [()]

def smuggledWrite : RenderedStatementWrite :=
  sampleWrite (renderSchemaStatements ++ [smuggledInsert])

theorem validate_smuggledWrite :
    validateRenderedStatementWrite zeroDigests smuggledWrite = .ok (1, 0) := by
  have hscope : validateRenderedScope smuggledWrite = .ok () := by
    decide +kernel
  have hcarries : smuggledValues.CarriesScope smuggledColumn smuggledWrite := by
    unfold ValueFormat.CarriesScope
    decide +kernel
  have hkind : smuggledValues.lexemes (smuggledColumn "kind") =
      [literal smuggledValues.separators "symbol"] := by
    have hget : (sampleProps []).get "kind" = some (.string "symbol") := by decide +kernel
    have hlexemes : (backendValues noFloats).lexemes (columnOf (sampleProps []) "kind") = _ :=
      lexemes_columnOf_string hget
    rw [smuggledColumn, if_neg (by decide)]
    exact hlexemes
  have hvid := scopedVid_sampleVid (renderSchemaStatements ++ [smuggledInsert])
  have hrow : vertexInsert.validateRow zeroDigests smuggledWrite
      (lexemeText (smuggledFormat.row ()).lexemes) = .ok () :=
    (ValueFormat.validateRow_vertexLexemes hkind).2 ⟨⟨_, hvid, fun _ => rfl⟩, hcarries⟩
  have hstatements : smuggledWrite.statements = renderSchemaStatements ++
      [[()]].map (smuggledFormat.statement vertexInsert) ++
        [].map ((edgeFormat noFloats).statement edgeInsert) :=
    (List.append_nil _).symm
  exact validateRenderedStatementWrite_batches hscope hstatements (by simp) (by simp)
    (fun _ _ => hrow) (by simp)

/-- The row up to its last column. -/
def smuggledStart : List Lexeme :=
  literal true sampleVid :: plain ':' :: plain ' ' :: plain '(' ::
    (joinLexemes ',' (smuggledValues.columnLexemes smuggledColumn nodeProps.dropLast) ++
      [plain ',', plain ' '])

/-- The first command as nGQL reads it. -/
def smuggledFront : List Lexeme :=
  vertexInsert.preLexemes ++ (smuggledStart ++ [quoted '\'' ['"'], plain ')', plain ';'])

/-- What nGQL still has to read after it. -/
def smuggledRest : List Char :=
  " DROP SPACE codeintel; INSERT VERTEX t(a) VALUES 'v': ('\"');".toList

theorem lexemes_smuggledRow : (smuggledFormat.row ()).lexemes =
    smuggledStart ++ smuggledLexemes ++ [plain ')'] := by
  have hjoin : ∀ {words : List (List Lexeme)} {last : List Lexeme}, words ≠ [] →
      joinLexemes ',' (words ++ [last]) =
        joinLexemes ',' words ++ [plain ',', plain ' '] ++ last := by
    intro words last hne
    obtain ⟨word, words, rfl⟩ := List.exists_cons_of_ne_nil hne
    rw [List.cons_append, joinLexemes_cons, joinLexemes_cons]
    simp
  have hvalues : (smuggledFormat.row ()).values =
      smuggledValues.columnLexemes smuggledColumn nodeProps.dropLast ++ [smuggledLexemes] := rfl
  rw [Row.lexemes, Row.tuple, hvalues, hjoin (by simp [ValueFormat.columnLexemes, nodeProps])]
  simp [smuggledStart, smuggledFormat, ValueFormat.vertexLexemes, smuggledValues]

theorem toList_smuggledInsert :
    smuggledInsert.toList = lexemeText smuggledFront ++ smuggledRest := by
  have hlast : lexemeText smuggledLexemes ++ [')', ';'] =
      lexemeText [quoted '\'' ['"'], plain ')', plain ';'] ++ smuggledRest := by
    decide +kernel
  have htext := toList_statement InsertKind.inert_vertexInsert (smuggledFormat.map_rows [()])
  calc smuggledInsert.toList
      = lexemeText (vertexInsert.preLexemes ++ (smuggledFormat.row ()).lexemes) ++ [';'] := by
        rw [smuggledInsert, RowFormat.statement, htext]
        simp [statementLexemes, joinLexemes]
    _ = lexemeText vertexInsert.preLexemes ++ (lexemeText smuggledStart ++
          (lexemeText smuggledLexemes ++ [')', ';'])) := by
        simp [lexemes_smuggledRow, text]
    _ = lexemeText smuggledFront ++ smuggledRest := by
        rw [hlast, smuggledFront, lexemeText_append, lexemeText_append, List.append_assoc,
          List.append_assoc]

/-- A semicolon stands before the last one in the reading of nGQL. -/
theorem exists_lex_smuggledInsert :
    ∃ ts, lex smuggledInsert.toList = some ts ∧ plain ';' ∈ ts.dropLast := by
  have hlex : (lex (lexemeText smuggledFront ++ smuggledRest)).any
      (fun ts => plain ';' ∈ ts.dropLast) = true := by
    decide +kernel
  rw [toList_smuggledInsert]
  simpa only [Option.any_eq_true, decide_eq_true_eq] using hlex

theorem not_isScopedInsert_smuggled {input : RenderedStatementWrite} {kind : InsertKind}
    {isTarget : List Lexeme → Prop} : ¬IsScopedInsert input kind isTarget smuggledInsert := by
  rintro ⟨values, rows, hvalues, hsemi, -⟩
  obtain ⟨ts, hlex, hmem⟩ := exists_lex_smuggledInsert
  rw [Option.some.inj (hlex.symm.trans hvalues), List.dropLast_concat] at hmem
  exact hsemi hmem

theorem smuggledInsert_notMem : smuggledInsert ∉ renderSchemaStatements := by
  decide +kernel

/-- A payload is accepted although nGQL reads three commands in its last statement, the second
of which drops the space. -/
theorem smuggledWrite_accepted :
    validateRenderedStatementWrite zeroDigests smuggledWrite = .ok (1, 0) ∧
      ¬OnlyScopedInserts zeroDigests smuggledWrite := by
  refine ⟨validate_smuggledWrite, fun h => ?_⟩
  rcases h smuggledInsert (by simp [smuggledWrite, sampleWrite]) with hschema | hvertex | hedge
  · exact smuggledInsert_notMem hschema
  · exact not_isScopedInsert_smuggled hvertex
  · exact not_isScopedInsert_smuggled hedge

end Smuggled

end CodeIntel.Graphstore
