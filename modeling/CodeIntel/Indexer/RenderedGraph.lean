import CodeIntel.Graphstore.SnapshotRows
import CodeIntel.Indexer.GraphAccumulator

/-!
# The indexer's statements and the backend's validator

The indexer renders the graph it has accumulated and posts the statements with its scope;
the backend accepts them only if every row repeats that scope. Calls that do not write
over the tags of the scope and that connect vertices of it always give accepted
statements, and the counts are those of the graph.
-/

namespace CodeIntel.Indexer.Nebula

open Text Lexeme Relational Graph Subjobs
open Graphstore (RenderedStatementWrite ValueFormat RowFormat ScopedVid vertexInsert
  edgeInsert validateRenderedStatementWrite validateRenderedScope)

variable {F : Type}

/-! ## Statements of the indexer -/

section Format

variable (fmt : FloatText F)

theorem quoteIdentifier_eq : quoteIdentifier = Graphschema.quoteIdentifier :=
  funext Graphstore.quoteIdentifierLocal_eq

theorem renderSchemaStatements_eq :
    renderSchemaStatements = Graphschema.renderSchemaStatements := by
  have hdefs : renderPropDefs = Graphschema.renderPropDefs := by
    funext props
    rw [renderPropDefs, quoteIdentifier_eq]
    rfl
  have hindex : tagIndexStatement = Graphschema.tagIndexStatement := by
    unfold tagIndexStatement indexColumn
    rw [quoteIdentifier_eq]
    rfl
  unfold renderSchemaStatements
  rw [hdefs, hindex, quoteIdentifier_eq]
  rfl

def valueLexemes : CodeGraphPrimitive F → List Lexeme
  | .string s => [Graphstore.literal false s]
  | value => (ngqlValue fmt value).toList.map plain

theorem lexemeText_valueLexemes (value : CodeGraphPrimitive F) :
    lexemeText (valueLexemes fmt value) = (ngqlValue fmt value).toList := by
  cases value with
  | string s =>
    rw [valueLexemes, lexemeText_cons, lexemeText_nil, List.append_nil, Graphstore.text_literal]
    rfl
  | _ => exact lexemeText_map_plain _

theorem isWord_valueLexemes (value : CodeGraphPrimitive F) :
    Graphstore.IsWord (valueLexemes fmt value) := by
  cases value with
  | null => exact Graphstore.isWord_keyword "NULL" (by simp)
  | string s => exact Graphstore.isWord_literal
  | bool b =>
    cases b with
    | true => exact Graphstore.isWord_keyword "true" (by simp)
    | false => exact Graphstore.isWord_keyword "false" (by simp)
  | int n => exact Graphstore.isWord_of_isNumberText (Graphstore.isNumberText_toString n)
  | double x =>
    simp only [valueLexemes, ngqlValue]
    split_ifs with hfinite
    · exact Graphstore.isWord_of_isNumberText (isNumberText_formatJsNumber fmt hfinite)
    · exact Graphstore.isWord_keyword "NULL" (by simp)

theorem isIdentifier_valueLexemes (value : CodeGraphPrimitive F) :
    ∀ t ∈ valueLexemes fmt value, Graphstore.isIdentifier t = false := by
  cases value with
  | string s => exact List.forall_mem_singleton.2 rfl
  | _ => exact Graphstore.isIdentifier_map_plain _

/-- The values as `ngql_value` writes them. -/
def indexerValues : ValueFormat (CodeGraphPrimitive F) where
  separators := false
  text := ngqlValue fmt
  lexemes := valueLexemes fmt
  lexemeText_lexemes := lexemeText_valueLexemes fmt
  isWord_lexemes := isWord_valueLexemes fmt
  isIdentifier_lexemes := isIdentifier_valueLexemes fmt

def columnOf (properties : SortedMap String (CodeGraphPrimitive F)) (prop : String) :
    CodeGraphPrimitive F :=
  (properties.get prop).getD .null

def vertexFormat : RowFormat (CodeGraphVertex F) where
  text := vertexRow fmt
  row v := (indexerValues fmt).vertexLexemes (columnOf v.properties) v.vid
  lexemeText_row v := (indexerValues fmt).lexemeText_vertexLexemes (columnOf v.properties) v.vid
  separated_row v := (indexerValues fmt).separated_vertexLexemes (columnOf v.properties) v.vid

def edgeFormat : RowFormat (CodeGraphEdge F) where
  text := edgeRow fmt
  row e := (indexerValues fmt).edgeLexemes (columnOf e.properties) e.fromVid e.toVid e.rank
  lexemeText_row e :=
    (indexerValues fmt).lexemeText_edgeLexemes (columnOf e.properties) e.fromVid e.toVid e.rank
  separated_row e :=
    (indexerValues fmt).separated_edgeLexemes (columnOf e.properties) e.fromVid e.toVid e.rank

theorem renderVertexInsert_eq (vertices : List (CodeGraphVertex F)) :
    renderVertexInsert fmt vertices = (vertexFormat fmt).statement vertexInsert vertices := by
  unfold renderVertexInsert RowFormat.statement
  rfl

theorem renderEdgeInsert_eq (edges : List (CodeGraphEdge F)) :
    renderEdgeInsert fmt edges = (edgeFormat fmt).statement edgeInsert edges := by
  unfold renderEdgeInsert RowFormat.statement
  rfl

theorem renderSnapshotStatements_eq (snapshot : CodeGraphSnapshot F) :
    renderSnapshotStatements fmt snapshot = Graphschema.renderSchemaStatements ++
      (Graphschema.chunks 250 snapshot.vertices).map
        ((vertexFormat fmt).statement vertexInsert) ++
      (Graphschema.chunks 250 snapshot.edges).map ((edgeFormat fmt).statement edgeInsert) := by
  rw [renderSnapshotStatements, renderSchemaStatements_eq, funext (renderVertexInsert_eq fmt),
    funext (renderEdgeInsert_eq fmt)]

end Format

/-! ## Payloads -/

def writeOf (scope : CodeGraphScope) (source : String) (statements : List String) :
    RenderedStatementWrite where
  orgId := scope.orgId
  workspaceId := scope.workspaceId
  repoId := scope.repoId
  revision := scope.revision
  commitHash := scope.commitHash
  schemaVersion := getSchemaVersion scope
  builderVersion := getBuilderVersion scope
  source := source
  statements := statements

/-- The texts of the scope have no line separator, which only one of the encoders escapes. -/
def PlainScope (scope : CodeGraphScope) : Prop :=
  ∀ text ∈ [scope.workspaceId, scope.revision, getBuilderVersion scope],
    ∀ c ∈ text.toList, isSeparator c = false

section Payload

variable {scope : CodeGraphScope} {source : String} {statements : List String}

theorem validateRenderedScope_writeOf (hvalid : ValidScope scope) (hsource : isBlank source = false) :
    validateRenderedScope (writeOf scope source statements) = .ok () := by
  have hschema : ¬getSchemaVersion scope ≤ 0 := by
    unfold getSchemaVersion
    cases hversion : scope.schemaVersion with
    | none => decide
    | some version => exact not_le.2 (hvalid.schemaVersion version hversion)
  have hbuilder : isBlank (getBuilderVersion scope) = false := by
    unfold getBuilderVersion
    cases hversion : scope.builderVersion with
    | none => decide
    | some builder => exact hvalid.builderVersion builder hversion
  unfold validateRenderedScope writeOf
  rw [if_neg (not_le.2 hvalid.orgId), if_neg (not_le.2 hvalid.repoId), hvalid.workspaceId,
    if_neg Bool.false_ne_true, hvalid.revision, if_neg Bool.false_ne_true, hvalid.commitHash,
    Bool.not_true, if_neg Bool.false_ne_true, if_neg hschema, hbuilder, if_neg Bool.false_ne_true,
    hsource, if_neg Bool.false_ne_true]

theorem isSeparator_of_isCommitHash {commit : String} (h : isCommitHash commit = true) :
    ∀ c ∈ commit.toList, isSeparator c = false := by
  intro c hc
  rw [isCommitHash, Bool.and_eq_true, List.all_eq_true] at h
  have hdigit := h.2 c hc
  simp only [isHexDigit, Bool.or_eq_true, Bool.and_eq_true, decide_eq_true_eq,
    Char.le_def, UInt32.le_iff_toNat_le] at hdigit
  have htop : c.toNat ≤ 102 := by
    rcases hdigit with (hdigit | hdigit) | hdigit
    · exact hdigit.2.trans (by decide)
    · exact hdigit.2.trans (by decide)
    · exact hdigit.2.trans (by decide)
  simp only [isSeparator, Bool.or_eq_false_iff, decide_eq_false_iff_not]
  omega

theorem carriesScope_of_tags {fmt : FloatText F} {kind : String}
    {properties : SortedMap String (CodeGraphPrimitive F)}
    (hcommit : isCommitHash scope.commitHash = true) (hplain : PlainScope scope)
    (htags : ∀ tag ∈ scopeTags scope kind, properties.get tag.1 = some tag.2) :
    (indexerValues fmt).CarriesScope (columnOf properties) (writeOf scope source statements) := by
  have hliteral : ∀ text ∈ [scope.workspaceId, scope.revision, getBuilderVersion scope],
      jsonLiteral false text = jsonLiteral true text := fun text htext =>
    jsonLiteral_false_eq (hplain text htext)
  have hhash := jsonLiteral_false_eq (isSeparator_of_isCommitHash hcommit)
  have htexts : Graphstore.wantedValues (writeOf scope source statements) =
      (scopeTags scope kind).tail.map fun tag => (tag.1, ngqlValue fmt tag.2) := by
    simp only [Graphstore.wantedValues, writeOf, scopeTags, List.tail_cons, List.map_cons,
      List.map_nil, ngqlValue, Graphstore.renderStringLiteral,
      hliteral scope.workspaceId (by simp), hliteral scope.revision (by simp),
      hliteral (getBuilderVersion scope) (by simp), hhash]
  unfold ValueFormat.CarriesScope
  rw [htexts, List.forall_mem_map]
  intro tag htag
  rw [columnOf, htags tag (List.mem_of_mem_tail htag)]
  rfl

end Payload

/-! ## Calls that keep the scope -/

/-- An identifier the scope gives to a kind that its format can hold. -/
def VidOf (d : Digests) (scope : CodeGraphScope) (vid : String) : Prop :=
  ∃ kind key, kind ≠ "" ∧ ':' ∉ kind.toList ∧ buildCodeGraphVertexId d scope kind key = .ok vid

/-- A call that keeps the scope: a vertex of a non-empty kind without colons whose
properties do not change the tags, or an edge between identifiers of the scope. -/
def GraphCall.Scoped (d : Digests) (scope : CodeGraphScope) : GraphCall F → Prop
  | addVertex kind _ properties =>
    kind ≠ "" ∧ ':' ∉ kind.toList ∧
      ∀ tag ∈ scopeTags scope kind, ∀ value, properties.get tag.1 = some value → value = tag.2
  | addEdge fromVid toVid _ _ _ => VidOf d scope fromVid ∧ VidOf d scope toVid

section Calls

variable {d : HexDigests} {fmt : FloatText F} {scope : CodeGraphScope} {source : String}
  {statements : List String}

theorem uniqueKey_vertexTags (kind : String) :
    UniqueKey Prod.fst (scopeTags scope kind ++ [("provenance", .string "heuristic")] :
      List (String × CodeGraphPrimitive F)) :=
  (by decide : List.Nodup ["kind", "orgId", "workspaceId", "repoId", "revision", "commitHash",
    "schemaVersion", "builderVersion", "provenance"])

variable {kind : String} {properties : SortedMap String (CodeGraphPrimitive F)}

theorem get_vertexBag
    (hkeep : ∀ tag ∈ scopeTags scope kind, ∀ value, properties.get tag.1 = some value →
      value = tag.2) :
    ∀ tag ∈ scopeTags scope kind, (vertexBag scope kind properties).get tag.1 = some tag.2 := by
  intro tag htag
  have hstamped : (SortedMap.ofRows Prod.fst Prod.snd
      (scopeTags scope kind ++ [("provenance", .string "heuristic")])).get tag.1 = some tag.2 :=
    SortedMap.get_ofRows_of_mem (uniqueKey_vertexTags kind) (List.mem_append_left _ htag)
  rw [vertexBag, SortedMap.get_overlay, hstamped]
  cases hvalue : properties.get tag.1 with
  | none => rfl
  | some value =>
    rw [hkeep tag htag value hvalue]
    rfl

theorem get_edgeBag (kind edgeSource : String) (options : AddEdgeOptions F) :
    ∀ tag ∈ scopeTags scope kind ++ [("source", .string edgeSource)],
      (edgeBag fmt scope kind edgeSource options).get tag.1 = some tag.2 := by
  intro tag htag
  apply SortedMap.get_ofRows_of_mem
  · cases options.normalizedKey with
    | none =>
      exact (by decide : List.Nodup ["kind", "orgId", "workspaceId", "repoId", "revision",
        "commitHash", "schemaVersion", "builderVersion", "confidence", "confidenceTier",
        "evidenceFilePath", "startLine", "endLine", "source", "provenance", "context"])
    | some key =>
      exact (by decide : List.Nodup ["kind", "orgId", "workspaceId", "repoId", "revision",
        "commitHash", "schemaVersion", "builderVersion", "confidence", "confidenceTier",
        "evidenceFilePath", "startLine", "endLine", "source", "normalizedKey", "provenance",
        "context"])
  · rcases List.mem_append.1 htag with htag | htag
    · simp only [List.mem_append, htag, true_or]
    · obtain rfl := List.mem_singleton.1 htag
      simp

theorem scopedVid_of_vidOf {vid : String} (h : VidOf d.toDigests scope vid) :
    ∃ kind, ScopedVid d.toDigests (writeOf scope source statements) vid kind := by
  obtain ⟨kind, key, hne, hcolon, hvid⟩ := h
  obtain ⟨-, rfl⟩ := buildCodeGraphVertexId_eq_ok.1 hvid
  exact ⟨kind, Graphstore.scopedVid_vid (v := scopeIdentity scope kind key)
    ⟨rfl, rfl, rfl, rfl, rfl, rfl⟩ hne hcolon⟩

theorem lexemes_columnOf_string {prop s : String} (h : properties.get prop = some (.string s)) :
    (indexerValues fmt).lexemes (columnOf properties prop) =
      [Graphstore.literal (indexerValues fmt).separators s] := by
  rw [columnOf, h]
  rfl

def VertexPasses (d : Digests) (fmt : FloatText F) (write : RenderedStatementWrite)
    (v : CodeGraphVertex F) : Prop :=
  vertexInsert.validateRow d write (lexemeText ((vertexFormat fmt).row v).lexemes) = .ok ()

def EdgePasses (d : Digests) (fmt : FloatText F) (write : RenderedStatementWrite)
    (e : CodeGraphEdge F) : Prop :=
  edgeInsert.validateRow d write (lexemeText ((edgeFormat fmt).row e).lexemes) = .ok ()

theorem vertexPasses_of_tags {key : String} (hcommit : isCommitHash scope.commitHash = true)
    (hplain : PlainScope scope) (hne : kind ≠ "") (hcolon : ':' ∉ kind.toList)
    (htags : ∀ tag ∈ scopeTags scope kind, properties.get tag.1 = some tag.2) :
    VertexPasses d.toDigests fmt (writeOf scope source statements)
      ⟨(scopeIdentity scope kind key).vid d.toDigests, kind, properties⟩ := by
  have hkind := htags ("kind", .string kind) (by simp [scopeTags])
  have hvid : ScopedVid d.toDigests (writeOf scope source statements)
      ((scopeIdentity scope kind key).vid d.toDigests) kind :=
    Graphstore.scopedVid_vid (v := scopeIdentity scope kind key) ⟨rfl, rfl, rfl, rfl, rfl, rfl⟩ hne
      hcolon
  exact (ValueFormat.validateRow_vertexLexemes (lexemes_columnOf_string hkind)).2
    ⟨⟨kind, hvid, fun _ => rfl⟩, carriesScope_of_tags hcommit hplain htags⟩

theorem edgePasses_of_tags {fromVid toVid edgeSource : String}
    (hcommit : isCommitHash scope.commitHash = true) (hplain : PlainScope scope)
    (hfrom : VidOf d.toDigests scope fromVid) (hto : VidOf d.toDigests scope toVid)
    (htags : ∀ tag ∈ scopeTags scope kind ++ [("source", .string edgeSource)],
      properties.get tag.1 = some tag.2) :
    EdgePasses d.toDigests fmt (writeOf scope source statements)
      ⟨fromVid, toVid, kind,
        d.edgeRank (fromVid ++ "->" ++ toVid ++ ":" ++ kind ++ ":" ++ edgeSource), properties⟩ := by
  have hscope : ∀ tag ∈ scopeTags scope kind, properties.get tag.1 = some tag.2 :=
    fun tag htag => htags tag (List.mem_append_left _ htag)
  have hkind := hscope ("kind", .string kind) (by simp [scopeTags])
  have hsource := htags ("source", .string edgeSource) (by simp)
  exact (ValueFormat.validateRow_edgeLexemes (lexemes_columnOf_string hkind)
    (lexemes_columnOf_string hsource) (d.edgeRank_nonneg _) (d.edgeRank_le _)).2
    ⟨⟨rfl, scopedVid_of_vidOf hfrom, scopedVid_of_vidOf hto⟩,
      carriesScope_of_tags hcommit hplain hscope⟩

variable (d fmt scope source statements) in
/-- Every row of the accumulator passes the validator under the payload of the scope. -/
def Passes : GraphAccumulator F → Prop :=
  Filled (VertexPasses d.toDigests fmt (writeOf scope source statements))
    (EdgePasses d.toDigests fmt (writeOf scope source statements))

/-- One call of the scope keeps every row acceptable. -/
theorem Passes.apply {call : GraphCall F} (hcall : call.Scoped d.toDigests scope)
    (hcommit : isCommitHash scope.commitHash = true) (hplain : PlainScope scope)
    {graph graph' : GraphAccumulator F} (h : Passes d fmt scope source statements graph)
    (happly : call.apply d.toDigests fmt scope graph = .ok graph') :
    Passes d fmt scope source statements graph' := by
  refine Filled.apply h happly ?_ ?_
  · rintro kind key properties vid rfl hvid
    obtain ⟨hne, hcolon, hkeep⟩ := hcall
    obtain ⟨-, rfl⟩ := buildCodeGraphVertexId_eq_ok.1 hvid
    exact vertexPasses_of_tags hcommit hplain hne hcolon (get_vertexBag hkeep)
  · rintro fromVid toVid kind edgeSource options rfl
    obtain ⟨hfrom, hto⟩ := hcall
    exact edgePasses_of_tags hcommit hplain hfrom hto (get_edgeBag kind edgeSource options)

/-- Whatever calls of a valid scope fill an accumulator, its rendered snapshot is accepted
under the payload of the scope, with the numbers of its vertices and edges. -/
theorem renderSnapshotStatements_accepted {calls : List (GraphCall F)}
    (hvalid : assertValidScope scope = .ok ()) (hplain : PlainScope scope)
    (hsource : isBlank source = false)
    (hcalls : ∀ call ∈ calls, call.Scoped d.toDigests scope) :
    ∃ graph, fill d.toDigests fmt scope calls = .ok graph ∧
      validateRenderedStatementWrite d.toDigests (writeOf scope source
        (renderSnapshotStatements fmt (accumulatorToSnapshot graph))) =
        .ok ((accumulatorToSnapshot graph).vertices.length,
          (accumulatorToSnapshot graph).edges.length) := by
  have hscope := assertValidScope_eq_ok.1 hvalid
  -- The payload holds the statements of the final graph; what a row must look like does not
  -- depend on them.
  have hrows : ∀ statements, ∃ graph, fill d.toDigests fmt scope calls = .ok graph ∧
      Passes d fmt scope source statements graph := by
    intro statements
    refine exists_fill hvalid fun call hcall graph graph' hbefore happly => ?_
    exact Passes.apply (hcalls call hcall) hscope.commitHash hplain hbefore happly
  obtain ⟨graph, hfill, -⟩ := hrows []
  generalize hstatements : renderSnapshotStatements fmt (accumulatorToSnapshot graph) = statements
  obtain ⟨graph', hfill', hpasses⟩ := hrows statements
  obtain rfl := Except.ok.inj (hfill.symm.trans hfill')
  have haccepted := Graphstore.validateRenderedStatementWrite_batches
    (validateRenderedScope_writeOf hscope hsource)
    (hstatements.symm.trans (renderSnapshotStatements_eq fmt (accumulatorToSnapshot graph)))
    (fun batch => Graphschema.ne_nil_of_mem_chunks (by decide))
    (fun batch => Graphschema.ne_nil_of_mem_chunks (by decide))
    (by rw [Graphschema.flatten_chunks (by decide)]; exact hpasses.vertices)
    (by rw [Graphschema.flatten_chunks (by decide)]; exact hpasses.edges)
  rw [Graphschema.flatten_chunks (by decide), Graphschema.flatten_chunks (by decide)] at haccepted
  exact ⟨graph, hfill, hstatements ▸ haccepted⟩

theorem passes_of_accepted {d : Digests} {snapshot : CodeGraphSnapshot F} {counts : ℕ × ℕ}
    {write : RenderedStatementWrite} (hstatements : write.statements = renderSnapshotStatements fmt snapshot)
    (haccepted : validateRenderedStatementWrite d write = .ok counts) :
    (∀ v ∈ snapshot.vertices, VertexPasses d fmt write v) ∧
      ∀ e ∈ snapshot.edges, EdgePasses d fmt write e := by
  have hpass := Graphstore.validateRow_of_accepted haccepted
    (hstatements.trans (renderSnapshotStatements_eq fmt snapshot))
    (fun batch => Graphschema.ne_nil_of_mem_chunks (by decide))
    (fun batch => Graphschema.ne_nil_of_mem_chunks (by decide))
  rwa [Graphschema.flatten_chunks (by decide), Graphschema.flatten_chunks (by decide)] at hpass

end Calls

/-! ## Calls outside the scope -/

section Rejected

theorem isNumberText_of_not_finite : ∀ _ : Unit, false = true → Graphschema.IsNumberText "0" :=
  fun _ h => absurd h Bool.false_ne_true

/-- No float is finite. -/
def noFloatText : FloatText Unit where
  one := ()
  isFinite _ := false
  isZero _ := false
  isExtreme _ := false
  display _ := "0"
  lowerExp _ := "0"
  isNumberText_display := isNumberText_of_not_finite
  isNumberText_lowerExp := isNumberText_of_not_finite

def fileCalls (d : Digests) (scope : CodeGraphScope) : List (GraphCall Unit) :=
  [.addVertex "file" "file:a.go" .empty, .addVertex "symbol" "ast:a.go:f" .empty,
    .addEdge ((scopeIdentity scope "file" "file:a.go").vid d)
      ((scopeIdentity scope "symbol" "ast:a.go:f").vid d) "CONTAINS" "syntactic-ast" {}]

theorem renderSnapshotStatements_accepted_file :
    ∃ graph, fill firstCharDigests.toDigests noFloatText (tenantScope 1)
        (fileCalls firstCharDigests.toDigests (tenantScope 1)) = .ok graph ∧
      validateRenderedStatementWrite firstCharDigests.toDigests (writeOf (tenantScope 1)
        "syntactic-ast" (renderSnapshotStatements noFloatText (accumulatorToSnapshot graph))) =
        .ok ((accumulatorToSnapshot graph).vertices.length,
          (accumulatorToSnapshot graph).edges.length) := by
  have hvalid : assertValidScope (tenantScope 1) = .ok () := by decide +kernel
  have hvid : ∀ kind key : String, kind ≠ "" → ':' ∉ kind.toList → VidOf firstCharDigests.toDigests
      (tenantScope 1) ((scopeIdentity (tenantScope 1) kind key).vid firstCharDigests.toDigests) :=
    fun kind key hne hcolon =>
      ⟨kind, key, hne, hcolon, buildCodeGraphVertexId_eq_ok.2 ⟨hvalid, rfl⟩⟩
  apply renderSnapshotStatements_accepted hvalid (by unfold PlainScope; decide +kernel)
    (by decide +kernel)
  have hkeep : ∀ kind : String, ∀ tag ∈ scopeTags (F := Unit) (tenantScope 1) kind, ∀ value,
      (SortedMap.empty : SortedMap String (CodeGraphPrimitive Unit)).get tag.1 = some value →
        value = tag.2 := 
    fun kind tag _ value hvalue => absurd hvalue (by simp)
  simp only [fileCalls, List.forall_mem_cons]
  refine ⟨⟨by decide, by decide, hkeep _⟩, ⟨by decide, by decide, hkeep _⟩, ?_, by simp⟩
  exact ⟨hvid _ _ (by decide) (by decide), hvid _ _ (by decide) (by decide)⟩

/-- The calls succeed and the statements of the graph are refused. -/
def Refused (d : Digests) (fmt : FloatText F) (scope : CodeGraphScope) (calls : List (GraphCall F)) :
    Prop :=
  ∃ graph, fill d fmt scope calls = .ok graph ∧ ∀ counts,
    validateRenderedStatementWrite d (writeOf scope "syntactic-ast"
      (renderSnapshotStatements fmt (accumulatorToSnapshot graph))) ≠ .ok counts

variable {d : Digests} {fmt : FloatText F} {scope : CodeGraphScope}

variable {kind key source : String} {properties : SortedMap String (CodeGraphPrimitive F)}
  {options : AddEdgeOptions F}

theorem refused_vertex (hvalid : assertValidScope scope = .ok ())
    (hrow : ∀ statements, ¬VertexPasses d fmt (writeOf scope "syntactic-ast" statements)
      ⟨(scopeIdentity scope kind key).vid d, kind, vertexBag scope kind properties⟩) :
    Refused d fmt scope [.addVertex kind key properties] := by
  have hvid : buildCodeGraphVertexId d scope kind key = .ok _ :=
    buildCodeGraphVertexId_eq_ok.2 ⟨hvalid, rfl⟩
  have hfill : fill d fmt scope [.addVertex kind key properties] =
      .ok ⟨SortedMap.empty.insert ((scopeIdentity scope kind key).vid d)
        ⟨(scopeIdentity scope kind key).vid d, kind, vertexBag scope kind properties⟩, .empty⟩ := by
    unfold fill
    rw [List.foldlM_cons, GraphCall.apply, addVertex, hvid]
    rfl
  refine ⟨_, hfill, ?_⟩
  intro counts haccepted
  have hpass := (passes_of_accepted rfl haccepted).1
  exact hrow _ (hpass _ List.mem_cons_self)

theorem refused_edge {fromVid toVid : String}
    (hrow : ∀ statements, ¬EdgePasses d fmt (writeOf scope "syntactic-ast" statements)
      ⟨fromVid, toVid, kind,
        d.edgeRank (fromVid ++ "->" ++ toVid ++ ":" ++ kind ++ ":" ++ source),
        edgeBag fmt scope kind source options⟩) :
    Refused d fmt scope [.addEdge fromVid toVid kind source options] := by
  refine ⟨_, rfl, ?_⟩
  intro counts haccepted
  have hpass := (passes_of_accepted rfl haccepted).2
  exact hrow _ (hpass _ List.mem_cons_self)

theorem validateScopedVID_writeOf (vid kind source : String) (statements : List String) :
    Graphstore.validateScopedVID d vid kind (writeOf scope source statements) =
      Graphstore.validateScopedVID d vid kind (writeOf scope source []) := by
  have hstart : Graphstore.scopedVidPrefix d (writeOf scope source statements) =
      Graphstore.scopedVidPrefix d (writeOf scope source []) := rfl
  unfold Graphstore.validateScopedVID
  rw [hstart]

theorem get_vertexBag_kind (scope : CodeGraphScope) (kind : String) :
    (vertexBag (F := F) scope kind .empty).get "kind" = some (.string kind) := by
  apply get_vertexBag (fun _ _ _ hvalue => absurd hvalue (by simp)) ("kind", .string kind)
  simp [scopeTags]

theorem refused_of_vid (hvalid : assertValidScope scope = .ok ())
    (hvid : Graphstore.validateScopedVID d ((scopeIdentity scope kind key).vid d) kind
      (writeOf scope "syntactic-ast" []) ≠ .ok ()) :
    Refused d fmt scope [.addVertex kind key .empty] := by
  refine refused_vertex hvalid fun statements hpass => ?_
  have hrow := (ValueFormat.validateRow_vertexLexemes
    (lexemes_columnOf_string (get_vertexBag_kind scope kind))).1 hpass
  apply hvid
  rw [← validateScopedVID_writeOf _ _ _ statements]
  exact Graphstore.validateScopedVID_eq_ok.2 hrow.1

theorem refused_of_column {prop expected : String} (hvalid : assertValidScope scope = .ok ())
    (hkind : (vertexBag scope kind properties).get "kind" = some (.string kind))
    (hwanted : (prop, expected) ∈ Graphstore.wantedValues (writeOf scope "syntactic-ast" []))
    (hne : ngqlValue fmt (columnOf (vertexBag scope kind properties) prop) ≠ expected) :
    Refused d fmt scope [.addVertex kind key properties] := by
  refine refused_vertex hvalid fun statements hpass => ?_
  have hrow := (ValueFormat.validateRow_vertexLexemes (lexemes_columnOf_string hkind)).1 hpass
  exact hne (hrow.2 (prop, expected) hwanted)

theorem not_edgePasses {write : RenderedStatementWrite} {e : CodeGraphEdge F}
    (hkind : e.properties.get "kind" = some (.string kind))
    (hsource : e.properties.get "source" = some (.string source)) (hlo : 0 ≤ e.rank)
    (hhi : e.rank ≤ 0xFFFFFFFF)
    (hfrom : Graphstore.validateScopedVID d e.fromVid "" write ≠ .ok ()) :
    ¬EdgePasses d fmt write e := by
  intro hpass
  have hrow := (ValueFormat.validateRow_edgeLexemes (lexemes_columnOf_string hkind)
    (lexemes_columnOf_string hsource) hlo hhi).1 hpass
  obtain ⟨named, hvid⟩ := hrow.1.2.1
  exact hfrom (Graphstore.validateScopedVID_eq_ok.2 ⟨named, hvid, fun hne => absurd rfl hne⟩)

theorem refused_of_end {d : HexDigests} {fromVid toVid : String}
    (hfrom : Graphstore.validateScopedVID d.toDigests fromVid ""
      (writeOf scope "syntactic-ast" []) ≠ .ok ()) :
    Refused d.toDigests fmt scope [.addEdge fromVid toVid kind source options] := by
  have htags : ∀ tag ∈ scopeTags scope kind ++ [("source", .string source)],
      (edgeBag fmt scope kind source options).get tag.1 = some tag.2 :=
    get_edgeBag kind source options
  refine refused_edge fun statements => ?_
  generalize edgeBag fmt scope kind source options = properties at htags ⊢
  apply not_edgePasses (htags ("kind", .string kind) (by simp [scopeTags]))
    (htags ("source", .string source) (by simp)) (d.edgeRank_nonneg _) (d.edgeRank_le _)
  rwa [validateScopedVID_writeOf]

def separatorScope : CodeGraphScope := { tenantScope 1 with revision := "a\u2028" }

/-- Under valid scopes the validator refuses a kind with a colon, an empty kind, a caller's
property in place of a tag, an edge whose end is no identifier of the scope, and a scope
with a line separator. -/
theorem renderSnapshotStatements_refused :
    assertValidScope (tenantScope 1) = .ok () ∧ assertValidScope separatorScope = .ok () ∧
    Refused firstCharDigests.toDigests noFloatText (tenantScope 1) [.addVertex "a:b" "k" .empty] ∧
    Refused firstCharDigests.toDigests noFloatText (tenantScope 1) [.addVertex "" "k" .empty] ∧
    Refused firstCharDigests.toDigests noFloatText (tenantScope 1)
      [.addVertex "file" "k" (SortedMap.empty.insert "orgId" (.int 9))] ∧
    Refused firstCharDigests.toDigests noFloatText (tenantScope 1)
      [.addEdge "x" "y" "CALLS" "syntactic-ast" {}] ∧
    Refused firstCharDigests.toDigests noFloatText separatorScope [.addVertex "file" "k" .empty] := by
  have hvalid : assertValidScope (tenantScope 1) = .ok () := by decide +kernel
  have hseparator : assertValidScope separatorScope = .ok () := by decide +kernel
  have horg : ("orgId", "1") ∈
      Graphstore.wantedValues (writeOf (tenantScope 1) "syntactic-ast" []) := by decide +kernel
  have hrevision : ("revision", jsonLiteral true "a\u2028") ∈
      Graphstore.wantedValues (writeOf separatorScope "syntactic-ast" []) := by decide +kernel
  refine ⟨hvalid, hseparator, refused_of_vid hvalid ?_, refused_of_vid hvalid ?_,
    refused_of_column hvalid ?_ horg ?_, refused_of_end ?_,
    refused_of_column hseparator (get_vertexBag_kind separatorScope "file") hrevision ?_⟩
  all_goals decide +kernel

end Rejected

end CodeIntel.Indexer.Nebula
