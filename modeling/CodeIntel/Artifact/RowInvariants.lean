import CodeIntel.Artifact.Agreement

/-!
# What holds of the rows of an index

Scopes are ordered by a span that does not refine containment, so the definition found
around an occurrence need not be the innermost one. Relationships are rows of defined
symbols, each once, but a symbol may be related to itself.
-/

namespace CodeIntel.Artifact

open Text Relational
open Indexer (sortBySpan)

/-! ## The definition around an occurrence -/

section Enclosing

variable {scopes : List DefinitionScope} {range : NormalizedRange} {symbol : String}

/-- A scope around the occurrence that strictly contains no other one around it. -/
def IsTightest (scopes : List DefinitionScope) (range : NormalizedRange) (symbol : String)
    (d : DefinitionScope) : Prop :=
  d ∈ scopes ∧ encloses range symbol d = true ∧
    ∀ other ∈ scopes, encloses range symbol other = true →
      containsRange d.range other.range = true → other.range = d.range

/-- The symbol of such a scope, or nothing if no scope is around the occurrence. -/
def AnswersTightest (scopes : List DefinitionScope) (range : NormalizedRange) (symbol : String)
    (answer : Option String) : Prop :=
  (∃ d, IsTightest scopes range symbol d ∧ answer = some d.symbol) ∨
    answer = none ∧ ∀ d ∈ scopes, encloses range symbol d = false

theorem findEnclosingDefinitionSymbol_eq_getD (scopes : List DefinitionScope) :
    findEnclosingDefinitionSymbol scopes range symbol =
      ((scopes.find? (encloses range symbol)).map DefinitionScope.symbol).getD "" := by
  unfold findEnclosingDefinitionSymbol encloses
  cases scopes.find? fun d => d.symbol ≠ symbol && containsRange d.range range <;> rfl

theorem answersTightest_find
    (h : ∀ d, IsInnermost scopes range symbol d →
      ∃ t, IsTightest scopes range symbol t ∧ t.symbol = d.symbol) (sorting : SliceSort) :
    AnswersTightest scopes range symbol
      (((sorting.sort scopes).find? (encloses range symbol)).map DefinitionScope.symbol) := by
  cases hfind : (sorting.sort scopes).find? (encloses range symbol) with
  | none =>
    refine .inr ⟨rfl, fun d hd => Bool.eq_false_iff.2 ?_⟩
    exact List.find?_eq_none.1 hfind d ((sorting.perm scopes).mem_iff.2 hd)
  | some d =>
    obtain ⟨t, ht, hsymbol⟩ := h d (isInnermost_of_find sorting hfind)
    exact .inl ⟨t, ht, congrArg some hsymbol.symm⟩

def nestedScopes : List DefinitionScope := [⟨"outer", ⟨0, 5, 1, 3⟩⟩, ⟨"inner", ⟨0, 6, 1, 2⟩⟩]

end Enclosing

/-! ## The relationship rows -/

section Relationships

/-- Every relationship once, between two different semantic symbols that have rows. -/
structure RelationshipsClean (rows : Rows) : Prop where
  nodup : rows.relationships.Nodup
  distinct : ∀ row ∈ rows.relationships, row.sourceSymbol ≠ row.targetSymbol
  ends : ∀ row ∈ rows.relationships, ∀ symbol ∈ [row.sourceSymbol, row.targetSymbol],
    isSemanticProjectSymbol symbol = true ∧ symbol ∈ rows.symbols.map SymbolRow.symbol

variable {index : Index} {projectLanguage projectRoot : String} {sorting : SliceSort}
  {lineContent : String → Int32 → Option String}

theorem mem_symbols_of_isDefinedSymbol {R : Reading} {symbol : String}
    (h : isDefinedSymbol (index.listed projectRoot) symbol = true) :
    symbol ∈ (R.rows lineContent index projectLanguage projectRoot).symbols.map
      SymbolRow.symbol := by
  obtain ⟨⟨path, document⟩, hdocument, hsymbols⟩ :=
    List.any_eq_true.1 (Bool.and_eq_true_iff.1 h).1
  obtain ⟨s, hs, hsymbol⟩ := List.any_eq_true.1 hsymbols
  obtain rfl := of_decide_eq_true hsymbol
  simp only [Reading.rows, Index.symbolItems, List.mem_map, List.mem_append, List.mem_flatMap]
  exact ⟨_, ⟨_, .inl ⟨(path, document), hdocument, s, hs, rfl⟩, rfl⟩, rfl⟩

/-- A row of a relationship that is kept and is not one of a symbol with itself. -/
def proper (index : Index) (projectRoot : String) (row : RelationshipRow) : Bool :=
  persists index projectRoot isSemanticProjectSymbol row &&
    decide (row.sourceSymbol ≠ row.targetSymbol)

/-- The relationship rows are clean exactly if every offered relationship of a defined
semantic symbol with itself comes after a proper one of the same key. -/
theorem relationships_clean_iff (sorting : SliceSort)
    (lineContent : String → Int32 → Option String) (index : Index)
    (projectLanguage projectRoot : String) :
    RelationshipsClean (rowsFromIndex sorting lineContent index projectLanguage projectRoot) ↔
      ∀ before row after, relationshipCandidates index projectRoot
          ((backendReading sorting).enclosing index projectRoot) = before ++ row :: after →
        persists index projectRoot isSemanticProjectSymbol row = true →
        proper index projectRoot row = false →
        ∃ row' ∈ before, relationshipKey row' = relationshipKey row ∧
          proper index projectRoot row' = true := by
  have hconflict : ∀ new r : RelationshipRow,
      decide (relationshipKey r = relationshipKey new) = true ↔
        relationshipKey r = relationshipKey new := fun _ _ => decide_eq_true_iff
  have hkept : ∀ row, proper index projectRoot row = true →
      persists index projectRoot isSemanticProjectSymbol row = true :=
    fun row h => (Bool.and_eq_true_iff.1 h).1
  rw [rowsFromIndex_eq, ← forall_mem_foldl_insertMissing_filter_iff hconflict hkept]
  constructor
  · intro hclean row hrow
    have hdistinct := hclean.distinct row hrow
    exact Bool.and_eq_true_iff.2
      ⟨(of_mem_foldl_insertMissing_filter hrow).2, decide_eq_true hdistinct⟩
  · intro h
    refine ⟨?_, fun row hrow => ?_, fun row hrow symbol hsymbol => ?_⟩
    · have hnil : UniqueKey relationshipKey [] := List.nodup_nil
      exact (hnil.foldl_insertMissing hconflict).of_map _
    · exact of_decide_eq_true (Bool.and_eq_true_iff.1 (h row hrow)).2
    · have hpersists := List.all_eq_true.1 (of_mem_foldl_insertMissing_filter hrow).2 symbol hsymbol
      obtain ⟨hdefined, hsemantic⟩ := Bool.and_eq_true_iff.1 hpersists
      exact ⟨hsemantic, mem_symbols_of_isDefinedSymbol hdefined⟩

def selfRelated : Index :=
  { documents := [{ relativePath := "a.ts", language := "typescript"
                    occurrences := [{ range := [0, 0, 1], symbol := "npm a 1.0 C#", symbolRoles := 1 }]
                    symbols := [{ symbol := "npm a 1.0 C#"
                                  relationships := [{ symbol := "npm a 1.0 C#"
                                                      isImplementation := true }] }] }] }

theorem selfRelated_row : (rowsFromIndex stableSort (fun _ _ => none) selfRelated "typescript"
    "").relationships = [⟨"npm a 1.0 C#", "npm a 1.0 C#", false, true, false, false⟩] := by
  decide +kernel

end Relationships

end CodeIntel.Artifact
