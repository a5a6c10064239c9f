import CodeIntel.Indexer.ScipRows

/-!
# The rows of the two services

The indexer and the backend read one index message. Both are described by three
choices: how a row names its language, which symbols are semantic, and how the
scopes of a file are ordered. The rows agree exactly if these choices make no
difference for the message.
-/

namespace CodeIntel.Artifact

open Text Relational
open Indexer (DigitClass sortBySpan rowsFromScipIndex)

/-! ## The functions of the two services -/

section Functions

theorem joinProjectPathChecked_eq :
    Indexer.joinProjectPathChecked = joinProjectPathChecked := by
  funext projectRoot relativePath
  unfold Indexer.joinProjectPathChecked joinProjectPathChecked
  by_cases hroot : trimSpace projectRoot = "" || trimSpace projectRoot = "."
  · have hclean : sanitizeRepoRelativePath projectRoot = some "" := by
      unfold sanitizeRepoRelativePath
      exact if_pos hroot
    rw [if_pos hroot, hclean]
  · rw [if_neg hroot]

theorem rangeSpan_eq : Indexer.rangeSpan = rangeSpan := by
  funext range
  have hmax : ∀ x : Int32, max 0 x = if x < 0 then 0 else x := by
    intro x
    show (if 0 ≤ x then x else 0) = _
    by_cases h : x < 0
    · rw [if_pos h, if_neg (Int32.not_le.2 h)]
    · rw [if_neg h, if_pos (Int32.not_lt.1 h)]
  unfold Indexer.rangeSpan rangeSpan
  rw [hmax]

theorem occurrenceRoles_spec (o : Occurrence) :
    Indexer.occurrenceRoles o = occurrenceRoles o ∧ occurrenceRoles o ≠ [] := by
  unfold Indexer.occurrenceRoles occurrenceRoles dedupeRoles
  generalize hasRole o 1 = definition
  generalize hasRole o 2 = imported
  generalize hasRole o 4 = write
  generalize hasRole o 8 = read
  generalize hasRole o 16 = generated
  generalize hasRole o 32 = test
  generalize hasRole o 64 = forward
  revert definition imported write read generated test forward
  decide +kernel

theorem filter_splitAny (s : String) (p : Char → Bool) :
    (Indexer.splitAny s p).filter (· ≠ "") = fieldsFunc s p := by
  have hempty : ∀ cs : List Char, (String.ofList cs ≠ "") ↔ cs ≠ [] := fun cs => by
    rw [ne_eq, ne_eq, ← String.toList_inj, String.toList_ofList]
    rfl
  unfold Indexer.splitAny fieldsFunc
  rw [List.filter_map]
  congr 1
  refine List.filter_congr fun cs _ => ?_
  simp only [Function.comp, decide_eq_decide]
  exact hempty cs

theorem displayNameFromScipSymbol_eq :
    Indexer.displayNameFromScipSymbol = displayNameFromSCIPSymbol := by
  funext symbol
  unfold Indexer.displayNameFromScipSymbol displayNameFromSCIPSymbol
  simp only [filter_splitAny]
  split_ifs with hparts
  · rw [hparts]
    rfl
  · rw [List.getLastD_eq_getLast?, List.getLast?_eq_some_getLast hparts]
    rfl

theorem hasSuffix_of_endsWithQuotedSlash {isWhite : Char → Bool} {symbol : String}
    (h : endsWithQuotedSlash isWhite symbol = true) : hasSuffix symbol "/" = true := by
  unfold endsWithQuotedSlash at h
  split at h
  · rename_i rest hrev
    rw [hasSuffix_iff]
    have hcs : symbol.toList = rest.reverse ++ ['/'] := by
      rw [← List.reverse_reverse symbol.toList, hrev, List.reverse_cons]
    rw [hcs]
    exact List.suffix_append _ _
  · cases h

/-- The class of white space makes no difference, as a slash ends the symbol anyway. -/
theorem isScipFileScopeSymbol_eq :
    Indexer.isScipFileScopeSymbol = isSCIPFileScopeSymbol := by
  have hslash : ∀ (isWhite : Char → Bool) (symbol : String),
      (endsWithQuotedSlash isWhite symbol || hasSuffix symbol "/") = hasSuffix symbol "/" := by
    intro isWhite symbol
    cases h : endsWithQuotedSlash isWhite symbol with
    | false => rfl
    | true => rw [hasSuffix_of_endsWithQuotedSlash h]; rfl
  funext symbol
  unfold Indexer.isScipFileScopeSymbol isSCIPFileScopeSymbol
  rw [hslash, hslash]

/-- Every symbol that is semantic for the indexer is so for the backend. -/
theorem isSemanticProjectSymbol_of_indexer {digits : DigitClass} {symbol : String}
    (h : Indexer.isSemanticProjectSymbol digits symbol = true) :
    isSemanticProjectSymbol symbol = true := by
  unfold Indexer.isSemanticProjectSymbol at h
  unfold isSemanticProjectSymbol
  rw [isScipFileScopeSymbol_eq] at h
  simp only [Bool.and_eq_true, Bool.not_eq_true'] at h ⊢
  obtain ⟨⟨⟨hlocal, hparameter⟩, hgenerated⟩, hscope⟩ := h
  refine ⟨⟨⟨hlocal, hparameter⟩, ?_⟩, hscope⟩
  unfold endsWithDigitColon at hgenerated ⊢
  split
  · rename_i c rest hrev
    rw [hrev] at hgenerated
    exact Bool.eq_false_iff.2 fun hc => Bool.eq_false_iff.1 hgenerated (digits.ascii c hc)
  · rfl

theorem enumeratorName_eq {names : List (Int32 × String)} {unspecified : String}
    (hnames : ∀ entry ∈ names, entry.1 ≠ 0 ∧ entry.2 ≠ "" ∧ entry.2 ≠ unspecified)
    (kind : Int32) : Indexer.enumeratorName names unspecified kind =
      ptrIfNotEmpty ((names.lookup kind).getD "") := by
  unfold Indexer.enumeratorName
  by_cases hkind : kind = 0
  · have hnone : names.lookup 0 = none := List.lookup_eq_none_iff.2 fun entry hentry =>
      bne_iff_ne.2 (hnames entry hentry).1.symm
    rw [hkind, List.lookup_cons_self, hnone]
    simp [ptrIfNotEmpty]
  · rw [List.lookup_cons, beq_eq_false_iff_ne.2 hkind]
    cases hlookup : names.lookup kind with
    | none => rfl
    | some name =>
      obtain ⟨before, after, hsplit, -⟩ := List.lookup_eq_some_iff.1 hlookup
      obtain ⟨-, hempty, hother⟩ := hnames (kind, name) (by simp [hsplit])
      simp [ptrIfNotEmpty, hempty, hother]

theorem kindName_eq (symbol : SymbolInformation) :
    Indexer.kindName symbol = ptrIfNotEmpty (symbolKindName symbol.kind) :=
  enumeratorName_eq (by decide +kernel) symbol.kind

theorem syntaxKindName_eq : Indexer.syntaxKindName = syntaxKindName := by
  funext o
  exact enumeratorName_eq (by decide +kernel) o.syntaxKind

theorem definitionScopes_eq : Indexer.definitionScopes = definitionScopes := by
  funext definitions filePath
  unfold Indexer.definitionScopes definitionScopes scopeRange
  congr 1
  funext d
  cases normalizeRange d.occurrence.enclosingRange <;> rfl

theorem relationshipKey_eq : Indexer.relationshipKey = relationshipKey := by
  have hbool : ∀ b : Bool, toString b = boolKey b := by decide
  funext row
  unfold Indexer.relationshipKey relationshipKey
  rw [hbool, hbool, hbool, hbool, ← String.toList_inj, String.toList_intercalate]
  simp [List.intercalate]

/-- The row of the indexer, up to the way it names the language. -/
theorem toSymbolRow_eq (symbol : SymbolInformation) (language projectRoot : String)
    (definition : Option DefinitionOccurrence) :
    Indexer.toSymbolRow symbol language projectRoot definition =
      { toSymbolRow symbol language projectRoot definition with language := some language } := by
  unfold Indexer.toSymbolRow toSymbolRow
  rw [displayNameFromScipSymbol_eq, kindName_eq, joinProjectPathChecked_eq]
  rfl

theorem referenceOnly_eq (roles : List String) (hasReference : Bool) :
    referenceOnly roles hasReference = ((hasReference || roles.any (· = "REFERENCE")) &&
      !roles.any (· = "DEFINITION") && !roles.any (· = "FORWARD_DEFINITION")) := by
  induction roles generalizing hasReference with
  | nil => simp [referenceOnly]
  | cons role roles ih =>
    unfold referenceOnly
    by_cases href : role = "REFERENCE"
    · simp [href, ih]
    · by_cases hdefinition : role = "DEFINITION"
      · simp [hdefinition]
      · by_cases hforward : role = "FORWARD_DEFINITION"
        · simp [hforward]
        · simp [href, hdefinition, hforward, ih]

end Functions

/-! ## One description of both services -/

section Description

structure Reading where
  language : String → Option String
  isSemantic : String → Bool
  sort : List DefinitionScope → List DefinitionScope

variable (R : Reading) (lineContent : String → Int32 → Option String) (index : Index)
  (projectLanguage projectRoot : String)

def documentLanguage (projectLanguage : String) (document : Document) : String :=
  if document.language = "" then projectLanguage else document.language

def Index.listed (index : Index) (projectRoot : String) : List (String × Document) :=
  listedDocuments (joinProjectPathChecked projectRoot) index.documents

def Index.scopes (index : Index) (projectRoot path : String) : List DefinitionScope :=
  definitionScopes (definitionOccurrences (index.listed projectRoot)) path

def encloses (range : NormalizedRange) (symbol : String) (d : DefinitionScope) : Bool :=
  d.symbol ≠ symbol && containsRange d.range range

def Reading.enclosing (path : String) (range : NormalizedRange) (symbol : String) : Option String :=
  ((R.sort (index.scopes projectRoot path)).find? (encloses range symbol)).map
    DefinitionScope.symbol

structure SymbolItem where
  information : SymbolInformation
  language : String
  definition : Option DefinitionOccurrence

structure OccurrenceItem where
  path : String
  document : Document
  occurrence : Occurrence
  range : NormalizedRange
  role : String

def Index.symbolItems (index : Index) (projectLanguage projectRoot : String) : List SymbolItem :=
  ((index.listed projectRoot).flatMap fun (_, document) => document.symbols.map fun s =>
    { information := s, language := documentLanguage projectLanguage document,
      definition := symbolDefinition (definitionOccurrences (index.listed projectRoot)) s.symbol }) ++
  index.externalSymbols.map fun s =>
    { information := s, language := projectLanguage, definition := none }

def Index.occurrenceItems (index : Index) (projectRoot : String) : List OccurrenceItem :=
  (index.listed projectRoot).flatMap fun (path, document) =>
    (listedOccurrences document).flatMap fun (o, range) => (occurrenceRoles o).map fun role =>
      { path, document, occurrence := o, range, role }

def Reading.symbolRow (item : SymbolItem) : SymbolRow :=
  { toSymbolRow item.information item.language projectRoot item.definition with
    language := R.language item.language }

def Reading.occurrenceRow (item : OccurrenceItem) : OccurrenceRow :=
  { symbol := item.occurrence.symbol, filePath := item.path, startLine := item.range.startLine,
    startCharacter := item.range.startCharacter, endLine := item.range.endLine,
    endCharacter := item.range.endCharacter, role := item.role,
    language := R.language (documentLanguage projectLanguage item.document),
    syntaxKind := syntaxKindName item.occurrence,
    lineContent := lineContent item.path item.range.startLine,
    enclosingSymbol :=
      R.enclosing index projectRoot item.path item.range item.occurrence.symbol }

def relationshipCandidates (enclosing : String → NormalizedRange → String → Option String) :
    List RelationshipRow :=
  ((index.listed projectRoot).flatMap fun (path, document) =>
      (document.symbols.flatMap fun s => s.relationships.map (relationshipRow s.symbol)) ++
      (listedOccurrences document).flatMap fun (o, range) =>
        if Indexer.shouldDeriveReferenceRelationship (occurrenceRoles o)
            (enclosing path range o.symbol) o.symbol then
          [relationshipRow ((enclosing path range o.symbol).getD "")
            { symbol := o.symbol, isReference := true }]
        else []) ++
    index.externalSymbols.flatMap fun s => s.relationships.map (relationshipRow s.symbol)

/-- Both ends are defined in the project and semantic. -/
def persists (isSemantic : String → Bool) (row : RelationshipRow) : Bool :=
  [row.sourceSymbol, row.targetSymbol].all fun symbol =>
    isDefinedSymbol (index.listed projectRoot) symbol && isSemantic symbol

def Reading.rows : Rows :=
  { symbols := (index.symbolItems projectLanguage projectRoot).map (R.symbolRow projectRoot)
    occurrences := (index.occurrenceItems projectRoot).map
      (R.occurrenceRow lineContent index projectLanguage projectRoot)
    relationships :=
      ((relationshipCandidates index projectRoot (R.enclosing index projectRoot)).filter
        (persists index projectRoot R.isSemantic)).foldl
          (insertMissing fun new row => relationshipKey row = relationshipKey new) [] }

def backendReading (sorting : SliceSort) : Reading :=
  { language := ptrIfNotEmpty, isSemantic := isSemanticProjectSymbol, sort := sorting.sort }

def indexerReading (digits : DigitClass) : Reading :=
  { language := some, isSemantic := Indexer.isSemanticProjectSymbol digits, sort := sortBySpan }

theorem symbol_ne_of_mem_scopes {path : String} {d : DefinitionScope}
    (h : d ∈ index.scopes projectRoot path) : d.symbol ≠ "" := by
  obtain ⟨definition, hdefinition, hd⟩ := List.mem_filterMap.1 h
  obtain ⟨document, -, hdocument⟩ := List.mem_flatMap.1 (List.mem_filter.1 hdefinition).1
  obtain ⟨o, ho, rfl⟩ := List.mem_map.1 hdocument
  obtain ⟨range, -, rfl⟩ := Option.map_eq_some_iff.1 hd
  have hnamed := (List.mem_filter.1 ho).2
  simp only [Bool.not_eq_true', Bool.or_eq_false_iff, decide_eq_false_iff_not] at hnamed
  exact hnamed.1

theorem shouldPersist_eq (isSemantic : String → Bool) (row : RelationshipRow) :
    (isDefinedSymbol (index.listed projectRoot) row.sourceSymbol && isSemantic row.sourceSymbol &&
      (isDefinedSymbol (index.listed projectRoot) row.targetSymbol &&
        isSemantic row.targetSymbol) && isSemantic row.sourceSymbol &&
      isSemantic row.targetSymbol) = persists index projectRoot isSemantic row := by
  unfold persists
  rw [List.all_cons, List.all_cons, List.all_nil, Bool.and_true]
  cases isSemantic row.sourceSymbol <;> cases isSemantic row.targetSymbol <;>
    simp only [Bool.and_true, Bool.and_false, Bool.false_and]

theorem rowsFromScipIndex_eq (digits : DigitClass) :
    rowsFromScipIndex digits lineContent index projectLanguage projectRoot =
      (indexerReading digits).rows lineContent index projectLanguage projectRoot := by
  have hroles : Indexer.occurrenceRoles = occurrenceRoles :=
    funext fun o => (occurrenceRoles_spec o).1
  unfold rowsFromScipIndex Reading.rows
  simp only [joinProjectPathChecked_eq, hroles, syntaxKindName_eq, definitionScopes_eq,
    toSymbolRow_eq, Index.symbolItems, Index.occurrenceItems, List.map_append, List.map_flatMap,
    List.map_map]
  rw [Rows.mk.injEq]
  refine ⟨rfl, rfl, ?_⟩
  unfold Indexer.addRelationshipRows
  rw [relationshipKey_eq]
  have hpersist : Indexer.shouldPersistProjectRelationship digits
      (Indexer.isProjectDefined digits (index.listed projectRoot)) =
        persists index projectRoot (Indexer.isSemanticProjectSymbol digits) :=
    funext fun row => shouldPersist_eq index projectRoot _ row
  exact congrArg (fun p => (List.filter p _).foldl _ []) hpersist

/-- An empty text stands for no enclosing symbol in the backend. -/
theorem findEnclosingDefinitionSymbol_eq (sorting : SliceSort) (path : String)
    (range : NormalizedRange) (symbol : String) :
    ptrIfNotEmpty (findEnclosingDefinitionSymbol (sorting.sort (index.scopes projectRoot path))
        range symbol) = (backendReading sorting).enclosing index projectRoot path range symbol ∧
      findEnclosingDefinitionSymbol (sorting.sort (index.scopes projectRoot path)) range symbol =
        ((backendReading sorting).enclosing index projectRoot path range symbol).getD "" := by
  unfold findEnclosingDefinitionSymbol Reading.enclosing
  show _ = (List.find? (encloses range symbol) (sorting.sort _)).map _ ∧ _ =
    ((List.find? (encloses range symbol) (sorting.sort _)).map _).getD ""
  unfold encloses
  cases hfind : (sorting.sort (index.scopes projectRoot path)).find? fun d =>
      d.symbol ≠ symbol && containsRange d.range range with
  | none => exact ⟨rfl, rfl⟩
  | some d =>
    have hd := (sorting.perm _).mem_iff.1 (List.mem_of_find?_eq_some hfind)
    exact ⟨if_neg (symbol_ne_of_mem_scopes index projectRoot hd), rfl⟩

theorem shouldDeriveReferenceRelationship_eq {enclosing : Option String} (h : enclosing ≠ some "")
    (roles : List String) (target : String) :
    shouldDeriveReferenceRelationship roles (enclosing.getD "") target =
      Indexer.shouldDeriveReferenceRelationship roles enclosing target := by
  unfold shouldDeriveReferenceRelationship Indexer.shouldDeriveReferenceRelationship
  cases enclosing with
  | none => rfl
  | some source =>
    have hsource : source ≠ "" := fun heq => h (congrArg some heq)
    by_cases htarget : source = target
    · simp [htarget]
    · simp [hsource, htarget, referenceOnly_eq]

theorem rowsFromIndex_eq (sorting : SliceSort) :
    rowsFromIndex sorting lineContent index projectLanguage projectRoot =
      (backendReading sorting).rows lineContent index projectLanguage projectRoot := by
  have hne : ∀ path range symbol,
      (backendReading sorting).enclosing index projectRoot path range symbol ≠ some "" := by
    intro path range symbol hsome
    obtain ⟨d, hfind, hd⟩ := Option.map_eq_some_iff.1 hsome
    exact symbol_ne_of_mem_scopes index projectRoot
      ((sorting.perm _).mem_iff.1 (List.mem_of_find?_eq_some hfind)) hd
  have hscopes : ∀ path, definitionScopes (definitionOccurrences
      (listedDocuments (joinProjectPathChecked projectRoot) index.documents)) path =
        index.scopes projectRoot path := fun _ => rfl
  unfold rowsFromIndex Reading.rows
  simp only [hscopes, (findEnclosingDefinitionSymbol_eq index projectRoot sorting _ _ _).1,
    Index.symbolItems, Index.occurrenceItems, List.map_append, List.map_flatMap, List.map_map]
  rw [Rows.mk.injEq]
  refine ⟨rfl, rfl, ?_⟩
  simp only [(findEnclosingDefinitionSymbol_eq index projectRoot sorting _ _ _).2,
    shouldDeriveReferenceRelationship_eq (hne _ _ _)]
  have hpersist : shouldPersistProjectRelationship
      (isProjectDefined (index.listed projectRoot)) =
        persists index projectRoot isSemanticProjectSymbol :=
    funext fun row => shouldPersist_eq index projectRoot _ row
  exact congrArg (fun p => (List.filter p _).foldl _ []) hpersist

end Description

/-! ## Ordering the scopes -/

section Ordering

variable {scopes : List DefinitionScope} {range : NormalizedRange} {symbol : String}

/-- An enclosing scope such that no other one has a smaller span. -/
def IsInnermost (scopes : List DefinitionScope) (range : NormalizedRange) (symbol : String)
    (d : DefinitionScope) : Prop :=
  d ∈ scopes ∧ encloses range symbol d = true ∧
    ∀ other ∈ scopes, encloses range symbol other = true →
      ¬rangeSpan other.range < rangeSpan d.range

theorem sortBySpan_perm (scopes : List DefinitionScope) : (sortBySpan scopes).Perm scopes :=
  List.perm_insertionSort _ scopes

theorem sortBySpan_ordered (scopes : List DefinitionScope) :
    (sortBySpan scopes).Pairwise fun a b => ¬rangeSpan b.range < rangeSpan a.range := by
  unfold sortBySpan
  rw [rangeSpan_eq]
  have : Std.Total fun a b : DefinitionScope => rangeSpan a.range ≤ rangeSpan b.range :=
    ⟨fun _ _ => Int32.le_total _ _⟩
  have : IsTrans DefinitionScope fun a b => rangeSpan a.range ≤ rangeSpan b.range :=
    ⟨fun _ _ _ => Int32.le_trans⟩
  refine (List.pairwise_insertionSort
    (fun a b : DefinitionScope => rangeSpan a.range ≤ rangeSpan b.range) scopes).imp ?_
  exact fun hle => Int32.not_lt.2 hle

/-- The sort of the indexer has what the backend's sort promises. -/
def stableSort : SliceSort where
  sort := sortBySpan
  perm := sortBySpan_perm
  ordered := sortBySpan_ordered

/-- A sort that takes the given scope first among those of its span. -/
def sortFirst (first : DefinitionScope) : SliceSort where
  sort scopes := if first ∈ scopes then sortBySpan (first :: scopes.erase first)
    else sortBySpan scopes
  perm scopes := by
    split_ifs with h
    · exact (sortBySpan_perm _).trans (List.perm_cons_erase h).symm
    · exact sortBySpan_perm scopes
  ordered scopes := by
    split_ifs
    · exact sortBySpan_ordered _
    · exact sortBySpan_ordered _

theorem isInnermost_of_find (sorting : SliceSort) {d : DefinitionScope}
    (h : (sorting.sort scopes).find? (encloses range symbol) = some d) :
    IsInnermost scopes range symbol d := by
  obtain ⟨hencloses, before, after, hsplit, hbefore⟩ := List.find?_eq_some_iff_append.1 h
  have hmem : ∀ other, other ∈ scopes ↔ other ∈ before ++ d :: after := fun other => by
    rw [← hsplit, (sorting.perm scopes).mem_iff]
  have hordered := sorting.ordered scopes
  rw [hsplit] at hordered
  refine ⟨(hmem d).2 (by simp), hencloses, fun other hother hother_encloses => ?_⟩
  rcases List.mem_append.1 ((hmem other).1 hother) with hin | hin
  · have hnot := hbefore other hin
    rw [hother_encloses] at hnot
    cases hnot
  · rcases List.mem_cons.1 hin with rfl | hin
    · exact Int32.lt_irrefl
    · exact (List.pairwise_cons.1 (List.pairwise_append.1 hordered).2.1).1 other hin

theorem find_sortFirst {d : DefinitionScope} (h : IsInnermost scopes range symbol d) :
    ((sortFirst d).sort scopes).find? (encloses range symbol) = some d := by
  obtain ⟨hmem, hencloses, hleast⟩ := h
  have hsorted : (sortFirst d).sort scopes = List.orderedInsert
      (fun a b => Indexer.rangeSpan a.range ≤ Indexer.rangeSpan b.range) d
      (sortBySpan (scopes.erase d)) := if_pos hmem
  rw [hsorted, List.orderedInsert_eq_take_drop, List.find?_append, List.find?_eq_none.2,
    List.find?_cons_of_pos hencloses]
  · rfl
  · -- what stands before has a smaller span
    intro other hother hother_encloses
    have hsmaller := List.mem_takeWhile_imp hother
    rw [decide_eq_true_iff, rangeSpan_eq, Int32.not_le] at hsmaller
    have hother_mem : other ∈ scopes := List.mem_of_mem_erase
      ((sortBySpan_perm _).mem_iff.1 ((List.takeWhile_prefix _).subset hother))
    exact hleast other hother_mem hother_encloses hsmaller

theorem find_agree_iff : (∀ sorting : SliceSort,
      ((sortBySpan scopes).find? (encloses range symbol)).map DefinitionScope.symbol =
        ((sorting.sort scopes).find? (encloses range symbol)).map DefinitionScope.symbol) ↔
    ∀ a b, IsInnermost scopes range symbol a → IsInnermost scopes range symbol b →
      a.symbol = b.symbol := by
  constructor
  · intro h a b ha hb
    have hfirst := (h (sortFirst a)).symm.trans (h (sortFirst b))
    rw [find_sortFirst ha, find_sortFirst hb] at hfirst
    exact Option.some.inj hfirst
  · intro h sorting
    have hperm := (sortBySpan_perm scopes).trans (sorting.perm scopes).symm
    cases hstable : (sortBySpan scopes).find? (encloses range symbol) with
    | none =>
      rw [List.find?_eq_none.2 fun d hd =>
        List.find?_eq_none.1 hstable d (hperm.mem_iff.2 hd)]
    | some a =>
      cases hother : (sorting.sort scopes).find? (encloses range symbol) with
      | none =>
        have ha := hperm.mem_iff.1 (List.mem_of_find?_eq_some hstable)
        exact absurd (List.find?_some hstable) (List.find?_eq_none.1 hother a ha)
      | some b =>
        have hsame := h a b (isInnermost_of_find stableSort hstable)
          (isInnermost_of_find sorting hother)
        exact congrArg some hsame

end Ordering

/-! ## Agreement -/

section Agreement

/-- Two tables made from one list of items have the same rows only item by item, if a row
of one table found anywhere in the other is the item's own row there. -/
theorem map_perm_map_iff {ι ρ : Type*} {f g : ι → ρ} {P : ι → Prop}
    (hown : ∀ i j, f i = g j → P i) (hsame : ∀ i, P i → f i = g i) {items : List ι} :
    (items.map f).Perm (items.map g) ↔ ∀ i ∈ items, P i := by
  constructor
  · intro hperm i hi
    obtain ⟨j, -, hj⟩ := List.mem_map.1 (hperm.mem_iff.1 (List.mem_map_of_mem hi))
    exact hown i j hj.symm
  · intro h
    rw [List.map_congr_left fun i hi => hsame i (h i hi)]

/-- The same symbol, occurrence and relationship rows, each as often. -/
structure SameRows (rows rows' : Rows) : Prop where
  symbols : rows.symbols.Perm rows'.symbols
  occurrences : rows.occurrences.Perm rows'.occurrences
  relationships : rows.relationships.Perm rows'.relationships

variable {digits : DigitClass} {lineContent : String → Int32 → Option String} {index : Index}
  {projectLanguage projectRoot : String}

theorem some_eq_ptrIfNotEmpty_iff {value value' : String} :
    some value = ptrIfNotEmpty value' ↔ value = value' ∧ value ≠ "" := by
  unfold ptrIfNotEmpty
  split_ifs with h
  · simp [h]
  · rw [Option.some.injEq]
    exact ⟨fun heq => ⟨heq, heq ▸ h⟩, fun heq => heq.1⟩

variable (sorting : SliceSort)

theorem symbols_perm_iff :
    ((indexerReading digits).rows lineContent index projectLanguage projectRoot).symbols.Perm
        ((backendReading sorting).rows lineContent index projectLanguage projectRoot).symbols ↔
      ∀ item ∈ index.symbolItems projectLanguage projectRoot, item.language ≠ "" := by
  refine map_perm_map_iff (fun item item' heq => ?_) fun item hne => ?_
  · exact (some_eq_ptrIfNotEmpty_iff.1 (congrArg SymbolRow.language heq)).2
  · have hlanguage : (indexerReading digits).language item.language =
        (backendReading sorting).language item.language := some_eq_ptrIfNotEmpty_iff.2 ⟨rfl, hne⟩
    unfold Reading.symbolRow
    rw [hlanguage]

/-- The rows of an occurrence have a language, and one enclosing symbol in both services. -/
def SameOccurrence (digits : DigitClass) (sorting : SliceSort) (index : Index)
    (projectLanguage projectRoot path : String) (document : Document) (o : Occurrence)
    (range : NormalizedRange) : Prop :=
  documentLanguage projectLanguage document ≠ "" ∧
    (indexerReading digits).enclosing index projectRoot path range o.symbol =
      (backendReading sorting).enclosing index projectRoot path range o.symbol

theorem occurrences_perm_iff :
    ((indexerReading digits).rows lineContent index projectLanguage projectRoot).occurrences.Perm
        ((backendReading sorting).rows lineContent index projectLanguage projectRoot).occurrences ↔
      ∀ item ∈ index.occurrenceItems projectRoot,
        SameOccurrence digits sorting index projectLanguage projectRoot item.path item.document
          item.occurrence item.range := by
  refine map_perm_map_iff (fun item item' heq => ?_) fun item h => ?_
  · refine ⟨(some_eq_ptrIfNotEmpty_iff.1 (congrArg OccurrenceRow.language heq)).2, ?_⟩
    -- the enclosing symbol only depends on fields of the row
    have hpath : item.path = item'.path := congrArg OccurrenceRow.filePath heq
    have hsymbol : item.occurrence.symbol = item'.occurrence.symbol :=
      congrArg OccurrenceRow.symbol heq
    have hrange : item.range = item'.range :=
      NormalizedRange.ext (congrArg OccurrenceRow.startLine heq)
        (congrArg OccurrenceRow.startCharacter heq) (congrArg OccurrenceRow.endLine heq)
        (congrArg OccurrenceRow.endCharacter heq)
    have henclosing := congrArg OccurrenceRow.enclosingSymbol heq
    dsimp only [Reading.occurrenceRow] at henclosing
    rw [hpath, hsymbol, hrange] at henclosing ⊢
    exact henclosing
  · have hlanguage : (indexerReading digits).language (documentLanguage projectLanguage
        item.document) = (backendReading sorting).language (documentLanguage projectLanguage
          item.document) := some_eq_ptrIfNotEmpty_iff.2 ⟨rfl, h.1⟩
    unfold Reading.occurrenceRow
    rw [hlanguage, h.2]

omit sorting in
theorem mem_occurrenceItems_iff (P : String → Document → Occurrence → NormalizedRange → Prop) :
    (∀ item ∈ index.occurrenceItems projectRoot,
      P item.path item.document item.occurrence item.range) ↔
    ∀ path document, (path, document) ∈ index.listed projectRoot → ∀ o range,
      (o, range) ∈ listedOccurrences document → P path document o range := by
  constructor
  · intro h path document hdocument o range ho
    obtain ⟨role, hrole⟩ := List.exists_mem_of_ne_nil _ (occurrenceRoles_spec o).2
    exact h ⟨path, document, o, range, role⟩ (List.mem_flatMap.2 ⟨(path, document), hdocument,
      List.mem_flatMap.2 ⟨(o, range), ho, List.mem_map_of_mem hrole⟩⟩)
  · intro h item hitem
    obtain ⟨⟨path, document⟩, hdocument, hitem⟩ := List.mem_flatMap.1 hitem
    obtain ⟨⟨o, range⟩, ho, hitem⟩ := List.mem_flatMap.1 hitem
    obtain ⟨role, -, rfl⟩ := List.mem_map.1 hitem
    exact h path document hdocument o range ho

omit sorting in
theorem mem_symbolItems_iff :
    (∀ item ∈ index.symbolItems projectLanguage projectRoot, item.language ≠ "") ↔
      (∀ path document, (path, document) ∈ index.listed projectRoot → document.symbols ≠ [] →
        documentLanguage projectLanguage document ≠ "") ∧
      (index.externalSymbols ≠ [] → projectLanguage ≠ "") := by
  constructor
  · intro h
    refine ⟨fun path document hdocument hsymbols => ?_, fun hexternal => ?_⟩
    · obtain ⟨s, hs⟩ := List.exists_mem_of_ne_nil _ hsymbols
      exact h _ (List.mem_append_left _ (List.mem_flatMap.2
        ⟨(path, document), hdocument, List.mem_map_of_mem hs⟩))
    · obtain ⟨s, hs⟩ := List.exists_mem_of_ne_nil _ hexternal
      exact h _ (List.mem_append_right _ (List.mem_map_of_mem hs))
  · rintro ⟨hdocuments, hexternal⟩ item hitem
    rcases List.mem_append.1 hitem with hitem | hitem
    · obtain ⟨⟨path, document⟩, hdocument, hitem⟩ := List.mem_flatMap.1 hitem
      obtain ⟨s, hs, rfl⟩ := List.mem_map.1 hitem
      exact hdocuments path document hdocument (List.ne_nil_of_mem hs)
    · obtain ⟨s, hs, rfl⟩ := List.mem_map.1 hitem
      exact hexternal (List.ne_nil_of_mem hs)

/-- What makes no difference between the two services: a language is named for every row,
the innermost scopes around an occurrence are of one symbol, and a relationship that only
the backend keeps has the key of an earlier one that both keep. -/
structure RowsComparable (digits : DigitClass) (index : Index)
    (projectLanguage projectRoot : String) : Prop where
  documents : ∀ path document, (path, document) ∈ index.listed projectRoot →
    document.symbols ≠ [] ∨ listedOccurrences document ≠ [] →
    documentLanguage projectLanguage document ≠ ""
  external : index.externalSymbols ≠ [] → projectLanguage ≠ ""
  scopes : ∀ path document, (path, document) ∈ index.listed projectRoot → ∀ o range,
    (o, range) ∈ listedOccurrences document → ∀ a b,
      IsInnermost (index.scopes projectRoot path) range o.symbol a →
      IsInnermost (index.scopes projectRoot path) range o.symbol b → a.symbol = b.symbol
  relationships : ∀ before row after, relationshipCandidates index projectRoot
      ((indexerReading digits).enclosing index projectRoot) = before ++ row :: after →
    persists index projectRoot isSemanticProjectSymbol row = true →
    persists index projectRoot (Indexer.isSemanticProjectSymbol digits) row = false →
    ∃ row' ∈ before, relationshipKey row' = relationshipKey row ∧
      persists index projectRoot (Indexer.isSemanticProjectSymbol digits) row' = true

theorem relationships_perm_iff
    (h : ∀ path document, (path, document) ∈ index.listed projectRoot → ∀ o range,
      (o, range) ∈ listedOccurrences document →
        (indexerReading digits).enclosing index projectRoot path range o.symbol =
          (backendReading sorting).enclosing index projectRoot path range o.symbol) :
    ((indexerReading digits).rows lineContent index projectLanguage projectRoot).relationships.Perm
        ((backendReading sorting).rows lineContent index projectLanguage projectRoot).relationships ↔
      ∀ before row after, relationshipCandidates index projectRoot
          ((indexerReading digits).enclosing index projectRoot) = before ++ row :: after →
        persists index projectRoot isSemanticProjectSymbol row = true →
        persists index projectRoot (Indexer.isSemanticProjectSymbol digits) row = false →
        ∃ row' ∈ before, relationshipKey row' = relationshipKey row ∧
          persists index projectRoot (Indexer.isSemanticProjectSymbol digits) row' = true := by
  have hcandidates : relationshipCandidates index projectRoot
      ((backendReading sorting).enclosing index projectRoot) =
        relationshipCandidates index projectRoot
          ((indexerReading digits).enclosing index projectRoot) := by
    unfold relationshipCandidates
    congr 1
    refine List.flatMap_congr fun ⟨path, document⟩ hdocument => ?_
    dsimp only
    congr 1
    refine List.flatMap_congr fun ⟨o, range⟩ ho => ?_
    rw [h path document hdocument o range ho]
  have hpersists : ∀ row, persists index projectRoot (Indexer.isSemanticProjectSymbol digits) row =
      true → persists index projectRoot isSemanticProjectSymbol row = true := by
    intro row hrow
    unfold persists at hrow ⊢
    rw [List.all_eq_true] at hrow ⊢
    intro symbol hsymbol
    obtain ⟨hdefined, hsemantic⟩ := Bool.and_eq_true_iff.1 (hrow symbol hsymbol)
    exact Bool.and_eq_true_iff.2 ⟨hdefined, isSemanticProjectSymbol_of_indexer hsemantic⟩
  unfold Reading.rows
  rw [hcandidates]
  exact foldl_insertMissing_filter_perm_iff (fun _ _ => decide_eq_true_iff) hpersists

def asciiDigits : DigitClass := ⟨Char.isDigit, fun _ h => h⟩

def unnamedLanguage : Index :=
  { documents := [{ relativePath := "a.ts", symbols := [{ symbol := "npm a 1.0 f()." }] }] }

end Agreement

end CodeIntel.Artifact
