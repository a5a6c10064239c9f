import CodeIntel.Relational.Table
import CodeIntel.Text.GoString

/-!
# Rows of a SCIP index

`RowsFromIndex` turns the index message of an artifact into symbol, occurrence
and relationship rows. A first pass over the documents collects the definitions,
a second one writes the rows. The lines of the worktree are a parameter.
-/

namespace CodeIntel.Artifact

open Text Relational

/-! ## The index message -/

structure Relationship where
  symbol : String
  isReference : Bool := false
  isImplementation : Bool := false
  isTypeDefinition : Bool := false
  isDefinition : Bool := false
  deriving DecidableEq, Repr

/-- Of the signature document only the text is read. -/
structure SymbolInformation where
  symbol : String
  documentation : List String := []
  relationships : List Relationship := []
  kind : Int32 := 0
  displayName : String := ""
  signatureDocumentation : Option String := none
  enclosingSymbol : String := ""
  deriving DecidableEq, Repr

structure Occurrence where
  range : List Int32
  symbol : String
  symbolRoles : Int32 := 0
  syntaxKind : Int32 := 0
  enclosingRange : List Int32 := []
  deriving DecidableEq, Repr

structure Document where
  relativePath : String
  language : String := ""
  occurrences : List Occurrence := []
  symbols : List SymbolInformation := []
  deriving DecidableEq, Repr

structure Index where
  documents : List Document
  externalSymbols : List SymbolInformation := []
  deriving DecidableEq, Repr

/-! ## Rows -/

@[ext] structure NormalizedRange where
  startLine : Int32
  startCharacter : Int32
  endLine : Int32
  endCharacter : Int32
  deriving DecidableEq, Repr

structure SymbolRow where
  (symbol displayName : String)
  (kind language : Option String)
  documentation : List String
  (signature filePath : Option String)
  (startLine startCharacter endLine endCharacter : Option Int32)
  enclosingSymbol : Option String
  deriving DecidableEq, Repr

structure OccurrenceRow where
  (symbol filePath : String)
  (startLine startCharacter endLine endCharacter : Int32)
  role : String
  (language syntaxKind lineContent enclosingSymbol : Option String)
  deriving DecidableEq, Repr

structure RelationshipRow where
  (sourceSymbol targetSymbol : String)
  (isReference isImplementation isTypeDefinition isDefinition : Bool)
  deriving DecidableEq, Repr

structure Rows where
  symbols : List SymbolRow
  occurrences : List OccurrenceRow
  relationships : List RelationshipRow
  deriving DecidableEq, Repr

structure DefinitionScope where
  symbol : String
  range : NormalizedRange
  deriving DecidableEq, Repr

structure DefinitionOccurrence where
  filePath : String
  occurrence : Occurrence
  document : Document
  deriving DecidableEq, Repr

/-! ## Symbols, ranges and paths -/

section Helpers

def ptrIfNotEmpty (value : String) : Option String :=
  if value = "" then none else some value

def normalizeRange : List Int32 → Option NormalizedRange
  | [line, start, stop] => some ⟨line, start, line, stop⟩
  | [startLine, start, endLine, stop] => some ⟨startLine, start, endLine, stop⟩
  | _ => none

def containsRange (outer inner : NormalizedRange) : Bool :=
  if outer.startLine > inner.startLine || outer.endLine < inner.endLine then false
  else if outer.startLine = inner.startLine && outer.startCharacter > inner.startCharacter then
    false
  else if outer.endLine = inner.endLine && outer.endCharacter < inner.endCharacter then false
  else true

/-- The extent of a range, in wrapping 32-bit arithmetic. -/
def rangeSpan (range : NormalizedRange) : Int32 :=
  let span := (range.endLine - range.startLine) * 100000
  let charSpan := range.endCharacter - range.startCharacter
  span + if charSpan < 0 then 0 else charSpan

def hasRole (o : Occurrence) (role : Int32) : Bool := o.symbolRoles &&& role > 0

def isDefinitionOccurrence (o : Occurrence) : Bool := hasRole o 1 || hasRole o 64

def dedupeRoles (roles : List String) : List String := roles.eraseDups

def occurrenceRoles (o : Occurrence) : List String :=
  let roles := (if hasRole o 1 then ["DEFINITION"] else []) ++
    (if hasRole o 2 then ["IMPORT"] else []) ++ (if hasRole o 4 then ["WRITE"] else []) ++
    (if hasRole o 8 then ["READ"] else []) ++ (if hasRole o 16 then ["GENERATED"] else []) ++
    (if hasRole o 32 then ["TEST"] else []) ++
    (if hasRole o 64 then ["FORWARD_DEFINITION"] else [])
  let hasDefinition := roles.any fun role => role = "DEFINITION" || role = "FORWARD_DEFINITION"
  dedupeRoles (if hasDefinition then roles else "REFERENCE" :: roles)

/-- The second byte is a colon, as in a path with a drive letter. -/
def hasDriveColon (value : String) : Bool :=
  match value.toList with
  | c :: ':' :: _ => c.toNat < 128
  | _ => false

def sanitizeRepoRelativePath (value : String) : Option String :=
  let value := trimSpace value
  if value = "" || value = "." then some ""
  else if contains value "\x00" || contains value "\\" || hasPrefix value "/" then none
  else if hasDriveColon value then none
  else
    let parts := split value '/'
    if parts.any fun part => part = ".." || contains part "\x00" then none
    else some (String.intercalate "/" (parts.filter fun part => part ≠ "" && part ≠ "."))

def joinProjectPathChecked (projectRoot relativePath : String) : Option String := do
  let cleanRoot ← sanitizeRepoRelativePath projectRoot
  let cleanRelative ← sanitizeRepoRelativePath relativePath
  if cleanRoot = "" then some cleanRelative
  else if cleanRelative = "" then some cleanRoot
  else some (cleanRoot ++ "/" ++ cleanRelative)

/-- `strings.FieldsFunc`. -/
def fieldsFunc (s : String) (p : Char → Bool) : List String :=
  ((s.toList.splitOnP p).filter (· ≠ [])).map String.ofList

def isDescriptorPunctuation (c : Char) : Bool :=
  ['/', '#', '.', ':', '!', '(', ')', '[', ']'].contains c

def displayNameFromSCIPSymbol (symbol : String) : String :=
  let compact := String.intercalate " " (fieldsFunc symbol isSpace)
  let parts := fieldsFunc compact isDescriptorPunctuation
  if parts = [] then compact else parts.getLastD ""

/-- The expression `\(\)\.\([^)]+\)$`. -/
def scipParameterSymbol (symbol : String) : Bool :=
  symbol.toList.tails.any fun tail =>
    "().(".toList.isPrefixOf tail &&
      let rest := tail.drop 4
      2 ≤ rest.length && rest.getLast? = some ')' && !rest.dropLast.contains ')'

/-- The expression `\d+:$` for a class of digits. -/
def endsWithDigitColon (isDigit : Char → Bool) (symbol : String) : Bool :=
  match symbol.toList.reverse with
  | ':' :: c :: _ => isDigit c
  | _ => false

/-- The expression that ends a file scope, a name in backticks, white space and a slash. -/
def endsWithQuotedSlash (isWhite : Char → Bool) (symbol : String) : Bool :=
  match symbol.toList.reverse with
  | '/' :: rest =>
    match rest.dropWhile isWhite with
    | '\x60' :: rest =>
      !(rest.takeWhile (· ≠ '\x60')).isEmpty && rest.contains '\x60'
    | _ => false
  | _ => false

/-- The class `\s` of Go's expressions. -/
def isASCIISpace (c : Char) : Bool := ['\t', '\n', '\x0c', '\r', ' '].contains c

def isSCIPFileScopeSymbol (symbol : String) : Bool :=
  endsWithQuotedSlash isASCIISpace symbol || hasSuffix symbol "/"

def isSemanticProjectSymbol (symbol : String) : Bool :=
  !hasPrefix symbol "local " && !scipParameterSymbol symbol &&
    !endsWithDigitColon Char.isDigit symbol && !isSCIPFileScopeSymbol symbol

def symbolKindNames : List (Int32 × String) :=
  [(1, "Array"), (2, "Assertion"), (3, "AssociatedType"), (4, "Attribute"), (5, "Axiom"),
   (6, "Boolean"), (7, "Class"), (8, "Constant"), (9, "Constructor"), (10, "DataFamily"),
   (11, "Enum"), (12, "EnumMember"), (13, "Event"), (14, "Fact"), (15, "Field"), (16, "File"),
   (17, "Function"), (18, "Getter"), (19, "Grammar"), (20, "Instance"), (21, "Interface"),
   (22, "Key"), (23, "Lang"), (24, "Lemma"), (25, "Macro"), (26, "Method"),
   (27, "MethodReceiver"), (28, "Message"), (29, "Module"), (30, "Namespace"), (31, "Null"),
   (32, "Number"), (33, "Object"), (34, "Operator"), (35, "Package"), (36, "PackageObject"),
   (37, "Parameter"), (38, "ParameterLabel"), (39, "Pattern"), (40, "Predicate"),
   (41, "Property"), (42, "Protocol"), (43, "Quasiquoter"), (44, "SelfParameter"),
   (45, "Setter"), (46, "Signature"), (47, "Subscript"), (48, "String"), (49, "Struct"),
   (50, "Tactic"), (51, "Theorem"), (52, "ThisParameter"), (53, "Trait"), (54, "Type"),
   (55, "TypeAlias"), (56, "TypeClass"), (57, "TypeFamily"), (58, "TypeParameter"),
   (59, "Union"), (60, "Value"), (61, "Variable"), (62, "Contract"), (63, "Error"),
   (64, "Library"), (65, "Modifier"), (66, "AbstractMethod"), (67, "MethodSpecification"),
   (68, "ProtocolMethod"), (69, "PureVirtualMethod"), (70, "TraitMethod"),
   (71, "TypeClassMethod"), (72, "Accessor"), (73, "Delegate"), (74, "MethodAlias"),
   (75, "SingletonClass"), (76, "SingletonMethod"), (77, "StaticDataMember"),
   (78, "StaticEvent"), (79, "StaticField"), (80, "StaticMethod"), (81, "StaticProperty"),
   (82, "StaticVariable"), (84, "Extension"), (85, "Mixin"), (86, "Concept")]

def syntaxKindNames : List (Int32 × String) :=
  [(1, "Comment"), (2, "PunctuationDelimiter"), (3, "PunctuationBracket"), (4, "Keyword"),
   (5, "IdentifierOperator"), (6, "Identifier"), (7, "IdentifierBuiltin"),
   (8, "IdentifierNull"), (9, "IdentifierConstant"), (10, "IdentifierMutableGlobal"),
   (11, "IdentifierParameter"), (12, "IdentifierLocal"), (13, "IdentifierShadowed"),
   (14, "IdentifierNamespace"), (15, "IdentifierFunction"),
   (16, "IdentifierFunctionDefinition"), (17, "IdentifierMacro"),
   (18, "IdentifierMacroDefinition"), (19, "IdentifierType"), (20, "IdentifierBuiltinType"),
   (21, "IdentifierAttribute"), (22, "RegexEscape"), (23, "RegexRepeated"),
   (24, "RegexWildcard"), (25, "RegexDelimiter"), (26, "RegexJoin"), (27, "StringLiteral"),
   (28, "StringLiteralEscape"), (29, "StringLiteralSpecial"), (30, "StringLiteralKey"),
   (31, "CharacterLiteral"), (32, "NumericLiteral"), (33, "BooleanLiteral"), (34, "Tag"),
   (35, "TagAttribute"), (36, "TagDelimiter")]

def symbolKindName (kind : Int32) : String := (symbolKindNames.lookup kind).getD ""

def syntaxKindDisplayName (kind : Int32) : String := (syntaxKindNames.lookup kind).getD ""

def syntaxKindName (o : Occurrence) : Option String :=
  ptrIfNotEmpty (syntaxKindDisplayName o.syntaxKind)

end Helpers

/-! ## The definitions of the documents -/

section Definitions

/-- The documents whose path can be joined with the root of the project, with the result. -/
def listedDocuments (join : String → Option String) (documents : List Document) :
    List (String × Document) :=
  documents.filterMap fun document =>
    (join document.relativePath).map fun path => (path, document)

def definitionOccurrences (documents : List (String × Document)) : List DefinitionOccurrence :=
  documents.flatMap fun (path, document) =>
    (document.occurrences.filter fun o => !(o.symbol = "" || !isDefinitionOccurrence o)).map
      fun o => { filePath := path, occurrence := o, document }

/-- The entry of a symbol: the last definition written to the map. -/
def symbolDefinition (definitions : List DefinitionOccurrence) (symbol : String) :
    Option DefinitionOccurrence :=
  definitions.reverse.find? fun d => d.occurrence.symbol = symbol

def scopeRange (o : Occurrence) : Option NormalizedRange :=
  match normalizeRange o.enclosingRange with
  | some range => some range
  | none => normalizeRange o.range

def definitionScopes (definitions : List DefinitionOccurrence) (filePath : String) :
    List DefinitionScope :=
  (definitions.filter fun d => d.filePath = filePath).filterMap fun d =>
    (scopeRange d.occurrence).map fun range => { symbol := d.occurrence.symbol, range }

/-- Some listed document has information on the symbol, and some definition is one of it. -/
def isDefinedSymbol (documents : List (String × Document)) (symbol : String) : Bool :=
  (documents.any fun (_, document) => document.symbols.any fun s => s.symbol = symbol) &&
    (symbolDefinition (definitionOccurrences documents) symbol).isSome

def isProjectDefined (documents : List (String × Document)) (symbol : String) : Bool :=
  isDefinedSymbol documents symbol && isSemanticProjectSymbol symbol

end Definitions

/-! ## Writing the rows -/

section Writing

/-- `sort.Slice` by the span of the scopes: the result is ordered, but nothing is promised
for scopes of one span. -/
structure SliceSort where
  sort : List DefinitionScope → List DefinitionScope
  perm : ∀ scopes, (sort scopes).Perm scopes
  ordered : ∀ scopes, (sort scopes).Pairwise fun a b => ¬rangeSpan b.range < rangeSpan a.range

def toSymbolRow (symbol : SymbolInformation) (language projectRoot : String)
    (definition : Option DefinitionOccurrence) : SymbolRow :=
  let definitionRange := definition.bind fun d => normalizeRange d.occurrence.range
  { symbol := symbol.symbol
    displayName := if symbol.displayName = "" then displayNameFromSCIPSymbol symbol.symbol
      else symbol.displayName
    kind := ptrIfNotEmpty (symbolKindName symbol.kind)
    language := ptrIfNotEmpty language
    documentation := symbol.documentation
    signature := symbol.signatureDocumentation.bind ptrIfNotEmpty
    filePath := definition.bind fun d => joinProjectPathChecked projectRoot d.document.relativePath
    startLine := definitionRange.map NormalizedRange.startLine
    startCharacter := definitionRange.map NormalizedRange.startCharacter
    endLine := definitionRange.map NormalizedRange.endLine
    endCharacter := definitionRange.map NormalizedRange.endCharacter
    enclosingSymbol := ptrIfNotEmpty symbol.enclosingSymbol }

def findEnclosingDefinitionSymbol (definitions : List DefinitionScope) (range : NormalizedRange)
    (symbol : String) : String :=
  match definitions.find? fun d => d.symbol ≠ symbol && containsRange d.range range with
  | some d => d.symbol
  | none => ""

/-- The loop over the roles: a definition ends it with `false`. -/
def referenceOnly : List String → Bool → Bool
  | [], hasReference => hasReference
  | role :: roles, hasReference =>
    if role = "REFERENCE" then referenceOnly roles true
    else if role = "DEFINITION" || role = "FORWARD_DEFINITION" then false
    else referenceOnly roles hasReference

def shouldDeriveReferenceRelationship (roles : List String) (enclosing target : String) : Bool :=
  if enclosing = "" || enclosing = target then false else referenceOnly roles false

def relationshipRow (source : String) (r : Relationship) : RelationshipRow :=
  { sourceSymbol := source, targetSymbol := r.symbol, isReference := r.isReference,
    isImplementation := r.isImplementation, isTypeDefinition := r.isTypeDefinition,
    isDefinition := r.isDefinition }

def boolKey (b : Bool) : String := if b then "true" else "false"

def relationshipKey (row : RelationshipRow) : String :=
  String.intercalate "\x00" [row.sourceSymbol, row.targetSymbol, boolKey row.isReference,
    boolKey row.isImplementation, boolKey row.isTypeDefinition, boolKey row.isDefinition]

def shouldPersistProjectRelationship (projectDefined : String → Bool) (row : RelationshipRow) :
    Bool :=
  projectDefined row.sourceSymbol && projectDefined row.targetSymbol &&
    isSemanticProjectSymbol row.sourceSymbol && isSemanticProjectSymbol row.targetSymbol

/-- The rows that pass the filter, the first of each key. -/
def addRelationshipRows (projectDefined : String → Bool) (rows : List RelationshipRow) :
    List RelationshipRow :=
  (rows.filter (shouldPersistProjectRelationship projectDefined)).foldl
    (insertMissing fun new row => relationshipKey row = relationshipKey new) []

def listedOccurrences (document : Document) : List (Occurrence × NormalizedRange) :=
  document.occurrences.filterMap fun o =>
    if o.symbol = "" then none else (normalizeRange o.range).map fun range => (o, range)

def rowsFromIndex (sorting : SliceSort) (lineContent : String → Int32 → Option String)
    (index : Index) (projectLanguage projectRoot : String) : Rows :=
  let documents := listedDocuments (joinProjectPathChecked projectRoot) index.documents
  let definitions := definitionOccurrences documents
  let scopes := fun path => sorting.sort (definitionScopes definitions path)
  let language := fun document : Document =>
    if document.language = "" then projectLanguage else document.language
  { symbols :=
      (documents.flatMap fun (_, document) => document.symbols.map fun s =>
        toSymbolRow s (language document) projectRoot (symbolDefinition definitions s.symbol)) ++
      index.externalSymbols.map fun s => toSymbolRow s projectLanguage projectRoot none
    occurrences := documents.flatMap fun (path, document) =>
      (listedOccurrences document).flatMap fun (o, range) =>
        (occurrenceRoles o).map fun role =>
          { symbol := o.symbol, filePath := path, startLine := range.startLine,
            startCharacter := range.startCharacter, endLine := range.endLine,
            endCharacter := range.endCharacter, role,
            language := ptrIfNotEmpty (language document), syntaxKind := syntaxKindName o,
            lineContent := lineContent path range.startLine,
            enclosingSymbol :=
              ptrIfNotEmpty (findEnclosingDefinitionSymbol (scopes path) range o.symbol) }
    relationships := addRelationshipRows (isProjectDefined documents)
      ((documents.flatMap fun (path, document) =>
          (document.symbols.flatMap fun s => s.relationships.map (relationshipRow s.symbol)) ++
          (listedOccurrences document).flatMap fun (o, range) =>
            let enclosing := findEnclosingDefinitionSymbol (scopes path) range o.symbol
            if shouldDeriveReferenceRelationship (occurrenceRoles o) enclosing o.symbol then
              [relationshipRow enclosing { symbol := o.symbol, isReference := true }]
            else []) ++
        index.externalSymbols.flatMap fun s => s.relationships.map (relationshipRow s.symbol)) }

end Writing

end CodeIntel.Artifact
