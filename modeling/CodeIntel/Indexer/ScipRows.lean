import CodeIntel.Artifact.Rows
import Mathlib.Data.List.Sort

/-!
# Rows of a SCIP index, as the indexer builds them

`rows_from_scip_index` reads the same index message as `RowsFromIndex` of the
backend. Message and row types are shared with it, and so are the functions that
both services write alike; those below are the indexer's own.
-/

namespace CodeIntel.Indexer

open Text Relational
open Artifact (Relationship SymbolInformation Occurrence Document Index NormalizedRange
  SymbolRow OccurrenceRow RelationshipRow Rows DefinitionScope DefinitionOccurrence normalizeRange
  containsRange hasRole sanitizeRepoRelativePath relationshipRow scipParameterSymbol
  endsWithDigitColon endsWithQuotedSlash symbolKindNames syntaxKindNames isDescriptorPunctuation
  listedDocuments listedOccurrences definitionOccurrences symbolDefinition)

/-- The class `\d` of the expressions of the indexer: decimal digits of every script, those
of ASCII among them. -/
structure DigitClass where
  isDigit : Char → Bool
  ascii : ∀ c : Char, c.isDigit = true → isDigit c = true

section Helpers

def rangeSpan (range : NormalizedRange) : Int32 :=
  (range.endLine - range.startLine) * 100000 +
    max 0 (range.endCharacter - range.startCharacter)

/-- `Vec::dedup`: of equal neighbours one stays. -/
def dedup : List String → List String
  | [] => []
  | role :: roles =>
    match dedup roles with
    | [] => [role]
    | next :: rest => if role = next then next :: rest else role :: next :: rest

def occurrenceRoles (o : Occurrence) : List String :=
  let roles := (if hasRole o 1 then ["DEFINITION"] else []) ++
    (if hasRole o 2 then ["IMPORT"] else []) ++ (if hasRole o 4 then ["WRITE"] else []) ++
    (if hasRole o 8 then ["READ"] else []) ++ (if hasRole o 16 then ["GENERATED"] else []) ++
    (if hasRole o 32 then ["TEST"] else []) ++
    (if hasRole o 64 then ["FORWARD_DEFINITION"] else [])
  dedup (if !roles.any fun r => r = "DEFINITION" || r = "FORWARD_DEFINITION" then
    "REFERENCE" :: roles else roles)

def joinProjectPathChecked (projectRoot relativePath : String) : Option String := do
  let cleanRoot ← if trimSpace projectRoot = "" || trimSpace projectRoot = "." then some ""
    else sanitizeRepoRelativePath projectRoot
  let cleanRelative ← sanitizeRepoRelativePath relativePath
  if cleanRoot = "" then some cleanRelative
  else if cleanRelative = "" then some cleanRoot
  else some (cleanRoot ++ "/" ++ cleanRelative)

/-- `str::split` with a class of characters. -/
def splitAny (s : String) (p : Char → Bool) : List String :=
  (s.toList.splitOnP p).map String.ofList

def displayNameFromScipSymbol (symbol : String) : String :=
  let compact := String.intercalate " " ((splitAny symbol isSpace).filter (· ≠ ""))
  let parts := (splitAny compact isDescriptorPunctuation).filter (· ≠ "")
  (parts.getLast?).getD compact

def isScipFileScopeSymbol (symbol : String) : Bool :=
  endsWithQuotedSlash isSpace symbol || hasSuffix symbol "/"

def isSemanticProjectSymbol (digits : DigitClass) (symbol : String) : Bool :=
  !hasPrefix symbol "local " && !scipParameterSymbol symbol &&
    !endsWithDigitColon digits.isDigit symbol && !isScipFileScopeSymbol symbol

/-- The name of an enumerator; the schema has the names of the backend's table, and one for
the unspecified kind. -/
def enumeratorName (names : List (Int32 × String)) (unspecified : String) (kind : Int32) :
    Option String :=
  (((0, unspecified) :: names).lookup kind).filter (· ≠ unspecified)

def kindName (symbol : SymbolInformation) : Option String :=
  enumeratorName symbolKindNames "UnspecifiedKind" symbol.kind

def syntaxKindName (o : Occurrence) : Option String :=
  enumeratorName syntaxKindNames "UnspecifiedSyntaxKind" o.syntaxKind

end Helpers

section Definitions

def definitionScopes (definitions : List DefinitionOccurrence) (filePath : String) :
    List DefinitionScope :=
  (definitions.filter fun d => d.filePath = filePath).filterMap fun d =>
    ((normalizeRange d.occurrence.enclosingRange).or (normalizeRange d.occurrence.range)).map
      fun range => { symbol := d.occurrence.symbol, range }

def isProjectDefined (digits : DigitClass) (documents : List (String × Document))
    (symbol : String) : Bool :=
  (documents.any fun (_, document) => document.symbols.any fun s => s.symbol = symbol) &&
    (symbolDefinition (definitionOccurrences documents) symbol).isSome &&
    isSemanticProjectSymbol digits symbol

end Definitions

section Writing

/-- `sort_by_key`, a stable sort. -/
def sortBySpan (scopes : List DefinitionScope) : List DefinitionScope :=
  scopes.insertionSort fun a b => rangeSpan a.range ≤ rangeSpan b.range

def toSymbolRow (symbol : SymbolInformation) (language projectRoot : String)
    (definition : Option DefinitionOccurrence) : SymbolRow :=
  let definitionRange := definition.bind fun d => normalizeRange d.occurrence.range
  { symbol := symbol.symbol
    displayName := if symbol.displayName = "" then displayNameFromScipSymbol symbol.symbol
      else symbol.displayName
    kind := kindName symbol
    language := some language
    documentation := symbol.documentation
    signature := symbol.signatureDocumentation.bind fun text =>
      if text = "" then none else some text
    filePath := definition.bind fun d => joinProjectPathChecked projectRoot d.document.relativePath
    startLine := definitionRange.map NormalizedRange.startLine
    startCharacter := definitionRange.map NormalizedRange.startCharacter
    endLine := definitionRange.map NormalizedRange.endLine
    endCharacter := definitionRange.map NormalizedRange.endCharacter
    enclosingSymbol := if symbol.enclosingSymbol = "" then none else some symbol.enclosingSymbol }

def findEnclosingDefinitionSymbol (definitions : List DefinitionScope) (range : NormalizedRange)
    (symbol : String) : Option String :=
  (definitions.find? fun d => d.symbol ≠ symbol && containsRange d.range range).map
    DefinitionScope.symbol

def shouldDeriveReferenceRelationship (roles : List String) (enclosing : Option String)
    (target : String) : Bool :=
  match enclosing with
  | some source => source ≠ target && roles.any (· = "REFERENCE") &&
      !roles.any (· = "DEFINITION") && !roles.any (· = "FORWARD_DEFINITION")
  | none => false

def relationshipKey (row : RelationshipRow) : String :=
  row.sourceSymbol ++ "\x00" ++ row.targetSymbol ++ "\x00" ++ toString row.isReference ++ "\x00" ++
    toString row.isImplementation ++ "\x00" ++ toString row.isTypeDefinition ++ "\x00" ++
    toString row.isDefinition

def shouldPersistProjectRelationship (digits : DigitClass) (projectDefined : String → Bool)
    (row : RelationshipRow) : Bool :=
  projectDefined row.sourceSymbol && projectDefined row.targetSymbol &&
    isSemanticProjectSymbol digits row.sourceSymbol &&
    isSemanticProjectSymbol digits row.targetSymbol

def addRelationshipRows (digits : DigitClass) (projectDefined : String → Bool)
    (rows : List RelationshipRow) : List RelationshipRow :=
  (rows.filter (shouldPersistProjectRelationship digits projectDefined)).foldl
    (insertMissing fun new row => relationshipKey row = relationshipKey new) []

def rowsFromScipIndex (digits : DigitClass) (lineContent : String → Int32 → Option String)
    (index : Index) (projectLanguage projectRoot : String) : Rows :=
  let documents := listedDocuments (joinProjectPathChecked projectRoot) index.documents
  let definitions := definitionOccurrences documents
  let scopes := fun path => sortBySpan (definitionScopes definitions path)
  let language := fun document : Document =>
    if document.language = "" then projectLanguage else document.language
  { symbols :=
      (documents.flatMap fun (_, document) => document.symbols.map fun s =>
        toSymbolRow s (language document) projectRoot (symbolDefinition definitions s.symbol)) ++
      index.externalSymbols.map fun s => toSymbolRow s projectLanguage projectRoot none
    occurrences := documents.flatMap fun (path, document) =>
      (listedOccurrences document).flatMap fun (o, range) =>
        (occurrenceRoles o).map fun role =>
          { symbol := o.symbol, filePath := path, startLine := range.startLine,
            startCharacter := range.startCharacter, endLine := range.endLine,
            endCharacter := range.endCharacter, role,
            language := some (language document), syntaxKind := syntaxKindName o,
            lineContent := lineContent path range.startLine,
            enclosingSymbol := findEnclosingDefinitionSymbol (scopes path) range o.symbol }
    relationships := addRelationshipRows digits (isProjectDefined digits documents)
      ((documents.flatMap fun (path, document) =>
          (document.symbols.flatMap fun s => s.relationships.map (relationshipRow s.symbol)) ++
          (listedOccurrences document).flatMap fun (o, range) =>
            let enclosing := findEnclosingDefinitionSymbol (scopes path) range o.symbol
            if shouldDeriveReferenceRelationship (occurrenceRoles o) enclosing o.symbol then
              [relationshipRow (enclosing.getD "") { symbol := o.symbol, isReference := true }]
            else []) ++
        index.externalSymbols.flatMap fun s => s.relationships.map (relationshipRow s.symbol)) }

end Writing

end CodeIntel.Indexer
