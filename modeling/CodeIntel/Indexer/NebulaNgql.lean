import CodeIntel.Graphschema.Render

/-!
# The indexer's nGQL renderer

The indexer renders its snapshots itself, with the string encoder of `serde_json` and
the number format of JavaScript. Its schema statements must be the backend's own, byte
for byte; its INSERT statements differ from the backend's in the two encodings only.
-/

namespace CodeIntel.Indexer.Nebula

open Text Relational
open Graphschema (IsNumberText isNumberChar doubleTicks chunks)

/-! ## Values -/

inductive CodeGraphPrimitive (F : Type) where
  | null
  | string (s : String)
  | int (n : ℤ)
  | double (x : F)
  | bool (b : Bool)
  deriving DecidableEq, Repr

/-- The parts of Rust's `f64` that are used: the tests of `format_js_number`, the formats
`{}` and `{:e}`, and the literal `1.0`. -/
structure FloatText (F : Type) where
  one : F
  (isFinite isZero : F → Bool)
  /-- `abs >= 1e21 || abs < 1e-6`. -/
  isExtreme : F → Bool
  (display lowerExp : F → String)
  isNumberText_display : ∀ x, isFinite x = true → IsNumberText (display x)
  isNumberText_lowerExp : ∀ x, isFinite x = true → IsNumberText (lowerExp x)

variable {F : Type} (fmt : FloatText F)

/-- `format_js_exponent`: the exponent gets an explicit sign. -/
def formatJsExponent (d : F) : String :=
  let raw := (fmt.lowerExp d).toList
  match raw.dropWhile (· ≠ 'e') with
  | [] => fmt.lowerExp d
  | _ :: expDigits =>
    if expDigits.head? = some '-' then String.ofList (raw.takeWhile (· ≠ 'e') ++ 'e' :: expDigits)
    else String.ofList (raw.takeWhile (· ≠ 'e') ++ 'e' :: '+' :: expDigits)

def formatJsNumber (d : F) : String :=
  if fmt.isZero d then "0"
  else if fmt.isExtreme d then formatJsExponent fmt d
  else fmt.display d

def ngqlValue : CodeGraphPrimitive F → String
  | .null => "NULL"
  | .bool b => if b then "true" else "false"
  | .int n => toString n
  | .double d => if fmt.isFinite d then formatJsNumber fmt d else "NULL"
  | .string s => jsonLiteral false s

theorem isNumberText_formatJsExponent {d : F} (h : fmt.isFinite d = true) :
    IsNumberText (formatJsExponent fmt d) := by
  obtain ⟨hne, hchars⟩ := fmt.isNumberText_lowerExp d h
  have hsplit := List.takeWhile_append_dropWhile (p := (· ≠ 'e')) (l := (fmt.lowerExp d).toList)
  unfold formatJsExponent
  dsimp only
  split
  · exact ⟨hne, hchars⟩
  · rename_i e expDigits hdrop
    rw [hdrop] at hsplit
    have hparts : ∀ c ∈ (fmt.lowerExp d).toList.takeWhile (· ≠ 'e') ++ expDigits,
        isNumberChar c = true := by
      intro c hc
      apply hchars
      rw [← hsplit]
      rcases List.mem_append.1 hc with hc | hc
      · exact List.mem_append_left _ hc
      · exact List.mem_append_right _ (List.mem_cons_of_mem _ hc)
    have hjoin : ∀ sign : List Char, (∀ c ∈ sign, isNumberChar c = true) →
        IsNumberText (String.ofList ((fmt.lowerExp d).toList.takeWhile (· ≠ 'e') ++
          'e' :: (sign ++ expDigits))) := by
      intro sign hsign
      unfold IsNumberText
      rw [String.toList_ofList]
      refine ⟨by simp, fun c hc => ?_⟩
      rw [List.mem_append, List.mem_cons, List.mem_append] at hc
      rcases hc with hc | rfl | hc | hc
      · exact hparts c (List.mem_append_left _ hc)
      · decide
      · exact hsign c hc
      · exact hparts c (List.mem_append_right _ hc)
    split_ifs
    · exact hjoin [] (by simp)
    · exact hjoin ['+'] (by decide)

theorem isNumberText_formatJsNumber {d : F} (h : fmt.isFinite d = true) :
    IsNumberText (formatJsNumber fmt d) := by
  unfold formatJsNumber
  split_ifs
  · exact ⟨by decide, by decide⟩
  · exact isNumberText_formatJsExponent fmt h
  · exact fmt.isNumberText_display d h

/-! ## Schema -/

def nodeTag : String := "code_graph_node"

def edgeType : String := "code_graph_edge"

def nodeProps : List String :=
  ["kind", "orgId", "workspaceId", "repoId", "revision", "commitHash", "schemaVersion",
    "builderVersion", "key", "label", "path", "language", "routeMethod", "routePath",
    "packageManager", "confidence", "confidenceTier", "evidenceFilePath", "startLine", "endLine",
    "source", "provenance"]

def edgeProps : List String :=
  ["kind", "orgId", "workspaceId", "repoId", "revision", "commitHash", "schemaVersion",
    "builderVersion", "confidence", "confidenceTier", "evidenceFilePath", "startLine", "endLine",
    "normalizedKey", "source", "provenance", "context"]

def quoteIdentifier (value : String) : String := "\x60" ++ doubleTicks value ++ "\x60"

def propType (prop : String) : String :=
  if ["orgId", "repoId", "schemaVersion", "startLine", "endLine"].contains prop then "int"
  else if prop = "confidence" then "double"
  else "string"

def renderPropDefs (props : List String) : String :=
  ", ".intercalate (props.map fun prop => quoteIdentifier prop ++ " " ++ propType prop)

def indexColumn (column : String × String) : String := quoteIdentifier column.1 ++ column.2

def tagIndexStatement (index : String) (columns : List (String × String)) : String :=
  "CREATE TAG INDEX IF NOT EXISTS " ++ quoteIdentifier index ++ " ON " ++ quoteIdentifier nodeTag ++
    "(" ++ ", ".intercalate (columns.map indexColumn) ++ ");"

def renderSchemaStatements : List String :=
  ["CREATE TAG IF NOT EXISTS " ++ quoteIdentifier nodeTag ++ "(" ++ renderPropDefs nodeProps ++ ");",
    "CREATE EDGE IF NOT EXISTS " ++ quoteIdentifier edgeType ++ "(" ++ renderPropDefs edgeProps ++
      ");",
    tagIndexStatement "code_graph_node_scope_idx"
      [("orgId", ""), ("workspaceId", "(128)"), ("repoId", ""), ("commitHash", "(40)"),
        ("schemaVersion", ""), ("builderVersion", "(128)")],
    tagIndexStatement "code_graph_node_label_idx"
      [("orgId", ""), ("workspaceId", "(128)"), ("label", "(128)")],
    tagIndexStatement "code_graph_node_key_idx"
      [("orgId", ""), ("workspaceId", "(128)"), ("key", "(128)")],
    tagIndexStatement "code_graph_node_path_idx"
      [("orgId", ""), ("workspaceId", "(128)"), ("path", "(128)")],
    tagIndexStatement "code_graph_node_route_path_idx"
      [("orgId", ""), ("workspaceId", "(128)"), ("routePath", "(128)")]]

/-! ## Inserts -/

structure CodeGraphVertex (F : Type) where
  (vid kind : String)
  properties : SortedMap String (CodeGraphPrimitive F)

structure CodeGraphEdge (F : Type) where
  (fromVid toVid kind : String)
  rank : ℤ
  properties : SortedMap String (CodeGraphPrimitive F)

structure CodeGraphSnapshot (F : Type) where
  vertices : List (CodeGraphVertex F)
  edges : List (CodeGraphEdge F)

def valueParts (props : List String) (properties : SortedMap String (CodeGraphPrimitive F)) :
    List String :=
  props.map fun prop => ngqlValue fmt ((properties.get prop).getD .null)

def vertexRow (v : CodeGraphVertex F) : String :=
  ngqlValue fmt (.string v.vid) ++ ": (" ++
    ", ".intercalate (valueParts fmt nodeProps v.properties) ++ ")"

def edgeRow (e : CodeGraphEdge F) : String :=
  ngqlValue fmt (.string e.fromVid) ++ "->" ++ ngqlValue fmt (.string e.toVid) ++ "@" ++
    toString e.rank ++ ": (" ++ ", ".intercalate (valueParts fmt edgeProps e.properties) ++ ")"

def renderVertexInsert (vertices : List (CodeGraphVertex F)) : String :=
  "INSERT VERTEX " ++ quoteIdentifier nodeTag ++ "(" ++
    ", ".intercalate (nodeProps.map quoteIdentifier) ++ ") VALUES " ++
    ", ".intercalate (vertices.map (vertexRow fmt)) ++ ";"

def renderEdgeInsert (edges : List (CodeGraphEdge F)) : String :=
  "INSERT EDGE " ++ quoteIdentifier edgeType ++ "(" ++
    ", ".intercalate (edgeProps.map quoteIdentifier) ++ ") VALUES " ++
    ", ".intercalate (edges.map (edgeRow fmt)) ++ ";"

def renderSnapshotStatements (snapshot : CodeGraphSnapshot F) : List String :=
  renderSchemaStatements ++ (chunks 250 snapshot.vertices).map (renderVertexInsert fmt) ++
    (chunks 250 snapshot.edges).map (renderEdgeInsert fmt)

end CodeIntel.Indexer.Nebula
