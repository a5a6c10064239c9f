import CodeIntel.Relational.SortedMap
import CodeIntel.Text.JsonString

/-!
# Rendering the code graph as nGQL

The backend's renderer of schema and INSERT statements. A snapshot becomes the
schema statements followed by one INSERT for each batch of vertices and of edges;
columns follow the two property lists, and properties outside them are not written.
-/

namespace CodeIntel.Graphschema

open Relational Text

/-! ## Schema -/

def nodeTag : String := "code_graph_node"

def edgeType : String := "code_graph_edge"

def nodeProps : List String :=
  ["kind", "orgId", "workspaceId", "repoId", "revision", "commitHash", "schemaVersion",
    "builderVersion", "key", "label", "path", "language", "routeMethod", "routePath",
    "packageManager", "confidence", "confidenceTier", "evidenceFilePath", "startLine", "endLine",
    "source", "provenance"]

def edgeProps : List String :=
  ["kind", "orgId", "workspaceId", "repoId", "revision", "commitHash", "schemaVersion",
    "builderVersion", "confidence", "confidenceTier", "evidenceFilePath", "startLine", "endLine",
    "normalizedKey", "source", "provenance", "context"]

/-- `strings.ReplaceAll` of a backtick by two. -/
def doubleTicks (value : String) : String :=
  String.ofList (value.toList.flatMap fun c => if c = '\x60' then ['\x60', '\x60'] else [c])

def quoteIdentifier (value : String) : String :=
  if value.toList.contains '\x60' then "\x60" ++ doubleTicks value ++ "\x60"
  else "\x60" ++ value ++ "\x60"

def propType (prop : String) : String :=
  if ["orgId", "repoId", "schemaVersion", "startLine", "endLine"].contains prop then "int"
  else if prop = "confidence" then "double"
  else "string"

def renderPropDefs (props : List String) : String :=
  ", ".intercalate (props.map fun prop => quoteIdentifier prop ++ " " ++ propType prop)

/-- One `CREATE TAG INDEX` statement; a column may carry the length of its prefix. -/
def tagIndexStatement (index : String) (columns : List (String × String)) : String :=
  "CREATE TAG INDEX IF NOT EXISTS " ++ quoteIdentifier index ++ " ON " ++ quoteIdentifier nodeTag ++
    "(" ++ ", ".intercalate (columns.map fun column => quoteIdentifier column.1 ++ column.2) ++ ");"

def renderSchemaStatements : List String :=
  ["CREATE TAG IF NOT EXISTS " ++ quoteIdentifier nodeTag ++ "(" ++ renderPropDefs nodeProps ++ ");",
    "CREATE EDGE IF NOT EXISTS " ++ quoteIdentifier edgeType ++ "(" ++ renderPropDefs edgeProps ++
      ");",
    tagIndexStatement "code_graph_node_scope_idx"
      [("orgId", ""), ("workspaceId", "(128)"), ("repoId", ""), ("commitHash", "(40)"),
        ("schemaVersion", ""), ("builderVersion", "(128)")],
    tagIndexStatement "code_graph_node_label_idx"
      [("orgId", ""), ("workspaceId", "(128)"), ("label", "(128)")],
    tagIndexStatement "code_graph_node_key_idx"
      [("orgId", ""), ("workspaceId", "(128)"), ("key", "(128)")],
    tagIndexStatement "code_graph_node_path_idx"
      [("orgId", ""), ("workspaceId", "(128)"), ("path", "(128)")],
    tagIndexStatement "code_graph_node_route_path_idx"
      [("orgId", ""), ("workspaceId", "(128)"), ("routePath", "(128)")]]

/-! ## Values -/

/-- What the type switch of `ngqlValue` tells apart. The integer types and the float types
each share a constructor; `other` is any further Go type. -/
inductive CodeGraphPrimitive (F : Type) where
  | nil
  | bool (b : Bool)
  | string (s : String)
  | int (n : ℤ)
  | float (x : F)
  | other
  deriving DecidableEq, Repr

/-- The characters of a decimal number, with or without an exponent. -/
def isNumberChar (c : Char) : Bool :=
  c.isDigit || c = '+' || c = '-' || c = '.' || c = 'e'

def IsNumberText (s : String) : Prop :=
  s.toList ≠ [] ∧ ∀ c ∈ s.toList, isNumberChar c = true

/-- The parts of Go's `float64` the renderer uses: `math.IsNaN`, `math.IsInf` and
`strconv.FormatFloat(v, 'g', -1, 64)`. -/
structure FloatFormat (F : Type) where
  isFinite : F → Bool
  shortest : F → String
  isNumberText_shortest : ∀ x, isFinite x = true → IsNumberText (shortest x)

variable {F : Type}

def formatFloat (fmt : FloatFormat F) (v : F) : String :=
  if fmt.isFinite v then fmt.shortest v else "NULL"

/-- The encoder escapes the line separators even without HTML escaping. -/
def jsonStringify (s : String) : String := jsonLiteral true s

def ngqlValue (fmt : FloatFormat F) : CodeGraphPrimitive F → String
  | .nil => "NULL"
  | .bool b => if b then "true" else "false"
  | .string s => jsonStringify s
  | .int n => toString n
  | .float x => formatFloat fmt x
  | .other => "NULL"

/-! ## Inserts -/

structure CodeGraphVertex (F : Type) where
  vid : String
  properties : SortedMap String (CodeGraphPrimitive F)

structure CodeGraphEdge (F : Type) where
  (fromVid toVid : String)
  rank : ℤ
  properties : SortedMap String (CodeGraphPrimitive F)

/-- The parts of a `CodeGraphSnapshot` the renderer reads. -/
structure CodeGraphSnapshot (F : Type) where
  vertices : List (CodeGraphVertex F)
  edges : List (CodeGraphEdge F)

/-- The values of a row in the order of its columns; an absent property reads as `nil`. -/
def valueParts (fmt : FloatFormat F) (props : List String)
    (properties : SortedMap String (CodeGraphPrimitive F)) : List String :=
  props.map fun prop => ngqlValue fmt ((properties.get prop).getD .nil)

/-- A row: what it is about, then its values in parentheses. -/
def insertRow (target : String) (values : List String) : String :=
  target ++ ": (" ++ ", ".intercalate values ++ ")"

def vertexRow (fmt : FloatFormat F) (v : CodeGraphVertex F) : String :=
  insertRow (jsonStringify v.vid) (valueParts fmt nodeProps v.properties)

def edgeRow (fmt : FloatFormat F) (e : CodeGraphEdge F) : String :=
  insertRow (jsonStringify e.fromVid ++ "->" ++ jsonStringify e.toVid ++ "@" ++ toString e.rank)
    (valueParts fmt edgeProps e.properties)

/-- The common shape of the two INSERT statements. -/
def insertStatement (kind name : String) (props rows : List String) : String :=
  "INSERT " ++ kind ++ " " ++ quoteIdentifier name ++ "(" ++
    ", ".intercalate (props.map quoteIdentifier) ++ ") VALUES " ++ ", ".intercalate rows ++ ";"

def renderVertexInsert (fmt : FloatFormat F) (vertices : List (CodeGraphVertex F)) : String :=
  insertStatement "VERTEX" nodeTag nodeProps (vertices.map (vertexRow fmt))

def renderEdgeInsert (fmt : FloatFormat F) (edges : List (CodeGraphEdge F)) : String :=
  insertStatement "EDGE" edgeType edgeProps (edges.map (edgeRow fmt))

/-! ## Batches -/

variable {α : Type}

section Batches

/-- Successive runs of `size` values, the last one perhaps shorter. -/
def chunksFrom (size : ℕ) : ℕ → List α → List (List α)
  | 0, _ => []
  | fuel + 1, values =>
    if values.isEmpty then [] else values.take size :: chunksFrom size fuel (values.drop size)

def chunks (size : ℕ) (values : List α) : List (List α) :=
  chunksFrom size values.length values

/-- The capacity the loop reserves, in 64-bit arithmetic. -/
def chunkCapacity (values : List α) (chunkSize : Int64) : Int64 :=
  (Int64.ofNat values.length + chunkSize - 1) / chunkSize

/-- `make` panics on a negative capacity. -/
def chunkArray (values : List α) (chunkSize : Int64) : Option (List (List α)) :=
  if chunkSize ≤ 0 then some (if values.isEmpty then [] else [values])
  else if chunkCapacity values chunkSize < 0 then none
  else some (chunks chunkSize.toNatClampNeg values)

variable {size : ℕ}

theorem flatten_chunksFrom (hsize : 0 < size) {fuel : ℕ} {values : List α}
    (hfuel : values.length ≤ fuel) : (chunksFrom size fuel values).flatten = values := by
  induction fuel generalizing values with
  | zero =>
    rw [List.eq_nil_of_length_eq_zero (Nat.le_zero.1 hfuel)]
    rfl
  | succ fuel ih =>
    unfold chunksFrom
    split_ifs with hempty
    · rw [List.isEmpty_iff.1 hempty]
      rfl
    · have hshorter : (values.drop size).length ≤ fuel := by
        rw [List.length_drop]
        omega
      rw [List.flatten_cons, ih hshorter, List.take_append_drop]

theorem flatten_chunks (hsize : 0 < size) (values : List α) :
    (chunks size values).flatten = values :=
  flatten_chunksFrom hsize le_rfl

theorem exists_of_mem_chunks {values chunk : List α} (h : chunk ∈ chunks size values) :
    ∃ rest : List α, rest ≠ [] ∧ chunk = rest.take size := by
  unfold chunks at h
  generalize values.length = fuel at h
  induction fuel generalizing values with
  | zero => exact absurd h (by simp [chunksFrom])
  | succ fuel ih =>
    unfold chunksFrom at h
    split_ifs at h with hempty
    · simp at h
    · rcases List.mem_cons.1 h with rfl | hrest
      · exact ⟨values, mt List.isEmpty_iff.2 hempty, rfl⟩
      · exact ih hrest

theorem ne_nil_of_mem_chunks (hsize : 0 < size) {values chunk : List α}
    (h : chunk ∈ chunks size values) : chunk ≠ [] := by
  obtain ⟨rest, hrest, rfl⟩ := exists_of_mem_chunks h
  rw [Ne, List.take_eq_nil_iff, not_or]
  exact ⟨Nat.ne_of_gt hsize, hrest⟩

theorem length_le_of_mem_chunks {values chunk : List α} (h : chunk ∈ chunks size values) :
    chunk.length ≤ size := by
  obtain ⟨rest, -, rfl⟩ := exists_of_mem_chunks h
  exact List.length_take_le size rest

theorem chunkArray_eq_some {values : List α} {chunkSize : Int64} {batches : List (List α)}
    (h : chunkArray values chunkSize = some batches) :
    batches.flatten = values ∧ ∀ batch ∈ batches, batch ≠ [] := by
  unfold chunkArray at h
  split_ifs at h with hsize hempty hcap
  · cases h
    simp [List.isEmpty_iff.1 hempty]
  · cases h
    simpa using hempty
  · cases h
    have hpos : 0 < chunkSize.toNatClampNeg := by
      simpa [Int64.lt_iff_toInt_lt] using Int64.not_le.1 hsize
    exact ⟨flatten_chunks hpos values, fun batch => ne_nil_of_mem_chunks hpos⟩

end Batches

def snapshotBatchSize : Int64 := 250

/-- `RenderSnapshotStatementsWithBatchSize`, `none` where a slice cannot be made. -/
def renderSnapshotStatementsWithBatchSize (fmt : FloatFormat F) (snapshot : CodeGraphSnapshot F)
    (batchSize : Int64) : Option (List String) :=
  let batchSize := if batchSize ≤ 0 then snapshotBatchSize else batchSize
  let capacity := Int64.ofNat renderSchemaStatements.length +
    chunkCapacity snapshot.vertices batchSize + chunkCapacity snapshot.edges batchSize
  if capacity < 0 then none
  else do
    let vertexChunks ← chunkArray snapshot.vertices batchSize
    let edgeChunks ← chunkArray snapshot.edges batchSize
    some (renderSchemaStatements ++ vertexChunks.map (renderVertexInsert fmt) ++
      edgeChunks.map (renderEdgeInsert fmt))

theorem renderSnapshotStatementsWithBatchSize_eq_some {fmt : FloatFormat F}
    {snapshot : CodeGraphSnapshot F} {batchSize : Int64} {statements : List String}
    (h : renderSnapshotStatementsWithBatchSize fmt snapshot batchSize = some statements) :
    ∃ (vertexChunks : List (List (CodeGraphVertex F))) (edgeChunks : List (List (CodeGraphEdge F))),
      statements = renderSchemaStatements ++
        vertexChunks.map (renderVertexInsert fmt) ++ edgeChunks.map (renderEdgeInsert fmt) ∧
      vertexChunks.flatten = snapshot.vertices ∧ edgeChunks.flatten = snapshot.edges ∧
      (∀ batch ∈ vertexChunks, batch ≠ []) ∧ ∀ batch ∈ edgeChunks, batch ≠ [] := by
  simp only [renderSnapshotStatementsWithBatchSize] at h
  generalize (if batchSize ≤ 0 then snapshotBatchSize else batchSize) = size at h
  split_ifs at h with hcapacity
  obtain ⟨vertexChunks, hvertices, h⟩ := Option.bind_eq_some_iff.1 h
  obtain ⟨edgeChunks, hedges, h⟩ := Option.bind_eq_some_iff.1 h
  obtain ⟨hvflat, hvne⟩ := chunkArray_eq_some hvertices
  obtain ⟨heflat, hene⟩ := chunkArray_eq_some hedges
  exact ⟨vertexChunks, edgeChunks, (Option.some.inj h).symm, hvflat, heflat, hvne, hene⟩

/-! ## Capacities that fit -/

section Capacity

theorem toInt_add_of_small {x y : Int64} (hlo : 0 ≤ x.toInt + y.toInt)
    (hhi : x.toInt + y.toInt < 2 ^ 63) : (x + y).toInt = x.toInt + y.toInt := by
  rw [Int64.toInt_add]
  exact Int.bmod_eq_of_le (by omega) (by omega)

theorem toInt_chunkCapacity {values : List α} {size : Int64} (hlen : values.length < 2 ^ 40)
    (hlo : 0 < size.toInt) (hhi : size.toInt < 2 ^ 40) :
    (chunkCapacity values size).toInt = ((values.length : ℤ) + size.toInt - 1) / size.toInt := by
  have hlength : (Int64.ofNat values.length).toInt = values.length :=
    Int64.toInt_ofNat_of_lt (by omega)
  have hone : (1 : Int64).toInt = 1 := rfl
  have hadd : (Int64.ofNat values.length + size).toInt = values.length + size.toInt := by
    rw [toInt_add_of_small (by omega) (by omega), hlength]
  have hsum : (Int64.ofNat values.length + size - 1).toInt = values.length + size.toInt - 1 := by
    rw [Int64.toInt_sub, hadd, hone]
    exact Int.bmod_eq_of_le (by omega) (by omega)
  have hmin : Int64.ofNat values.length + size - 1 ≠ Int64.minValue := by
    intro heq
    have hvalue : Int64.minValue.toInt = -2 ^ 63 := rfl
    rw [heq, hvalue] at hsum
    omega
  rw [chunkCapacity, Int64.toInt_div_of_ne_left _ _ hmin, hsum]
  exact Int.tdiv_eq_ediv_of_nonneg (by omega)

theorem chunkCapacity_bounds {values : List α} {size : Int64} (hlen : values.length < 2 ^ 40)
    (hlo : 0 < size.toInt) (hhi : size.toInt < 2 ^ 40) :
    0 ≤ (chunkCapacity values size).toInt ∧ (chunkCapacity values size).toInt < 2 ^ 41 := by
  rw [toInt_chunkCapacity hlen hlo hhi]
  refine ⟨Int.ediv_nonneg (by omega) hlo.le, ?_⟩
  have hle := Int.ediv_le_self size.toInt (show 0 ≤ (values.length : ℤ) + size.toInt - 1 by omega)
  omega

/-- Below these bounds, which no graph in memory reaches, every slice can be made. -/
theorem isSome_renderSnapshotStatementsWithBatchSize {fmt : FloatFormat F}
    {snapshot : CodeGraphSnapshot F} {batchSize : Int64} (hv : snapshot.vertices.length < 2 ^ 40)
    (he : snapshot.edges.length < 2 ^ 40) (hsize : batchSize.toInt < 2 ^ 40) :
    (renderSnapshotStatementsWithBatchSize fmt snapshot batchSize).isSome = true := by
  obtain ⟨size, hdef, hlo, hhi⟩ : ∃ size : Int64,
      (if batchSize ≤ 0 then snapshotBatchSize else batchSize) = size ∧ 0 < size.toInt ∧
        size.toInt < 2 ^ 40 := by
    refine ⟨_, rfl, ?_⟩
    have hzero : (0 : Int64).toInt = 0 := rfl
    split_ifs with hneg
    · exact ⟨by decide, by decide⟩
    · rw [Int64.le_iff_toInt_le, hzero] at hneg
      omega
  have hnotneg : ∀ x : Int64, 0 ≤ x.toInt → ¬x < 0 := by
    intro x hx hlt
    have hzero : (0 : Int64).toInt = 0 := rfl
    rw [Int64.lt_iff_toInt_lt, hzero] at hlt
    omega
  have hpos : ¬size ≤ 0 := by
    have hzero : (0 : Int64).toInt = 0 := rfl
    rw [Int64.le_iff_toInt_le, hzero]
    omega
  obtain ⟨hvlo, hvhi⟩ := chunkCapacity_bounds hv hlo hhi
  obtain ⟨helo, hehi⟩ := chunkCapacity_bounds he hlo hhi
  have hcapacity : 0 ≤ (Int64.ofNat renderSchemaStatements.length +
      chunkCapacity snapshot.vertices size + chunkCapacity snapshot.edges size).toInt := by
    have hseven : (Int64.ofNat renderSchemaStatements.length).toInt = 7 := rfl
    have hfirst : (Int64.ofNat renderSchemaStatements.length +
        chunkCapacity snapshot.vertices size).toInt =
          7 + (chunkCapacity snapshot.vertices size).toInt := by
      rw [toInt_add_of_small (by omega) (by omega), hseven]
    rw [toInt_add_of_small (by omega) (by omega), hfirst]
    omega
  unfold renderSnapshotStatementsWithBatchSize
  rw [hdef, if_neg (hnotneg _ hcapacity)]
  unfold chunkArray
  rw [if_neg hpos, if_neg (hnotneg _ hvlo), if_neg hpos, if_neg (hnotneg _ helo)]
  rfl

end Capacity

end CodeIntel.Graphschema
