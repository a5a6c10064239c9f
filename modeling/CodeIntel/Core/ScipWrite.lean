import CodeIntel.Core.Activate
import CodeIntel.Graph.Visibility
import CodeIntel.Graphstore.RoundTrip

/-!
# Writing the SCIP projection to the graph store

The merge handler renders its projection chunk by chunk and hands every chunk to the
graph store with the scope of the payload. The graph store validates it like a payload
of the indexer. The payload check of the subjob queue accepts texts of blanks, the
scope check of the graph store does not.
-/

namespace CodeIntel.Core

open Relational Schema Subjobs Text
open CodeIntel.Graph Graphschema Graphstore

/-! ## Chunks -/

def defaultSCIPGraphBatch : ℤ := 500

/-- The argument is the value of the environment variable. -/
def scipGraphBatchSize (env : String) : ℤ :=
  let raw := trimSpaceChars env.toList
  if raw = [] then defaultSCIPGraphBatch
  else match parseInt64 raw with
    | none => defaultSCIPGraphBatch
    | some value =>
      if value ≤ 0 then defaultSCIPGraphBatch else if 10000 < value then 10000 else value

theorem scipGraphBatchSize_bounds (env : String) :
    0 < scipGraphBatchSize env ∧ scipGraphBatchSize env ≤ 10000 := by
  have hdefault : defaultSCIPGraphBatch = 500 := rfl
  unfold scipGraphBatchSize
  dsimp only
  split_ifs with hempty
  · omega
  · split
    · omega
    · split_ifs <;> omega

section Writes

variable {F : Type} (fmt : FloatFormat F) (ofHundredths : ℕ → F)

/-- A property as the renderer reads it; `ofHundredths` reads the float literals. -/
def toPrimitive : Primitive → CodeGraphPrimitive F
  | .str s => .string s
  | .int n => .int n
  | .hundredths n => .float (ofHundredths n)

def renderedProperties (props : Props) : SortedMap String (CodeGraphPrimitive F) :=
  SortedMap.ofRows Prod.fst (fun entry => toPrimitive ofHundredths entry.2) props

def renderedVertex (v : Vertex) : CodeGraphVertex F :=
  ⟨v.vid, renderedProperties ofHundredths v.props⟩

def renderedEdge (e : Edge) : CodeGraphEdge F :=
  ⟨e.fromVid, e.toVid, e.rank, renderedProperties ofHundredths e.props⟩

def scipWrite (p : Payload) (statements : List String) : RenderedStatementWrite where
  orgId := p.orgId
  workspaceId := workspaceOf p
  repoId := p.repoId
  revision := p.revision
  commitHash := p.commitHash
  schemaVersion := defaultSchemaVersion
  builderVersion := defaultBuilder
  source := "scip"
  statements := statements

/-- What it hands to the graph store, `none` where the renderer panics. -/
def writeSCIPSnapshotChunkToGraph (env : String) (p : Payload) (chunk : CodeGraphSnapshot F) :
    Option (List RenderedStatementWrite) :=
  if chunk.vertices.isEmpty && chunk.edges.isEmpty then some []
  else (renderSnapshotStatementsWithBatchSize fmt chunk (Int64.ofInt (scipGraphBatchSize env))).map
    fun statements => [scipWrite p statements]

/-- The chunks of the two loops of `writeSCIPSnapshotToGraph`. -/
def scipChunks (size : ℕ) (snapshot : CodeGraphSnapshot F) : List (CodeGraphSnapshot F) :=
  (chunks size snapshot.vertices).map (fun vertices => ⟨vertices, []⟩) ++
    (chunks size snapshot.edges).map fun edges => ⟨[], edges⟩

/-- The writes of a graph store that answers every one. -/
def writeSCIPSnapshotToGraph (env : String) (p : Payload) (snapshot : CodeGraphSnapshot F) :
    Option (List RenderedStatementWrite) :=
  ((scipChunks (scipGraphBatchSize env).toNat snapshot).mapM
    (writeSCIPSnapshotChunkToGraph fmt env p)).map List.flatten

end Writes

/-! ## Properties of the projection -/

section Properties

variable {p : Payload} {props : List (String × Option Primitive)}

def keptProps (props : List (String × Option Primitive)) : Props :=
  props.filterMap fun (k, v) =>
    match v with
    | none => none
    | some (.str "") => none
    | some v => some (k, v)

theorem keptProps_sublist (props : List (String × Option Primitive)) :
    ((keptProps props).map Prod.fst).Sublist (props.map Prod.fst) := by
  induction props with
  | nil => exact List.Sublist.refl _
  | cons entry props ih =>
    obtain ⟨k, v⟩ := entry
    have hkept : keptProps ((k, v) :: props) = keptProps props ∨
        ∃ value, keptProps ((k, v) :: props) = (k, value) :: keptProps props := by
      rw [keptProps, List.filterMap_cons]
      dsimp only
      split
      · exact .inl rfl
      · rename_i kept hkept
        split at hkept
        · simp at hkept
        · simp at hkept
        · rename_i value _
          rw [← Option.some.inj hkept]
          exact .inr ⟨value, rfl⟩
    rcases hkept with hkept | ⟨value, hkept⟩
    · rw [hkept]
      exact ih.trans (List.sublist_cons_self _ _)
    · rw [hkept]
      exact ih.cons_cons k

theorem uniqueKey_layProps {bag extra : Props} (hbag : UniqueKey Prod.fst bag)
    (hextra : UniqueKey Prod.fst extra) : UniqueKey Prod.fst (layProps bag extra) := by
  unfold UniqueKey layProps at *
  rw [List.map_append, List.nodup_append]
  refine ⟨hbag.sublist (List.Sublist.map _ List.filter_sublist), hextra, ?_⟩
  intro k hk k' hk' heq
  obtain ⟨entry, hentry, rfl⟩ := List.mem_map.1 hk
  obtain ⟨entry', hentry', rfl⟩ := List.mem_map.1 hk'
  have hkeep := (List.mem_filter.1 hentry).2
  simp only [Bool.not_eq_true', List.any_eq_false, decide_eq_true_eq] at hkeep
  exact hkeep entry' hentry' heq.symm

theorem uniqueKey_scopedProps (h : (props.map Prod.fst).Nodup) :
    UniqueKey Prod.fst (scopedProps p props) := by
  have hscope : UniqueKey Prod.fst (scopeProps p) :=
    (by decide : List.Nodup ["orgId", "workspaceId", "repoId", "revision", "commitHash",
      "schemaVersion", "builderVersion"])
  exact uniqueKey_layProps hscope (h.sublist (keptProps_sublist props))

theorem mem_scopedProps_of_mem_scopeProps {entry : String × Primitive} (h : entry ∈ scopeProps p)
    (hfresh : entry.1 ∉ props.map Prod.fst) : entry ∈ scopedProps p props := by
  refine List.mem_append_left _ (List.mem_filter.2 ⟨h, ?_⟩)
  simp only [Bool.not_eq_true', List.any_eq_false, decide_eq_true_eq]
  intro kept hkept heq
  exact hfresh ((keptProps_sublist props).subset (heq ▸ List.mem_map_of_mem hkept))

theorem mem_scopedProps_of_mem {k s : String} (h : (k, some (.str s)) ∈ props) (hs : s ≠ "") :
    (k, .str s) ∈ scopedProps p props := by
  refine List.mem_append_right _ (List.mem_filterMap.2 ⟨_, h, ?_⟩)
  dsimp only
  split
  · rename_i heq
    simp at heq
  · rename_i heq
    exact absurd (Primitive.str.inj (Option.some.inj heq)) hs
  · rename_i heq
    rw [Option.some.inj heq]

variable {F : Type} {ofHundredths : ℕ → F}

theorem get_renderedProperties {entry : String × Primitive} (hkeys : (props.map Prod.fst).Nodup)
    (h : entry ∈ scopedProps p props) :
    (renderedProperties ofHundredths (scopedProps p props)).get entry.1 =
      some (toPrimitive ofHundredths entry.2) :=
  SortedMap.get_ofRows_of_mem (uniqueKey_scopedProps hkeys) h

def scopeNames : List String :=
  ["orgId", "workspaceId", "repoId", "revision", "commitHash", "schemaVersion", "builderVersion"]

theorem scopeProperties_scopedProps {statements : List String}
    (hkeys : (scopeNames ++ props.map Prod.fst).Nodup) :
    ScopeProperties (scipWrite p statements)
      (renderedProperties ofHundredths (scopedProps p props)) := by
  rw [List.nodup_append] at hkeys
  have hvalues : scopeValues (F := F) (scipWrite p statements) =
      (scopeProps p).map fun entry => (entry.1, toPrimitive ofHundredths entry.2) := rfl
  unfold ScopeProperties
  rw [hvalues, List.forall_mem_map]
  intro entry hentry
  apply get_renderedProperties hkeys.2.1
  apply mem_scopedProps_of_mem_scopeProps hentry
  have hname : entry.1 ∈ scopeNames := List.mem_map_of_mem (f := Prod.fst) hentry
  exact fun hmem => hkeys.2.2 _ hname _ hmem rfl

end Properties

/-! ## Acceptance -/

section Acceptance

variable {F : Type} {fmt : FloatFormat F} {ofHundredths : ℕ → F} {d : HexDigests} {p : Payload}
  {statements : List String}

variable {kind : String} {props : List (String × Option Primitive)} {b : SnapshotBuild}
  {snapshot chunk : CodeGraphSnapshot F}

theorem scopedVid_codeGraphVID (hne : kind ≠ "") (hcolon : ':' ∉ kind.toList) (key : String) :
    ScopedVid d.toDigests (scipWrite p statements) (codeGraphVID d.toDigests p kind key) kind := by
  exact scopedVid_vid (v := payloadIdentity p kind key) ⟨rfl, rfl, rfl, rfl, rfl, rfl⟩ hne hcolon

theorem scopedVid_of_scipVertex {v : Vertex} (hv : ScipVertex d.toDigests p v) :
    ScopedVid d.toDigests (scipWrite p statements) v.vid v.kind := by
  cases hv with
  | symbol s => exact scopedVid_codeGraphVID (by decide) (by decide) s.symbol
  | bareSymbol symbol => exact scopedVid_codeGraphVID (by decide) (by decide) symbol
  | file path => exact scopedVid_codeGraphVID (by decide) (by decide) path

theorem scopedVertex_of_scopedProps {vid : String}
    (hkeys : (scopeNames ++ props.map Prod.fst).Nodup)
    (hkind : ("kind", some (.str kind)) ∈ props)
    (hvid : ScopedVid d.toDigests (scipWrite p statements) vid kind) :
    ScopedVertex d.toDigests (scipWrite p statements)
      ⟨vid, renderedProperties ofHundredths (scopedProps p props)⟩ where
  scope := scopeProperties_scopedProps hkeys
  vid := ⟨kind, get_renderedProperties (List.nodup_append.1 hkeys).2.1
    (mem_scopedProps_of_mem hkind hvid.kind_ne), hvid⟩

theorem scopedVertex_of_scipVertex {v : Vertex} (hv : ScipVertex d.toDigests p v) :
    ScopedVertex d.toDigests (scipWrite p statements) (renderedVertex ofHundredths v) := by
  have hvid : ScopedVid d.toDigests (scipWrite p statements) v.vid v.kind :=
    scopedVid_of_scipVertex hv
  cases hv with
  | symbol s =>
    exact scopedVertex_of_scopedProps
      (by decide : List.Nodup (scopeNames ++ ["kind", "key", "label", "symbol", "symbolKind",
        "language", "path", "evidenceFilePath", "startLine", "endLine", "confidence",
        "confidenceTier", "source", "provenance"])) List.mem_cons_self hvid
  | bareSymbol symbol =>
    exact scopedVertex_of_scopedProps
      (by decide : List.Nodup (scopeNames ++ ["kind", "key", "label", "symbol", "confidence",
        "confidenceTier", "source", "provenance"])) List.mem_cons_self hvid
  | file path =>
    exact scopedVertex_of_scopedProps
      (by decide : List.Nodup (scopeNames ++ ["kind", "key", "label", "path", "evidenceFilePath",
        "confidence", "confidenceTier", "source", "provenance"])) List.mem_cons_self hvid

theorem scopedEdge_of_scopedProps {fromVid toVid : String}
    (hkeys : (scopeNames ++ props.map Prod.fst).Nodup)
    (hkind : ("kind", some (.str kind)) ∈ props) (hne : kind ≠ "")
    (hsource : ("source", some (.str "scip")) ∈ props)
    (hfrom : ∃ kind, ScopedVid d.toDigests (scipWrite p statements) fromVid kind)
    (hto : ∃ kind, ScopedVid d.toDigests (scipWrite p statements) toVid kind) :
    ScopedEdge d.toDigests (scipWrite p statements)
      ⟨fromVid, toVid, d.edgeRank (fromVid ++ "->" ++ toVid ++ ":" ++ kind ++ ":scip"),
        renderedProperties ofHundredths (scopedProps p props)⟩ where
  scope := scopeProperties_scopedProps hkeys
  fromVid := hfrom
  toVid := hto
  rank := by
    have hnames := (List.nodup_append.1 hkeys).2.1
    refine ⟨kind, "scip", get_renderedProperties hnames (mem_scopedProps_of_mem hkind hne),
      get_renderedProperties hnames (mem_scopedProps_of_mem hsource (by decide)), ?_⟩
    have hjoin : ":scip" = ":" ++ "scip" := by decide
    rw [hjoin, ← String.append_assoc]
  rank_nonneg := d.edgeRank_nonneg _
  rank_le := d.edgeRank_le _

theorem scopedEdge_of_isScipEdge {e : Edge} (he : IsScipEdge d.toDigests p e)
    (hfrom : ∃ kind, ScopedVid d.toDigests (scipWrite p statements) e.fromVid kind)
    (hto : ∃ kind, ScopedVid d.toDigests (scipWrite p statements) e.toVid kind) :
    ScopedEdge d.toDigests (scipWrite p statements) (renderedEdge ofHundredths e) := by
  obtain ⟨evidence, hkind, heq⟩ := he
  rw [heq]
  exact scopedEdge_of_scopedProps
    (by decide : List.Nodup (scopeNames ++ ["kind", "normalizedKey", "evidenceFilePath",
      "startLine", "endLine", "confidence", "confidenceTier", "source", "provenance", "context"]))
    List.mem_cons_self hkind (by simp) hfrom hto

theorem scopedVid_of_mem_vids (hb : Built d.toDigests p b) {vid : String} (h : vid ∈ b.vids) :
    ∃ kind, ScopedVid d.toDigests (scipWrite p statements) vid kind := by
  obtain ⟨v, hv, rfl⟩ := List.mem_map.1 h
  exact ⟨v.kind, scopedVid_of_scipVertex (hb.scipVertex v hv)⟩

theorem isCommitHash_of_validPayload (hp : validPayload p = true) :
    isCommitHash p.commitHash = true ∧ 0 < p.orgId ∧ 0 < p.repoId := by
  simp only [validPayload, Bool.and_eq_true, decide_eq_true_eq] at hp
  tauto

/-- The scope of a valid payload passes unless it has blanks where the check trims. -/
theorem validateRenderedScope_scipWrite (hp : validPayload p = true) :
    validateRenderedScope (scipWrite p statements) = .ok () ↔
      isBlank (workspaceOf p) = false ∧ isBlank p.revision = false := by
  obtain ⟨hcommit, horg, hrepo⟩ := isCommitHash_of_validPayload hp
  have hschema : ¬defaultSchemaVersion ≤ 0 := by decide
  have hbuilder : isBlank defaultBuilder = false := by decide
  have hsource : isBlank "scip" = false := by decide
  unfold validateRenderedScope scipWrite
  dsimp only
  rw [if_neg (not_le.2 horg), if_neg (not_le.2 hrepo), hcommit, Bool.not_true,
    if_neg Bool.false_ne_true, if_neg hschema, hbuilder, if_neg Bool.false_ne_true, hsource,
    if_neg Bool.false_ne_true]
  cases isBlank (workspaceOf p) with
  | true => simp [Graphstore.failure]
  | false => cases isBlank p.revision <;> simp [Graphstore.failure]

/-! ### The writes -/

theorem mem_scipChunks {size : ℕ} (hsize : 0 < size) (h : chunk ∈ scipChunks size snapshot) :
    (chunk.vertices ≠ [] ∨ chunk.edges ≠ []) ∧ chunk.vertices ⊆ snapshot.vertices ∧
      chunk.edges ⊆ snapshot.edges ∧ chunk.vertices.length ≤ size ∧ chunk.edges.length ≤ size := by
  rcases List.mem_append.1 h with h | h
  · obtain ⟨vertices, hmem, rfl⟩ := List.mem_map.1 h
    have hsub : vertices ⊆ snapshot.vertices := fun v hv =>
      flatten_chunks hsize snapshot.vertices ▸ List.mem_flatten_of_mem hmem hv
    exact ⟨.inl (ne_nil_of_mem_chunks hsize hmem), hsub, List.nil_subset _,
      length_le_of_mem_chunks hmem, Nat.zero_le _⟩
  · obtain ⟨edges, hmem, rfl⟩ := List.mem_map.1 h
    have hsub : edges ⊆ snapshot.edges := fun e he =>
      flatten_chunks hsize snapshot.edges ▸ List.mem_flatten_of_mem hmem he
    exact ⟨.inr (ne_nil_of_mem_chunks hsize hmem), List.nil_subset _, hsub, Nat.zero_le _,
      length_le_of_mem_chunks hmem⟩

theorem exists_render_chunk (fmt : FloatFormat F) (env : String)
    (h : chunk ∈ scipChunks (scipGraphBatchSize env).toNat snapshot) :
    ∃ statements, renderSnapshotStatementsWithBatchSize fmt chunk
      (Int64.ofInt (scipGraphBatchSize env)) = some statements := by
  obtain ⟨hpos, hle⟩ := scipGraphBatchSize_bounds env
  obtain ⟨-, -, -, hv, he⟩ := mem_scipChunks (by omega) h
  have hsize : (Int64.ofInt (scipGraphBatchSize env)).toInt = scipGraphBatchSize env :=
    Int64.toInt_ofInt_of_le (by omega) (by omega)
  exact Option.isSome_iff_exists.1
    (isSome_renderSnapshotStatementsWithBatchSize (by omega) (by omega) (by omega))

theorem mapM_eq_some {α β : Type} {f : α → Option β} {g : α → β} {as : List α}
    (h : ∀ a ∈ as, f a = some (g a)) : as.mapM f = some (as.map g) := by
  induction as with
  | nil => rfl
  | cons a as ih =>
    rw [List.mapM_cons, h a List.mem_cons_self, ih fun a ha => h a (List.mem_cons_of_mem _ ha)]
    rfl

theorem writeSCIPSnapshotToGraph_eq (env : String) (p : Payload) (snapshot : CodeGraphSnapshot F) :
    writeSCIPSnapshotToGraph fmt env p snapshot =
      some ((scipChunks (scipGraphBatchSize env).toNat snapshot).map fun chunk =>
        scipWrite p ((renderSnapshotStatementsWithBatchSize fmt chunk
          (Int64.ofInt (scipGraphBatchSize env))).getD [])) := by
  have hpos := (scipGraphBatchSize_bounds env).1
  have hwrite : ∀ chunk ∈ scipChunks (scipGraphBatchSize env).toNat snapshot,
      writeSCIPSnapshotChunkToGraph fmt env p chunk =
        some [scipWrite p ((renderSnapshotStatementsWithBatchSize fmt chunk
          (Int64.ofInt (scipGraphBatchSize env))).getD [])] := by
    intro chunk hchunk
    obtain ⟨hne, -⟩ := mem_scipChunks (by omega) hchunk
    obtain ⟨statements, hrender⟩ := exists_render_chunk fmt env hchunk
    unfold writeSCIPSnapshotChunkToGraph
    rw [if_neg, hrender]
    · rfl
    · rw [Bool.and_eq_true, List.isEmpty_iff, List.isEmpty_iff]
      exact fun hnil => hne.elim (· hnil.1) (· hnil.2)
  rw [writeSCIPSnapshotToGraph, mapM_eq_some hwrite, Option.map_some, ← List.flatMap_def,
    List.map_eq_flatMap]

/-- The projection as the writer sees it; the vertices come from a Go map, in any order. -/
def renderedSnapshot (ofHundredths : ℕ → F) (vertices : List Vertex) (edges : List Edge) :
    CodeGraphSnapshot F :=
  ⟨vertices.map (renderedVertex ofHundredths), edges.map (renderedEdge ofHundredths)⟩

/-- Whatever the batch size and the order of the vertices, every chunk is written and accepted. -/
def ChunksAccepted (d : Digests) (fmt : FloatFormat F) (ofHundredths : ℕ → F) (p : Payload)
    (b : SnapshotBuild) : Prop :=
  ∀ env vertices, vertices.Perm b.vertices → ∃ writes,
    writeSCIPSnapshotToGraph fmt env p (renderedSnapshot ofHundredths vertices b.edges) =
      some writes ∧
    ∀ write ∈ writes, ∃ counts, validateRenderedStatementWrite d write = .ok counts

theorem chunksAccepted_of_scope (hb : Built d.toDigests p b)
    (hscope : ∀ statements, validateRenderedScope (scipWrite p statements) = .ok ()) :
    ChunksAccepted d.toDigests fmt ofHundredths p b := by
  intro env vertices hperm
  have hpos := (scipGraphBatchSize_bounds env).1
  refine ⟨_, writeSCIPSnapshotToGraph_eq env p _, List.forall_mem_map.2 fun chunk hchunk => ?_⟩
  obtain ⟨-, hvertices, hedges, -, -⟩ := mem_scipChunks (by omega) hchunk
  obtain ⟨statements, hrender⟩ := exists_render_chunk fmt env hchunk
  rw [hrender, Option.getD_some]
  refine ⟨_, validateRenderedStatementWrite_of_scoped (hscope statements) hrender ?_ ?_⟩
  · intro v hv
    obtain ⟨source, hsource, rfl⟩ := List.mem_map.1 (hvertices hv)
    exact scopedVertex_of_scipVertex (hb.scipVertex source (hperm.mem_iff.1 hsource))
  · intro e he
    obtain ⟨source, hsource, rfl⟩ := List.mem_map.1 (hedges he)
    have hends := hb.wellFormed.closed source hsource
    exact scopedEdge_of_isScipEdge (hb.isScipEdge source hsource)
      (scopedVid_of_mem_vids hb hends.1) (scopedVid_of_mem_vids hb hends.2)

theorem chunksAccepted_of_vids_eq_nil (hb : Built d.toDigests p b) (hnil : b.vids = []) :
    ChunksAccepted d.toDigests fmt ofHundredths p b := by
  intro env vertices hperm
  have hvertices : vertices = [] := by
    rw [List.map_eq_nil_iff.1 hnil] at hperm
    exact hperm.eq_nil
  have hedges : b.edges = [] := by
    refine List.eq_nil_iff_forall_not_mem.2 fun e he => ?_
    have hfrom := (hb.wellFormed.closed e he).1
    rw [hnil] at hfrom
    exact absurd hfrom List.not_mem_nil
  refine ⟨_, writeSCIPSnapshotToGraph_eq env p _, ?_⟩
  rw [hvertices, hedges]
  exact fun write hwrite => absurd hwrite List.not_mem_nil

theorem scope_of_chunksAccepted (hne : b.vids ≠ [])
    (h : ChunksAccepted d.toDigests fmt ofHundredths p b) :
    ∃ statements, validateRenderedScope (scipWrite p statements) = .ok () := by
  obtain ⟨writes, hwrites, haccepted⟩ := h "" b.vertices (List.Perm.refl _)
  rw [writeSCIPSnapshotToGraph_eq] at hwrites
  cases hwrites
  have hchunks : chunks (scipGraphBatchSize "").toNat
      (b.vertices.map (renderedVertex ofHundredths)) ≠ [] := by
    intro hnil
    have hsize : 0 < (scipGraphBatchSize "").toNat := by decide
    have hflat := flatten_chunks hsize (b.vertices.map (renderedVertex ofHundredths))
    rw [hnil, List.flatten_nil] at hflat
    exact hne (by rw [SnapshotBuild.vids, List.map_eq_nil_iff.1 hflat.symm]; rfl)
  obtain ⟨first, hfirst⟩ := List.exists_mem_of_ne_nil _ hchunks
  obtain ⟨counts, hcounts⟩ := haccepted _ (List.mem_map_of_mem
    (List.mem_append_left _ (List.mem_map_of_mem hfirst)))
  exact ⟨_, (validateRenderedStatementWrite_eq_ok.1 hcounts).1⟩

/-- The projection of a valid payload is a well-formed graph, and its chunks are accepted
unless the workspace or the revision is blank and there is something to write. -/
theorem scipProjection_accepted_iff (d : HexDigests) (fmt : FloatFormat F) (ofHundredths : ℕ → F)
    (hp : validPayload p = true) (rows : ScipRows) :
    WellFormed (buildSCIPSnapshot d.toDigests p rows) ∧
      (ChunksAccepted d.toDigests fmt ofHundredths p (buildSCIPSnapshot d.toDigests p rows) ↔
        rows.isEmpty = true ∨ isBlank (workspaceOf p) = false ∧ isBlank p.revision = false) := by
  have hbuilt : Built d.toDigests p (buildSCIPSnapshot d.toDigests p rows) :=
    buildSCIPSnapshot_built rows
  refine ⟨hbuilt.wellFormed, ?_, ?_⟩
  · intro haccepted
    by_cases hrows : rows.isEmpty = true
    · exact .inl hrows
    · obtain ⟨statements, hscope⟩ :=
        scope_of_chunksAccepted (mt vids_buildSCIPSnapshot_eq_nil.1 hrows) haccepted
      exact .inr ((validateRenderedScope_scipWrite hp).1 hscope)
  · rintro (hrows | hblank)
    · exact chunksAccepted_of_vids_eq_nil hbuilt (vids_buildSCIPSnapshot_eq_nil.2 hrows)
    · exact chunksAccepted_of_scope hbuilt fun statements =>
        (validateRenderedScope_scipWrite hp).2 hblank

theorem scipProjection_accepted_iff_main :
    validPayload (branchPayload "main") = true ∧
      WellFormed (buildSCIPSnapshot firstCharDigests.toDigests (branchPayload "main")
        (symbolRows "f")) ∧
      (ChunksAccepted firstCharDigests.toDigests noFloats (fun _ => ()) (branchPayload "main")
        (buildSCIPSnapshot firstCharDigests.toDigests (branchPayload "main") (symbolRows "f")) ↔
        (symbolRows "f").isEmpty = true ∨ isBlank (workspaceOf (branchPayload "main")) = false ∧
          isBlank (branchPayload "main").revision = false) := by
  have hp : validPayload (branchPayload "main") = true := by decide +kernel
  exact ⟨hp, scipProjection_accepted_iff firstCharDigests noFloats (fun _ => ()) hp (symbolRows "f")⟩

/-- A revision of one blank passes the check of the queue, and its chunks are refused. -/
theorem blankRevision_refused :
    validPayload (branchPayload " ") = true ∧
      ¬ChunksAccepted firstCharDigests.toDigests noFloats (fun _ => ()) (branchPayload " ")
        (buildSCIPSnapshot firstCharDigests.toDigests (branchPayload " ") (symbolRows "f")) := by
  have hp : validPayload (branchPayload " ") = true := by decide +kernel
  refine ⟨hp, fun haccepted => ?_⟩
  have hne : (buildSCIPSnapshot firstCharDigests.toDigests (branchPayload " ")
      (symbolRows "f")).vids ≠ [] := fun hnil =>
    absurd (vids_buildSCIPSnapshot_eq_nil.1 hnil) (by decide)
  obtain ⟨statements, hscope⟩ := scope_of_chunksAccepted hne haccepted
  have hblank := ((validateRenderedScope_scipWrite hp).1 hscope).2
  exact absurd hblank (by decide)

end Acceptance

end CodeIntel.Core
