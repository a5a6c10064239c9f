import CodeIntel.Graph.ScipGraph
import CodeIntel.Relational.OverwritingMap

/-!
# What a revision sees of the graph store

The store keeps one property map for each vertex identifier and for each pair of
end points, and an insert overwrites. The reader selects by the properties of a
revision, while the identifiers leave the revision out. A write for another
branch is therefore never selected, and takes away what it overwrites.
-/

namespace CodeIntel.Graph

open Relational Schema Subjobs Text

/-! ## Property maps -/

section Props

variable {key : String} {bag extra : Props}

theorem lookup_filter_of_keep {q : String × Primitive → Bool}
    (hq : ∀ entry ∈ bag, entry.1 = key → q entry = true) :
    (bag.filter q).lookup key = bag.lookup key := by
  induction bag with
  | nil => rfl
  | cons entry bag ih =>
    obtain ⟨hhead, htail⟩ := List.forall_mem_cons.1 hq
    have hrest := ih htail
    obtain ⟨k, v⟩ := entry
    by_cases hk : k = key
    · subst hk
      rw [List.filter_cons_of_pos (hhead rfl)]
      rw [List.lookup_cons_self, List.lookup_cons_self]
    · have hne : (key == k) = false := by simpa using Ne.symm hk
      cases hqe : q (k, v) with
      | true =>
        rw [List.filter_cons_of_pos hqe]
        simp only [List.lookup_cons, hne, hrest]
      | false =>
        rw [List.filter_cons_of_neg (by simp [hqe])]
        simp only [List.lookup_cons, hne, hrest]

theorem lookup_layProps (h : ∀ entry ∈ extra, entry.1 ≠ key) {v : Primitive}
    (hbag : bag.lookup key = some v) : (layProps bag extra).lookup key = some v := by
  have hkeep : ∀ entry ∈ bag, entry.1 = key →
      (!extra.any fun entry' => entry'.1 = entry.1) = true := by
    rintro entry - rfl
    simpa using h
  unfold layProps
  rw [List.lookup_append, lookup_filter_of_keep hkeep, hbag, Option.some_or]

end Props

/-! ## Snapshots of a revision -/

def NamesRevision (revision : String) (props : Props) : Prop :=
  props.lookup "revision" = some (.str revision)

/-- Every vertex and every edge of the snapshot names this revision. -/
structure CarriesRevision (revision : String) (b : SnapshotBuild) : Prop where
  vertices : ∀ v ∈ b.vertices, NamesRevision revision v.props
  edges : ∀ e ∈ b.edges, NamesRevision revision e.props

section Scip

variable {d : Digests} {p : Payload}

theorem scopedProps_namesRevision {props : List (String × Option Primitive)}
    (h : ∀ entry ∈ props, entry.1 ≠ "revision") :
    NamesRevision p.revision (scopedProps p props) := by
  have hlay : ∀ kept : Props, (∀ entry ∈ kept, entry.1 ≠ "revision") →
      NamesRevision p.revision (layProps (scopeProps p) kept) :=
    fun kept hkept => lookup_layProps hkept rfl
  refine hlay _ fun entry hentry => ?_
  obtain ⟨source, hsource, hkept⟩ := List.mem_filterMap.1 hentry
  have hkey : entry.1 = source.1 := by
    obtain ⟨k, v⟩ := source
    dsimp only at hkept
    split at hkept
    · cases hkept
    · cases hkept
    · rw [← Option.some.inj hkept]
  rw [hkey]
  exact h source hsource

theorem ScipVertex.namesRevision {v : Vertex} (h : ScipVertex d p v) :
    NamesRevision p.revision v.props := by
  cases h <;> exact scopedProps_namesRevision (by simp)

theorem IsScipEdge.namesRevision {e : Edge} (h : IsScipEdge d p e) :
    NamesRevision p.revision e.props := by
  obtain ⟨evidence, -, heq⟩ := h
  rw [heq]
  exact scopedProps_namesRevision (by simp)

theorem buildSCIPSnapshot_carriesRevision (rows : ScipRows) :
    CarriesRevision p.revision (buildSCIPSnapshot d p rows) where
  vertices v hv := ((buildSCIPSnapshot_built rows).scipVertex v hv).namesRevision
  edges e he := ((buildSCIPSnapshot_built rows).isScipEdge e he).namesRevision

end Scip

/-! ## AST graphs -/

/-- Every vertex and every edge of the accumulator names this revision. -/
structure AccumulatesRevision (revision : String) (graph : GraphAccumulator) : Prop where
  vertices : ∀ entry ∈ graph.vertices, NamesRevision revision entry.2.props
  edges : ∀ entry ∈ graph.edges, NamesRevision revision entry.2.props

section Ast

variable {d : Digests} {scope : CodeGraphScope} {revision : String}
  {graph graph' : GraphAccumulator}

theorem addVertex_accumulates (hgraph : AccumulatesRevision scope.revision graph)
    {kind key vid : String} {properties : Props} (hprops : ∀ entry ∈ properties, entry.1 ≠ "revision")
    (h : addVertex d scope kind key properties graph = .ok (vid, graph')) :
    AccumulatesRevision scope.revision graph' := by
  obtain ⟨vid', hvid, h⟩ := bind_eq_ok.1 h
  split at h
  · cases h
    exact hgraph
  · cases h
    refine ⟨List.forall_mem_append.2 ⟨hgraph.vertices, ?_⟩, hgraph.edges⟩
    exact List.forall_mem_singleton.2 (lookup_layProps hprops rfl)

theorem astEdge_namesRevision (fromVid toVid kind source : String) (options : AddEdgeOptions) :
    NamesRevision scope.revision (astEdge d scope fromVid toVid kind source options).props := by
  unfold NamesRevision astEdge
  exact List.lookup_append.trans (by rfl)

section Accumulates

variable (hgraph : AccumulatesRevision scope.revision graph)
include hgraph

theorem addEdge_accumulates (fromVid toVid kind source : String) (options : AddEdgeOptions) :
    AccumulatesRevision scope.revision
      (addEdge d scope fromVid toVid kind source options graph) := by
  unfold addEdge
  dsimp only
  split
  · exact hgraph
  · refine ⟨hgraph.vertices, List.forall_mem_append.2 ⟨hgraph.edges, ?_⟩⟩
    exact List.forall_mem_singleton.2 (astEdge_namesRevision fromVid toVid kind source options)

variable {fileVids : List (String × String)} {language source tier : String}
  {fact : SyntacticAstFact}

theorem ensureFile_accumulates {repoVid filePath : String}
    {file : String × List (String × String) × GraphAccumulator}
    (h : ensureFile d scope repoVid filePath fileVids graph = .ok file) :
    AccumulatesRevision scope.revision file.2.2 := by
  unfold ensureFile addFileVertex at h
  split at h
  · cases h
    exact hgraph
  · obtain ⟨added, hadded, h⟩ := bind_eq_ok.1 h
    obtain ⟨vertex, hadd, hadded⟩ := bind_eq_ok.1 hadded
    cases hadded
    cases h
    exact addEdge_accumulates (addVertex_accumulates hgraph (by simp) hadd) _ _ _ _ _

theorem addSource_accumulates {fileVid : String} {src : String × GraphAccumulator}
    (h : addSource d scope language source tier fileVid fact graph = .ok src) :
    AccumulatesRevision scope.revision src.2 := by
  unfold addSource at h
  split at h
  · cases h
    exact hgraph
  · exact addVertex_accumulates hgraph (by simp [factProps]) h

theorem addTarget_accumulates {dst : String × GraphAccumulator}
    (h : addTarget d scope language source tier fact graph = .ok dst) :
    AccumulatesRevision scope.revision dst.2 := by
  refine addVertex_accumulates hgraph (fun entry hentry => ?_) h
  split at hentry
  · revert hentry entry
    simp [factProps]
  · revert hentry entry
    simp [factProps]

theorem addFacts_accumulates {repoVid : String} {facts : List SyntacticAstFact}
    (h : addFacts d scope repoVid language source tier facts fileVids graph = .ok graph') :
    AccumulatesRevision scope.revision graph' := by
  induction facts generalizing fileVids graph with
  | nil =>
    cases h
    exact hgraph
  | cons fact facts ih =>
    obtain ⟨file, hfile, h⟩ := bind_eq_ok.1 h
    obtain ⟨src, hsrc, h⟩ := bind_eq_ok.1 h
    obtain ⟨dst, hdst, h⟩ := bind_eq_ok.1 h
    have hfiled := ensureFile_accumulates hgraph hfile
    have hsourced := addSource_accumulates hfiled hsrc
    have htargeted := addTarget_accumulates hsourced hdst
    exact ih (addEdge_accumulates htargeted _ _ _ _ _) h

end Accumulates

theorem reconcileEdgeProvenance_accumulates (hgraph : AccumulatesRevision revision graph) :
    AccumulatesRevision revision (reconcileEdgeProvenance graph) :=
  ⟨hgraph.vertices, fun entry hentry => hgraph.edges entry (List.mem_filter.1 hentry).1⟩

theorem scopeFromEdge_revision (hblank : isBlank revision = false) {e : Edge}
    (he : NamesRevision revision e.props) : (scopeFromEdge e).revision = revision := by
  unfold NamesRevision at he
  simp [scopeFromEdge, textProp, he, hblank]

theorem mem_sortedEntries {α : Type} {entries : List (String × α)} {entry : String × α} :
    entry ∈ sortedEntries entries ↔ entry ∈ entries :=
  List.mem_insertionSort _

/-- The links are made from edges of the graph before any link was added. -/
theorem materializeGraphAnchors_keeps {P : GraphAccumulator → Prop} (hgraph : P graph)
    (hlink : ∀ linked, P linked → ∀ entry ∈ graph.edges, ∀ options,
      P (addEdge d (scopeFromEdge entry.2) entry.2.fromVid entry.2.toVid "ANCHOR_LINK"
        "anchor-linker" options linked)) :
    P (materializeGraphAnchors d graph) := by
  refine List.foldlRecOn _ _ hgraph fun linked hlinked link hmem => ?_
  obtain ⟨entry, hentry, hends⟩ := List.mem_filterMap.1 (List.mem_of_mem_take hmem)
  obtain ⟨ends, -, rfl⟩ := Option.map_eq_some_iff.1 hends
  exact hlink linked hlinked entry (mem_sortedEntries.1 hentry) _

theorem materializeGraphAnchors_accumulates (hblank : isBlank revision = false)
    (hgraph : AccumulatesRevision revision graph) :
    AccumulatesRevision revision (materializeGraphAnchors d graph) := by
  refine materializeGraphAnchors_keeps hgraph fun linked hlinked entry hentry options => ?_
  have hscope := scopeFromEdge_revision hblank (hgraph.edges entry hentry)
  rw [← hscope] at hlinked ⊢
  exact addEdge_accumulates hlinked _ _ _ _ _

theorem assertValidScope_revision (h : assertValidScope scope = .ok ()) :
    isBlank scope.revision = false := by
  unfold assertValidScope at h
  split_ifs at h with horg hrepo hrevision
  all_goals simpa using hrevision

theorem buildAstSnapshot_carriesRevision {results : List (String × List SyntacticAstFact)}
    {snapshot : SnapshotBuild} (h : buildAstSnapshot d scope results = .ok snapshot) :
    CarriesRevision scope.revision snapshot := by
  obtain ⟨repoVid, hrepo, h⟩ := bind_eq_ok.1 h
  obtain ⟨graph, hfold, h⟩ := bind_eq_ok.1 h
  obtain ⟨⟨⟩, hvalid, -⟩ := bind_eq_ok.1 hrepo
  have hblank := assertValidScope_revision hvalid
  have hempty : AccumulatesRevision scope.revision {} := ⟨by simp, by simp⟩
  have hfacts : AccumulatesRevision scope.revision graph := by
    refine foldlM_keeps (fun b ⟨language, facts⟩ b' hb hstep => ?_) hempty hfold
    dsimp only at hstep
    split at hstep
    · exact Except.ok.inj hstep ▸ hb
    · exact addFacts_accumulates hb hstep
  have hfinal := materializeGraphAnchors_accumulates (d := d) hblank
    (reconcileEdgeProvenance_accumulates hfacts)
  cases h
  refine ⟨List.forall_mem_map.2 fun entry hentry => ?_, List.forall_mem_map.2 fun entry hentry => ?_⟩
  · exact hfinal.vertices entry (mem_sortedEntries.1 hentry)
  · exact hfinal.edges entry (mem_sortedEntries.1 hentry)

end Ast

def astScope (p : Payload) : CodeGraphScope where
  orgId := p.orgId
  repoId := p.repoId
  revision := p.revision
  commitHash := p.commitHash
  workspaceId := workspaceOf p

/-- A snapshot that one of the two writers makes for a revision. -/
inductive WrittenFor (d : Digests) (p : Payload) : SnapshotBuild → Prop
  | ast (results : List (String × List SyntacticAstFact)) {snapshot : SnapshotBuild}
      (h : buildAstSnapshot d (astScope p) results = .ok snapshot) : WrittenFor d p snapshot
  | scip (rows : ScipRows) : WrittenFor d p (buildSCIPSnapshot d p rows)

theorem WrittenFor.carriesRevision {d : Digests} {p : Payload} {snapshot : SnapshotBuild}
    (h : WrittenFor d p snapshot) : CarriesRevision p.revision snapshot := by
  cases h with
  | ast results h => exact buildAstSnapshot_carriesRevision h
  | scip rows => exact buildSCIPSnapshot_carriesRevision rows

/-! ## The store and the reader -/

/-- The properties stored for each vertex and for each pair of end points. -/
structure GraphStore where
  vertices : String → Option Props := fun _ => none
  edges : String × String → Option Props := fun _ => none

def edgeEnds (e : Edge) : String × String := (e.fromVid, e.toVid)

/-- The `INSERT` statements of a snapshot. -/
def GraphStore.write (store : GraphStore) (snapshot : SnapshotBuild) : GraphStore where
  vertices := insertAll Vertex.vid Vertex.props store.vertices snapshot.vertices
  edges := insertAll edgeEnds Edge.props store.edges snapshot.edges

structure ActiveScope where
  workspaceId : String
  repoId : ℤ
  (revision commitHash : String)
  schemaVersion : ℤ
  builderVersion : String
  deriving DecidableEq, Repr

/-- `property == value` in a filter; a null property does not match. -/
def hasProp (props : Props) (key : String) (value : Primitive) : Bool :=
  props.lookup key = some value

/-- The clause of one scope; empty parts are left out. -/
def scopeClause (scope : ActiveScope) (props : Props) : Bool :=
  hasProp props "repoId" (.int scope.repoId) &&
    (scope.workspaceId = "" || hasProp props "workspaceId" (.str scope.workspaceId)) &&
    (scope.revision = "" || hasProp props "revision" (.str scope.revision)) &&
    (scope.commitHash = "" || hasProp props "commitHash" (.str scope.commitHash)) &&
    (scope.schemaVersion ≤ 0 || hasProp props "schemaVersion" (.int scope.schemaVersion)) &&
    (scope.builderVersion = "" || hasProp props "builderVersion" (.str scope.builderVersion))

/-- What `renderScopeFilter` selects; without a usable scope there is no filter. -/
def renderScopeFilter (scopes : List ActiveScope) (props : Props) : Bool :=
  let clauses := scopes.filter fun scope => 0 < scope.repoId
  clauses.isEmpty || clauses.any fun scope => scopeClause scope props

/-- The tenant and scope conditions of the lookup and of the traversal. -/
def readerFilter (orgId : ℤ) (workspaceId : String) (scopes : List ActiveScope) (props : Props) :
    Bool :=
  hasProp props "orgId" (.int orgId) && hasProp props "workspaceId" (.str workspaceId) &&
    renderScopeFilter scopes props

def activeScope (p : Payload) : ActiveScope :=
  ⟨workspaceOf p, p.repoId, p.revision, p.commitHash, defaultSchemaVersion, defaultBuilder⟩

/-- The reader's filter for one revision. -/
def revisionFilter (p : Payload) (props : Props) : Bool :=
  readerFilter p.orgId (workspaceOf p) [activeScope p] props

def selectedVertices (p : Payload) (store : GraphStore) : Set (String × Props) :=
  selected (fun props => revisionFilter p props = true) store.vertices

def selectedEdges (p : Payload) (store : GraphStore) : Set ((String × String) × Props) :=
  selected (fun props => revisionFilter p props = true) store.edges

theorem revisionFilter_of_namesRevision {p : Payload} (hrepo : 0 < p.repoId)
    (hnamed : p.revision ≠ "") {revision : String} (hne : p.revision ≠ revision) {props : Props}
    (h : NamesRevision revision props) : revisionFilter p props = false := by
  have hrevision : hasProp props "revision" (.str p.revision) = false := by
    unfold hasProp
    rw [show props.lookup "revision" = _ from h]
    simpa using Ne.symm hne
  have hclause : scopeClause (activeScope p) props = false := by
    simp [scopeClause, activeScope, hnamed, hrevision]
  have hpositive : 0 < (activeScope p).repoId := hrepo
  have hfilter : renderScopeFilter [activeScope p] props = false := by
    simp [renderScopeFilter, hpositive, hclause]
  simp [revisionFilter, readerFilter, hfilter]

/-- A write for branch `B` keeps what the reader selects for branch `A` exactly if it
writes no vertex and no pair of end points that is selected for `A` at that time. -/
theorem sibling_write_keeps_selection_iff {d : Digests} {A B : Payload} (hrepo : 0 < A.repoId)
    (hnamed : A.revision ≠ "") (hne : A.revision ≠ B.revision) (store : GraphStore)
    (first : SnapshotBuild) {second : SnapshotBuild} (hsecond : WrittenFor d B second) :
    (selectedVertices A ((store.write first).write second) =
          selectedVertices A (store.write first) ∧
        selectedEdges A ((store.write first).write second) =
          selectedEdges A (store.write first)) ↔
      (∀ v ∈ second.vertices, ∀ props, (store.write first).vertices v.vid = some props →
          revisionFilter A props = false) ∧
        ∀ e ∈ second.edges, ∀ props, (store.write first).edges (edgeEnds e) = some props →
          revisionFilter A props = false := by
  obtain ⟨hvertices, hedges⟩ := hsecond.carriesRevision
  have hv : ∀ v ∈ second.vertices, ¬revisionFilter A v.props = true := by
    intro v hmem
    simp [revisionFilter_of_namesRevision hrepo hnamed hne (hvertices v hmem)]
  have he : ∀ e ∈ second.edges, ¬revisionFilter A e.props = true := by
    intro e hmem
    simp [revisionFilter_of_namesRevision hrepo hnamed hne (hedges e hmem)]
  have hvs := selected_insertAll_eq_iff Vertex.vid Vertex.props
    (fun props => revisionFilter A props = true) (store.write first).vertices hv
  have hes := selected_insertAll_eq_iff edgeEnds Edge.props
    (fun props => revisionFilter A props = true) (store.write first).edges he
  simp only [Bool.not_eq_true] at hvs hes
  exact and_congr hvs hes

/-! ## Two branches at one commit -/

def branchPayload (branch : String) : Payload where
  id := "merge-" ++ branch
  repoIndexingJobId := "job"
  orgId := 1
  workspaceId := some "ws"
  repoId := 7
  branch := branch
  revision := branch
  commitHash := sampleCommit
  layer := .graphMerge
  language := none
  projectRoot := none
  indexer := none
  workerClass := "core"
  queueName := "codeintel-index-core"
  attempt := 1

def goSymbol (symbol : String) : SymbolProjection where
  symbol := symbol
  displayName := ""
  kind := ""
  language := "go"
  filePath := "main.go"
  startLine := some 0
  endLine := some 0

def symbolRows (symbol : String) : ScipRows := ⟨[goSymbol symbol], [], []⟩

def branchSnapshot (d : Digests) (branch symbol : String) : SnapshotBuild :=
  buildSCIPSnapshot d (branchPayload branch) (symbolRows symbol)

theorem branchSnapshot_eq (d : Digests) (branch symbol : String) :
    branchSnapshot d branch symbol =
      ⟨[symbolVertex d (branchPayload branch) (goSymbol symbol)], []⟩ := rfl

/-- Digests that only tell inputs of different length apart. -/
def lengthDigests : Digests where
  sha256Hex s := toString s.utf8ByteSize
  edgeRank _ := 0

/-- Different symbols do not disturb each other. -/
theorem sibling_write_keeps_other_symbol :
    selectedVertices (branchPayload "main")
        ((GraphStore.write {} (branchSnapshot lengthDigests "main" "run")).write
          (branchSnapshot lengthDigests "feature" "walk")) =
        selectedVertices (branchPayload "main")
          (GraphStore.write {} (branchSnapshot lengthDigests "main" "run")) ∧
      selectedEdges (branchPayload "main")
        ((GraphStore.write {} (branchSnapshot lengthDigests "main" "run")).write
          (branchSnapshot lengthDigests "feature" "walk")) =
        selectedEdges (branchPayload "main")
          (GraphStore.write {} (branchSnapshot lengthDigests "main" "run")) := by
  have hfree : ∀ v ∈ (branchSnapshot lengthDigests "feature" "walk").vertices,
      (GraphStore.write {} (branchSnapshot lengthDigests "main" "run")).vertices v.vid = none := by
    decide +kernel
  refine (sibling_write_keeps_selection_iff (by decide) (by decide) (by decide) {} _
    (.scip (symbolRows "walk"))).2 ⟨fun v hv props hprops => ?_, fun e he => ?_⟩
  · rw [hfree v hv] at hprops
    cases hprops
  · cases he

theorem write_singleton (store : GraphStore) (v : Vertex) :
    (store.write ⟨[v], []⟩).vertices v.vid = some v.props :=
  Function.update_self _ _ _

/-- Whatever the digests are, a symbol both branches have disappears from the first one. -/
theorem sibling_write_hides_shared_symbol :
    ¬∃ d : Digests, selectedVertices (branchPayload "main")
        ((GraphStore.write {} (branchSnapshot d "main" "run")).write
          (branchSnapshot d "feature" "run")) =
      selectedVertices (branchPayload "main")
        (GraphStore.write {} (branchSnapshot d "main" "run")) := by
  rintro ⟨d, heq⟩
  -- the second write stores the same identifier with the other revision
  have hvid : (symbolVertex d (branchPayload "feature") (goSymbol "run")).vid =
      (symbolVertex d (branchPayload "main") (goSymbol "run")).vid := rfl
  have hother : ∀ v ∈ (branchSnapshot d "feature" "run").vertices,
      ¬revisionFilter (branchPayload "main") v.props = true := by
    intro v hv
    have hnames : NamesRevision "feature" v.props :=
      (buildSCIPSnapshot_carriesRevision (symbolRows "run")).vertices v hv
    have hfalse : revisionFilter (branchPayload "main") v.props = false :=
      revisionFilter_of_namesRevision (by decide) (by decide) (by decide) hnames
    simp [hfalse]
  have hstored : (GraphStore.write {} (branchSnapshot d "main" "run")).vertices
      (symbolVertex d (branchPayload "feature") (goSymbol "run")).vid =
        some (symbolVertex d (branchPayload "main") (goSymbol "run")).props := by
    rw [hvid, branchSnapshot_eq]
    exact write_singleton _ _
  have hfree := (selected_insertAll_eq_iff Vertex.vid Vertex.props
    (fun props => revisionFilter (branchPayload "main") props = true)
    (GraphStore.write {} (branchSnapshot d "main" "run")).vertices hother).1 heq
  refine hfree (symbolVertex d (branchPayload "feature") (goSymbol "run")) ?_ _ hstored rfl
  rw [branchSnapshot_eq]
  exact List.mem_cons_self

end CodeIntel.Graph
