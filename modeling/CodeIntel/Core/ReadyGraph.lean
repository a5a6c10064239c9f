import CodeIntel.Core.MergeActivation
import CodeIntel.Core.GraphExecutions

/-!
# READY graphs under concurrent executions

The statements that finish a write are not guarded by the status of the row:
a writer that was overtaken by a promotion deletes the semantic rows of a READY
graph and marks it PARTIAL or SKIPPED. If no row is turned READY while a writer
that took it still has such statements to issue, READY graphs keep their status
and their rows in every run.
-/

namespace CodeIntel.Core

open Relational Schema Subjobs CodeIntel.Graph

def graphStatus (graphIndexId : String) (db : Database) : Option GraphIndexStatus :=
  (lookup CodeGraphIndex.id graphIndexId db.graphIndexes).map CodeGraphIndex.status

/-- The unique index of the semantic facts. -/
def factKey (f : SemanticFact) : String × String := (f.graphIndexId, f.dedupeKey)

/-- The unique index of the semantic edges. -/
def edgeKey (e : SemanticEdge) : String × String := (e.graphIndexId, e.dedupeKey)

/-- The unique index of the anchors. -/
def anchorKey (a : Anchor) : String × String × String × String × String :=
  (a.graphIndexId, a.kind, a.direction, a.normalizedKey, a.nodeVid)

/-- A READY graph keeps its status and its facts, edges and anchors. -/
structure KeepsGraph (graphIndexId : String) (db db' : Database) : Prop where
  status : graphStatus graphIndexId db' = some .ready
  facts : Retains factKey (fun f => f.graphIndexId = graphIndexId) db.semanticFacts
    db'.semanticFacts
  edges : Retains edgeKey (fun e => e.graphIndexId = graphIndexId) db.semanticEdges
    db'.semanticEdges
  anchors : Retains anchorKey (fun a => a.graphIndexId = graphIndexId) db.anchors db'.anchors

/-- No READY graph is downgraded or emptied. -/
def KeepsReady (db db' : Database) : Prop :=
  ∀ graphIndexId, graphStatus graphIndexId db = some .ready → KeepsGraph graphIndexId db db'

/-! ## The condition -/

/-- The statements that reach a READY row as well. -/
def unguarded : Writer.WriteStatement → Bool
  | .deleteAnchors | .deleteEdges | .deleteFacts | .markPartial _ | .markSkipped _ => true
  | _ => false

/-- The execution still has an unguarded statement to issue on the row. -/
def GraphTask.threatens (graphIndexId : String) : GraphTask → Bool
  | .writing gid _ rest => gid = graphIndexId && rest.any unguarded
  | _ => false

/-- The row the next statement of the execution turns READY. -/
def GraphTask.promotes (db : Database) : GraphTask → Option String
  | .promote p =>
    if mergeBlocked p db then none else (partialGraphIndex p db).map CodeGraphIndex.id
  | .writing gid _ (.markReady _ :: _) => some gid
  | _ => none

/-- A row is turned READY only when no other execution threatens it. -/
def Unovertaken (s : GraphState) : GraphLabel → Prop
  | .issue i _ => ∀ gid ∈ (s.tasks[i]?).bind (GraphTask.promotes s.db),
    ∀ t ∈ s.tasks.eraseIdx i, t.threatens gid = false
  | .abort _ _ => True

instance (s : GraphState) : DecidablePred (Unovertaken s)
  | .issue i _ => inferInstanceAs (Decidable (∀ gid ∈ (s.tasks[i]?).bind _, ∀ t ∈ _, _))
  | .abort _ _ => isTrue trivial

/-! ## Effects of statements -/

variable {gid : String} {db' : Database} {made : Option String}
  {f : CodeGraphIndex → CodeGraphIndex} {w : Writer.WritePayload}

theorem owned_of_key {α β : Type*} {key : α → String × β} (a a' : α) (h : key a' = key a)
    (hown : (key a).1 = gid) : (key a').1 = gid :=
  (congrArg Prod.fst h).trans hown

theorem KeepsReady.trans {db₁ db₂ db₃ : Database} (h : KeepsReady db₁ db₂)
    (h' : KeepsReady db₂ db₃) : KeepsReady db₁ db₃ := by
  intro gid hready
  have h₁ := h gid hready
  have h₂ := h' gid h₁.status
  exact ⟨h₂.status, h₁.facts.trans owned_of_key h₂.facts, h₁.edges.trans owned_of_key h₂.edges,
    h₁.anchors.trans owned_of_key h₂.anchors⟩

/-- What a step may do: identifiers stay unique, READY graphs are kept, and at most the
row `made` turns READY. -/
structure GraphEffect (db db' : Database) (made : Option String) : Prop where
  unique : UniqueKey CodeGraphIndex.id db'.graphIndexes
  keeps : KeepsReady db db'
  origin : ∀ gid, graphStatus gid db' = some .ready →
    graphStatus gid db = some .ready ∨ made = some gid

/-- The semantic rows of READY graphs are retained. -/
structure RetainsRows (db db' : Database) : Prop where
  facts : ∀ gid, graphStatus gid db = some .ready →
    Retains factKey (fun f => f.graphIndexId = gid) db.semanticFacts db'.semanticFacts
  edges : ∀ gid, graphStatus gid db = some .ready →
    Retains edgeKey (fun e => e.graphIndexId = gid) db.semanticEdges db'.semanticEdges
  anchors : ∀ gid, graphStatus gid db = some .ready →
    Retains anchorKey (fun a => a.graphIndexId = gid) db.anchors db'.anchors

theorem RetainsRows.of_eq {db : Database} (hfacts : db'.semanticFacts = db.semanticFacts)
    (hedges : db'.semanticEdges = db.semanticEdges) (hanchors : db'.anchors = db.anchors) :
    RetainsRows db db' where
  facts _ _ := hfacts ▸ .refl
  edges _ _ := hedges ▸ .refl
  anchors _ _ := hanchors ▸ .refl

theorem graphStatus_of_mem {db : Database} (hu : UniqueKey CodeGraphIndex.id db.graphIndexes)
    {g : CodeGraphIndex} (hg : g ∈ db.graphIndexes) : graphStatus g.id db = some g.status := by
  unfold graphStatus
  rw [lookup_eq_some_of_mem hu hg rfl]
  rfl

theorem GraphEffect.of_rows {db : Database} {fresh : List CodeGraphIndex}
    (hrows : db'.graphIndexes = db.graphIndexes.map f ++ fresh) (hid : ∀ g, (f g).id = g.id)
    (hkeep : ∀ g ∈ db.graphIndexes, g.status = .ready → (f g).status = .ready)
    (hmade : ∀ g ∈ db.graphIndexes, (f g).status = .ready →
      g.status = .ready ∨ made = some g.id)
    (hunique : UniqueKey CodeGraphIndex.id db'.graphIndexes)
    (hfresh : ∀ g ∈ fresh, g.status ≠ .ready) (hretains : RetainsRows db db') :
    GraphEffect db db' made := by
  have hlookup : ∀ gid, lookup CodeGraphIndex.id gid db'.graphIndexes =
      ((lookup CodeGraphIndex.id gid db.graphIndexes).map f).or
        (lookup CodeGraphIndex.id gid fresh) := by
    intro gid
    rw [hrows, ← lookup_map hid]
    exact List.find?_append ..
  refine ⟨hunique, fun gid hready => ⟨?_, hretains.facts gid hready, hretains.edges gid hready,
    hretains.anchors gid hready⟩, fun gid hready => ?_⟩
  · unfold graphStatus at *
    obtain ⟨g, hg, hstatus⟩ := Option.map_eq_some_iff.1 hready
    rw [hlookup, hg]
    exact congrArg some (hkeep g (mem_of_lookup hg) hstatus)
  · unfold graphStatus at *
    rw [hlookup] at hready
    cases hold : lookup CodeGraphIndex.id gid db.graphIndexes with
    | some g =>
      rw [hold] at hready
      rcases hmade g (mem_of_lookup hold) (Option.some.inj hready) with hbefore | hnew
      · exact .inl (congrArg some hbefore)
      · exact .inr (hnew.trans (congrArg some (key_of_lookup hold)))
    | none =>
      rw [hold] at hready
      obtain ⟨g, hg, hstatus⟩ := Option.map_eq_some_iff.1 hready
      exact absurd hstatus (hfresh g (mem_of_lookup hg))

theorem GraphEffect.of_map {db : Database} (hu : UniqueKey CodeGraphIndex.id db.graphIndexes)
    (hrows : db'.graphIndexes = db.graphIndexes.map f) (hid : ∀ g, (f g).id = g.id)
    (hkeep : ∀ g ∈ db.graphIndexes, g.status = .ready → (f g).status = .ready)
    (hmade : ∀ g ∈ db.graphIndexes, (f g).status = .ready →
      g.status = .ready ∨ made = some g.id) (hretains : RetainsRows db db') :
    GraphEffect db db' made := by
  refine .of_rows (hrows.trans (List.append_nil _).symm) hid hkeep hmade ?_ (by simp) hretains
  rw [hrows]
  exact hu.map hid

theorem GraphEffect.of_same {db : Database} (hu : UniqueKey CodeGraphIndex.id db.graphIndexes)
    (hrows : db'.graphIndexes = db.graphIndexes) (hretains : RetainsRows db db') :
    GraphEffect db db' made :=
  .of_map hu (by simpa using hrows) (fun _ => rfl) (fun _ _ h => h) (fun _ _ h => .inl h)
    hretains

theorem GraphEffect.of_update {db : Database} {cond : CodeGraphIndex → Bool}
    {set : CodeGraphIndex → CodeGraphIndex} (hu : UniqueKey CodeGraphIndex.id db.graphIndexes)
    (hrows : db'.graphIndexes = updateWhere cond set db.graphIndexes)
    (hid : ∀ g, (set g).id = g.id)
    (hkeep : ∀ g ∈ db.graphIndexes, g.status = .ready → cond g = true → (set g).status = .ready)
    (hmade : ∀ g ∈ db.graphIndexes, cond g = true → (set g).status = .ready →
      g.status = .ready ∨ made = some g.id) (hretains : RetainsRows db db') :
    GraphEffect db db' made := by
  refine .of_map hu hrows (fun g => ?_) (fun g hg hready => ?_) (fun g hg hready => ?_) hretains
  · split
    · exact hid g
    · rfl
  · split
    · exact hkeep g hg hready ‹_›
    · exact hready
  · split at hready
    · exact hmade g hg ‹_› hready
    · exact .inl hready

/-! ## The statements of a writer -/

section Writer

variable {d : Digests} {now : Time} {gid : String} {w : Writer.WritePayload} {db : Database}

variable {made : Option String} {st : Writer.WriteStatement}

theorem delete_effect (hu : UniqueKey CodeGraphIndex.id db.graphIndexes)
    (hsafe : graphStatus gid db ≠ some .ready)
    (hst : st ∈ [Writer.WriteStatement.deleteAnchors, .deleteEdges, .deleteFacts]) :
    GraphEffect db (st.exec d now gid w db) made := by
  have hspared : ∀ {gid' other : String}, graphStatus gid' db = some .ready → other = gid' →
      decide (other = gid) = false := fun hready hown =>
    decide_eq_false fun heq => hsafe (heq ▸ hown ▸ hready)
  simp only [List.mem_cons, List.not_mem_nil, or_false] at hst
  rcases hst with rfl | rfl | rfl
  · refine .of_same hu rfl ⟨fun _ _ => .refl, fun _ _ => .refl, fun gid' hready => ?_⟩
    exact .deleteWhere fun a hown => by simp [hspared hready hown]
  · refine .of_same hu rfl ⟨fun _ _ => .refl, fun gid' hready => ?_, fun _ _ => .refl⟩
    exact .deleteWhere fun e hown => by simp [hspared hready hown]
  · refine .of_same hu rfl ⟨fun gid' hready => ?_, fun _ _ => .refl, fun _ _ => .refl⟩
    exact .deleteWhere fun f hown => by simp [hspared hready hown]

theorem mark_effect (hu : UniqueKey CodeGraphIndex.id db.graphIndexes)
    (hsafe : graphStatus gid db ≠ some .ready) {set : CodeGraphIndex → CodeGraphIndex}
    (hid : ∀ g, (set g).id = g.id) (hstatus : ∀ g, (set g).status ≠ .ready) :
    GraphEffect db (Writer.updateGraphIndexes (Writer.writesRow gid w) set db) made := by
  refine .of_update hu rfl hid (fun g hg hready hown => ?_) (fun g _ _ h => absurd h (hstatus g))
    (.of_eq rfl rfl rfl)
  have hgid : g.id = gid := by
    simp only [Writer.writesRow, Bool.and_eq_true, decide_eq_true_eq] at hown
    exact hown.1.1
  have hbefore := graphStatus_of_mem hu hg
  rw [hgid, hready] at hbefore
  exact absurd hbefore hsafe

def statementMakes (gid : String) : Writer.WriteStatement → Option String
  | .markReady _ => some gid
  | _ => none

theorem exec_effect (hu : UniqueKey CodeGraphIndex.id db.graphIndexes)
    (hsafe : unguarded st = true → graphStatus gid db ≠ some .ready) :
    GraphEffect db (st.exec d now gid w db) (statementMakes gid st) := by
  cases st with
  | deleteAnchors | deleteEdges | deleteFacts => exact delete_effect hu (hsafe rfl) (by simp)
  | insertRenderedAnchors batch =>
    refine .of_same hu rfl ⟨fun _ _ => .refl, fun _ _ => .refl, fun gid' _ => ?_⟩
    exact .foldl owned_of_key fun rows a => .upsert fun _ => rfl
  | insertRenderedSemanticFacts batch =>
    refine .of_same hu rfl ⟨fun gid' _ => ?_, fun _ _ => .refl, fun _ _ => .refl⟩
    exact .foldl owned_of_key fun rows v => .upsert fun _ => rfl
  | insertRenderedSemanticEdges batch =>
    refine .of_same hu rfl ⟨fun _ _ => .refl, fun gid' _ => ?_, fun _ _ => .refl⟩
    exact .foldl owned_of_key fun rows e => .upsert fun _ => rfl
  | markPartial result =>
    exact mark_effect hu (hsafe rfl) (fun _ => rfl) fun _ => by simp [Writer.partialRow]
  | markSkipped reason =>
    exact mark_effect hu (hsafe rfl) (fun _ => rfl) fun _ => by simp [Writer.emptiedRow]
  | markReady result =>
    refine .of_update hu rfl (fun _ => rfl) (fun _ _ _ _ => rfl) (fun g _ hown _ => ?_)
      (.of_eq rfl rfl rfl)
    simp only [Writer.writesRow, Bool.and_eq_true, decide_eq_true_eq] at hown
    exact .inr (congrArg some hown.1.1.symm)
  | markFailed reason =>
    refine .of_update hu rfl (fun _ => rfl) (fun g _ hready hown => ?_)
      (fun g _ _ h => absurd h (by simp [Writer.emptiedRow])) (.of_eq rfl rfl rfl)
    simp [Writer.sealed, hready] at hown
  | upsertRevisionIfManifestReady newId =>
    unfold Writer.WriteStatement.exec
    dsimp only
    split
    · exact .of_same hu rfl (.of_eq rfl rfl rfl)
    · exact .of_same hu rfl (.of_eq rfl rfl rfl)
  | repairReadyGraphCounts =>
    exact .of_update hu rfl (fun _ => rfl) (fun _ _ h _ => h) (fun _ _ _ h => .inl h)
      (.of_eq rfl rfl rfl)

end Writer

/-! ## The other statements -/

section Rows

variable {now : Time} {newId : String} {p : Payload} {w : Writer.WritePayload} {db : Database}

variable {made : Option String}

section Effects

variable (hu : UniqueKey CodeGraphIndex.id db.graphIndexes)
include hu

theorem upsert_effect (hfree : idTaken newId db = false) {conflict : CodeGraphIndex → Bool}
    {merge : CodeGraphIndex → CodeGraphIndex} {fresh : CodeGraphIndex}
    (hid : ∀ g, (merge g).id = g.id) (hready : ∀ g, (merge g).status = .ready ↔ g.status = .ready)
    (hfresh : fresh.id = newId) (hstatus : fresh.status ≠ .ready) :
    GraphEffect db { db with graphIndexes := upsert conflict merge fresh db.graphIndexes } made := by
  by_cases hany : db.graphIndexes.any conflict = true
  · have hrows : upsert conflict merge fresh db.graphIndexes =
        updateWhere conflict merge db.graphIndexes := if_pos hany
    exact .of_update hu hrows hid (fun g _ h _ => (hready g).2 h)
      (fun g _ _ h => .inl ((hready g).1 h)) (.of_eq rfl rfl rfl)
  · have hrows : upsert conflict merge fresh db.graphIndexes = db.graphIndexes.map id ++ [fresh] := by
      simp [upsert, hany]
    refine .of_rows hrows (fun _ => rfl) (fun _ _ h => h) (fun _ _ h => .inl h) ?_
      (by simpa using hstatus) (.of_eq rfl rfl rfl)
    rw [hrows, List.map_id]
    refine hu.append_fresh fun g hg heq => ?_
    have := List.any_eq_false.1 hfree g hg
    exact this (decide_eq_true (heq.trans hfresh))

theorem markBuilding_effect (hfree : idTaken newId db = false) :
    GraphEffect db (Writer.markBuilding now newId w db).2 made := by
  refine upsert_effect hu hfree (fun g => ?_) (fun g => ?_) rfl (by simp [Writer.buildingGraphIndex])
  · unfold Writer.rebuildGraphIndex
    split <;> rfl
  · unfold Writer.rebuildGraphIndex
    split
    · exact Iff.rfl
    · rename_i hopen
      simp only [reduceCtorEq, false_iff]
      intro hready
      exact hopen (by simp [Writer.sealed, hready])

theorem markBuilding_status (hfree : idTaken newId db = false) :
    graphStatus (Writer.markBuilding now newId w db).1.id (Writer.markBuilding now newId w db).2 =
      some (Writer.markBuilding now newId w db).1.status := by
  have heffect : GraphEffect db (Writer.markBuilding now newId w db).2 none :=
    markBuilding_effect hu hfree
  have hmerge : ∀ g, Writer.writesSnapshot w g = true →
      Writer.writesSnapshot w (Writer.rebuildGraphIndex now w g) = true := by
    intro g hg
    unfold Writer.rebuildGraphIndex
    split <;> exact hg
  have hfresh : Writer.writesSnapshot w (Writer.buildingGraphIndex now newId w) = true := by
    simp [Writer.writesSnapshot, Writer.buildingGraphIndex]
  obtain ⟨g, hg⟩ : ∃ g, (Writer.markBuilding now newId w db).2.graphIndexes.find?
      (Writer.writesSnapshot w) = some g := exists_find?_upsert hmerge hfresh
  have hbuild : (Writer.markBuilding now newId w db).1 = ⟨g.id, g.status⟩ := by
    unfold Writer.markBuilding at hg ⊢
    simp only at hg ⊢
    rw [hg]
    rfl
  rw [hbuild]
  exact graphStatus_of_mem heffect.unique (List.mem_of_find?_eq_some hg)

theorem createPartial_effect (hfree : idTaken newId db = false) :
    GraphEffect db (createPartialGraphIndexForSCIPOnly now newId p db) made := by
  refine upsert_effect hu hfree (by intro g; rfl) (fun g => ?_) rfl (by simp [scipOnlyGraphIndex])
  by_cases h : g.status = .ready <;> simp [adoptGraphIndex, h]

theorem promote_effect :
    GraphEffect db (promotePartialGraph now p db).2 (GraphTask.promotes db (.promote p)) := by
  refine .of_update hu rfl (fun _ => rfl) (fun _ _ _ _ => rfl) (fun g _ hcond _ => .inr ?_)
    (.of_eq rfl rfl rfl)
  simp only [promotable, Bool.and_eq_true, Bool.not_eq_true'] at hcond
  obtain ⟨picked, hpicked, hid⟩ := (Option.any_eq_true _ _).1 hcond.1
  simp [GraphTask.promotes, hcond.2, hpicked, of_decide_eq_true hid]

theorem activate_effect : GraphEffect db (activate now newId p db).2 made := by
  obtain ⟨e, heq⟩ | ⟨current, graph, -, -, heq⟩ := activate_cases now newId p db <;> rw [heq] <;>
    exact .of_same hu rfl (.of_eq rfl rfl rfl)

end Effects

end Rows

/-! ## Steps and runs -/

/-- A writer marks its row READY only after its unguarded statements. -/
def Orderly (rest : List Writer.WriteStatement) : Prop :=
  rest.Pairwise fun st st' => statementMakes "" st ≠ none → unguarded st' = false

theorem rebuildStatements_orderly (store : Writer.RenderedStore) (opts : Writer.WriteOptions)
    (newId : String) (w : Writer.WritePayload) (outcome : Except String Writer.WriteResult) :
    Orderly (Writer.rebuildStatements store opts newId w outcome) := by
  have hfinish : ∀ result, Orderly (Writer.finishWrite opts newId result) := by
    intro result
    unfold Writer.finishWrite Orderly
    split_ifs <;> simp [unguarded]
  unfold Writer.rebuildStatements
  split
  · simp [Orderly]
  · split
    · split
      · simp [Orderly]
      · rename_i vertices edges _
        have hpersist : ∀ st ∈ Writer.persistRenderedSemanticRows w vertices edges,
            statementMakes "" st = none := by
          intro st hst
          simp only [Writer.persistRenderedSemanticRows, List.mem_append, List.mem_cons,
            List.not_mem_nil, or_false, List.mem_map] at hst
          rcases hst with (((rfl | rfl | rfl) | ⟨batch, -, rfl⟩) | ⟨batch, -, rfl⟩) |
            ⟨batch, -, rfl⟩ <;> rfl
        refine List.pairwise_append.2 ⟨?_, hfinish _, ?_⟩
        · exact List.pairwise_of_forall_mem_list fun st hst _ _ hmakes =>
            absurd (hpersist st hst) hmakes
        · exact fun st hst _ _ hmakes => absurd (hpersist st hst) hmakes
    · simp [Orderly]
    · simp [Orderly]
    · simp [Orderly]

theorem writeStatements_orderly (store : Writer.RenderedStore) (opts : Writer.WriteOptions)
    (newId : String) (w : Writer.WritePayload) (build : Writer.GraphBuildState)
    (outcome : Except String Writer.WriteResult) :
    Orderly (Writer.writeStatements store opts newId w build outcome) := by
  unfold Writer.writeStatements
  split
  · exact rebuildStatements_orderly store opts newId w outcome
  · exact rebuildStatements_orderly store opts newId w outcome
  · split_ifs <;> simp [Orderly, unguarded]
  · simp [Orderly]

theorem writeStatements_of_ready {store : Writer.RenderedStore} {opts : Writer.WriteOptions}
    {newId : String} {build : Writer.GraphBuildState} {outcome : Except String Writer.WriteResult}
    (h : build.status = .ready) :
    (Writer.writeStatements store opts newId w build outcome).any unguarded = false := by
  simp only [Writer.writeStatements, h]
  split_ifs <;> rfl

/-- What the condition keeps along a run. -/
structure Spared (s : GraphState) : Prop where
  unique : UniqueKey CodeGraphIndex.id s.db.graphIndexes
  spared : ∀ gid, graphStatus gid s.db = some .ready → ∀ t ∈ s.tasks, t.threatens gid = false
  orderly : ∀ gid w rest, GraphTask.writing gid w rest ∈ s.tasks → Orderly rest

variable {env : GraphServices} {x : GraphDraw} {db : Database} {t : GraphTask}

theorem issue_effect (hu : UniqueKey CodeGraphIndex.id db.graphIndexes)
    (hspared : ∀ gid, graphStatus gid db = some .ready → t.threatens gid = false) :
    GraphEffect db (t.issue env x db).1 (t.promotes db) := by
  have hsame : ∀ made, GraphEffect db db made := fun made =>
    .of_same hu rfl (.of_eq rfl rfl rfl)
  unfold GraphTask.issue
  split
  · split
    · exact hsame _
    · exact hsame _
  · split
    · exact hsame _
    · rename_i hfree
      exact markBuilding_effect hu (Bool.eq_false_iff.2 hfree)
  · exact hsame _
  · rename_i gid w st rest
    have hmakes : GraphTask.promotes db (.writing gid w (st :: rest)) = statementMakes gid st := by
      cases st <;> rfl
    rw [hmakes]
    refine exec_effect hu fun hunguarded hready => ?_
    have := hspared gid hready
    simp [GraphTask.threatens, hunguarded] at this
  · dsimp only
    split
    · exact hsame _
    · exact hsame _
  · split
    · exact hsame _
    · rename_i hfree
      exact createPartial_effect hu (Bool.eq_false_iff.2 hfree)
  · exact hsame _
  · refine .of_same hu rfl ⟨fun _ _ => .refl, fun gid _ => ?_, fun _ _ => .refl⟩
    exact .foldl owned_of_key fun rows e => .upsert fun _ => rfl
  · refine .of_same hu rfl ⟨fun gid _ => ?_, fun _ _ => .refl, fun _ _ => .refl⟩
    exact .foldl owned_of_key fun rows v => .upsert fun _ => rfl
  · exact promote_effect hu
  · exact activate_effect hu
  · exact hsame _

/-- An execution goes on writing after `markBuilding` or after one of its own statements. -/
theorem issue_writing {rest : List Writer.WriteStatement}
    (h : (t.issue env x db).2 = .writing gid w rest) :
    (∃ opts, t = .admitted opts w ∧ idTaken x.newId db = false ∧
      gid = (Writer.markBuilding x.now x.newId w db).1.id ∧
      (t.issue env x db).1 = (Writer.markBuilding x.now x.newId w db).2 ∧
      rest = Writer.writeStatements env.store opts x.newId w
        (Writer.markBuilding x.now x.newId w db).1 x.outcome) ∨
      ∃ st, t = .writing gid w (st :: rest) := by
  cases t with
  | admitted opts w' =>
    rw [GraphTask.issue] at h ⊢
    split_ifs at h ⊢ with htaken
    cases h
    exact .inl ⟨opts, rfl, Bool.eq_false_iff.2 htaken, rfl, rfl, rfl⟩
  | writing gid' w' rest' =>
    cases rest' with
    | nil => cases h
    | cons st rest' =>
      rw [GraphTask.issue] at h
      dsimp only at h
      split_ifs at h
      cases h
      exact .inr ⟨st, rfl⟩
  | write opts w' => rw [GraphTask.issue] at h; split at h <;> cases h
  | merge p => rw [GraphTask.issue] at h; split at h <;> dsimp only at h <;> split at h <;> cases h
  | create p rows => rw [GraphTask.issue] at h; split_ifs at h
  | project p gid' vertices edges => cases vertices <;> cases edges <;> cases h
  | promote | activate | finished => cases h

theorem issue_spared (hu : UniqueKey CodeGraphIndex.id db.graphIndexes)
    (hspared : ∀ gid, graphStatus gid db = some .ready → t.threatens gid = false)
    (horderly : ∀ gid w rest, t = .writing gid w rest → Orderly rest)
    (hready : graphStatus gid (t.issue env x db).1 = some .ready) :
    (t.issue env x db).2.threatens gid = false := by
  cases hnext : (t.issue env x db).2 with
  | writing gid' w rest =>
    by_contra hthreat
    simp only [GraphTask.threatens, Bool.not_eq_false, Bool.and_eq_true, decide_eq_true_eq] at hthreat
    obtain ⟨rfl, hany⟩ := hthreat
    rcases issue_writing hnext with ⟨opts, rfl, hfree, rfl, hdb, rfl⟩ | ⟨st, rfl⟩
    · -- the row it was given is READY, so it only repairs counts
      rw [hdb, markBuilding_status hu hfree, Option.some.injEq] at hready
      rw [writeStatements_of_ready hready] at hany
      cases hany
    · rcases (issue_effect hu hspared).origin gid' hready with hbefore | hmade
      · have := hspared gid' hbefore
        simp [GraphTask.threatens, hany] at this
      · -- only `markReady` makes the row READY, and nothing unguarded follows it
        have hmakes : statementMakes "" st ≠ none := by
          cases st <;> simp_all [GraphTask.promotes, statementMakes]
        obtain ⟨st', hst', hunguarded⟩ := List.any_eq_true.1 hany
        have := (List.pairwise_cons.1 (horderly gid' w (st :: rest) rfl)).1 st' hst' hmakes
        rw [hunguarded] at this
        cases this
  | _ => rfl

theorem issue_orderly (horderly : ∀ gid w rest, t = .writing gid w rest → Orderly rest)
    {rest : List Writer.WriteStatement} (h : (t.issue env x db).2 = .writing gid w rest) :
    Orderly rest := by
  rcases issue_writing h with ⟨opts, -, -, -, -, rfl⟩ | ⟨st, rfl⟩
  · exact writeStatements_orderly ..
  · exact (List.pairwise_cons.1 (horderly gid w (st :: rest) rfl)).2

theorem mem_set_cases {l : List GraphTask} {i : ℕ} {t t' : GraphTask} (h : t' ∈ l.set i t) :
    t' = t ∨ t' ∈ l.eraseIdx i := by
  obtain ⟨j, hj⟩ := List.mem_iff_getElem?.1 h
  by_cases hij : i = j
  · subst hij
    rw [List.getElem?_set_self', Option.map_eq_map, Option.map_eq_some_iff] at hj
    obtain ⟨_, _, rfl⟩ := hj
    exact .inl rfl
  · rw [List.getElem?_set_ne hij] at hj
    exact .inr (List.mem_eraseIdx_iff_getElem?.2 ⟨j, Ne.symm hij, hj⟩)

/-- One step of a system whose READY rows are spared. -/
theorem step_spared {s s' : GraphState} {l : GraphLabel} (h : Spared s) (hcond : Unovertaken s l)
    (hstep : (graphMachine env).step s l = some s') : Spared s' ∧ KeepsReady s.db s'.db := by
  cases l with
  | issue i x =>
    obtain ⟨t, ht, rfl⟩ := Option.map_eq_some_iff.1 hstep
    have hmem := List.mem_of_getElem? ht
    have hspared := fun gid hready => h.spared gid hready t hmem
    have horderly : ∀ gid w rest, t = .writing gid w rest → Orderly rest := by
      rintro gid w rest rfl
      exact h.orderly gid w rest hmem
    have heffect : GraphEffect s.db (t.issue env x s.db).1 (t.promotes s.db) :=
      issue_effect h.unique hspared
    refine ⟨⟨heffect.unique, fun gid hready t' ht' => ?_, fun gid w rest hw => ?_⟩, heffect.keeps⟩
    · rcases mem_set_cases ht' with rfl | hother
      · exact issue_spared h.unique hspared horderly hready
      · rcases heffect.origin gid hready with hbefore | hmade
        · exact h.spared gid hbefore t' (List.mem_of_mem_eraseIdx hother)
        · exact hcond gid (by simp [ht, hmade]) t' hother
    · rcases mem_set_cases hw with hself | hother
      · exact issue_orderly horderly hself.symm
      · exact h.orderly gid w rest (List.mem_of_mem_eraseIdx hother)
  | abort i reason =>
    obtain ⟨t, ht, rfl⟩ := Option.map_eq_some_iff.1 hstep
    have hkeeps : KeepsReady s.db s.db := fun gid hready => ⟨hready, .refl, .refl, .refl⟩
    refine ⟨⟨h.unique, fun gid hready t' ht' => ?_, fun gid w rest hw => ?_⟩, hkeeps⟩
    · rcases mem_set_cases ht' with rfl | hother
      · cases t <;> cases reason <;> simp [GraphTask.aborted, GraphTask.threatens, unguarded]
      · exact h.spared gid hready t' (List.mem_of_mem_eraseIdx hother)
    · rcases mem_set_cases hw with hself | hother
      · cases t <;> cases reason <;> simp_all [GraphTask.aborted, Orderly]
      · exact h.orderly gid w rest (List.mem_of_mem_eraseIdx hother)

/-- In every run whose promotions never overtake a writer, a graph that is READY at some
point keeps its status and its semantic rows from then on. -/
theorem ready_graph_never_downgraded {s₀ s₁ s₂ : GraphState} {pre post : List GraphLabel}
    (hunique : UniqueKey CodeGraphIndex.id s₀.db.graphIndexes)
    (hstart : ∀ t ∈ s₀.tasks, t.unstarted = true)
    (hcond : (graphMachine env).Always Unovertaken s₀ (pre ++ post))
    (hpre : (graphMachine env).run s₀ pre = some s₁)
    (hpost : (graphMachine env).run s₁ post = some s₂) : KeepsReady s₁.db s₂.db := by
  have hinit : Spared s₀ := by
    refine ⟨hunique, fun gid _ t ht => ?_, fun gid w rest hw => ?_⟩
    · have := hstart t ht
      cases t <;> simp_all [GraphTask.unstarted, GraphTask.threatens]
    · have := hstart _ hw
      simp [GraphTask.unstarted] at this
  obtain ⟨hcond₁, hcond₂⟩ := hcond.of_append hpre
  have hspared : Spared s₁ := Machine.invariant_of_always Spared
    (fun _ _ _ h hc hs => (step_spared h hc hs).1) hinit hcond₁ hpre
  refine (Machine.invariant_of_always (fun s => Spared s ∧ KeepsReady s₁.db s.db) ?_
    ⟨hspared, fun gid hready => ⟨hready, .refl, .refl, .refl⟩⟩ hcond₂ hpost).2
  rintro s a s' ⟨h, hkept⟩ hc hs
  obtain ⟨h', hkeeps⟩ := step_spared h hc hs
  exact ⟨h', hkept.trans hkeeps⟩

/-! ## A slow duplicate of an AST ingest -/

def sampleServices : GraphServices where
  digests := sampleDigests
  store :=
    { validateRenderedStatementWrite := fun _ => none
      extractRenderedRows := fun _ => .ok ([⟨"cg:main", []⟩], []) }
  caps := {}

def sampleWrite : Writer.WritePayload where
  orgId := 1
  workspaceId := "ws"
  repoId := 7
  branch := "main"
  revision := "main"
  commitHash := sampleCommit
  schemaVersion := defaultSchemaVersion
  builderVersion := defaultBuilder
  indexJobId := "job"
  manifestId := "manifest"
  source := "syntactic-ast"
  statements := ["INSERT VERTEX"]

def ingestAndMerge : GraphState where
  db := sampleDatabase
  tasks := [.write Writer.pendingOptions sampleWrite, .write Writer.pendingOptions sampleWrite,
    .merge sampleMergePayload]

def issues (i n : ℕ) (newId : String) : List GraphLabel :=
  List.replicate n (.issue i ⟨100, newId, .ok { status := .ready, vertexCount := 1 }, 500⟩)

def graphView (graphIndexId : String) (s : GraphState) :
    Option GraphIndexStatus × List String :=
  (graphStatus graphIndexId s.db,
    (s.db.semanticFacts.filter fun f => f.graphIndexId = graphIndexId).map SemanticFact.dedupeKey)

/-- The second attempt begins only after the merge: it finds the READY row and leaves it. -/
theorem ready_graph_kept_from_late_attempt :
    ∃ s₁ s₂, (graphMachine sampleServices).run ingestAndMerge
        (issues 0 7 "graph" ++ issues 2 2 "merge") = some s₁ ∧
      graphStatus "graph" s₁.db = some .ready ∧
      (graphMachine sampleServices).run s₁ (issues 1 7 "late") = some s₂ ∧
      KeepsReady s₁.db s₂.db := by
  have hcond : (graphMachine sampleServices).Always Unovertaken ingestAndMerge
      ((issues 0 7 "graph" ++ issues 2 2 "merge") ++ issues 1 7 "late") := by decide
  have hpre : (((graphMachine sampleServices).run ingestAndMerge
      (issues 0 7 "graph" ++ issues 2 2 "merge")).map fun s => graphStatus "graph" s.db) =
      some (some .ready) := by decide
  have hall : ((graphMachine sampleServices).run ingestAndMerge
      ((issues 0 7 "graph" ++ issues 2 2 "merge") ++ issues 1 7 "late")).isSome = true := by decide
  obtain ⟨s₁, hs₁, hready⟩ := Option.map_eq_some_iff.1 hpre
  obtain ⟨s₂, hs₂⟩ := Option.isSome_iff_exists.1 hall
  obtain ⟨s, hs, hpost⟩ := (Machine.run_append_eq_some _).1 hs₂
  obtain rfl := Option.some.inj (hs.symm.trans hs₁)
  exact ⟨s, s₂, hs, hready, hpost, ready_graph_never_downgraded (by decide) (by decide) hcond hs hpost⟩

/-- The second attempt has called `markBuilding` before the first one finishes and the
merge promotes the row. It then deletes the facts of the READY graph and marks it PARTIAL. -/
theorem ready_graph_downgraded_by_stale_writer :
    ((graphMachine sampleServices).run ingestAndMerge
        (issues 1 2 "graph" ++ issues 0 7 "other" ++ issues 2 2 "merge")).map (graphView "graph") =
        some (some .ready, ["rendered-node:cg:main"]) ∧
      ((graphMachine sampleServices).run ingestAndMerge
        (issues 1 2 "graph" ++ issues 0 7 "other" ++ issues 2 2 "merge" ++
          issues 1 3 "stale")).map (graphView "graph") = some (some .ready, []) ∧
      ((graphMachine sampleServices).run ingestAndMerge
        (issues 1 2 "graph" ++ issues 0 7 "other" ++ issues 2 2 "merge" ++
          issues 1 5 "stale")).map (graphView "graph") =
        some (some .partialReady, ["rendered-node:cg:main"]) := by
  refine ⟨by decide, by decide, by decide⟩

end CodeIntel.Core
