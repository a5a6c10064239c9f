import CodeIntel.Core.Merge

/-!
# What a merge leaves alone

A merge without graph store errors touches the graph index rows and their
semantic rows only. When the producers of the revision are done and there are
SCIP rows to project, it succeeds, and the graph rows it leaves are those it
found or created, some of them promoted.
-/

namespace CodeIntel.Core

open Relational Schema Subjobs CodeIntel.Graph

theorem promoteOrAccept_snd (now : Time) (p : Payload) (db : Database) :
    (promoteOrAccept now p db).2 = (promotePartialGraph now p db).2 := by
  unfold promoteOrAccept
  dsimp only
  split_ifs <;> rfl

variable {now : Time} {p : Payload} {db db' : Database}

theorem promoteOrAccept_of_evidence (hfree : mergeBlocked p db = false)
    (h : ∃ g ∈ db.graphIndexes, graphOfRevision p g = true ∧
      (g.status = .partialReady ∨ g.status = .ready)) :
    (promoteOrAccept now p db).1 = .ok () := by
  have hready : graphSnapshotAlreadyReady p (promotePartialGraph now p db).2 = true := by
    have hfree' : mergeBlocked p (promotePartialGraph now p db).2 = false := hfree
    simp only [graphSnapshotAlreadyReady, hfree', Bool.not_false, Bool.and_true,
      List.any_eq_true, Bool.and_eq_true, decide_eq_true_eq]
    cases hpicked : partialGraphIndex p db with
    | some picked =>
      -- the picked row itself is promoted
      have hmem := mem_of_argmax_filter hpicked
      simp only [Bool.and_eq_true, decide_eq_true_eq] at hmem
      have hself : promotable p db picked = true := by simp [promotable, hpicked, hfree]
      exact ⟨promoteRow now picked, mem_updateWhere.2 ⟨picked, hmem.1, if_pos hself⟩,
        hmem.2.1, rfl⟩
    | none =>
      obtain ⟨g, hg, hrev, hstatus⟩ := h
      have hnone := argmax_filter_eq_none.1 hpicked g hg
      have hnot : promotable p db g = false := by simp [promotable, hpicked]
      refine ⟨g, mem_updateWhere.2 ⟨g, hg, by simp [hnot]⟩, hrev, ?_⟩
      simpa [hrev, hstatus] using hstatus.resolve_left (by simpa [hrev] using hnone)
  unfold promoteOrAccept
  simp only [hready, if_true]
  split <;> rfl

/-- The two states agree on everything but the graph rows and their semantic rows. -/
structure SameInputs (db db' : Database) : Prop where
  repos : db'.repos = db.repos
  manifests : db'.manifests = db.manifests
  subjobs : db'.subjobs = db.subjobs
  indexes : db'.codeIntelIndexes = db.codeIntelIndexes
  languages : db'.languageIndexes = db.languageIndexes
  symbols : db'.symbols = db.symbols
  occurrences : db'.occurrences = db.occurrences
  relationships : db'.relationships = db.relationships

theorem SameInputs.refl (db : Database) : SameInputs db db :=
  ⟨rfl, rfl, rfl, rfl, rfl, rfl, rfl, rfl⟩

theorem SameInputs.trans {db₁ db₂ db₃ : Database} (h : SameInputs db₁ db₂)
    (h' : SameInputs db₂ db₃) : SameInputs db₁ db₃ :=
  ⟨h'.repos.trans h.repos, h'.manifests.trans h.manifests, h'.subjobs.trans h.subjobs,
    h'.indexes.trans h.indexes, h'.languages.trans h.languages, h'.symbols.trans h.symbols,
    h'.occurrences.trans h.occurrences, h'.relationships.trans h.relationships⟩

theorem SameInputs.loadSCIPProjectionRows_eq (h : SameInputs db db') (caps : ProjectionCaps)
    (p : Payload) :
    loadSCIPProjectionRows caps p db' = loadSCIPProjectionRows caps p db := by
  unfold loadSCIPProjectionRows loadSymbols loadRelationships loadOccurrences projectable
  rw [h.indexes, h.languages, h.symbols, h.occurrences, h.relationships]

theorem SameInputs.mergeBlocked_eq (h : SameInputs db db') (p : Payload) :
    mergeBlocked p db' = mergeBlocked p db := by
  unfold mergeBlocked
  rw [h.subjobs]

theorem projectSCIPSemanticGraphRows_none (d : Digests) (now : Time) (graphIndexId : String)
    (p : Payload) (rows : ScipRows) (db : Database) :
    ∃ db', projectSCIPSemanticGraphRows d none now graphIndexId p rows db = (.ok (), db') ∧
      SameInputs db db' ∧ db'.graphIndexes = db.graphIndexes := by
  unfold projectSCIPSemanticGraphRows
  split
  · exact ⟨db, rfl, .refl db, rfl⟩
  · dsimp only
    split
    · exact ⟨db, rfl, .refl db, rfl⟩
    · exact ⟨_, rfl, ⟨rfl, rfl, rfl, rfl, rfl, rfl, rfl, rfl⟩, rfl⟩

/-- The two states agree outside the graph rows and their semantic rows. -/
def OnlyGraph (db db' : Database) : Prop :=
  { db' with
    graphIndexes := db.graphIndexes
    semanticFacts := db.semanticFacts
    semanticEdges := db.semanticEdges } = db

theorem OnlyGraph.refl (db : Database) : OnlyGraph db db := rfl

theorem OnlyGraph.trans {db₁ db₂ db₃ : Database} (h : OnlyGraph db₁ db₂)
    (h' : OnlyGraph db₂ db₃) : OnlyGraph db₁ db₃ := by
  unfold OnlyGraph at *
  rw [← h, ← h']

theorem onlyGraph_updated (db : Database) (graphIndexes : List CodeGraphIndex)
    (semanticFacts : List SemanticFact) (semanticEdges : List SemanticEdge) :
    OnlyGraph db
      { db with
        graphIndexes
        semanticFacts
        semanticEdges } := rfl

theorem SameInputs.of_onlyGraph (h : OnlyGraph db db') : SameInputs db db' := by
  rw [← h]
  exact ⟨rfl, rfl, rfl, rfl, rfl, rfl, rfl, rfl⟩

theorem projectSCIPSemanticGraphRows_onlyGraph (d : Digests) (graphError : Option String)
    (now : Time) (graphIndexId : String) (p : Payload) (rows : ScipRows) (db : Database) :
    OnlyGraph db (projectSCIPSemanticGraphRows d graphError now graphIndexId p rows db).2 := by
  unfold projectSCIPSemanticGraphRows
  split
  · exact .refl db
  dsimp only
  split
  · exact .refl db
  cases graphError with
  | some e => exact .refl db
  | none => exact onlyGraph_updated db db.graphIndexes _ _

theorem promoteOrAccept_onlyGraph (now : Time) (p : Payload) (db : Database) :
    OnlyGraph db (promoteOrAccept now p db).2 := by
  rw [promoteOrAccept_snd]
  exact onlyGraph_updated db _ db.semanticFacts db.semanticEdges

theorem mergeGraph_onlyGraph (d : Digests) (caps : ProjectionCaps) (graphError : Option String)
    (now : Time) (newId : String) (p : Payload) (db : Database) :
    OnlyGraph db (mergeGraph d caps graphError now newId p db).2 := by
  have hproject := fun graphIndexId =>
    projectSCIPSemanticGraphRows_onlyGraph d graphError now graphIndexId p
      (loadSCIPProjectionRows caps p db)
  unfold mergeGraph
  dsimp only
  split
  · rename_i g _
    have hrows := hproject g.id db
    split <;> rename_i heq <;> rw [heq] at hrows
    · exact hrows
    · exact hrows.trans (promoteOrAccept_onlyGraph now p _)
  · split
    · exact .refl db
    · have hcreated : OnlyGraph db (createPartialGraphIndexForSCIPOnly now newId p db) :=
        onlyGraph_updated db _ db.semanticFacts db.semanticEdges
      have hrows := hcreated.trans (hproject
        ((((createPartialGraphIndexForSCIPOnly now newId p db).graphIndexes.find?
          (sameSnapshotKey p)).map CodeGraphIndex.id).getD newId) _)
      split <;> rename_i heq <;> rw [heq] at hrows
      · exact hrows
      · exact hrows.trans (promoteOrAccept_onlyGraph now p _)

def mergeRows (now : Time) (newId : String) (p : Payload) (db : Database) :
    List CodeGraphIndex :=
  match resolvePartialGraphIndex p db with
  | some _ => db.graphIndexes
  | none => (createPartialGraphIndexForSCIPOnly now newId p db).graphIndexes

theorem mergeRows_evidence {newId : String}
    (horg : ∀ g ∈ db.graphIndexes, sameSnapshotKey p g = true → g.orgId = p.orgId) :
    ∃ g ∈ mergeRows now newId p db, graphOfRevision p g = true ∧
      (g.status = .partialReady ∨ g.status = .ready) := by
  unfold mergeRows
  cases hresolve : resolvePartialGraphIndex p db with
  | some g =>
    have hmem := mem_of_argmax_filter hresolve
    simp only [Bool.and_eq_true, Bool.or_eq_true, decide_eq_true_eq] at hmem
    exact ⟨g, hmem⟩
  | none =>
    simp only [createPartialGraphIndexForSCIPOnly, upsert]
    split
    · rename_i hany
      obtain ⟨g, hg, hkey⟩ := List.any_eq_true.1 hany
      refine ⟨adoptGraphIndex now p g, mem_updateWhere.2 ⟨g, hg, if_pos hkey⟩, ?_, ?_⟩
      · have := horg g hg hkey
        simp only [sameSnapshotKey, Bool.and_eq_true, decide_eq_true_eq] at hkey
        simp [graphOfRevision, adoptGraphIndex, hkey, this]
      · simp only [adoptGraphIndex]
        split <;> simp
    · exact ⟨scipOnlyGraphIndex now newId p, by simp, by simp [graphOfRevision, scipOnlyGraphIndex],
        .inl rfl⟩

/-- Without graph store errors and with SCIP rows, a merge whose producers are done
succeeds and promotes rows of `mergeRows`. -/
theorem mergeGraph_of_unblocked {d : Digests} {caps : ProjectionCaps} {newId : String}
    (hfree : mergeBlocked p db = false)
    (hrows : (loadSCIPProjectionRows caps p db).isEmpty = false)
    (horg : ∀ g ∈ db.graphIndexes, sameSnapshotKey p g = true → g.orgId = p.orgId) :
    ∃ cond db', mergeGraph d caps none now newId p db = (.ok (), db') ∧ SameInputs db db' ∧
      db'.graphIndexes = updateWhere cond (promoteRow now) (mergeRows now newId p db) := by
  -- whatever snapshot the projection is attached to, the promotion sees `mergeRows`
  have hpromote : ∀ db₁, SameInputs db db₁ → db₁.graphIndexes = mergeRows now newId p db →
      ∃ cond db', promoteOrAccept now p db₁ = (.ok (), db') ∧ SameInputs db db' ∧
        db'.graphIndexes = updateWhere cond (promoteRow now) (mergeRows now newId p db) := by
    intro db₁ hsame hgraph
    have hok : (promoteOrAccept now p db₁).1 = .ok () :=
      promoteOrAccept_of_evidence (hsame.mergeBlocked_eq p ▸ hfree)
        (hgraph ▸ mergeRows_evidence horg)
    refine ⟨promotable p db₁, (promotePartialGraph now p db₁).2,
      Prod.ext hok (promoteOrAccept_snd now p db₁), ?_, congrArg _ hgraph⟩
    exact ⟨hsame.repos, hsame.manifests, hsame.subjobs, hsame.indexes, hsame.languages,
      hsame.symbols, hsame.occurrences, hsame.relationships⟩
  unfold mergeGraph
  unfold mergeRows at hpromote ⊢
  cases hresolve : resolvePartialGraphIndex p db with
  | some g =>
    simp only [hresolve] at hpromote ⊢
    obtain ⟨db₁, heq, hsame, hgraph⟩ :=
      projectSCIPSemanticGraphRows_none d now g.id p (loadSCIPProjectionRows caps p db) db
    rw [heq]
    exact hpromote db₁ hsame hgraph
  | none =>
    simp only [hresolve, hrows, Bool.false_eq_true, if_false] at hpromote ⊢
    obtain ⟨db₁, heq, hsame, hgraph⟩ := projectSCIPSemanticGraphRows_none d now
      ((((createPartialGraphIndexForSCIPOnly now newId p db).graphIndexes.find?
        (sameSnapshotKey p)).map CodeGraphIndex.id).getD newId) p
      (loadSCIPProjectionRows caps p db) (createPartialGraphIndexForSCIPOnly now newId p db)
    rw [heq]
    refine hpromote db₁ (SameInputs.trans ?_ hsame) hgraph
    exact ⟨rfl, rfl, rfl, rfl, rfl, rfl, rfl, rfl⟩

end CodeIntel.Core
