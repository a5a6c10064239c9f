import CodeIntel.Core.SharedCommit

/-!
# Schedules of two branches

The machine of `SharedCommit` simulates into the machine of `SharedRow`. The
invariant keeps what the handlers look at besides the row: the SCIP rows, the
pending manifests and the finished subjobs of each branch.
-/

namespace CodeIntel.Core

open Relational Schema Subjobs CodeIntel.Graph

namespace SharedCommit

variable (c : SharedCommit)

def ownerOf (revision : String) : Option Bool :=
  if revision = c.branch false then some false
  else if revision = c.branch true then some true
  else none

def phaseOf : Progress → Phase
  | .planned => .planned
  | .building build => .building (build.status = .building)
  | .ingested => .ingested
  | .merged => .merged
  | .activated => .activated
  | .failed => .activated

/-- What `SharedRow` keeps of a state. -/
def abs (s : SharedState) : SharedRow where
  status := (c.graphRow s.db).map CodeGraphIndex.status
  owner := (c.graphRow s.db).bind fun g => c.ownerOf g.sourceRevision
  phase := phaseOf ∘ s.progress

variable {c}

variable {b : Bool} {s s' : SharedState} {db : Database} {l : BranchStep}

theorem ownerOf_eq_some {revision : String} :
    c.ownerOf revision = some b ↔ revision = c.branch b := by
  have hdistinct := c.distinct
  unfold ownerOf
  cases b <;> split_ifs <;> simp_all

theorem abs_holds_iff :
    (c.abs s).Holds b ↔ ∃ g, c.graphRow s.db = some g ∧ g.status = .ready ∧
      g.sourceRevision = c.branch b := by
  unfold SharedRow.Holds abs
  cases hrow : c.graphRow s.db with
  | none => simp
  | some g => simp [ownerOf_eq_some]

theorem abs_moved (s : SharedState) (b : Bool) (db : Database) (progress : Progress) :
    c.abs (s.moved b db progress) =
      { c.abs s with
        status := (c.graphRow db).map CodeGraphIndex.status
        owner := (c.graphRow db).bind fun g => c.ownerOf g.sourceRevision }.advance b
          (phaseOf progress) := by
  simp [abs, SharedState.moved, SharedRow.advance, Function.comp_update]

theorem abs_moved_same (h : db.graphIndexes = s.db.graphIndexes) (b : Bool) (progress : Progress) :
    c.abs (s.moved b db progress) = (c.abs s).advance b (phaseOf progress) := by
  rw [abs_moved]
  unfold graphRow
  rw [h]
  rfl

variable (c)

/-- The subjobs of a branch at the given rank: only the layers still ahead of it may be
unfinished. -/
def Done (b : Bool) (rank : ℕ) (subjobs : List Subjob) : Prop :=
  ∀ dep ∈ subjobs, dependencyOf (c.payload b .activate) dep = true →
    depFinished dep = true ∨ dep.layer = .activate ∨ (dep.layer = .graphMerge ∧ rank ≤ 2) ∨
      (dep.layer = .astTreeSitter ∧ rank ≤ 1)

/-- What a planned job provides, and every step keeps, for both branches. -/
structure Inv (s : SharedState) : Prop where
  unique : UniqueKey snapshotKey s.db.graphIndexes
  org : ∀ g, c.graphRow s.db = some g → g.orgId = c.orgId
  repo : ∃ r ∈ s.db.repos, r.id = c.repoId ∧ r.orgId = c.orgId
  scip : ∀ b, (loadSCIPProjectionRows c.caps (c.payload b .graphMerge) s.db).isEmpty = false
  manifests : UniqueKey RepoIndexManifest.id s.db.manifests
  pending : ∀ b, (phaseOf (s.progress b)).rank ≤ 3 →
    ∃ m ∈ s.db.manifests, pendingFor (c.payload b .activate) m = true
  done : ∀ b, c.Done b (phaseOf (s.progress b)).rank s.db.subjobs
  build : ∀ b build, s.progress b = .building build →
    (build.status = .building ∧ ∃ g, c.graphRow s.db = some g ∧ g.id = build.id) ∨
      build.status = .ready ∨ build.status = .skipped

variable {c}

theorem finishLayer_done {now : Time} {p : Payload} {layer : Layer} {rank : ℕ}
    (h : c.Done b rank db.subjobs) :
    c.Done b rank (finishLayer now p layer db).subjobs := by
  intro dep hdep hdepends
  obtain ⟨dep₀, hdep₀, rfl⟩ := mem_updateWhere.1 hdep
  split_ifs at hdepends ⊢
  · exact .inl (by simp [depFinished, succeedRow])
  · exact h dep₀ hdep₀ hdepends

theorem finishLayer_done_next {now : Time} {layer : Layer} {rank rank' : ℕ}
    (h : c.Done b rank db.subjobs) (hlayer : ∀ other, other ≠ layer →
      (other = .graphMerge ∧ rank ≤ 2) ∨ (other = .astTreeSitter ∧ rank ≤ 1) →
      (other = .graphMerge ∧ rank' ≤ 2) ∨ (other = .astTreeSitter ∧ rank' ≤ 1)) :
    c.Done b rank' (finishLayer now (c.payload b layer) layer db).subjobs := by
  intro dep hdep hdepends
  obtain ⟨dep₀, hdep₀, rfl⟩ := mem_updateWhere.1 hdep
  split_ifs at hdepends ⊢ with hkept
  · exact .inl (by simp [depFinished, succeedRow])
  · rcases h dep₀ hdep₀ hdepends with hfinished | hactivate | hahead
    · exact .inl hfinished
    · exact .inr (.inl hactivate)
    · refine .inr (.inr (hlayer dep₀.layer (fun heq => hkept ?_) hahead))
      exact Bool.and_eq_true_iff.2 ⟨hdepends, decide_eq_true heq⟩

/-- Moving one branch keeps the invariant if the new state still serves both branches
and the row keeps its identifier. -/
theorem Inv.move (h : c.Inv s) {progress : Progress}
    (hunique : UniqueKey snapshotKey db.graphIndexes)
    (hrow : ∀ g, c.graphRow s.db = some g → ∃ g', c.graphRow db = some g' ∧ g'.id = g.id)
    (horg : ∀ g, c.graphRow db = some g → g.orgId = c.orgId)
    (hrepo : ∃ r ∈ db.repos, r.id = c.repoId ∧ r.orgId = c.orgId)
    (hscip : ∀ b, loadSCIPProjectionRows c.caps (c.payload b .graphMerge) db =
      loadSCIPProjectionRows c.caps (c.payload b .graphMerge) s.db)
    (hmanifests : UniqueKey RepoIndexManifest.id db.manifests)
    (hpending : ∀ x, x ≠ b ∨ (phaseOf progress).rank ≤ 3 →
      (phaseOf (s.progress x)).rank ≤ 3 →
      ∃ m ∈ db.manifests, pendingFor (c.payload x .activate) m = true)
    (hbefore : (phaseOf (s.progress b)).rank ≤ 3)
    (hdone : c.Done b (phaseOf progress).rank db.subjobs)
    (hdone' : ∀ x, c.Done x (phaseOf (s.progress x)).rank s.db.subjobs →
      x ≠ b → c.Done x (phaseOf (s.progress x)).rank db.subjobs)
    (hbuild : ∀ build, progress = .building build →
      (build.status = .building ∧ ∃ g, c.graphRow db = some g ∧ g.id = build.id) ∨
        build.status = .ready ∨ build.status = .skipped) :
    c.Inv (s.moved b db progress) where
  unique := hunique
  org := horg
  repo := hrepo
  scip x := by
    show (loadSCIPProjectionRows c.caps (c.payload x .graphMerge) db).isEmpty = false
    rw [hscip x]
    exact h.scip x
  manifests := hmanifests
  pending x hx := by
    by_cases hxb : x = b
    · subst hxb
      simp only [SharedState.moved, Function.update_self] at hx
      exact hpending x (.inr hx) hbefore
    · simp only [SharedState.moved, Function.update_of_ne hxb] at hx
      exact hpending x (.inl hxb) hx
  done x := by
    by_cases hxb : x = b
    · subst hxb
      simpa only [SharedState.moved, Function.update_self] using hdone
    · simp only [SharedState.moved, Function.update_of_ne hxb]
      exact hdone' x (h.done x) hxb
  build x build hx := by
    by_cases hxb : x = b
    · subst hxb
      simp only [SharedState.moved, Function.update_self] at hx
      exact hbuild build hx
    · simp only [SharedState.moved, Function.update_of_ne hxb] at hx
      rcases h.build x build hx with ⟨hstatus, g, hg, hid⟩ | hfinished
      · obtain ⟨g', hg', hid'⟩ := hrow g hg
        exact .inl ⟨hstatus, g', hg', hid'.trans hid⟩
      · exact .inr hfinished

theorem Inv.move_same (h : c.Inv s) (hsame : SameInputs s.db db) {subjobs : List Subjob}
    {progress : Progress} (hunique : UniqueKey snapshotKey db.graphIndexes)
    (hrow : ∀ g, c.graphRow s.db = some g → ∃ g', c.graphRow db = some g' ∧ g'.id = g.id)
    (horg : ∀ g, c.graphRow db = some g → g.orgId = c.orgId)
    (hbefore : (phaseOf (s.progress b)).rank ≤ 3)
    (hdone : c.Done b (phaseOf progress).rank subjobs)
    (hdone' : ∀ x, c.Done x (phaseOf (s.progress x)).rank s.db.subjobs →
      x ≠ b → c.Done x (phaseOf (s.progress x)).rank subjobs)
    (hbuild : ∀ build, progress = .building build →
      (build.status = .building ∧ ∃ g, c.graphRow db = some g ∧ g.id = build.id) ∨
        build.status = .ready ∨ build.status = .skipped) :
    c.Inv (s.moved b { db with subjobs } progress) := by
  have hsame' : SameInputs { s.db with subjobs } { db with subjobs } :=
    ⟨hsame.repos, hsame.manifests, rfl, hsame.indexes, hsame.languages, hsame.symbols,
      hsame.occurrences, hsame.relationships⟩
  refine h.move hunique hrow horg ?_ ?_ ?_ ?_ hbefore hdone hdone' hbuild
  · simpa only [hsame.repos] using h.repo
  · intro x
    exact hsame'.loadSCIPProjectionRows_eq c.caps (c.payload x .graphMerge)
  · simpa only [hsame.manifests] using h.manifests
  · intro x _ hx
    simpa only [hsame.manifests] using h.pending x hx

/-! ## The four steps -/

theorem markBuilding_step (h : c.Inv s) (hprogress : s.progress b = .planned) (now : Time)
    (newId : String) :
    c.Inv (s.moved b (Writer.markBuilding now newId (c.write b) s.db).2
        (.building (Writer.markBuilding now newId (c.write b) s.db).1)) ∧
      SharedRow.machine.step (c.abs s) (b, .markBuilding) =
        some (c.abs (s.moved b (Writer.markBuilding now newId (c.write b) s.db).2
          (.building (Writer.markBuilding now newId (c.write b) s.db).1))) := by
  obtain ⟨g', hrow, hbuild, hg'⟩ := markBuilding_graphRow (c := c) now newId b s.db
  have hsame : SameInputs s.db (Writer.markBuilding now newId (c.write b) s.db).2 :=
    ⟨rfl, rfl, rfl, rfl, rfl, rfl, rfl, rfl⟩
  have hphase : (c.abs s).phase b = .planned := by simp [abs, hprogress, phaseOf]
  have hunique : UniqueKey snapshotKey
      (Writer.markBuilding now newId (c.write b) s.db).2.graphIndexes := by
    simp only [Writer.markBuilding, writesSnapshot_write]
    exact h.unique.upsert (rebuildGraphIndex_key now (c.write b)) rfl
  -- the row is taken unless it is finished
  have hcases : (∃ g, c.graphRow s.db = some g ∧ Writer.sealed g = true ∧ g' = g) ∨
      ((c.abs s).isSealed = false ∧ g'.status = .building ∧ g'.sourceRevision = c.branch b) := by
    cases hold : c.graphRow s.db with
    | none =>
      rw [hold] at hg'
      subst hg'
      exact .inr ⟨by simp [abs, SharedRow.isSealed, hold], rfl, rfl⟩
    | some g =>
      rw [hold] at hg'
      simp only [Option.elim_some, Writer.rebuildGraphIndex] at hg'
      split at hg'
      · rename_i hsealed
        exact .inl ⟨g, rfl, hsealed, hg'⟩
      · rename_i hopen
        subst hg'
        refine .inr ⟨?_, rfl, rfl⟩
        simpa [abs, SharedRow.isSealed, hold, Writer.sealed] using hopen
  have hid : ∀ g, c.graphRow s.db = some g → g'.id = g.id ∧ g'.orgId = g.orgId := by
    intro g hold
    rw [hold] at hg'
    simp only [Option.elim_some, Writer.rebuildGraphIndex] at hg'
    split at hg' <;> subst hg' <;> exact ⟨rfl, rfl⟩
  have horg : g'.orgId = c.orgId := by
    cases hold : c.graphRow s.db with
    | none =>
      rw [hold] at hg'
      subst hg'
      rfl
    | some g => exact (hid g hold).2.trans (h.org g hold)
  refine ⟨?_, ?_⟩
  · refine h.move_same hsame hunique ?_ ?_ ?_ ?_ ?_ ?_
    · intro g hold
      exact ⟨g', hrow, (hid g hold).1⟩
    · intro g hg
      obtain rfl := Option.some.inj (hrow.symm.trans hg)
      exact horg
    · simp [hprogress, phaseOf, Phase.rank]
    · have := h.done b
      simpa [hprogress, phaseOf, Phase.rank, Done] using this
    · exact fun x hx _ => hx
    · rintro build ⟨⟩
      rw [hbuild]
      rcases hcases with ⟨g, -, hsealed, rfl⟩ | ⟨-, hstatus, -⟩
      · simpa [Writer.sealed] using Or.inr hsealed
      · exact .inl ⟨hstatus, g', hrow, rfl⟩
  · rw [abs_moved, hrow, hbuild]
    rcases hcases with ⟨g, hold, hsealed, rfl⟩ | ⟨hopen, hstatus, hsource⟩
    · have hseal : (c.abs s).isSealed = true := by
        simpa [abs, SharedRow.isSealed, hold, Writer.sealed] using hsealed
      have hnot : ¬g'.status = .building := by
        intro hstatus
        simp [Writer.sealed, hstatus] at hsealed
      have hkeep := (SharedRow.Step.keep hphase hseal).step_eq
      simpa [abs, hold, phaseOf, hnot] using hkeep
    · have htake := (SharedRow.Step.take hphase hopen).step_eq
      simpa [phaseOf, hstatus, ownerOf_eq_some.2 hsource] using htake

theorem ingest_step (h : c.Inv s) {build : Writer.GraphBuildState} {result : Writer.WriteResult}
    (hprogress : s.progress l.branch = .building build)
    (hresult : c.ingestResult l.branch = some result) :
    c.Inv (s.moved l.branch (finishLayer l.now (c.payload l.branch .astTreeSitter) .astTreeSitter
        (c.ingest l build result s.db)) .ingested) ∧
      SharedRow.machine.step (c.abs s) (l.branch, .markPartial) =
        some (c.abs (s.moved l.branch (finishLayer l.now (c.payload l.branch .astTreeSitter)
          .astTreeSitter (c.ingest l build result s.db)) .ingested)) := by
  have hbuild := h.build _ _ hprogress
  have hphase : (c.abs s).phase l.branch = .building (build.status = .building) := by
    simp [abs, hprogress, phaseOf]
  obtain ⟨f, hmap, hf⟩ : ∃ f, (c.ingest l build result s.db).graphIndexes =
      s.db.graphIndexes.map f ∧ IngestRow c l.branch build f := by
    rcases hbuild with ⟨hstatus, -⟩ | hfinished
    · exact ingest_taken hresult hstatus s.db
    · exact ingest_passed hfinished s.db
  have hrow : c.graphRow (c.ingest l build result s.db) = (c.graphRow s.db).map f := by
    rw [graphRow, hmap, lookup_map hf.keeps.key, graphRow]
  have hsame : SameInputs s.db (c.ingest l build result s.db) := foldl_exec_sameInputs ..
  refine ⟨?_, ?_⟩
  · refine h.move_same hsame (hmap ▸ h.unique.map hf.keeps.key) ?_ ?_ ?_ ?_ ?_ ?_
    · intro g hold
      exact ⟨f g, by rw [hrow, hold]; rfl, hf.keeps.id g⟩
    · intro g hg
      rw [hrow, Option.map_eq_some_iff] at hg
      obtain ⟨g₀, hold, rfl⟩ := hg
      exact (hf.keeps.org g₀).trans (h.org g₀ hold)
    · simp [hprogress, phaseOf, Phase.rank]
    · have hdone := h.done l.branch
      rw [hprogress, ← hsame.subjobs] at hdone
      refine finishLayer_done_next hdone fun other hother hahead => ?_
      simpa [phaseOf, Phase.rank, hother] using hahead
    · intro x hx _
      rw [← hsame.subjobs] at hx
      exact finishLayer_done hx
    · rintro build ⟨⟩
  · rw [abs_moved]
    change _ = some (SharedRow.advance
      { c.abs s with
        status := (c.graphRow (c.ingest l build result s.db)).map CodeGraphIndex.status
        owner := (c.graphRow (c.ingest l build result s.db)).bind
          fun g => c.ownerOf g.sourceRevision } l.branch .ingested)
    rw [hrow]
    rcases hbuild with ⟨hstatus, g, hold, hid⟩ | hfinished
    · -- the row is the one `markBuilding` took
      have hown : Writer.writesRow build.id (c.write l.branch) g = true := by
        have hkey := key_of_lookup hold
        simp only [snapshotKey, key, Prod.mk.injEq] at hkey
        simp only [Writer.writesRow, Bool.and_eq_true, decide_eq_true_eq]
        exact ⟨⟨hid, h.org g hold⟩, hkey.1⟩
      have hfinish := (SharedRow.Step.finish (by simpa [hstatus] using hphase)).step_eq
      simpa [abs, hold, hf.status, hf.source, hstatus, hown] using hfinish
    · have hnot : ¬build.status = .building := by
        rcases hfinished with hready | hskipped <;> simp [*]
      have hpass := (SharedRow.Step.pass (by simpa [hnot] using hphase)).step_eq
      rw [hpass]
      cases hold : c.graphRow s.db <;> simp [abs, hold, hf.status, hf.source, hnot]

theorem adoptGraphIndex_keeps (now : Time) (p : Payload) : KeepsRow (adoptGraphIndex now p) :=
  ⟨fun _ => rfl, fun _ => rfl, fun _ => rfl⟩

theorem promoteRow_keeps (now : Time) : KeepsRow (promoteRow now) :=
  ⟨fun _ => rfl, fun _ => rfl, fun _ => rfl⟩

theorem mergeRows_unique (h : UniqueKey snapshotKey db.graphIndexes) (now : Time) (newId : String)
    (b : Bool) (layer : Layer) :
    UniqueKey snapshotKey (mergeRows now newId (c.payload b layer) db) := by
  unfold mergeRows
  split
  · exact h
  · simp only [createPartialGraphIndexForSCIPOnly, sameSnapshotKey_payload]
    exact h.upsert (adoptGraphIndex_keeps now (c.payload b layer)).key rfl

theorem mergeRows_lookup {g : CodeGraphIndex} (h : c.graphRow db = some g) (now : Time)
    (newId : String) (b : Bool) (layer : Layer) :
    ∃ g', lookup snapshotKey c.key (mergeRows now newId (c.payload b layer) db) = some g' ∧
      g'.id = g.id := by
  unfold mergeRows
  split
  · exact ⟨g, h, rfl⟩
  · refine ⟨adoptGraphIndex now (c.payload b layer) g, ?_, rfl⟩
    simp only [createPartialGraphIndexForSCIPOnly, sameSnapshotKey_payload]
    have hfresh : snapshotKey (scipOnlyGraphIndex now newId (c.payload b layer)) = c.key := rfl
    rw [lookup_upsert (adoptGraphIndex_keeps now (c.payload b layer)).key hfresh]
    unfold graphRow at h
    rw [h]
    rfl

theorem merge_ok (h : c.Inv s) (hprogress : s.progress l.branch = .ingested) :
    ∃ db g, c.merge l s.db = (.ok (), db) ∧ SameInputs s.db db ∧
      UniqueKey snapshotKey db.graphIndexes ∧ c.graphRow db = some g ∧ g.orgId = c.orgId ∧
      g.sourceRevision = c.branch l.branch ∧ g.status = .ready ∧
      ∀ g₀, c.graphRow s.db = some g₀ → g.id = g₀.id := by
  have hfree : mergeBlocked (c.payload l.branch .graphMerge) s.db = false := by
    by_contra hblocked
    simp only [Bool.not_eq_false, mergeBlocked, List.any_eq_true, Bool.and_eq_true,
      Bool.or_eq_true, decide_eq_true_eq, Bool.not_eq_true'] at hblocked
    obtain ⟨dep, hdep, ⟨hdepends, hlayer⟩, hunfinished⟩ := hblocked
    have hdone := h.done l.branch dep hdep hdepends
    rw [hprogress] at hdone
    rcases hlayer with hlayer | hlayer <;> simp [hunfinished, hlayer, phaseOf, Phase.rank] at hdone
  have horg : ∀ g ∈ s.db.graphIndexes,
      sameSnapshotKey (c.payload l.branch .graphMerge) g = true → g.orgId = c.orgId := by
    intro g hg hkey
    rw [sameSnapshotKey_payload] at hkey
    exact h.org g (lookup_eq_some_of_mem h.unique hg (of_decide_eq_true hkey))
  obtain ⟨cond, db, heq, hsame, hrows⟩ :=
    @mergeGraph_of_unblocked l.now _ s.db c.digests c.caps l.newId hfree (h.scip l.branch) horg
  have hunique : UniqueKey snapshotKey db.graphIndexes := by
    rw [hrows]
    exact (mergeRows_unique h.unique ..).map (promoteRow_keeps l.now).guard.key
  have hok : (mergeGraph c.digests c.caps none l.now l.newId (c.payload l.branch .graphMerge)
      s.db).1 = .ok () := by rw [heq]
  have hready := (mergeGraph_ok hok).2 (.inr (h.scip l.branch))
  rw [heq] at hready
  obtain ⟨g, hg, hgorg, hsource, hstatus⟩ :=
    (exists_graphOfRevision_iff hunique l.branch .graphMerge .ready).1 hready
  refine ⟨db, g, heq, hsame, hunique, hg, hgorg, hsource, hstatus, fun g₀ hold => ?_⟩
  obtain ⟨g', hg', hid⟩ := mergeRows_lookup hold l.now l.newId l.branch .graphMerge
  have hlookup : lookup snapshotKey c.key db.graphIndexes =
      some (if cond g' then promoteRow l.now g' else g') := by
    rw [hrows, updateWhere_eq_map, lookup_map (promoteRow_keeps l.now).guard.key, hg']
    rfl
  obtain rfl := Option.some.inj (hg.symm.trans hlookup)
  rw [(promoteRow_keeps l.now).guard.id, hid]

theorem merge_step (h : c.Inv s) (hprogress : s.progress l.branch = .ingested)
    (hmerge : c.merge l s.db = (.ok (), db)) :
    c.Inv (s.moved l.branch (finishLayer l.now (c.payload l.branch .graphMerge) .graphMerge db)
        .merged) ∧
      SharedRow.machine.step (c.abs s) (l.branch, .graphMerge) =
        some (c.abs (s.moved l.branch
          (finishLayer l.now (c.payload l.branch .graphMerge) .graphMerge db) .merged)) := by
  obtain ⟨db', g, heq, hsame, hunique, hg, horg, hsource, hstatus, hid⟩ := merge_ok h hprogress
  obtain rfl : db' = db := congrArg Prod.snd (heq.symm.trans hmerge)
  have hphase : (c.abs s).phase l.branch = .ingested := by simp [abs, hprogress, phaseOf]
  refine ⟨?_, ?_⟩
  · refine h.move_same hsame hunique ?_ ?_ ?_ ?_ ?_ ?_
    · exact fun g₀ hold => ⟨g, hg, hid g₀ hold⟩
    · intro g₀ hg₀
      obtain rfl := Option.some.inj (hg.symm.trans hg₀)
      exact horg
    · simp [hprogress, phaseOf, Phase.rank]
    · have hdone := h.done l.branch
      rw [hprogress, ← hsame.subjobs] at hdone
      refine finishLayer_done_next hdone fun other hother hahead => ?_
      simp [phaseOf, Phase.rank, hother] at hahead
    · intro x hx _
      rw [← hsame.subjobs] at hx
      exact finishLayer_done hx
    · rintro build ⟨⟩
  · rw [abs_moved]
    change _ = some (SharedRow.advance
      { c.abs s with
        status := (c.graphRow db').map CodeGraphIndex.status
        owner := (c.graphRow db').bind fun g => c.ownerOf g.sourceRevision } l.branch .merged)
    have hmerged := (SharedRow.Step.merge hphase).step_eq
    simpa [hg, hstatus, ownerOf_eq_some.2 hsource] using hmerged

theorem publish_ok_iff (h : c.Inv s) (hprogress : s.progress l.branch = .merged) :
    (c.publish l s.db).1 = .ok () ↔ (c.abs s).Holds l.branch := by
  have hrank : (phaseOf (s.progress l.branch)).rank = 3 := by simp [hprogress, phaseOf, Phase.rank]
  have hrepo : repoExists (c.payload l.branch .activate) s.db = true := by
    obtain ⟨r, hr, hid, horg⟩ := h.repo
    exact List.any_eq_true.2 ⟨r, hr, by simp [hid, horg, payload]⟩
  have hfree : ∀ dep ∈ s.db.subjobs, blocking (c.payload l.branch .activate) dep = false := by
    intro dep hdep
    by_contra hblocked
    simp only [Bool.not_eq_false, blocking, Bool.and_eq_true, decide_eq_true_eq,
      Bool.not_eq_true'] at hblocked
    obtain ⟨⟨hdepends, hlayer⟩, hunfinished⟩ := hblocked
    have hdone := h.done l.branch dep hdep hdepends
    simp [hrank, hunfinished, hlayer] at hdone
  unfold publish
  rw [activate_ok_iff, exists_graphOfRevision_iff h.unique, abs_holds_iff]
  constructor
  · rintro ⟨-, -, ⟨g, hg, -, hsource, hstatus⟩, -⟩
    exact ⟨g, hg, hstatus, hsource⟩
  · rintro ⟨g, hg, hstatus, hsource⟩
    exact ⟨hrepo, h.pending l.branch (by omega), ⟨g, hg, h.org g hg, hsource, hstatus⟩, hfree⟩

theorem pending_other (h : c.Inv s) {x : Bool} (hx : x ≠ b) (now : Time)
    {current m : RepoIndexManifest} (hm : m ∈ s.db.manifests)
    (hpending : pendingFor (c.payload x .activate) m = true) (hmem : current ∈ s.db.manifests)
    (hcurrent : pendingFor (c.payload b .activate) current = true) :
    m ∈ activatedManifests now (c.payload b .activate) current s.db.manifests := by
  have hbranch : c.branch x ≠ c.branch b := by
    have hdistinct := c.distinct
    cases b <;> cases x <;> simp_all [ne_comm]
  simp only [pendingFor, Bool.and_eq_true, decide_eq_true_eq] at hpending hcurrent
  have hmbranch : m.branch = c.branch x := hpending.1.1.2
  have hcbranch : current.branch = c.branch b := hcurrent.1.1.2
  have hid : m.id ≠ current.id := by
    intro hid
    rw [h.manifests.eq_of_key_eq hm hmem hid] at hmbranch
    exact hbranch (hmbranch.symm.trans hcbranch)
  have hother : sameBranch (c.payload b .activate) current m = false := by
    rw [Bool.eq_false_iff]
    intro hsame
    simp only [sameBranch, Bool.and_eq_true, decide_eq_true_eq] at hsame
    exact hbranch (hmbranch.symm.trans hsame.2)
  rw [activatedManifests_eq_map, List.mem_map]
  exact ⟨m, hm, activatedRow_of_not_sameBranch hid hother⟩

theorem publish_step (h : c.Inv s) (hprogress : s.progress l.branch = .merged)
    (hpublish : c.publish l s.db = (.ok (), db)) :
    c.Inv (s.moved l.branch (finishLayer l.now (c.payload l.branch .activate) .activate db)
      .activated) ∧ db.graphIndexes = s.db.graphIndexes := by
  have hok : (activate l.now l.newId (c.payload l.branch .activate) s.db).1 = .ok () :=
    congrArg Prod.fst hpublish
  obtain ⟨current, graph, hcurrent, -, hdb⟩ := activate_of_ok hok
  obtain rfl : _ = db := hdb.symm.trans (congrArg Prod.snd hpublish)
  have hmem := mem_of_argmax_filter hcurrent
  refine ⟨?_, rfl⟩
  refine h.move h.unique (fun g hold => ⟨g, hold, rfl⟩) h.org ?_ (fun x => rfl) ?_ ?_ ?_ ?_ ?_ ?_
  · obtain ⟨r, hr, hid, horg⟩ := h.repo
    refine ⟨_, mem_updateWhere.2 ⟨r, hr, rfl⟩, ?_, ?_⟩
    · split <;> exact hid
    · split <;> exact horg
  · show UniqueKey RepoIndexManifest.id (activatedManifests _ _ _ _)
    rw [activatedManifests_eq_map]
    exact h.manifests.map fun m => activatedRow_id
  · intro x hx hrank
    have hne : x ≠ l.branch := by simpa [phaseOf, Phase.rank] using hx
    obtain ⟨m, hm, hpending⟩ := h.pending x hrank
    exact ⟨m, pending_other h hne l.now hm hpending hmem.1 hmem.2, hpending⟩
  · simp [hprogress, phaseOf, Phase.rank]
  · have hdone := h.done l.branch
    rw [hprogress] at hdone
    refine finishLayer_done_next hdone fun other hother hahead => ?_
    simp [phaseOf, Phase.rank] at hahead
  · exact fun x hx _ => finishLayer_done hx
  · rintro build ⟨⟩

theorem Inv.fail (h : c.Inv s) (hprogress : s.progress b = .merged) :
    c.Inv (s.moved b s.db .failed) := by
  refine h.move h.unique (fun g hold => ⟨g, hold, rfl⟩) h.org h.repo (fun x => rfl) h.manifests
    (fun x _ hx => h.pending x hx) ?_ ?_ (fun x hx _ => hx) ?_
  · simp [hprogress, phaseOf, Phase.rank]
  · have hdone := h.done b
    simpa [hprogress, phaseOf, Phase.rank, Done] using hdone
  · rintro build ⟨⟩

/-- Every step of the two branches is the corresponding step on the shared row. -/
theorem step_simulates (h : c.Inv s) (hstep : c.machine.step s l = some s') :
    c.Inv s' ∧ SharedRow.machine.step (c.abs s) l.kind = some (c.abs s') := by
  obtain ⟨b, op, now, newId⟩ := l
  simp only [machine, step] at hstep
  split at hstep
  · rename_i hprogress
    cases hstep
    exact markBuilding_step h hprogress now newId
  · rename_i build hprogress
    obtain ⟨result, hresult, rfl⟩ := Option.map_eq_some_iff.1 hstep
    exact ingest_step h hprogress hresult
  · rename_i hprogress
    obtain ⟨db, -, hmerge, -⟩ := merge_ok (l := ⟨b, .graphMerge, now, newId⟩) h hprogress
    rw [hmerge] at hstep
    cases hstep
    exact merge_step h hprogress hmerge
  · rename_i hprogress
    have hphase : (c.abs s).phase b = .merged := by simp [abs, hprogress, phaseOf]
    have hpublished := (SharedRow.Step.publish hphase).step_eq
    split at hstep
    · rename_i db hpublish
      cases hstep
      obtain ⟨hinv, hgraphs⟩ := publish_step h hprogress hpublish
      refine ⟨hinv, hpublished.trans (congrArg some (abs_moved_same ?_ b .activated).symm)⟩
      exact hgraphs
    · rename_i e db hpublish
      cases hstep
      have hne : (c.publish ⟨b, .activate, now, newId⟩ s.db).1 ≠ .ok () := by simp [hpublish]
      obtain rfl : s.db = db := (activate_of_error hne).symm.trans (congrArg Prod.snd hpublish)
      exact ⟨h.fail hprogress, hpublished.trans (congrArg some (abs_moved_same rfl b .failed).symm)⟩
  · cases hstep

variable (c) in
def simulation : Simulation c.machine SharedRow.machine where
  Inv := c.Inv
  abs := c.abs
  lab := BranchStep.kind
  inv_step _ _ _ h hstep := (step_simulates h hstep).1
  abs_step _ _ _ h hstep := (step_simulates h hstep).2

/-- A step succeeds exactly when, on the shared row, it finds what it needs. -/
theorem outcome_ok_iff (h : c.Inv s) (hstep : c.machine.step s l = some s') :
    c.outcome s l = .ok () ↔ SharedRow.Finds (c.abs s) l.kind := by
  obtain ⟨b, op, now, newId⟩ := l
  simp only [machine, step] at hstep
  split at hstep
  · exact iff_of_true rfl trivial
  · exact iff_of_true rfl trivial
  · rename_i hprogress
    obtain ⟨db, -, hmerge, -⟩ := merge_ok (l := ⟨b, .graphMerge, now, newId⟩) h hprogress
    exact iff_of_true (congrArg Prod.fst hmerge) trivial
  · rename_i hprogress
    exact publish_ok_iff h hprogress
  · cases hstep

variable (c) in
/-- The state an INDEX job leaves behind when it has planned both branches and their
ZOEKT and SCIP subjobs are finished: each branch has its pending manifest and at
least one SCIP row, and a graph row of the commit, if there is one, is unique and
belongs to the organisation. -/
structure Planned (db : Database) : Prop where
  unique : UniqueKey snapshotKey db.graphIndexes
  org : ∀ g, c.graphRow db = some g → g.orgId = c.orgId
  repo : ∃ r ∈ db.repos, r.id = c.repoId ∧ r.orgId = c.orgId
  scip : ∀ b, (loadSCIPProjectionRows c.caps (c.payload b .graphMerge) db).isEmpty = false
  manifests : UniqueKey RepoIndexManifest.id db.manifests
  pending : ∀ b, ∃ m ∈ db.manifests, pendingFor (c.payload b .activate) m = true
  ahead : ∀ b, ∀ dep ∈ db.subjobs, dependencyOf (c.payload b .activate) dep = true →
    depFinished dep = true ∨ dep.layer ∈ [Layer.astTreeSitter, .graphMerge, .activate]

def start (db : Database) : SharedState := ⟨db, fun _ => .planned⟩

theorem Planned.inv (h : c.Planned db) : c.Inv (start db) where
  unique := h.unique
  org := h.org
  repo := h.repo
  scip := h.scip
  manifests := h.manifests
  pending b _ := h.pending b
  done b dep hdep hdepends := by
    have hahead := h.ahead b dep hdep hdepends
    simp only [List.mem_cons, List.not_mem_nil, or_false] at hahead
    tauto
  build b build hb := by cases hb

/-- In every interleaving of the two branches, all merges and activations succeed at
their first attempt exactly when no branch is disturbed between its merge and its
activation: the other branch does not merge there and, unless the row was finished
before, does not complete there an ingest it had begun before the merge. -/
theorem shared_commit_steps_succeed_iff {db : Database} (hplan : c.Planned db)
    {ls : List BranchStep} {s : SharedState} (hrun : c.machine.run (start db) ls = some s) :
    c.machine.Always (fun s l => c.outcome s l = .ok ()) (start db) ls ↔
      SharedRow.Undisturbed ((c.graphRow db).any Writer.sealed) (ls.map BranchStep.kind) := by
  have hinv := hplan.inv
  have hsealed : (c.abs (start db)).isSealed = (c.graphRow db).any Writer.sealed := by
    unfold abs start
    cases hrow : c.graphRow db <;> simp [SharedRow.isSealed, Writer.sealed]
  rw [c.simulation.always_iff (fun s l s' h hstep => outcome_ok_iff h hstep) hinv hrun, ← hsealed]
  exact SharedRow.always_finds_iff (fun b => rfl) (c.simulation.run hinv hrun)

end SharedCommit

/-! ## Two branches of the sample repository -/

def sampleShared : SharedCommit where
  jobId := "job"
  orgId := 1
  repoId := 7
  workspaceId := "ws"
  commitHash := sampleCommit
  branch b := if b then "dev" else "main"
  distinct := by decide
  manifestId b := if b then "manifest-dev" else "manifest"
  statements _ := ["INSERT VERTEX"]
  anchors _ := []
  digests := sampleDigests
  store :=
    { validateRenderedStatementWrite := fun _ => none
      extractRenderedRows := fun w => .ok ([⟨w.revision, []⟩], []) }
  caps := {}

def branchSubjobs (b : Bool) : List Subjob :=
  [Layer.astTreeSitter, .graphMerge, .activate].map fun layer =>
    { sampleActivate with
      id := layer.text ++ sampleShared.branch b
      layer
      branch := sampleShared.branch b
      revision := sampleShared.branch b
      status := .queued }

def branchIndex (b : Bool) : CodeIntelIndex where
  id := sampleShared.branch b
  status := .ready
  workspaceId := "ws"
  branch := sampleShared.branch b
  revision := sampleShared.branch b
  commitHash := sampleCommit
  artifactRoot := ""
  orgId := 1
  repoId := 7
  createdAt := 0
  updatedAt := 0

def branchLanguage (b : Bool) : CodeIntelLanguageIndex where
  id := "go-" ++ sampleShared.branch b
  codeIntelIndexId := sampleShared.branch b
  language := "go"
  projectRoot := "."
  indexer := "scip-go"
  workerClass := "scip-go"
  status := .ready
  artifactPath := ""
  createdAt := 0
  updatedAt := 0

def branchSymbol (b : Bool) : CodeIntelSymbol where
  symbol := "main()."
  orgId := 1
  repoId := 7
  codeIntelIndexId := sampleShared.branch b
  codeIntelLanguageIndexId := "go-" ++ sampleShared.branch b

def plannedBranches : Database :=
  { sampleDatabase with
    manifests := [sampleManifest,
      { sampleManifest with id := "manifest-dev", branch := "dev" }]
    subjobs := branchSubjobs false ++ branchSubjobs true
    codeIntelIndexes := [branchIndex false, branchIndex true]
    languageIndexes := [branchLanguage false, branchLanguage true]
    symbols := [branchSymbol false, branchSymbol true] }

theorem plannedBranches_planned : sampleShared.Planned plannedBranches where
  unique := by decide
  org g hg := by
    have hnone : sampleShared.graphRow plannedBranches = none := by decide
    cases hg
  repo := by decide
  scip := by decide
  manifests := by decide
  pending := by decide
  ahead := by decide

def clocked (kinds : List (Bool × BranchOp)) : List BranchStep :=
  kinds.zipIdx.map fun (kind, i) => ⟨kind.1, kind.2, 100 + i, "id-" ++ toString i⟩

def sequential : List (Bool × BranchOp) :=
  [(false, .markBuilding), (false, .markPartial), (false, .graphMerge), (false, .activate),
    (true, .markBuilding), (true, .markPartial), (true, .graphMerge), (true, .activate)]

/-- One branch after the other: every step succeeds, and the schedule is undisturbed. -/
theorem shared_commit_sequential_succeeds :
    sampleShared.machine.Always (fun s l => sampleShared.outcome s l = .ok ())
        (SharedCommit.start plannedBranches) (clocked sequential) ∧
      SharedRow.Undisturbed ((sampleShared.graphRow plannedBranches).any Writer.sealed)
        ((clocked sequential).map BranchStep.kind) := by
  have hrun : (sampleShared.machine.run (SharedCommit.start plannedBranches)
      (clocked sequential)).isSome = true := by decide
  obtain ⟨s, hs⟩ := Option.isSome_iff_exists.1 hrun
  have hall : sampleShared.machine.Always (fun s l => sampleShared.outcome s l = .ok ())
      (SharedCommit.start plannedBranches) (clocked sequential) := by decide
  exact ⟨hall, (SharedCommit.shared_commit_steps_succeed_iff plannedBranches_planned hs).1 hall⟩

/-- Both branches are ingested and merged before the first one is activated: its READY
row belongs to the other branch by then, and the activation fails. -/
theorem shared_commit_activation_fails :
    sampleShared.Planned plannedBranches ∧
      (sampleShared.machine.run (SharedCommit.start plannedBranches)
        (clocked [(false, .markBuilding), (false, .markPartial), (true, .markBuilding),
          (true, .markPartial), (false, .graphMerge), (true, .graphMerge)])).map
        (fun s => sampleShared.outcome s ⟨false, .activate, 200, "revision"⟩) =
      some (.error "resolve ready graph snapshot: no rows in result set") :=
  ⟨plannedBranches_planned, by decide⟩

end CodeIntel.Core
