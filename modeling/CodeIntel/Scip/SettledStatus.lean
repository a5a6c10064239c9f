import CodeIntel.Scip.IndexStatus
import CodeIntel.Subjobs.RowProgress

/-!
# When the status of a SCIP index settles

The subjobs of a revision end one after the other, by an ingest that is marked
SUCCEEDED or by being skipped. Once all have ended, the index row says READY or
PARTIAL if the last ingest saw no subjob that was still missing, or saw one that had
been skipped already.
-/

namespace CodeIntel.Scip

open Relational Schema Subjobs CodeIntel.Graph

/-! ## Runs of the subjobs of a revision -/

/-- The database, and the subjobs whose `Ingest` committed. -/
structure IndexState where
  db : Database
  ingested : List String := []

/-- A successful `Ingest`, a call of the subjob store, or a step that leaves both alone. -/
inductive StatusStep where
  | ingest (c : IngestCall)
  | store (call : StoreCall)
  | other (f : Database → Database)

/-- The executor marks a SCIP subjob SUCCEEDED after its `Ingest`, and the ingests of
the revision are those of the job. -/
def StatusStep.allowed (jobId : String) (scope : IndexScope) (s : IndexState) : StatusStep → Bool
  | .ingest c => payloadScope c.payload ≠ scope || c.payload.repoIndexingJobId = jobId
  | .store call => call.ofStore && s.db.subjobs.all fun r =>
      call.rules.succeeds ≠ some r.id || !isScipSubjob jobId scope r || s.ingested.contains r.id
  | .other f => SameTables s.db (f s.db) && (f s.db).subjobs = s.db.subjobs

def statusMachine (jobId : String) (scope : IndexScope) : Machine IndexState StatusStep where
  step s a :=
    if a.allowed jobId scope s then
      match a with
      | .ingest c => match ingest c s.db with
        | (.ok (), db) => some ⟨db, c.payload.id :: s.ingested⟩
        | (.error _, _) => none
      | .store call => some { s with db := call.apply s.db }
      | .other f => some { s with db := f s.db }
    else none

/-- What a step does to the subjobs: no row is deleted, finished rows stay, and a SCIP
subjob of the revision only succeeds once its ingest committed. -/
structure RowsMoved (jobId : String) (scope : IndexScope) (ingested : List String)
    (rows rows' : List Subjob) : Prop where
  unique : UniqueKey Subjob.id rows'
  kept : ∀ r ∈ rows, ∃ r' ∈ rows', identity r' = identity r ∧ (r.status ∈ terminal → r' = r)
  origin : ∀ r' ∈ rows', (∃ r ∈ rows, identity r' = identity r) ∨ ∀ r ∈ rows, r.id ≠ r'.id
  succeeded : ∀ r' ∈ rows', r'.status = .succeeded → isScipSubjob jobId scope r' = true →
    r'.id ∈ ingested ∨ ∃ r ∈ rows, identity r' = identity r ∧ r.status = .succeeded

variable {jobId : String} {scope : IndexScope}

section Rows

variable {ingested : List String}

theorem isScipSubjob_congr (jobId : String) (scope : IndexScope) {r r' : Subjob}
    (h : identity r' = identity r) :
    isScipSubjob jobId scope r' = isScipSubjob jobId scope r ∧ subjobKey r' = subjobKey r ∧
      r'.id = r.id := by
  have hscip := congrArg (isScipSubjob jobId scope) h
  have hkey := congrArg subjobKey h
  have hid := congrArg Subjob.id h
  exact ⟨hscip, hkey, hid⟩

variable {rows rows' : List Subjob} {call : StoreCall}

theorem RowsMoved.of_progress {marks : String → Prop} {inserts : Subjob → Prop}
    (hmarks : ∀ r ∈ rows, marks r.id → isScipSubjob jobId scope r = true → r.id ∈ ingested)
    (hinserts : ∀ r, inserts r → r.status ≠ .succeeded)
    (h : RowsProgress marks inserts rows rows') : RowsMoved jobId scope ingested rows rows' := by
  refine ⟨h.unique, ?_, ?_, ?_⟩
  · intro r hr
    obtain ⟨r', hr', hprogress⟩ := h.kept r hr
    exact ⟨r', hr', hprogress.identity_eq, hprogress.terminal⟩
  · intro r' hr'
    rcases h.origin r' hr' with ⟨r, hr, hprogress⟩ | ⟨hnew, -⟩
    · exact .inl ⟨r, hr, hprogress.identity_eq⟩
    · exact .inr hnew
  · intro r' hr' hst hscip
    rcases h.origin r' hr' with ⟨r, hr, hprogress⟩ | ⟨-, hins⟩
    · obtain ⟨hscip', -, hid⟩ := isScipSubjob_congr jobId scope hprogress.identity_eq
      rcases hprogress.succeeded hst with hst₀ | hmarked
      · exact .inr ⟨r, hr, hprogress.identity_eq, hst₀⟩
      · exact .inl (hid ▸ hmarks r hr hmarked (hscip' ▸ hscip))
    · exact absurd hst (hinserts r' hins)

theorem RowsMoved.known (h : RowsMoved jobId scope ingested rows rows') {id : String}
    (hid : ∃ r ∈ rows, r.id = id) : ∃ r' ∈ rows', r'.id = id := by
  obtain ⟨r, hr, rfl⟩ := hid
  obtain ⟨r', hr', hsame, -⟩ := h.kept r hr
  exact ⟨r', hr', (isScipSubjob_congr jobId scope hsame).2.2⟩

theorem RowsMoved.before (h : RowsMoved jobId scope ingested rows rows') {r' : Subjob}
    (hr' : r' ∈ rows') (hknown : ∃ r ∈ rows, r.id = r'.id)
    (hscip : isScipSubjob jobId scope r' = true) :
    ∃ r ∈ rows, r.id = r'.id ∧ isScipSubjob jobId scope r = true ∧ subjobKey r = subjobKey r' := by
  rcases h.origin r' hr' with ⟨r, hr, hid⟩ | hnew
  · obtain ⟨hscip', hkey, hid'⟩ := isScipSubjob_congr jobId scope hid
    exact ⟨r, hr, hid'.symm, hscip' ▸ hscip, hkey.symm⟩
  · obtain ⟨r₀, hr₀, hid₀⟩ := hknown
    exact absurd hid₀ (hnew r₀ hr₀)

theorem RowsMoved.refl (h : UniqueKey Subjob.id rows) :
    RowsMoved jobId scope ingested rows rows := by
  have hprogress : RowsProgress (fun _ => False) (fun _ => False) rows rows := .refl h
  exact .of_progress (fun _ _ hmarked _ => hmarked.elim) (fun _ hins => hins.elim) hprogress

theorem succeeds_eq_none_of_inserts {now : Time} {inp : CreateInput}
    (h : call.rules.inserts now inp) : call.rules.succeeds = none := by
  cases call with
  | markSucceeded => exact h.elim
  | _ => rfl

theorem rowsMoved_apply {db : Database} (hunique : UniqueKey Subjob.id db.subjobs)
    (hcall : call.ofStore = true) (hsucceeds : ∀ r ∈ db.subjobs, call.rules.succeeds = some r.id →
      isScipSubjob jobId scope r = true → r.id ∈ ingested) :
    RowsMoved jobId scope ingested db.subjobs (call.apply db).subjobs := by
  have hprogress : RowsProgress (fun id => call.rules.succeeds = some id)
      (fun r => call.rules.succeeds = none ∧ r.status ≠ .succeeded)
      db.subjobs (call.apply db).subjobs := by
    apply rowsProgress_of_moves hunique (fun _ h => h) _ _ (apply_moves hunique hcall)
    · intro now inp status code message completed hinserts hnew
      exact ⟨succeeds_eq_none_of_inserts hinserts, hnew⟩
    · rintro r r' ⟨hnone, hst⟩ hprogress
      refine ⟨hnone, fun hst' => ?_⟩
      rcases hprogress.succeeded hst' with hold | hmarked
      · exact hst hold
      · rw [hnone] at hmarked
        cases hmarked
  exact .of_progress hsucceeds (fun _ hins => hins.2) hprogress

theorem rowsMoved_checked (c : IngestCall) {db : Database} (hunique : UniqueKey Subjob.id db.subjobs) :
    RowsMoved jobId scope ingested db.subjobs (c.checked db).subjobs := by
  obtain ⟨f, hf, hvalid⟩ := checked_rows c db
  have hprogress : RowsProgress (fun _ => False) (fun _ => False) db.subjobs
      (c.checked db).subjobs := by
    rw [hf]
    refine .map hunique fun r _ => ⟨(hvalid r).identity_eq, ?_, ?_, ?_⟩
    · exact fun hst => (hvalid r).eq_of_terminal (.inl hst)
    · intro hst
      have hsame : f r = r := (hvalid r).eq_of_terminal (.inr (hst ▸ by decide))
      exact .inl (hsame ▸ hst)
    · intro hst
      have hsame : f r = r := (hvalid r).eq_of_terminal (.inr (hst ▸ by decide))
      exact .inl (hsame ▸ hst)
  exact .of_progress (fun _ _ hmarked _ => hmarked.elim) (fun _ hins => hins.elim) hprogress

end Rows

/-! ## Steps -/

variable {jobId : String} {scope : IndexScope} {s s' : IndexState} {a : StatusStep}

/-- An ingest of the job, or a step that keeps the tables of the indexes. -/
inductive StepEffect (jobId : String) (scope : IndexScope) (s s' : IndexState) : StatusStep → Prop
  | ingest (c : IngestCall) (rows : Rows)
      (hjob : payloadScope c.payload = scope → c.payload.repoIndexingJobId = jobId)
      (hdone : Ingested c rows s.db s'.db) (hingested : s'.ingested = c.payload.id :: s.ingested) :
      StepEffect jobId scope s s' (.ingest c)
  | frame (a : StatusStep) (hnot : ∀ c, a ≠ .ingest c) (hsame : SameTables s.db s'.db)
      (hingested : s'.ingested = s.ingested) : StepEffect jobId scope s s' a

theorem sameTables_apply {db : Database} {call : StoreCall} (hcall : call.ofStore = true) :
    SameTables db (call.apply db) := by
  have hframe : OnlyControl db (call.apply db) := apply_onlyControl hcall
  have hindexes := congrArg Database.codeIntelIndexes hframe
  have hlanguages := congrArg Database.languageIndexes hframe
  have hsymbols := congrArg Database.symbols hframe
  have hrelationships := congrArg Database.relationships hframe
  exact ⟨hindexes, hlanguages, hsymbols, hrelationships⟩

theorem step_effect (h : (statusMachine jobId scope).step s a = some s') :
    StepEffect jobId scope s s' a := by
  obtain ⟨hallowed, hstep⟩ := Option.ite_none_right_eq_some.1 h
  cases a with
  | ingest c =>
    simp only [StatusStep.allowed, Bool.or_eq_true, decide_eq_true_eq] at hallowed
    dsimp only at hstep
    split at hstep
    · rename_i db hok
      cases hstep
      obtain ⟨rows, hdone⟩ := ingest_ok hok
      exact .ingest c rows (fun heq => hallowed.resolve_left (not_not.2 heq)) hdone rfl
    · cases hstep
  | store call =>
    simp only [StatusStep.allowed, Bool.and_eq_true] at hallowed
    cases hstep
    exact .frame _ (fun _ heq => nomatch heq) (sameTables_apply hallowed.1) rfl
  | other f =>
    simp only [StatusStep.allowed, Bool.and_eq_true, decide_eq_true_eq] at hallowed
    cases hstep
    exact .frame _ (fun _ heq => nomatch heq) hallowed.1 rfl

theorem replaceRows_subjobs {c : IngestCall} {rows : Rows} {db db' : Database}
    (h : replaceRows c rows db = .ok db') : db'.subjobs = db.subjobs := by
  obtain ⟨indexId, languageId, cleared, -, hp, hr⟩ := replaceRows_ok h
  rw [hr.subjobs, hp.subjobs]

theorem step_rows (hunique : UniqueKey Subjob.id s.db.subjobs)
    (h : (statusMachine jobId scope).step s a = some s') :
    RowsMoved jobId scope s.ingested s.db.subjobs s'.db.subjobs := by
  have heffect := step_effect h
  obtain ⟨hallowed, hstep⟩ := Option.ite_none_right_eq_some.1 h
  cases a with
  | ingest c =>
    cases heffect with
    | ingest _ rows hjob hdone hingested =>
      rw [replaceRows_subjobs hdone.replace]
      exact rowsMoved_checked c hunique
    | frame _ hnot => exact absurd rfl (hnot c)
  | store call =>
    simp only [StatusStep.allowed, Bool.and_eq_true, List.all_eq_true] at hallowed
    cases hstep
    apply rowsMoved_apply hunique hallowed.1
    intro r hr hrules hscip
    simpa [hrules, hscip] using hallowed.2 r hr
  | other f =>
    simp only [StatusStep.allowed, Bool.and_eq_true, decide_eq_true_eq] at hallowed
    cases hstep
    rw [hallowed.2]
    exact .refl hunique

/-! ## What every reachable state satisfies -/

/-- Every symbol belongs to an index row of its repository. -/
def SymbolsPlaced (db : Database) : Prop :=
  ∀ s ∈ db.symbols, ∃ scope : IndexScope, (scope, s.codeIntelIndexId) ∈
    db.codeIntelIndexes.map indexRow ∧ scope.orgId = s.orgId ∧ scope.repoId = s.repoId

variable {c : IngestCall} {db db' : Database}

theorem symbolsPlaced_replaceRows {rows : Rows} (hint : Integrity db) (hplaced : SymbolsPlaced db)
    (h : replaceRows c rows db = .ok db') :
    SymbolsPlaced db' := by
  obtain ⟨indexId, languageId, cleared, -, hp, hr⟩ := replaceRows_ok h
  obtain ⟨added, hfold, hadded, -⟩ := foldl_insertMissing sameSymbol
    (rows.symbols.map (storedSymbol c indexId languageId)) cleared.symbols
  intro s hs
  rw [hr.symbols, hfold] at hs
  rcases List.mem_append.1 hs with hold | hnew
  · rw [hp.symbols] at hold
    obtain ⟨scope, hrow, horg, hrepo⟩ :=
      hplaced s (List.mem_of_mem_filter (List.mem_of_mem_filter hold))
    exact ⟨scope, index_rows_kept hint hp hr _ hrow, horg, hrepo⟩
  · obtain ⟨row, -, rfl⟩ := List.mem_map.1 (hadded s hnew)
    exact ⟨payloadScope c.payload, ((index_rows hint hp hr).1 indexId).2 rfl, rfl, rfl⟩

structure IndexTables (db : Database) : Prop where
  integrity : Integrity db
  languages : LanguagesReady db
  owned : symbolTable.Owned db
  placed : SymbolsPlaced db

theorem IndexTables.of_sameTables (h : SameTables db db') (hdb : IndexTables db) :
    IndexTables db' := by
  refine ⟨h.integrity hdb.integrity, ?_, IndexTable.owned_of_sameTables h hdb.owned, ?_⟩
  · unfold LanguagesReady
    rw [h.languages]
    exact hdb.languages
  · unfold SymbolsPlaced
    rw [h.symbols, h.indexes]
    exact hdb.placed

theorem IndexTables.replaceRows {rows : Rows} (hdb : IndexTables db)
    (h : replaceRows c rows db = .ok db') : IndexTables db' :=
  ⟨integrity_replaceRows hdb.integrity h, languagesReady_replaceRows hdb.integrity hdb.languages h,
    IndexTable.owned_replaceRows hdb.integrity hdb.owned h,
    symbolsPlaced_replaceRows hdb.integrity hdb.placed h⟩

/-- An ingested SCIP subjob of the revision has its READY language row, and a succeeded
one was ingested. -/
structure StatusInv (jobId : String) (scope : IndexScope) (s : IndexState) : Prop where
  tables : IndexTables s.db
  unique : UniqueKey Subjob.id s.db.subjobs
  known : ∀ id ∈ s.ingested, ∃ r ∈ s.db.subjobs, r.id = id
  ready : ∀ r ∈ s.db.subjobs, isScipSubjob jobId scope r = true → r.id ∈ s.ingested →
    isReady s.db scope (subjobKey r) = true
  succeeded : ∀ r ∈ s.db.subjobs, isScipSubjob jobId scope r = true → r.status = .succeeded →
    r.id ∈ s.ingested

theorem isReady_of_sameTables {db db' : Database} (h : SameTables db db') (key : ProjectKey) :
    isReady db' scope key = isReady db scope key := by
  simp only [isReady, h.indexes, h.languages]

theorem isReady_ingested {c : IngestCall} {rows : Rows} {db db' : Database} (hint : Integrity db)
    (hdone : Ingested c rows db db')
    (hjob : payloadScope c.payload = scope → c.payload.repoIndexingJobId = jobId) {r : Subjob}
    (hr : r ∈ db.subjobs) (hscip : isScipSubjob jobId scope r = true) :
    isReady db' scope (subjobKey r) = true ↔
      payloadScope c.payload = scope ∧ subjobKey r = c.key ∨ isReady db scope (subjobKey r) = true := by
  have hsame := sameTables_checked c db
  rw [isReady_replaceRows (hsame.integrity hint) hdone.replace, isReady_of_sameTables hsame]
  split_ifs with hscope hkey
  · simp [hscope, hkey]
  · -- the subjob itself keeps its language row from being stale
    have hkeys : subjobKey r ∈ c.jobKeys (c.checked db) := by
      rw [(sameScip_checked c c.payload.repoIndexingJobId db).jobKeys_iff]
      refine List.mem_map.2 ⟨r, List.mem_filter.2 ⟨hr, ?_⟩, rfl⟩
      rw [hjob hscope.symm, ← hscope]
      exact hscip
    simp [hkey, hkeys]
  · simp [Ne.symm hscope]

theorem StatusInv.step (h : StatusInv jobId scope s)
    (hstep : (statusMachine jobId scope).step s a = some s') : StatusInv jobId scope s' := by
  have hrows := step_rows h.unique hstep
  have hsucceeded : ∀ r' ∈ s'.db.subjobs, isScipSubjob jobId scope r' = true →
      r'.status = .succeeded → r'.id ∈ s.ingested := by
    intro r' hr' hscip hst
    rcases hrows.succeeded r' hr' hst hscip with hin | ⟨r, hr, hid, hst₀⟩
    · exact hin
    · obtain ⟨hscip', -, hid'⟩ := isScipSubjob_congr jobId scope hid
      rw [hid']
      exact h.succeeded r hr (hscip' ▸ hscip) hst₀
  cases step_effect hstep with
  | ingest c rows hjob hdone hingested =>
    have htables := h.tables.of_sameTables (sameTables_checked c s.db)
    obtain ⟨row, hrow, hrow_id, hrow_key, hrow_scip⟩ := hdone.row
    refine ⟨htables.replaceRows hdone.replace, hrows.unique, ?_, ?_, ?_⟩
    · intro id hid
      rw [hingested] at hid
      rcases List.mem_cons.1 hid with rfl | hid
      · exact hrows.known ⟨row, hrow, hrow_id⟩
      · exact hrows.known (h.known id hid)
    · intro r' hr' hscip hid
      rw [hingested] at hid
      rcases List.mem_cons.1 hid with heq | hid
      · obtain ⟨r, hr, hid', hscip', hkey⟩ := hrows.before hr' ⟨row, hrow, hrow_id.trans heq.symm⟩ hscip
        rw [← hkey, isReady_ingested h.tables.integrity hdone hjob hr hscip']
        obtain rfl : r = row := h.unique.eq_of_key_eq hr hrow (hid'.trans (heq.trans hrow_id.symm))
        refine .inl ⟨?_, hrow_key⟩
        simp only [isScipSubjob, Bool.and_eq_true, decide_eq_true_eq] at hrow_scip hscip'
        exact hrow_scip.1.2.symm.trans hscip'.1.2
      · obtain ⟨r, hr, hid', hscip', hkey⟩ := hrows.before hr' (h.known _ hid) hscip
        rw [← hkey, isReady_ingested h.tables.integrity hdone hjob hr hscip']
        exact .inr (h.ready r hr hscip' (hid' ▸ hid))
    · intro r' hr' hscip hst
      rw [hingested]
      exact List.mem_cons_of_mem _ (hsucceeded r' hr' hscip hst)
  | frame _ hnot hsame hingested =>
    refine ⟨h.tables.of_sameTables hsame, hrows.unique, ?_, ?_, ?_⟩
    · intro id hid
      rw [hingested] at hid
      exact hrows.known (h.known id hid)
    · intro r' hr' hscip hid
      rw [hingested] at hid
      obtain ⟨r, hr, hid', hscip', hkey⟩ := hrows.before hr' (h.known _ hid) hscip
      rw [isReady_of_sameTables hsame, ← hkey]
      exact h.ready r hr hscip' (hid' ▸ hid)
    · intro r' hr' hscip hst
      rw [hingested]
      exact hsucceeded r' hr' hscip hst

/-! ## After the last ingest -/

/-- No step ingests into the revision. -/
def Elsewhere (scope : IndexScope) (steps : List StatusStep) : Prop :=
  ∀ c, StatusStep.ingest c ∈ steps → payloadScope c.payload ≠ scope

section Elsewhere

variable {steps : List StatusStep}

theorem indexStatus_run_elsewhere (hinv : StatusInv jobId scope s) (helse : Elsewhere scope steps)
    (hrun : (statusMachine jobId scope).run s steps = some s') :
    indexStatus s'.db scope = indexStatus s.db scope := by
  induction steps generalizing s with
  | nil => rw [Option.some.inj hrun]
  | cons a steps ih =>
    obtain ⟨s₁, hstep, hrest⟩ := (Machine.run_cons_eq_some _).1 hrun
    rw [ih (hinv.step hstep) (fun c hc => helse c (List.mem_cons_of_mem a hc)) hrest]
    cases step_effect hstep with
    | ingest c rows hjob hdone hingested =>
      have hscope : scope ≠ payloadScope c.payload := (helse c List.mem_cons_self).symm
      have hsame := sameTables_checked c s.db
      rw [indexStatus_replaceRows_elsewhere (hsame.integrity hinv.tables.integrity) hdone.replace
        hscope, indexStatus, hsame.indexes]
      rfl
    | frame _ hnot hsame hingested => rw [indexStatus, hsame.indexes]; rfl

theorem rows_run (hinv : StatusInv jobId scope s)
    (hrun : (statusMachine jobId scope).run s steps = some s') :
    ∀ r ∈ s.db.subjobs, ∃ r' ∈ s'.db.subjobs, identity r' = identity r ∧
      (r.status ∈ terminal → r' = r) := by
  refine (Machine.run_rel (StatusInv jobId scope)
    (fun s s' => ∀ r ∈ s.db.subjobs, ∃ r' ∈ s'.db.subjobs, identity r' = identity r ∧
      (r.status ∈ terminal → r' = r)) ?_ ?_ ?_ hinv hrun).2
  · intro s r hr
    exact ⟨r, hr, rfl, fun _ => rfl⟩
  · intro s₁ s₂ s₃ h₁ h₂ r hr
    obtain ⟨r₂, hr₂, hid, hterminal⟩ := h₁ r hr
    obtain ⟨r₃, hr₃, hid', hterminal'⟩ := h₂ r₂ hr₂
    refine ⟨r₃, hr₃, hid'.trans hid, fun hst => ?_⟩
    obtain rfl := hterminal hst
    exact hterminal' hst
  · intro s a s' hinv hstep
    exact ⟨hinv.step hstep, (step_rows hinv.unique hstep).kept⟩

theorem ingested_run_elsewhere (hinv : StatusInv jobId scope s) (helse : Elsewhere scope steps)
    (hrun : (statusMachine jobId scope).run s steps = some s') {r : Subjob}
    (hr : r ∈ s.db.subjobs) (hscip : isScipSubjob jobId scope r = true)
    (hid : r.id ∈ s'.ingested) : r.id ∈ s.ingested := by
  induction steps generalizing s r with
  | nil => rwa [Option.some.inj hrun]
  | cons a steps ih =>
    obtain ⟨s₁, hstep, hrest⟩ := (Machine.run_cons_eq_some _).1 hrun
    obtain ⟨r₁, hr₁, hid₁, -⟩ := (step_rows hinv.unique hstep).kept r hr
    obtain ⟨hscip₁, -, heq⟩ := isScipSubjob_congr jobId scope hid₁
    have hin : r.id ∈ s₁.ingested := by
      rw [← heq]
      exact ih (hinv.step hstep) (fun c hc => helse c (List.mem_cons_of_mem a hc)) hrest hr₁
        (hscip₁ ▸ hscip) (heq ▸ hid)
    cases step_effect hstep with
    | ingest c rows hjob hdone hingested =>
      rw [hingested] at hin
      rcases List.mem_cons.1 hin with hpayload | hin
      · -- the subjob of the call belongs to another revision
        obtain ⟨row, hrow, hrow_id, -, hrow_scip⟩ := hdone.row
        obtain rfl : r = row := hinv.unique.eq_of_key_eq hr hrow (hpayload.trans hrow_id.symm)
        simp only [isScipSubjob, Bool.and_eq_true, decide_eq_true_eq] at hscip hrow_scip
        exact absurd (hrow_scip.1.2.symm.trans hscip.1.2) (helse c List.mem_cons_self)
      · exact hin
    | frame _ hnot hsame hingested => rwa [hingested] at hin

end Elsewhere

/-! ## The status once all subjobs have ended -/

/-- The status that lets the merge read the index. -/
def Settled (scope : IndexScope) (db : Database) : Prop :=
  indexStatus db scope = some .ready ∨ indexStatus db scope = some .partialReady

/-- The merge of the revision loads every symbol stored for it. -/
def SymbolsVisible (scope : IndexScope) (db : Database) : Prop :=
  ∀ caps p, payloadScope p = scope → ∀ v ∈ symbolTable.stored scope db,
    v ∈ (loadSCIPProjectionRows caps p db).symbols.map SymbolProjection.symbol

def AllEnded (jobId : String) (scope : IndexScope) (db : Database) : Prop :=
  ∀ r ∈ db.subjobs, isScipSubjob jobId scope r = true → r.status = .succeeded ∨ r.status = .skipped

instance (jobId : String) (scope : IndexScope) (db : Database) :
    Decidable (AllEnded jobId scope db) :=
  inferInstanceAs (Decidable (∀ r ∈ db.subjobs, _ → _))

/-- When the last ingest ran in `db₁`, a SCIP subjob of the revision had been skipped
already, or each one that ends up skipped in `db'` had its language row. -/
def SkipsCounted (jobId : String) (scope : IndexScope) (c : IngestCall) (db₁ db' : Database) :
    Prop :=
  (∃ r ∈ db₁.subjobs, isScipSubjob jobId scope r = true ∧ r.status = .skipped) ∨
    ∀ r ∈ db₁.subjobs, isScipSubjob jobId scope r = true →
      (∃ r' ∈ db'.subjobs, r'.id = r.id ∧ r'.status = .skipped) →
        subjobKey r = c.key ∨ isReady db₁ scope (subjobKey r) = true

theorem symbolsVisible_of_settled {scope : IndexScope} (hdb : IndexTables db)
    (h : Settled scope db) : SymbolsVisible scope db := by
  intro caps p hp v hv
  simp only [IndexTable.stored, symbolTable, List.mem_map, List.mem_filter, List.any_eq_true,
    Bool.and_eq_true, decide_eq_true_eq] at hv
  obtain ⟨_, ⟨⟨s, hs, rfl⟩, ci, hci, hci_id, hci_scope⟩, rfl⟩ := hv
  obtain ⟨li, hli, hli_id, hli_index⟩ := hdb.owned _ _ _ (List.mem_map_of_mem (f := symbolSlot) hs)
  obtain ⟨scope', hrow, horg, hrepo⟩ := hdb.placed s hs
  obtain ⟨ci', hci', heq⟩ := List.mem_map.1 hrow
  obtain ⟨hscope', hci'_id⟩ := Prod.mk.inj heq
  obtain rfl : ci' = ci := hdb.integrity.indexIds.eq_of_key_eq hci' hci (hci'_id.trans hci_id.symm)
  have hstatus : ci'.status = .ready ∨ ci'.status = .partialReady := by
    unfold Settled indexStatus at h
    rw [lookup_eq_some_of_mem hdb.integrity.indexScopes hci hci_scope] at h
    simpa using h
  have hrevision : indexOfRevision p ci' = true := by
    have hfields := hci_scope.trans hp.symm
    simp only [indexScope, payloadScope, IndexScope.mk.injEq] at hfields
    simp [indexOfRevision, hfields, hstatus]
  have hprojectable : projectable p db s.orgId s.repoId s.codeIntelIndexId
      s.codeIntelLanguageIndexId = true := by
    simp only [projectable, List.any_eq_true, Bool.and_eq_true, decide_eq_true_eq]
    refine ⟨ci', hci, ⟨⟨⟨hci_id, ?_⟩, ?_⟩, hrevision⟩, li, hli, ⟨hli_id, ?_⟩, hdb.languages li hli⟩
    · rw [← horg, ← hscope']
      rfl
    · rw [← hrepo, ← hscope']
      rfl
    · exact hli_index.trans hci_id.symm
  simp only [loadSCIPProjectionRows, loadSymbols, List.map_map, List.mem_map,
    List.mem_insertionSort, List.mem_filter]
  exact ⟨s, ⟨hs, hprojectable⟩, rfl⟩

section Settle

variable {s₁ s₂ s' : IndexState} {c : IngestCall} {post : List StatusStep}

theorem hasIncomplete_checked_iff {db : Database} :
    hasIncomplete (c.checked db) jobId scope = true ↔
      ∃ r ∈ db.subjobs, isScipSubjob jobId scope r = true ∧
        (r.status = .failed ∨ r.status = .skipped) := by
  obtain ⟨f, hf, hvalid⟩ := checked_rows c db
  simp only [hasIncomplete, hf, List.any_map, List.any_eq_true, Function.comp, Bool.and_eq_true,
    Bool.or_eq_true, decide_eq_true_eq]
  refine exists_congr fun r => and_congr_right fun _ => ?_
  rw [(isScipSubjob_congr jobId scope (hvalid r).identity_eq).1]
  have hterminal : ∀ st : SubjobStatus, st = .failed ∨ st = .skipped → st ∈ terminal := by
    rintro st (rfl | rfl) <;> decide
  refine and_congr_right fun _ => ⟨fun hst => ?_, fun hst => ?_⟩
  · rwa [(hvalid r).eq_of_terminal (.inr (hterminal _ hst))] at hst
  · rwa [(hvalid r).eq_of_terminal (.inl (hterminal _ hst))]

theorem hasUnready_checked_iff {rows : Rows} {db db' : Database} (hint : Integrity db)
    (hdone : Ingested c rows db db') (hjob : c.payload.repoIndexingJobId = jobId)
    (hscope : payloadScope c.payload = scope)
    (hnoskip : ∀ r ∈ db.subjobs, isScipSubjob jobId scope r = true → r.status ≠ .skipped) :
    hasUnready (c.checked db).subjobs db' jobId scope = false ↔
      ∀ r ∈ db.subjobs, isScipSubjob jobId scope r = true →
        subjobKey r = c.key ∨ isReady db scope (subjobKey r) = true := by
  obtain ⟨f, hf, hvalid⟩ := checked_rows c db
  simp only [hasUnready, hf, List.any_map, List.any_eq_false, Function.comp, Bool.and_eq_true,
    not_and, decide_eq_true_eq, Bool.not_eq_true', Bool.not_eq_false]
  refine forall_congr' fun r => forall_congr' fun hr => ?_
  obtain ⟨hscip, hkey, -⟩ := isScipSubjob_congr jobId scope (hvalid r).identity_eq
  rw [hscip, hkey]
  constructor
  · intro h hr_scip
    have hst : (f r).status ≠ .skipped := by
      intro hst
      have hrow : f r = r := (hvalid r).eq_of_terminal (.inr (by rw [hst]; decide))
      exact hnoskip r hr hr_scip (hrow ▸ hst)
    have hready := h ⟨hr_scip, hst⟩
    rw [isReady_ingested hint hdone (fun _ => hjob) hr hr_scip] at hready
    simpa [hscope] using hready
  · rintro h ⟨hr_scip, -⟩
    rw [isReady_ingested hint hdone (fun _ => hjob) hr hr_scip]
    simpa [hscope] using h hr_scip

/-- The status an ingest leaves, in terms of the subjobs it found. -/
theorem settled_ingest_iff (hinv : StatusInv jobId scope s₁)
    (hstep : (statusMachine jobId scope).step s₁ (.ingest c) = some s₂)
    (hscope : payloadScope c.payload = scope) :
    Settled scope s₂.db ↔
      (∃ r ∈ s₁.db.subjobs, isScipSubjob jobId scope r = true ∧
        (r.status = .failed ∨ r.status = .skipped)) ∨
      ∀ r ∈ s₁.db.subjobs, isScipSubjob jobId scope r = true →
        subjobKey r = c.key ∨ isReady s₁.db scope (subjobKey r) = true := by
  cases step_effect hstep with
  | frame _ hnot => exact absurd rfl (hnot c)
  | ingest _ rows hjob hdone hingested =>
    have hsame := sameTables_checked c s₁.db
    have hstatus := indexStatus_replaceRows (hsame.integrity hinv.tables.integrity)
      (hinv.tables.of_sameTables hsame).languages hdone.replace
    rw [hjob hscope, hscope] at hstatus
    unfold Settled
    rw [hstatus, ← hasIncomplete_checked_iff (c := c)]
    by_cases hinc : hasIncomplete (c.checked s₁.db) jobId scope = true
    · simp [hinc]
    · have hnoskip : ∀ r ∈ s₁.db.subjobs, isScipSubjob jobId scope r = true →
          r.status ≠ .skipped := by
        intro r hr hscip hst
        exact hinc (hasIncomplete_checked_iff.2 ⟨r, hr, hscip, .inr hst⟩)
      rw [← hasUnready_checked_iff hinv.tables.integrity hdone (hjob hscope) hscope hnoskip]
      simp only [hinc]
      cases hasUnready (c.checked s₁.db).subjobs s₂.db jobId scope <;> simp

/-- Once all subjobs have ended, the last ingest decides. -/
theorem settled_iff_skipsCounted (hinv : StatusInv jobId scope s₁)
    (hstep : (statusMachine jobId scope).step s₁ (.ingest c) = some s₂)
    (hscope : payloadScope c.payload = scope) (helse : Elsewhere scope post)
    (hrun : (statusMachine jobId scope).run s₂ post = some s') (hended : AllEnded jobId scope s'.db) :
    Settled scope s'.db ↔ SkipsCounted jobId scope c s₁.db s'.db := by
  have hinv₂ : StatusInv jobId scope s₂ := hinv.step hstep
  have hinv' : StatusInv jobId scope s' :=
    Machine.run_invariant _ (fun _ _ _ h hs => StatusInv.step h hs) hinv₂ hrun
  have hlater : ∀ r ∈ s₁.db.subjobs, ∃ r' ∈ s'.db.subjobs, identity r' = identity r ∧
      (r.status ∈ terminal → r' = r) :=
    rows_run hinv ((Machine.run_cons_eq_some _).2 ⟨s₂, hstep, hrun⟩)
  have hstatus : Settled scope s'.db ↔ Settled scope s₂.db := by
    unfold Settled
    rw [indexStatus_run_elsewhere hinv₂ helse hrun]
  rw [hstatus, settled_ingest_iff hinv hstep hscope]
  constructor
  · rintro (⟨r, hr, hscip, hst | hst⟩ | hall)
    · -- a failed subjob would still be failed
      obtain ⟨r', hr', -, hterminal⟩ := hlater r hr
      obtain rfl : r' = r := hterminal (by rw [hst]; decide)
      rcases hended r' hr' hscip with hst' | hst' <;> rw [hst] at hst' <;> cases hst'
    · exact .inl ⟨r, hr, hscip, hst⟩
    · exact .inr fun r hr hscip _ => hall r hr hscip
  · rintro (⟨r, hr, hscip, hst⟩ | hskips)
    · exact .inl ⟨r, hr, hscip, .inr hst⟩
    · refine .inr fun r hr hscip => ?_
      obtain ⟨r', hr', hid, -⟩ := hlater r hr
      obtain ⟨hscip', hkey', heq⟩ := isScipSubjob_congr jobId scope hid
      rcases hended r' hr' (hscip' ▸ hscip) with hst | hst
      · -- a succeeded subjob was ingested, and not after this ingest
        obtain ⟨r₂, hr₂, hid₂, -⟩ := (step_rows hinv.unique hstep).kept r hr
        obtain ⟨hscip₂, hkey₂, heq₂⟩ := isScipSubjob_congr jobId scope hid₂
        have hin : r₂.id ∈ s'.ingested := by
          rw [heq₂, ← heq]
          exact hinv'.succeeded r' hr' (hscip' ▸ hscip) hst
        have hready := hinv₂.ready r₂ hr₂ (hscip₂ ▸ hscip)
          (ingested_run_elsewhere hinv₂ helse hrun hr₂ (hscip₂ ▸ hscip) hin)
        rw [hkey₂] at hready
        cases step_effect hstep with
        | frame _ hnot => exact absurd rfl (hnot c)
        | ingest _ rows hjob hdone hingested =>
          rcases (isReady_ingested hinv.tables.integrity hdone hjob hr hscip).1 hready with h | h
          · exact .inl h.2
          · exact .inr h
      · exact hskips r hr hscip ⟨r', hr', heq, hst⟩

end Settle

/-- In every run of the subjobs of a job, once the SCIP subjobs of a revision have all
ended SUCCEEDED or SKIPPED after at least one ingest: the index row is READY or PARTIAL,
and the merge sees every stored symbol, exactly if the last ingest counted the skips. -/
theorem index_status_settles_iff {jobId : String} {scope : IndexScope} {db : Database}
    {s' : IndexState} {steps : List StatusStep} (htables : IndexTables db)
    (hunique : UniqueKey Subjob.id db.subjobs)
    (hnew : ∀ r ∈ db.subjobs, r.repoIndexingJobId ≠ jobId)
    (hrun : (statusMachine jobId scope).run ⟨db, []⟩ steps = some s')
    (hingest : ∃ c, StatusStep.ingest c ∈ steps ∧ payloadScope c.payload = scope)
    (hended : AllEnded jobId scope s'.db) :
    Settled scope s'.db ∧ SymbolsVisible scope s'.db ↔
      ∃ pre c post s₁, steps = pre ++ .ingest c :: post ∧ payloadScope c.payload = scope ∧
        Elsewhere scope post ∧ (statusMachine jobId scope).run ⟨db, []⟩ pre = some s₁ ∧
        SkipsCounted jobId scope c s₁.db s'.db := by
  have hstart : StatusInv jobId scope ⟨db, []⟩ := by
    refine ⟨htables, hunique, ?_, ?_, ?_⟩
    · intro id hid
      cases hid
    · intro r _ _ hid
      cases hid
    · intro r hr hscip
      simp only [isScipSubjob, Bool.and_eq_true, decide_eq_true_eq] at hscip
      exact absurd hscip.1.1 (hnew r hr)
  have hinv : ∀ steps s, (statusMachine jobId scope).run ⟨db, []⟩ steps = some s →
      StatusInv jobId scope s := fun steps s =>
    Machine.run_invariant _ (fun _ _ _ h hs => StatusInv.step h hs) hstart
  -- any split at the last ingest decides the status
  have hsplit : ∀ pre c post s₁, steps = pre ++ .ingest c :: post →
      payloadScope c.payload = scope → Elsewhere scope post →
      (statusMachine jobId scope).run ⟨db, []⟩ pre = some s₁ →
      (Settled scope s'.db ↔ SkipsCounted jobId scope c s₁.db s'.db) := by
    rintro pre c post s₁ rfl hscope helse hpre
    obtain ⟨s₂, hstep, hpost⟩ := Machine.run_split _ hpre hrun
    exact settled_iff_skipsCounted (hinv pre s₁ hpre) hstep hscope helse hpost hended
  constructor
  · rintro ⟨hsettled, -⟩
    obtain ⟨c, hc, hscope⟩ := hingest
    obtain ⟨pre, a, post, heq, ⟨c, rfl, hscope⟩, hlast⟩ := exists_last_split
      (P := fun a => ∃ c, a = StatusStep.ingest c ∧ payloadScope c.payload = scope)
      ⟨_, hc, c, rfl, hscope⟩
    have helse : Elsewhere scope post := fun c' hc' hscope' => hlast _ hc' ⟨c', rfl, hscope'⟩
    obtain ⟨s₁, hpre, -⟩ := (Machine.run_append_eq_some _).1 (heq ▸ hrun)
    exact ⟨pre, c, post, s₁, heq, hscope, helse, hpre,
      (hsplit pre c post s₁ heq hscope helse hpre).1 hsettled⟩
  · rintro ⟨pre, c, post, s₁, heq, hscope, helse, hpre, hcounted⟩
    have hsettled := (hsplit pre c post s₁ heq hscope helse hpre).2 hcounted
    exact ⟨hsettled, symbolsVisible_of_settled (hinv steps s' hrun).tables hsettled⟩

/-! ## One module is ingested, the other times out -/

def goClaimed : List StatusStep :=
  ["svc1", "svc2"].flatMap fun root =>
    [.store (.upsertQueued 1 (goInput root)),
      .store (.claimScoped 10 (goMessage root 1) "worker" "attempt" 100)]

def goSucceeds : List StatusStep :=
  [.store (.markArtifactWritten 11 ⟨"svc1", "worker", "attempt"⟩ "tmp" "artifacts/index.scip" "sha"),
    .ingest (goIngest 12 "svc1" 1 ["svc1.Run"]),
    .store (.markSucceeded 20 ⟨"svc1", "worker", "attempt"⟩)]

def goTimesOut (now : Time) : List StatusStep :=
  [.store (.markFailed now ⟨"svc2", "worker", "attempt"⟩ "EXECUTION_FAILED"
    "scip-go: timeout after 15m0s")]

theorem sampleDatabase_tables : IndexTables sampleDatabase := by
  refine ⟨sampleDatabase_integrity.toIntegrity, ?_, sampleDatabase_integrity.symbols, ?_⟩
  · rintro li ⟨⟩
  · rintro s ⟨⟩

/-- A module skipped before the last ingest is counted. -/
theorem skipped_first_settles :
    ∃ s, (statusMachine "job" goScope).run ⟨sampleDatabase, []⟩
        (goClaimed ++ goTimesOut 11 ++ goSucceeds) = some s ∧
      symbolTable.stored goScope s.db = ["svc1.Run"] ∧
      Settled goScope s.db ∧ SymbolsVisible goScope s.db := by
  refine (statusMachine "job" goScope).exists_run_of_any_imp
    (fun s => AllEnded "job" goScope s.db ∧ symbolTable.stored goScope s.db = ["svc1.Run"])
    (by decide +kernel) ?_
  rintro s hrun ⟨hended, hstored⟩
  obtain ⟨s₁, hpre, hskipped⟩ := (statusMachine "job" goScope).exists_run_of_any
    (fun s => ∃ r ∈ s.db.subjobs, isScipSubjob "job" goScope r = true ∧ r.status = .skipped)
    (show ((statusMachine "job" goScope).run ⟨sampleDatabase, []⟩
      (goClaimed ++ goTimesOut 11 ++ goSucceeds.take 1)).any _ = true by decide +kernel)
  refine ⟨hstored, ?_⟩
  apply (index_status_settles_iff sampleDatabase_tables (by decide) (by decide) hrun ?_ hended).2
  · refine ⟨_, goIngest 12 "svc1" 1 ["svc1.Run"], goSucceeds.drop 2, s₁, ?_, rfl, ?_, hpre,
      .inl hskipped⟩
    · simp [goSucceeds]
    · intro c hc
      simp [goSucceeds] at hc
  · exact ⟨goIngest 12 "svc1" 1 ["svc1.Run"], by simp [goSucceeds], rfl⟩

/-- A module skipped after the last ingest is not: both subjobs have ended and a symbol
is stored, but the index stays INDEXING and the merge loads nothing. -/
theorem skipped_last_stays_indexing :
    ∃ s, (statusMachine "job" goScope).run ⟨sampleDatabase, []⟩
        (goClaimed ++ goSucceeds ++ goTimesOut 30) = some s ∧
      s.db.subjobs.map Subjob.status = [.succeeded, .skipped] ∧
      AllEnded "job" goScope s.db ∧ symbolTable.stored goScope s.db = ["svc1.Run"] ∧
      indexStatus s.db goScope = some .indexing ∧
      (loadSCIPProjectionRows {} (goMessage "svc1" 1) s.db).symbols = [] :=
  (statusMachine "job" goScope).exists_run_of_any _ (by decide +kernel)

end CodeIntel.Scip
