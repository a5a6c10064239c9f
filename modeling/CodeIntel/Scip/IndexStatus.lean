import CodeIntel.Scip.IngestOrder
import CodeIntel.Subjobs.Lifecycle

/-!
# The status of a SCIP index

`Ingest` is the only writer of the status of an index row. It reads the states of
the sibling subjobs when it commits, so a subjob that is skipped after the last
ingest of its revision is still counted as missing.
-/

namespace CodeIntel.Scip

open Relational Schema Subjobs CodeIntel.Graph

/-! ## READY language rows -/

/-- The project has a READY language row at the revision. -/
def isReady (db : Database) (scope : IndexScope) (key : ProjectKey) : Bool :=
  db.codeIntelIndexes.any fun ci => indexScope ci = scope &&
    db.languageIndexes.any fun li => languageScope li = (ci.id, key) && li.status = .ready

theorem isReady_iff {db : Database} {scope : IndexScope} {key : ProjectKey} :
    isReady db scope key = true ↔ AtProject db (fun _ => True) scope key := by
  simp only [isReady, AtProject, ReadyAt, indexRow, List.any_eq_true, Bool.and_eq_true,
    decide_eq_true_eq, List.mem_map, Prod.mk.injEq]
  constructor
  · rintro ⟨ci, hci, hscope, li, hli, hlang, hready⟩
    exact ⟨ci.id, li.id, ⟨ci, hci, hscope, rfl⟩, ⟨li, hli, hlang, rfl, hready⟩, trivial⟩
  · rintro ⟨_, _, ⟨ci, hci, hscope, rfl⟩, ⟨li, hli, hlang, rfl, hready⟩, -⟩
    exact ⟨ci, hci, hscope, li, hli, hlang, hready⟩

/-- Every language row of a committed state is READY. -/
def LanguagesReady (db : Database) : Prop := ∀ li ∈ db.languageIndexes, li.status = .ready

variable {c : IngestCall} {rows : Rows} {db db' : Database}

section Transaction

theorem isReady_replaceRows (hint : Integrity db) (h : replaceRows c rows db = .ok db')
    (scope : IndexScope) (key : ProjectKey) :
    isReady db' scope key = true ↔
      if scope = payloadScope c.payload then
        if key = c.key then True else isReady db scope key = true ∧ key ∈ c.jobKeys db
      else isReady db scope key = true := by
  obtain ⟨indexId, languageId, cleared, -, hp, hr⟩ := replaceRows_ok h
  rw [isReady_iff, isReady_iff]
  exact atProject_replaceRows hint hp hr (fun _ _ _ => Iff.rfl) scope key

theorem languagesReady_replaceRows (hint : Integrity db) (hready : LanguagesReady db)
    (h : replaceRows c rows db = .ok db') : LanguagesReady db' := by
  obtain ⟨indexId, languageId, cleared, -, hp, hr⟩ := replaceRows_ok h
  obtain ⟨-, -, row, -, -, hrow, hmem⟩ := language_rows hint hp hr
  intro li hli
  rcases (hmem li).1 hli with rfl | ⟨hold, -, -⟩
  · exact hrow
  · exact hready li hold

/-! ## The status column -/

def indexStatus (db : Database) (scope : IndexScope) : Option CodeIntelIndexStatus :=
  (lookup indexScope scope db.codeIntelIndexes).map CodeIntelIndex.status

/-- A SCIP subjob of the job ended without an artifact. -/
def hasIncomplete (db : Database) (jobId : String) (scope : IndexScope) : Bool :=
  db.subjobs.any fun s => isScipSubjob jobId scope s && (s.status = .failed || s.status = .skipped)

/-- A SCIP subjob of the job, not known to be skipped, has no READY language row. -/
def hasUnready (subjobs : List Subjob) (db : Database) (jobId : String) (scope : IndexScope) : Bool :=
  subjobs.any fun s =>
    isScipSubjob jobId scope s && s.status ≠ .skipped && !isReady db scope (subjobKey s)

theorem replaceRows_indexes (h : replaceRows c rows db = .ok db') :
    ∃ indexId languageId cleared, Prepared c db cleared indexId languageId ∧
      Replaced c rows cleared db' indexId languageId ∧
      db' = refreshCodeIntelIndexCounts c.now indexId c.payload
        { db' with codeIntelIndexes := cleared.codeIntelIndexes } := by
  obtain ⟨indexId, languageId, cleared, hprepare, hp, hr⟩ := replaceRows_ok h
  refine ⟨indexId, languageId, cleared, hp, hr, ?_⟩
  obtain ⟨⟨i, l, cleared'⟩, hprepare', h⟩ := bind_eq_ok.1 h
  cases hprepare.symm.trans hprepare'
  cases h
  rfl

variable {indexes indexes' : List CodeIntelIndex} {indexId : String} {scope : IndexScope}

theorem upsertCodeIntelIndex_eq (h : upsertCodeIntelIndex c indexes = .ok (indexId, indexes')) :
    indexes' = upsert (fun ci => indexScope ci = payloadScope c.payload) (reopenIndex c)
      (freshIndex c) indexes := by
  unfold upsertCodeIntelIndex at h
  unfold upsert
  split at h
  · rename_i ci hrow
    cases h
    rw [if_pos (List.any_eq_true.2 ⟨ci, mem_of_lookup hrow, decide_eq_true (key_of_lookup hrow)⟩)]
  · rename_i hrow
    split_ifs at h
    cases h
    rw [if_neg fun hany => ?_]
    obtain ⟨ci, hci, hscope⟩ := List.any_eq_true.1 hany
    exact List.find?_eq_none.1 hrow ci hci hscope

theorem lookup_upsertCodeIntelIndex_elsewhere
    (h : upsertCodeIntelIndex c indexes = .ok (indexId, indexes'))
    (hscope : scope ≠ payloadScope c.payload) :
    lookup indexScope scope indexes' = lookup indexScope scope indexes := by
  rw [upsertCodeIntelIndex_eq h]
  refine lookup_upsert_of_ne (fun ci => ?_) ?_ hscope <;> rfl

theorem isReady_iff_of_index
    (hown : ∀ id, (scope, id) ∈ db.codeIntelIndexes.map indexRow ↔ id = indexId)
    (key : ProjectKey) :
    isReady db scope key = true ↔
      ∃ li ∈ db.languageIndexes, languageScope li = (indexId, key) ∧ li.status = .ready := by
  rw [isReady_iff]
  constructor
  · rintro ⟨id, l, hrow, ⟨li, hli, hscope, -, hready⟩, -⟩
    obtain rfl := (hown id).1 hrow
    exact ⟨li, hli, hscope, hready⟩
  · rintro ⟨li, hli, hscope, hready⟩
    exact ⟨indexId, li.id, (hown indexId).2 rfl, ⟨li, hli, hscope, rfl, hready⟩, trivial⟩

theorem indexStatus_replaceRows (hint : Integrity db) (hready : LanguagesReady db)
    (h : replaceRows c rows db = .ok db') :
    indexStatus db' (payloadScope c.payload) =
      some (if hasIncomplete db c.payload.repoIndexingJobId (payloadScope c.payload) then .partialReady
        else if hasUnready db.subjobs db' c.payload.repoIndexingJobId (payloadScope c.payload) then
          .indexing
        else .ready) := by
  obtain ⟨indexId, languageId, cleared, hp, hr, hdb'⟩ := replaceRows_indexes h
  obtain ⟨ci, hci⟩ : ∃ ci,
      lookup indexScope (payloadScope c.payload) cleared.codeIntelIndexes = some ci := by
    rw [upsertCodeIntelIndex_eq hp.index]
    refine ⟨_, lookup_upsert (fun ci => ?_) ?_⟩ <;> rfl
  obtain rfl : ci.id = indexId := by
    refine ((index_rows hint hp hr).1 ci.id).1 ?_
    rw [hr.indexes, ← key_of_lookup hci]
    exact List.mem_map_of_mem (mem_of_lookup hci)
  obtain ⟨-, -, row, hscope, -, hrow, hmem⟩ := language_rows hint hp hr
  have hready' := languagesReady_replaceRows hint hready h
  have hsubjobs : db'.subjobs = db.subjobs := hr.subjobs.trans hp.subjobs
  -- the parts of the last statement, read in the final tables
  have hnofail : (db'.languageIndexes.filter fun li => li.codeIntelIndexId = ci.id).any
      (fun li => li.status = .failed) = false := by
    rw [List.any_eq_false]
    intro li hli
    simp [hready' li (List.mem_filter.1 hli).1]
  have hsome : ((db'.languageIndexes.filter fun li => li.codeIntelIndexId = ci.id).filter
      fun li => li.status = .ready).isEmpty = false := by
    rw [List.isEmpty_eq_false_iff_exists_mem]
    refine ⟨row, List.mem_filter.2 ⟨List.mem_filter.2 ⟨(hmem row).2 (.inl rfl), ?_⟩, ?_⟩⟩
    · exact decide_eq_true (Prod.mk.inj hscope).1
    · exact decide_eq_true hrow
  have hlanguage : ∀ s : Subjob,
      ((db'.languageIndexes.filter fun li => li.codeIntelIndexId = ci.id).filter
        fun li => li.status = .ready).any (fun li => languageKey li = subjobKey s) =
        isReady db' (payloadScope c.payload) (subjobKey s) := by
    intro s
    rw [Bool.eq_iff_iff, isReady_iff_of_index (index_rows hint hp hr).1]
    simp [languageScope, and_assoc, and_comm, and_left_comm]
  have hrows := congrArg Database.codeIntelIndexes hdb'
  simp only [refreshCodeIntelIndexCounts, updateWhere_eq_map] at hrows
  unfold indexStatus
  rw [hrows, lookup_map (by intro r; split <;> rfl), hci]
  simp only [Option.map_some, decide_true, if_true, hnofail, hsome, hlanguage, List.any_filter,
    hsubjobs, hasIncomplete, hasUnready, Bool.false_or, Bool.not_false, Bool.and_true, Bool.and_assoc]

theorem indexStatus_replaceRows_elsewhere (hint : Integrity db)
    (h : replaceRows c rows db = .ok db') (hscope : scope ≠ payloadScope c.payload) :
    indexStatus db' scope = indexStatus db scope := by
  obtain ⟨indexId, languageId, cleared, hp, hr, hdb'⟩ := replaceRows_indexes h
  have hothers := (index_rows hint hp hr).2 scope hscope
  have hrows := congrArg Database.codeIntelIndexes hdb'
  simp only [refreshCodeIntelIndexCounts, updateWhere_eq_map] at hrows
  unfold indexStatus
  rw [hrows, lookup_map (by intro r; split <;> rfl), lookup_upsertCodeIntelIndex_elsewhere hp.index hscope]
  cases hl : lookup indexScope scope db.codeIntelIndexes with
  | none => rfl
  | some ci =>
    have hrow : (scope, ci.id) ∈ db.codeIntelIndexes.map indexRow :=
      List.mem_map.2 ⟨ci, mem_of_lookup hl, by rw [indexRow, key_of_lookup hl]⟩
    simp [(hothers ci.id).2 hrow]

end Transaction

/-! ## The lease checks of a call -/

/-- A lease check only moves a row in flight to VALIDATING. -/
structure Validated (r r' : Subjob) : Prop where
  identity_eq : identity r' = identity r
  moved : r' = r ∨ r.status ∈ inFlight ∧ r'.status = .validating

theorem Validated.trans {r₁ r₂ r₃ : Subjob} (h : Validated r₁ r₂) (h' : Validated r₂ r₃) :
    Validated r₁ r₃ := by
  refine ⟨h'.identity_eq.trans h.identity_eq, ?_⟩
  rcases h.moved with rfl | ⟨hflight, hst⟩
  · exact h'.moved
  · rcases h'.moved with rfl | ⟨-, hst'⟩
    · exact .inr ⟨hflight, hst⟩
    · exact .inr ⟨hflight, hst'⟩

theorem Validated.eq_of_terminal {r r' : Subjob} (h : Validated r r')
    (hst : r.status ∈ terminal ∨ r'.status ∈ terminal) : r' = r := by
  rcases h.moved with heq | ⟨hflight, hvalidating⟩
  · exact heq
  · rcases hst with hst | hst
    · exact absurd hst (not_terminal_of_inFlight hflight)
    · rw [hvalidating] at hst
      exact absurd hst (by decide)

theorem validateLease_rows (c : IngestCall) (now : Time) (db : Database) :
    ∃ f, (c.validateLease now db).2.subjobs = db.subjobs.map f ∧ ∀ r, Validated r (f r) := by
  refine ⟨_, rfl, fun r => ?_⟩
  split
  · rename_i hcond
    simp only [Bool.and_eq_true] at hcond
    obtain ⟨⟨⟨⟨⟨-, hlease⟩, -⟩, -⟩, -⟩, -⟩ := hcond
    obtain ⟨-, -, hstate⟩ := holdsLease_parts hlease
    have hflight : r.status ∈ inFlight := by
      revert hstate
      cases r.status <;> decide
    exact ⟨rfl, .inr ⟨hflight, rfl⟩⟩
  · exact ⟨rfl, .inl rfl⟩

theorem checked_rows (c : IngestCall) (db : Database) :
    ∃ f, (c.checked db).subjobs = db.subjobs.map f ∧ ∀ r, Validated r (f r) := by
  obtain ⟨f, hf, hvalid⟩ := validateLease_rows c c.precheckAt db
  obtain ⟨g, hg, hvalid'⟩ := validateLease_rows c c.now (c.validateLease c.precheckAt db).2
  refine ⟨g ∘ f, ?_, fun r => (hvalid r).trans (hvalid' (f r))⟩
  rw [IngestCall.checked, hg, hf, List.map_map]

theorem Ingested.row (h : Ingested c rows db db') :
    ∃ r ∈ db.subjobs, r.id = c.payload.id ∧ subjobKey r = c.key ∧
      isScipSubjob c.payload.repoIndexingJobId (payloadScope c.payload) r = true := by
  have hone := Except.ok.inj h.precheck
  obtain ⟨r, hr, hcond⟩ := exists_of_affected_pos (by
    rw [of_decide_eq_true hone]
    exact Nat.one_pos)
  simp only [ClaimScope.matchesRow, Bool.and_eq_true, decide_eq_true_eq] at hcond
  obtain ⟨⟨⟨⟨⟨⟨hmatch, hlayer⟩, -⟩, -⟩, -⟩, -⟩, -⟩ := hcond
  obtain ⟨⟨⟨⟨⟨⟨⟨⟨⟨⟨⟨⟨⟨hid, hjob⟩, horg⟩, hworkspace⟩, hrepo⟩, hbranch⟩, hrevision⟩, hcommit⟩, -⟩,
    hlanguage⟩, hroot⟩, hindexer⟩, -⟩, -⟩ := hmatch
  have hscope : subjobScope r = payloadScope c.payload := by
    have hws : workspaceOf c.payload = r.workspaceId := by
      rw [workspaceOf, ← hworkspace]
      rfl
    rw [subjobScope, payloadScope, horg, hrepo, hws, hbranch, hrevision, hcommit]
  refine ⟨r, hr, hid, ?_, ?_⟩
  · rw [subjobKey, hlanguage, hroot, hindexer]
    rfl
  · simp [isScipSubjob, hjob, hscope, hlayer]

end CodeIntel.Scip
