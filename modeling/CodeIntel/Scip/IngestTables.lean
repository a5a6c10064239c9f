import CodeIntel.Relational.Fallible
import CodeIntel.Scip.Ingest

/-!
# What an ingest does to the index of a project

A project counts as indexed at a revision when the index row of the revision has
a READY language row for it that symbols are stored for. The spec lemma of the
transaction says for every revision and every project whether it is indexed
afterwards.
-/

namespace CodeIntel.Scip

open Relational Schema Subjobs

/-- The identity of an index row: the revision it belongs to and its id. -/
def indexRow (ci : CodeIntelIndex) : IndexScope × String := (indexScope ci, ci.id)

/-- A READY language row, with its id. -/
def ReadyAt (languages : List CodeIntelLanguageIndex) (scope : String × ProjectKey)
    (languageId : String) : Prop :=
  ∃ li ∈ languages, languageScope li = scope ∧ li.id = languageId ∧ li.status = .ready

def HasSymbol (symbols : List CodeIntelSymbol) (languageId : String) : Prop :=
  ∃ s ∈ symbols, s.codeIntelLanguageIndexId = languageId

/-- The project has a READY language row with symbols at the revision. -/
def isIndexed (db : Database) (scope : IndexScope) (key : ProjectKey) : Bool :=
  db.codeIntelIndexes.any fun ci => indexScope ci = scope &&
    db.languageIndexes.any fun li => languageScope li = (ci.id, key) && li.status = .ready &&
      db.symbols.any fun s => s.codeIntelLanguageIndexId = li.id

/-- The project has a READY language row at the revision whose id meets `P`. -/
def AtProject (db : Database) (P : String → Prop) (scope : IndexScope) (key : ProjectKey) : Prop :=
  ∃ indexId languageId, (scope, indexId) ∈ db.codeIntelIndexes.map indexRow ∧
    ReadyAt db.languageIndexes (indexId, key) languageId ∧ P languageId

variable {db db' : Database} {scope : IndexScope} {key : ProjectKey} {c : IngestCall}
  {jobId : String}

theorem isIndexed_iff :
    isIndexed db scope key = true ↔ AtProject db (HasSymbol db.symbols) scope key := by
  simp only [isIndexed, AtProject, ReadyAt, HasSymbol, indexRow, List.any_eq_true,
    Bool.and_eq_true, decide_eq_true_eq, List.mem_map, Prod.mk.injEq]
  constructor
  · rintro ⟨ci, hci, hscope, li, hli, ⟨hlang, hready⟩, hsymbol⟩
    exact ⟨ci.id, li.id, ⟨ci, hci, hscope, rfl⟩, ⟨li, hli, hlang, rfl, hready⟩, hsymbol⟩
  · rintro ⟨_, _, ⟨ci, hci, hscope, rfl⟩, ⟨li, hli, hlang, rfl, hready⟩, hsymbol⟩
    exact ⟨ci, hci, hscope, li, hli, ⟨hlang, hready⟩, hsymbol⟩

/-- The unique indexes and the foreign key of the index tables. -/
structure Integrity (db : Database) : Prop where
  indexIds : UniqueKey CodeIntelIndex.id db.codeIntelIndexes
  indexScopes : UniqueKey indexScope db.codeIntelIndexes
  languageIds : UniqueKey CodeIntelLanguageIndex.id db.languageIndexes
  languageScopes : UniqueKey languageScope db.languageIndexes
  parents : ∀ li ∈ db.languageIndexes, ∃ ci ∈ db.codeIntelIndexes, ci.id = li.codeIntelIndexId

theorem Integrity.congr {db db' : Database} (hint : Integrity db)
    (hindexes : db'.codeIntelIndexes = db.codeIntelIndexes)
    (hlanguages : db'.languageIndexes = db.languageIndexes) : Integrity db' := by
  obtain ⟨h₁, h₂, h₃, h₄, h₅⟩ := hint
  exact ⟨hindexes ▸ h₁, hindexes ▸ h₂, hlanguages ▸ h₃, hlanguages ▸ h₄,
    by rw [hindexes, hlanguages]; exact h₅⟩

/-! ## The index row -/

variable {c : IngestCall}

section IndexRow

variable {rows rows' : List CodeIntelIndex} {indexId : String}

/-- Afterwards there is a row of the revision, and no other row is new. -/
theorem upsertCodeIntelIndex_ok (hids : UniqueKey Prod.snd (rows.map indexRow))
    (hscopes : UniqueKey Prod.fst (rows.map indexRow))
    (h : upsertCodeIntelIndex c rows = .ok (indexId, rows')) :
    UniqueKey Prod.snd (rows'.map indexRow) ∧ UniqueKey Prod.fst (rows'.map indexRow) ∧
      ∀ row, row ∈ rows'.map indexRow ↔
        row ∈ rows.map indexRow ∨ row = (payloadScope c.payload, indexId) := by
  unfold upsertCodeIntelIndex at h
  cases hrow : lookup indexScope (payloadScope c.payload) rows with
  | some ci =>
    simp only [hrow, Except.ok.injEq, Prod.mk.injEq] at h
    obtain ⟨rfl, rfl⟩ := h
    have hown : (payloadScope c.payload, ci.id) ∈ rows.map indexRow :=
      List.mem_map.2 ⟨ci, mem_of_lookup hrow, by rw [indexRow, key_of_lookup hrow]⟩
    rw [updateWhere_eq_map, List.map_map, List.map_congr_left (g := indexRow) fun r _ => by
      rw [Function.comp_apply]; split <;> rfl]
    refine ⟨hids, hscopes, fun row => ⟨.inl, ?_⟩⟩
    rintro (hold | rfl)
    · exact hold
    · exact hown
  | none =>
    simp only [hrow] at h
    split at h
    · cases h
    · rename_i hfresh
      obtain ⟨rfl, rfl⟩ := h
      rw [List.map_append]
      refine ⟨hids.append_fresh (List.forall_mem_map.2 fun ci hci hid => ?_),
        hscopes.append_fresh (List.forall_mem_map.2 fun ci hci hscope => ?_), fun row => ?_⟩
      · exact hfresh (List.any_eq_true.2 ⟨ci, hci, decide_eq_true hid⟩)
      · exact absurd (decide_eq_true hscope) (List.find?_eq_none.1 hrow ci hci)
      · rw [List.mem_append, List.map_singleton, List.mem_singleton]
        rfl

end IndexRow

/-! ## The language row -/

section LanguageRow

variable {indexId languageId : String}
variable {rows rows' : List CodeIntelLanguageIndex}

theorem upsertLanguageIndex_ok (hids : UniqueKey CodeIntelLanguageIndex.id rows)
    (hscopes : UniqueKey languageScope rows)
    (h : upsertLanguageIndex c indexId rows = .ok (languageId, rows')) :
    UniqueKey CodeIntelLanguageIndex.id rows' ∧ UniqueKey languageScope rows' ∧
      ∃ row, languageScope row = (indexId, c.key) ∧ row.id = languageId ∧
        ∀ r, r ∈ rows' ↔ r = row ∨ r ∈ rows ∧ languageScope r ≠ (indexId, c.key) := by
  unfold upsertLanguageIndex at h
  cases hrow : lookup languageScope (indexId, c.key) rows with
  | some li =>
    simp only [hrow, Except.ok.injEq, Prod.mk.injEq] at h
    obtain ⟨rfl, rfl⟩ := h
    refine ⟨hids.map fun r => by split <;> rfl, hscopes.map fun r => by split <;> rfl,
      reopenLanguage c li, (key_of_lookup hrow : languageScope li = _), rfl, fun r => ?_⟩
    rw [mem_updateWhere]
    constructor
    · rintro ⟨r₀, hr₀, rfl⟩
      by_cases hscope : languageScope r₀ = (indexId, c.key)
      · -- the row of the project is the one that was found
        obtain rfl : r₀ = li :=
          hscopes.eq_of_key_eq hr₀ (mem_of_lookup hrow) (hscope.trans (key_of_lookup hrow).symm)
        exact .inl (by simp [hscope])
      · exact .inr ⟨by simpa [hscope] using hr₀, by simp [hscope]⟩
    · rintro (rfl | ⟨hr, hscope⟩)
      · exact ⟨li, mem_of_lookup hrow, by simp [key_of_lookup hrow]⟩
      · exact ⟨r, hr, by simp [hscope]⟩
  | none =>
    simp only [hrow] at h
    split at h
    · cases h
    · rename_i hfresh
      obtain ⟨rfl, rfl⟩ := h
      have hother : ∀ r ∈ rows, languageScope r ≠ (indexId, c.key) := by
        intro r hr hscope
        exact absurd (decide_eq_true hscope) (List.find?_eq_none.1 hrow r hr)
      refine ⟨hids.append_fresh fun r hr hid => hfresh (List.any_eq_true.2 ⟨r, hr, ?_⟩),
        hscopes.append_fresh fun r hr => hother r hr, freshLanguage c indexId, rfl, rfl, fun r => ?_⟩
      · exact decide_eq_true hid
      · rw [List.mem_append, List.mem_singleton]
        constructor
        · rintro (hr | rfl)
          · exact .inr ⟨hr, hother r hr⟩
          · exact .inl rfl
        · rintro (rfl | ⟨hr, -⟩)
          · exact .inr rfl
          · exact .inl hr

theorem upsertLanguageIndex_id (hscopes : UniqueKey languageScope rows)
    (h : upsertLanguageIndex c indexId rows = .ok (languageId, rows'))
    {r : CodeIntelLanguageIndex} (hr : r ∈ rows) (hscope : languageScope r = (indexId, c.key)) :
    r.id = languageId := by
  unfold upsertLanguageIndex at h
  rw [lookup_eq_some_of_mem hscopes hr hscope] at h
  exact (Prod.mk.inj (Except.ok.inj h)).1

theorem mem_markReady {now : Time} {row : CodeIntelLanguageIndex}
    (hids : UniqueKey CodeIntelLanguageIndex.id rows')
    (hscope : languageScope row = (indexId, c.key)) (hid : row.id = languageId)
    (hmem : ∀ r, r ∈ rows' ↔ r = row ∨ r ∈ rows ∧ languageScope r ≠ (indexId, c.key))
    (r : CodeIntelLanguageIndex) :
    r ∈ updateWhere (fun li => li.id = languageId) (readyLanguage now) rows' ↔
      r = readyLanguage now row ∨ r ∈ rows ∧ languageScope r ≠ (indexId, c.key) := by
  have hrow : row ∈ rows' := (hmem row).2 (.inl rfl)
  rw [mem_updateWhere]
  constructor
  · rintro ⟨r₀, hr₀, rfl⟩
    by_cases hr₀id : r₀.id = languageId
    · obtain rfl : r₀ = row := hids.eq_of_key_eq hr₀ hrow (hr₀id.trans hid.symm)
      exact .inl (by simp [hr₀id])
    · simp only [hr₀id, decide_false, Bool.false_eq_true, if_false]
      refine .inr (((hmem r₀).1 hr₀).resolve_left ?_)
      rintro rfl
      exact hr₀id hid
  · rintro (rfl | hr)
    · exact ⟨row, hrow, by simp [hid]⟩
    · have hr' : r ∈ rows' := (hmem r).2 (.inr hr)
      refine ⟨r, hr', ?_⟩
      have hne : r.id ≠ languageId := by
        intro hrid
        obtain rfl : r = row := hids.eq_of_key_eq hr' hrow (hrid.trans hid.symm)
        exact hr.2 hscope
      simp [hne]

end LanguageRow

/-! ## The transaction -/

/-- The tables between the deletes and the inserts of the transaction. -/
structure Prepared (c : IngestCall) (db cleared : Database) (indexId languageId : String) :
    Prop where
  index : upsertCodeIntelIndex c db.codeIntelIndexes = .ok (indexId, cleared.codeIntelIndexes)
  language : upsertLanguageIndex c indexId
    (deleteWhere (isStale c indexId db.subjobs) db.languageIndexes) =
      .ok (languageId, cleared.languageIndexes)
  symbols : cleared.symbols = deleteWhere (fun s => s.codeIntelLanguageIndexId = languageId)
    (deleteWhere (fun s => (staleIds c indexId db).contains s.codeIntelLanguageIndexId) db.symbols)
  subjobs : cleared.subjobs = db.subjobs

theorem prepare_ok {cleared : Database} {indexId languageId : String}
    (h : prepare c db = .ok (indexId, languageId, cleared)) :
    Prepared c db cleared indexId languageId := by
  obtain ⟨⟨indexId', indexes⟩, hindex, h⟩ := bind_eq_ok.1 h
  obtain ⟨⟨languageId', languages⟩, hlanguage, h⟩ := bind_eq_ok.1 h
  cases h
  exact ⟨hindex, hlanguage, rfl, rfl⟩

/-- The insert stores at least one symbol of the artifact. -/
def storesSymbol (c : IngestCall) (rows : Rows) (db : Database) : Bool :=
  match prepare c db with
  | .error _ => false
  | .ok (indexId, languageId, cleared) => rows.symbols.any fun row =>
      !cleared.symbols.any (sameSymbol (storedSymbol c indexId languageId row))

/-- What the remaining statements do to the tables. -/
structure Replaced (c : IngestCall) (rows : Rows) (cleared db' : Database)
    (indexId languageId : String) : Prop where
  indexes : db'.codeIntelIndexes.map indexRow = cleared.codeIntelIndexes.map indexRow
  languages : db'.languageIndexes =
    updateWhere (fun li => li.id = languageId) (readyLanguage c.now) cleared.languageIndexes
  symbols : db'.symbols = (rows.symbols.map (storedSymbol c indexId languageId)).foldl
    (insertMissing sameSymbol) cleared.symbols
  subjobs : db'.subjobs = cleared.subjobs

theorem replaceRows_ok {rows : Rows} (h : replaceRows c rows db = .ok db') :
    ∃ indexId languageId cleared, prepare c db = .ok (indexId, languageId, cleared) ∧
      Prepared c db cleared indexId languageId ∧
        Replaced c rows cleared db' indexId languageId := by
  obtain ⟨⟨indexId, languageId, cleared⟩, hprepare, h⟩ := bind_eq_ok.1 h
  cases h
  refine ⟨indexId, languageId, cleared, hprepare, prepare_ok hprepare, ?_, rfl, rfl, rfl⟩
  simp only [refreshCodeIntelIndexCounts, markLanguageReady, insertRows, updateWhere_eq_map,
    List.map_map]
  refine List.map_congr_left fun ci _ => ?_
  simp only [Function.comp]
  split <;> rfl

section Transaction

variable {rows : Rows} {db cleared db' : Database} {indexId languageId : String}

/-- The language rows afterwards: the READY row of the project and the other rows
that were not stale. -/
theorem language_rows (hint : Integrity db) (hp : Prepared c db cleared indexId languageId)
    (hr : Replaced c rows cleared db' indexId languageId) :
    UniqueKey CodeIntelLanguageIndex.id db'.languageIndexes ∧
      UniqueKey languageScope db'.languageIndexes ∧
      ∃ row, languageScope row = (indexId, c.key) ∧ row.id = languageId ∧ row.status = .ready ∧
        ∀ li, li ∈ db'.languageIndexes ↔ li = row ∨ (li ∈ db.languageIndexes ∧
          isStale c indexId db.subjobs li = false ∧ languageScope li ≠ (indexId, c.key)) := by
  obtain ⟨hids, hscopes, row, hscope, hid, hmem⟩ := upsertLanguageIndex_ok
    (hint.languageIds.deleteWhere _) (hint.languageScopes.deleteWhere _) hp.language
  rw [hr.languages]
  refine ⟨hids.map fun r => by split <;> rfl, hscopes.map fun r => by split <;> rfl,
    readyLanguage c.now row, hscope, hid, rfl, fun li => ?_⟩
  rw [mem_markReady hids hscope hid hmem]
  simp [deleteWhere, and_assoc]

def IngestCall.jobKeys (c : IngestCall) (db : Database) : List ProjectKey :=
  scipKeys c.payload.repoIndexingJobId (payloadScope c.payload) db.subjobs

variable {li : CodeIntelLanguageIndex} {l : String} {scope : String × ProjectKey}

theorem isStale_eq_false_iff :
    isStale c indexId db.subjobs li = false ↔
      (li.codeIntelIndexId = indexId → languageKey li ∈ c.jobKeys db) := by
  simp [isStale, IngestCall.jobKeys, imp_iff_not_or]

theorem mem_staleIds_iff (hint : Integrity db) (hli : li ∈ db.languageIndexes)
    (hindex : li.codeIntelIndexId = indexId) :
    li.id ∈ staleIds c indexId db ↔ languageKey li ∉ c.jobKeys db := by
  have hstale : isStale c indexId db.subjobs li = true ↔ languageKey li ∉ c.jobKeys db := by
    rw [← Bool.not_eq_false, isStale_eq_false_iff]
    simp [hindex]
  rw [← hstale]
  constructor
  · intro h
    obtain ⟨li', hli', hid⟩ := List.mem_map.1 h
    obtain ⟨hmem, hisStale⟩ := List.mem_filter.1 hli'
    rwa [hint.languageIds.eq_of_key_eq hmem hli hid] at hisStale
  · intro h
    exact List.mem_map.2 ⟨li, List.mem_filter.2 ⟨hli, h⟩, rfl⟩

variable (hint : Integrity db) (hp : Prepared c db cleared indexId languageId)
  (hr : Replaced c rows cleared db' indexId languageId)

section OtherLanguages

include hint hp hr

theorem readyAt_self : ReadyAt db'.languageIndexes (indexId, c.key) l ↔ l = languageId := by
  obtain ⟨-, -, row, hscope, hid, hready, hmem⟩ := language_rows hint hp hr
  constructor
  · rintro ⟨li, hli, hli_scope, rfl, -⟩
    rcases (hmem li).1 hli with rfl | ⟨-, -, hne⟩
    · exact hid
    · exact absurd hli_scope hne
  · rintro rfl
    exact ⟨row, (hmem row).2 (.inl rfl), hscope, hid, hready⟩

theorem readyAt_other (hne : scope ≠ (indexId, c.key)) :
    ReadyAt db'.languageIndexes scope l ↔
      ReadyAt db.languageIndexes scope l ∧ (scope.1 = indexId → scope.2 ∈ c.jobKeys db) := by
  obtain ⟨-, -, row, hscope, -, -, hmem⟩ := language_rows hint hp hr
  constructor
  · rintro ⟨li, hli, rfl, rfl, hready⟩
    rcases (hmem li).1 hli with rfl | ⟨hold, hstale, -⟩
    · exact absurd hscope hne
    · exact ⟨⟨li, hold, rfl, rfl, hready⟩, isStale_eq_false_iff.1 hstale⟩
  · rintro ⟨⟨li, hold, rfl, rfl, hready⟩, hkeys⟩
    exact ⟨li, (hmem li).2 (.inr ⟨hold, isStale_eq_false_iff.2 hkeys, hne⟩), rfl, rfl, hready⟩

theorem language_other_id (hli : li ∈ db'.languageIndexes)
    (hne : languageScope li ≠ (indexId, c.key)) :
    li.id ≠ languageId ∧ li.id ∉ staleIds c indexId db := by
  obtain ⟨hids, -, row, hscope, hid, -, hmem⟩ := language_rows hint hp hr
  constructor
  · intro heq
    obtain rfl : li = row := hids.eq_of_key_eq hli ((hmem row).2 (.inl rfl)) (heq.trans hid.symm)
    exact hne hscope
  · intro hstale
    obtain ⟨li', hli', hsame⟩ := List.mem_map.1 hstale
    obtain ⟨hold', hisStale⟩ := List.mem_filter.1 hli'
    rcases (hmem li).1 hli with rfl | ⟨hold, hfresh, -⟩
    · exact hne hscope
    · obtain rfl : li' = li := hint.languageIds.eq_of_key_eq hold' hold hsame
      rw [hisStale] at hfresh
      cases hfresh

theorem readyAt_other_id (hne : scope ≠ (indexId, c.key))
    (h : ReadyAt db'.languageIndexes scope l) :
    l ≠ languageId ∧ l ∉ staleIds c indexId db := by
  obtain ⟨li, hli, rfl, rfl, -⟩ := h
  exact language_other_id hint hp hr hli hne

theorem mem_language_elsewhere (hindex : li.codeIntelIndexId ≠ indexId) :
    li ∈ db'.languageIndexes ↔ li ∈ db.languageIndexes := by
  obtain ⟨-, -, row, hscope, -, -, hmem⟩ := language_rows hint hp hr
  rw [hmem li, isStale_eq_false_iff]
  constructor
  · rintro (rfl | ⟨hli, -, -⟩)
    · exact absurd (Prod.mk.inj hscope).1 hindex
    · exact hli
  · intro hli
    exact .inr ⟨hli, fun heq => absurd heq hindex, fun heq => hindex (Prod.mk.inj heq).1⟩

/-- The rows under a language row of the index are deleted if it is that of the
project, or of a project the job does not have. -/
theorem removed_language_iff (hli : li ∈ db.languageIndexes)
    (hindex : li.codeIntelIndexId = indexId) :
    li.id = languageId ∨ li.id ∈ staleIds c indexId db ↔
      languageKey li = c.key ∨ languageKey li ∉ c.jobKeys db := by
  rw [mem_staleIds_iff hint hli hindex]
  by_cases hkeys : languageKey li ∈ c.jobKeys db
  · have hfresh : isStale c indexId db.subjobs li = false := isStale_eq_false_iff.2 fun _ => hkeys
    simp only [hkeys, not_true_eq_false, or_false]
    constructor
    · intro hid
      by_contra hkey
      have hne : languageScope li ≠ (indexId, c.key) := fun heq => hkey (Prod.mk.inj heq).2
      obtain ⟨-, -, row, -, -, -, hmem⟩ := language_rows hint hp hr
      exact (language_other_id hint hp hr ((hmem li).2 (.inr ⟨hli, hfresh, hne⟩)) hne).1 hid
    · intro hkey
      refine upsertLanguageIndex_id (hint.languageScopes.deleteWhere _) hp.language
        (List.mem_filter.2 ⟨hli, by simp [hfresh]⟩) ?_
      rw [languageScope, hindex, hkey]
  · simp [hkeys]

end OtherLanguages

theorem hasSymbol_other (hp : Prepared c db cleared indexId languageId)
    (hr : Replaced c rows cleared db' indexId languageId) (hne : l ≠ languageId)
    (hstale : l ∉ staleIds c indexId db) : HasSymbol db'.symbols l ↔ HasSymbol db.symbols l := by
  obtain ⟨added, hfold, hadded, -⟩ := foldl_insertMissing sameSymbol
    (rows.symbols.map (storedSymbol c indexId languageId)) cleared.symbols
  have hcleared : ∀ s, s.codeIntelLanguageIndexId = l → (s ∈ cleared.symbols ↔ s ∈ db.symbols) := by
    rintro s rfl
    simp [hp.symbols, deleteWhere, hne, hstale]
  rw [hr.symbols, hfold]
  constructor
  · rintro ⟨s, hs, hl⟩
    rcases List.mem_append.1 hs with hs | hs
    · exact ⟨s, (hcleared s hl).1 hs, hl⟩
    · obtain ⟨row, -, rfl⟩ := List.mem_map.1 (hadded s hs)
      exact absurd hl.symm hne
  · rintro ⟨s, hs, hl⟩
    exact ⟨s, List.mem_append_left _ ((hcleared s hl).2 hs), hl⟩

theorem hasSymbol_self (hprepare : prepare c db = .ok (indexId, languageId, cleared))
    (hr : Replaced c rows cleared db' indexId languageId) :
    HasSymbol db'.symbols languageId ↔ storesSymbol c rows db = true := by
  obtain ⟨added, hfold, hadded, hnil⟩ := foldl_insertMissing sameSymbol
    (rows.symbols.map (storedSymbol c indexId languageId)) cleared.symbols
  have hnone : ¬HasSymbol cleared.symbols languageId := by
    rintro ⟨s, hs, rfl⟩
    rw [(prepare_ok hprepare).symbols] at hs
    simp [deleteWhere] at hs
  have hstores : storesSymbol c rows db = true ↔ added ≠ [] := by
    rw [Ne, hnil]
    simp [storesSymbol, hprepare]
  rw [hstores, hr.symbols, hfold]
  constructor
  · rintro ⟨s, hs, hl⟩ rfl
    exact hnone ⟨s, by simpa using hs, hl⟩
  · intro hne
    obtain ⟨s, rest, rfl⟩ := List.exists_cons_of_ne_nil hne
    obtain ⟨row, -, hrow⟩ := List.mem_map.1 (hadded s List.mem_cons_self)
    exact ⟨s, by simp, by rw [← hrow]; rfl⟩

theorem Integrity.indexRows (hint : Integrity db) :
    UniqueKey Prod.snd (db.codeIntelIndexes.map indexRow) ∧
      UniqueKey Prod.fst (db.codeIntelIndexes.map indexRow) := by
  unfold UniqueKey
  rw [List.map_map, List.map_map]
  exact ⟨hint.indexIds, hint.indexScopes⟩

section Tables

include hint hp hr

theorem index_table :
    UniqueKey Prod.snd (db'.codeIntelIndexes.map indexRow) ∧
      UniqueKey Prod.fst (db'.codeIntelIndexes.map indexRow) ∧
      ∀ row, row ∈ db'.codeIntelIndexes.map indexRow ↔
        row ∈ db.codeIntelIndexes.map indexRow ∨ row = (payloadScope c.payload, indexId) := by
  rw [hr.indexes]
  exact upsertCodeIntelIndex_ok hint.indexRows.1 hint.indexRows.2 hp.index

theorem index_rows :
    (∀ id, (payloadScope c.payload, id) ∈ db'.codeIntelIndexes.map indexRow ↔ id = indexId) ∧
      ∀ scope, scope ≠ payloadScope c.payload → ∀ id,
        ((scope, id) ∈ db'.codeIntelIndexes.map indexRow ↔
          (scope, id) ∈ db.codeIntelIndexes.map indexRow) ∧
        ((scope, id) ∈ db.codeIntelIndexes.map indexRow → id ≠ indexId) := by
  obtain ⟨hids, hscopes, hmem⟩ := index_table hint hp hr
  have hown := (hmem (payloadScope c.payload, indexId)).2 (.inr rfl)
  refine ⟨fun id => ⟨fun h => ?_, fun h => h ▸ hown⟩, fun scope hne id => ⟨?_, ?_⟩⟩
  · exact (Prod.mk.inj (hscopes.eq_of_key_eq h hown rfl)).2
  · simp [hmem, hne]
  · rintro h rfl
    exact hne (Prod.mk.inj (hids.eq_of_key_eq ((hmem _).2 (.inl h)) hown rfl)).1

theorem index_rows_kept :
    ∀ row ∈ db.codeIntelIndexes.map indexRow, row ∈ db'.codeIntelIndexes.map indexRow :=
  fun row hrow => ((index_table hint hp hr).2.2 row).2 (.inl hrow)

theorem index_known (hli : li ∈ db.languageIndexes) (hindex : li.codeIntelIndexId = indexId) :
    (payloadScope c.payload, indexId) ∈ db.codeIntelIndexes.map indexRow := by
  obtain ⟨hids, -, hmem⟩ := index_table hint hp hr
  obtain ⟨ci, hci, hid⟩ := hint.parents li hli
  have hrow : (indexScope ci, indexId) ∈ db.codeIntelIndexes.map indexRow :=
    List.mem_map.2 ⟨ci, hci, by rw [indexRow, hid, hindex]⟩
  rwa [hids.eq_of_key_eq ((hmem _).2 (.inl hrow)) ((hmem _).2 (.inr rfl)) rfl] at hrow

/-- Which READY language rows there are after the transaction: that of its own project,
those of the other projects of the job at this revision, no further one at this revision,
and every one of another revision. A property of the ids that the transaction only
changes for the rows it removes or writes is carried along. -/
theorem atProject_replaceRows {P P' : String → Prop}
    (hP : ∀ l, l ≠ languageId → l ∉ staleIds c indexId db → (P' l ↔ P l)) (scope : IndexScope)
    (key : ProjectKey) :
    AtProject db' P' scope key ↔
      if scope = payloadScope c.payload then
        if key = c.key then P' languageId else AtProject db P scope key ∧ key ∈ c.jobKeys db
      else AtProject db P scope key := by
  obtain ⟨hown, hothers⟩ := index_rows hint hp hr
  have hkept : ∀ id l, (id, key) ≠ (indexId, c.key) →
      (ReadyAt db'.languageIndexes (id, key) l ∧ P' l ↔
        (ReadyAt db.languageIndexes (id, key) l ∧ P l) ∧ (id = indexId → key ∈ c.jobKeys db)) := by
    intro id l hne
    constructor
    · rintro ⟨hready, hl'⟩
      obtain ⟨hl, hstale⟩ := readyAt_other_id hint hp hr hne hready
      obtain ⟨hold, hkeys⟩ := (readyAt_other hint hp hr hne).1 hready
      exact ⟨⟨hold, (hP l hl hstale).1 hl'⟩, hkeys⟩
    · rintro ⟨⟨hold, hl'⟩, hkeys⟩
      have hready := (readyAt_other hint hp hr hne).2 ⟨hold, hkeys⟩
      obtain ⟨hl, hstale⟩ := readyAt_other_id hint hp hr hne hready
      exact ⟨hready, (hP l hl hstale).2 hl'⟩
  split_ifs with hscope hkey
  · subst hscope hkey
    constructor
    · rintro ⟨id, l, hrow, hready, hl⟩
      obtain rfl := (hown id).1 hrow
      obtain rfl := (readyAt_self hint hp hr).1 hready
      exact hl
    · intro hl
      exact ⟨indexId, languageId, (hown indexId).2 rfl, (readyAt_self hint hp hr).2 rfl, hl⟩
  · subst hscope
    have hne : (indexId, key) ≠ (indexId, c.key) := fun heq => hkey (Prod.mk.inj heq).2
    constructor
    · rintro ⟨id, l, hrow, hready⟩
      obtain rfl := (hown id).1 hrow
      obtain ⟨hold, hkeys⟩ := (hkept id l hne).1 hready
      obtain ⟨li, hli, hscope, -, -⟩ := hold.1
      exact ⟨⟨id, l, index_known hint hp hr hli (Prod.mk.inj hscope).1, hold⟩, hkeys rfl⟩
    · rintro ⟨⟨id, l, hrow, hold⟩, hkeys⟩
      obtain rfl := (hown id).1 (index_rows_kept hint hp hr _ hrow)
      exact ⟨id, l, (hown id).2 rfl, (hkept id l hne).2 ⟨hold, fun _ => hkeys⟩⟩
  · constructor
    · rintro ⟨id, l, hrow, hready⟩
      have hrow' := (hothers scope hscope id).1.1 hrow
      have hid := (hothers scope hscope id).2 hrow'
      have hne : (id, key) ≠ (indexId, c.key) := fun heq => hid (Prod.mk.inj heq).1
      exact ⟨id, l, hrow', ((hkept id l hne).1 hready).1⟩
    · rintro ⟨id, l, hrow, hold⟩
      have hid := (hothers scope hscope id).2 hrow
      have hne : (id, key) ≠ (indexId, c.key) := fun heq => hid (Prod.mk.inj heq).1
      exact ⟨id, l, (hothers scope hscope id).1.2 hrow,
        (hkept id l hne).2 ⟨hold, fun heq => absurd heq hid⟩⟩

end Tables

theorem isIndexed_replaceRows (hint : Integrity db) (h : replaceRows c rows db = .ok db')
    (scope : IndexScope) (key : ProjectKey) :
    isIndexed db' scope key = true ↔
      if scope = payloadScope c.payload then
        if key = c.key then storesSymbol c rows db = true
        else isIndexed db scope key = true ∧ key ∈ c.jobKeys db
      else isIndexed db scope key = true := by
  obtain ⟨indexId, languageId, cleared, hprepare, hp, hr⟩ := replaceRows_ok h
  rw [isIndexed_iff, isIndexed_iff, ← hasSymbol_self hprepare hr]
  exact atProject_replaceRows hint hp hr (fun _ => hasSymbol_other hp hr) scope key

theorem integrity_replaceRows (hint : Integrity db) (h : replaceRows c rows db = .ok db') :
    Integrity db' := by
  obtain ⟨indexId, languageId, cleared, hprepare, hp, hr⟩ := replaceRows_ok h
  obtain ⟨hids, hscopes, row, hscope, -, -, hmem⟩ := language_rows hint hp hr
  obtain ⟨hindexIds, hindexScopes, hrows⟩ := index_table hint hp hr
  unfold UniqueKey at hindexIds hindexScopes
  rw [List.map_map] at hindexIds hindexScopes
  refine ⟨hindexIds, hindexScopes, hids, hscopes, fun li hli => ?_⟩
  rcases (hmem li).1 hli with rfl | ⟨hold, -, -⟩
  · obtain ⟨ci, hci, hrow⟩ := List.mem_map.1 ((hrows _).2 (.inr rfl))
    exact ⟨ci, hci, (Prod.mk.inj hrow).2.trans (Prod.mk.inj hscope).1.symm⟩
  · obtain ⟨ci, hci, hid⟩ := hint.parents li hold
    obtain ⟨ci', hci', hrow⟩ := List.mem_map.1 ((hrows _).2 (.inl (List.mem_map_of_mem hci)))
    exact ⟨ci', hci', (Prod.mk.inj hrow).2.trans hid⟩

end Transaction

/-! ## The call -/

def jobProject (jobId : String) (s : Subjob) : Option (IndexScope × ProjectKey) :=
  if s.repoIndexingJobId = jobId ∧ s.layer = .scip then some (subjobScope s, subjobKey s) else none

def jobProjects (jobId : String) (subjobs : List Subjob) : List (IndexScope × ProjectKey) :=
  subjobs.filterMap (jobProject jobId)

theorem mem_scipKeys {subjobs : List Subjob} :
    key ∈ scipKeys jobId scope subjobs ↔ (scope, key) ∈ jobProjects jobId subjobs := by
  simp only [scipKeys, jobProjects, jobProject, isScipSubjob, List.mem_map, List.mem_filter,
    List.mem_filterMap, Bool.and_eq_true, decide_eq_true_eq, Option.ite_none_right_eq_some,
    Option.some.injEq, Prod.mk.injEq]
  constructor
  · rintro ⟨s, ⟨hs, ⟨hjob, hscope⟩, hlayer⟩, hkey⟩
    exact ⟨s, hs, ⟨hjob, hlayer⟩, hscope, hkey⟩
  · rintro ⟨s, hs, ⟨hjob, hlayer⟩, hscope, hkey⟩
    exact ⟨s, ⟨hs, ⟨hjob, hscope⟩, hlayer⟩, hkey⟩

/-- The two states have the same index rows, and the job has the same SCIP projects. -/
structure SameScip (jobId : String) (db db' : Database) : Prop where
  indexes : db'.codeIntelIndexes = db.codeIntelIndexes
  languages : db'.languageIndexes = db.languageIndexes
  symbols : db'.symbols = db.symbols
  projects : jobProjects jobId db'.subjobs = jobProjects jobId db.subjobs

theorem SameScip.refl : SameScip jobId db db :=
  ⟨rfl, rfl, rfl, rfl⟩

theorem SameScip.trans {db₁ db₂ db₃ : Database} (h : SameScip jobId db₁ db₂)
    (h' : SameScip jobId db₂ db₃) : SameScip jobId db₁ db₃ :=
  ⟨h'.indexes.trans h.indexes, h'.languages.trans h.languages, h'.symbols.trans h.symbols,
    h'.projects.trans h.projects⟩

theorem SameScip.isIndexed_eq (h : SameScip jobId db db') (scope : IndexScope) (key : ProjectKey) :
    isIndexed db' scope key = isIndexed db scope key := by
  simp only [isIndexed, h.indexes, h.languages, h.symbols]

theorem SameScip.integrity (h : SameScip jobId db db') (hint : Integrity db) : Integrity db' :=
  hint.congr h.indexes h.languages

theorem jobProjects_updateWhere {cond : Subjob → Bool} {set : Subjob → Subjob}
    (jobId : String) (hset : ∀ s, jobProject jobId (set s) = jobProject jobId s)
    (subjobs : List Subjob) :
    jobProjects jobId (updateWhere cond set subjobs) = jobProjects jobId subjobs := by
  unfold jobProjects
  rw [updateWhere_eq_map, List.filterMap_map]
  refine List.filterMap_congr fun s _ => ?_
  simp only [Function.comp]
  split
  · exact hset s
  · rfl

theorem sameScip_validateLease (c : IngestCall) (now : Time) (jobId : String) (db : Database) :
    SameScip jobId db (c.validateLease now db).2 := by
  refine ⟨rfl, rfl, rfl, ?_⟩
  exact jobProjects_updateWhere jobId (by intro s; rfl) db.subjobs

/-- The database after the two lease checks of a call. -/
def IngestCall.checked (c : IngestCall) (db : Database) : Database :=
  (c.validateLease c.now (c.validateLease c.precheckAt db).2).2

theorem sameScip_checked (c : IngestCall) (jobId : String) (db : Database) :
    SameScip jobId db (c.checked db) :=
  (sameScip_validateLease c c.precheckAt jobId db).trans
    (sameScip_validateLease c c.now jobId (c.validateLease c.precheckAt db).2)

/-- What a successful call has passed: both lease checks, the artifact and the
statements of the transaction. -/
structure Ingested (c : IngestCall) (rows : Rows) (db db' : Database) : Prop where
  precheck : (c.validateLease c.precheckAt db).1 = .ok true
  check : (c.validateLease c.now (c.validateLease c.precheckAt db).2).1 = .ok true
  load : loadRows c = .ok rows
  replace : replaceRows c rows (c.checked db) = .ok db'

theorem ingestTransaction_cases (c : IngestCall) (rows : Rows) (db : Database) :
    (∃ e, ingestTransaction c rows db = (.error e, db)) ∨
      ∃ db', ingestTransaction c rows db = (.ok (), db') ∧ (c.validateLease c.now db).1 = .ok true ∧
        replaceRows c rows (c.validateLease c.now db).2 = .ok db' := by
  unfold ingestTransaction
  split
  · rename_i checked hcheck
    rw [hcheck]
    cases hreplace : replaceRows c rows checked with
    | error e => exact .inl ⟨e, by simp⟩
    | ok db' => exact .inr ⟨db', rfl, rfl, rfl⟩
  · exact .inl ⟨_, rfl⟩

/-- A failed call leaves the index rows alone; a successful one is its transaction,
run after the two lease checks. -/
theorem ingest_cases (c : IngestCall) (db : Database) :
    (∃ e, (ingest c db).1 = .error e ∧ ∀ jobId, SameScip jobId db (ingest c db).2) ∨
      ∃ rows db', ingest c db = (.ok (), db') ∧ Ingested c rows db db' := by
  unfold ingest
  cases refuseIngest c with
  | some e => exact .inl ⟨e, rfl, fun _ => .refl⟩
  | none =>
    dsimp only
    have hsame := sameScip_validateLease c c.precheckAt
    split
    · rename_i checked hcheck
      have hchecked : ∀ jobId, SameScip jobId db checked := by
        intro jobId
        simpa [hcheck] using hsame jobId db
      cases hload : loadRows c with
      | error e => exact .inl ⟨e, rfl, hchecked⟩
      | ok rows =>
        dsimp only
        rcases ingestTransaction_cases c rows checked with ⟨e, he⟩ | ⟨db', hok, hlease, hreplace⟩
        · rw [he]
          exact .inl ⟨e, rfl, hchecked⟩
        · rw [hok]
          obtain rfl : (c.validateLease c.precheckAt db).2 = checked := by rw [hcheck]
          exact .inr ⟨rows, db', rfl, by rw [hcheck], hlease, hload, hreplace⟩
    · exact .inl ⟨_, rfl, fun _ => .refl⟩

section Call

variable {db db' : Database}

theorem SameScip.jobKeys_iff (h : SameScip c.payload.repoIndexingJobId db db') {key : ProjectKey} :
    key ∈ c.jobKeys db' ↔ key ∈ c.jobKeys db := by
  unfold IngestCall.jobKeys
  rw [mem_scipKeys, mem_scipKeys, h.projects]

theorem SameScip.isStale_eq (h : SameScip c.payload.repoIndexingJobId db db') (indexId : String) :
    isStale c indexId db'.subjobs = isStale c indexId db.subjobs := by
  funext li
  rw [Bool.eq_iff_iff, ← not_iff_not]
  simp only [Bool.not_eq_true, isStale_eq_false_iff, h.jobKeys_iff]

theorem SameScip.storesSymbol_eq (h : SameScip c.payload.repoIndexingJobId db db') (rows : Rows) :
    storesSymbol c rows db' = storesSymbol c rows db := by
  have hstale : ∀ indexId, staleIds c indexId db' = staleIds c indexId db := by
    intro indexId
    unfold staleIds
    rw [h.isStale_eq, h.languages]
  unfold storesSymbol prepare
  rw [h.indexes]
  cases upsertCodeIntelIndex c db.codeIntelIndexes with
  | error e => rfl
  | ok index =>
    have hpruned : (deleteStaleLanguageIndexes c index.1
        { db' with codeIntelIndexes := index.2 }).languageIndexes =
          (deleteStaleLanguageIndexes c index.1
            { db with codeIntelIndexes := index.2 }).languageIndexes := by
      simp only [deleteStaleLanguageIndexes, h.isStale_eq, h.languages]
    have hsymbols : (deleteStaleLanguageIndexes c index.1
        { db' with codeIntelIndexes := index.2 }).symbols =
          (deleteStaleLanguageIndexes c index.1 { db with codeIntelIndexes := index.2 }).symbols := by
      have := hstale index.1
      simp only [deleteStaleLanguageIndexes, staleIds, h.symbols] at this ⊢
      rw [this]
    simp only [bind, Except.bind, hpruned]
    cases upsertLanguageIndex c index.1 _ with
    | error e => rfl
    | ok language => simp only [pure, Except.pure, deleteLanguageRows, hsymbols]

def IngestCall.stores (c : IngestCall) (db : Database) : Bool :=
  match loadRows c with
  | .error _ => false
  | .ok rows => storesSymbol c rows db

theorem ingest_ok (h : ingest c db = (.ok (), db')) : ∃ rows, Ingested c rows db db' := by
  rcases ingest_cases c db with ⟨e, he, -⟩ | ⟨rows, db'', hok, hdone⟩
  · rw [h] at he
    cases he
  · obtain rfl : db' = db'' := (Prod.mk.inj (h.symm.trans hok)).2
    exact ⟨rows, hdone⟩

theorem isIndexed_ingest (hint : Integrity db) (h : ingest c db = (.ok (), db'))
    (scope : IndexScope) (key : ProjectKey) :
    isIndexed db' scope key = true ↔
      if scope = payloadScope c.payload then
        if key = c.key then c.stores db = true
        else isIndexed db scope key = true ∧ key ∈ c.jobKeys db
      else isIndexed db scope key = true := by
  obtain ⟨rows, hdone⟩ := ingest_ok h
  have hjob := sameScip_checked c c.payload.repoIndexingJobId db
  rw [isIndexed_replaceRows (hjob.integrity hint) hdone.replace, hjob.isIndexed_eq, hjob.jobKeys_iff,
    hjob.storesSymbol_eq]
  simp only [IngestCall.stores, hdone.load]

theorem integrity_ingest (hint : Integrity db) (h : ingest c db = (.ok (), db')) :
    Integrity db' := by
  obtain ⟨rows, hdone⟩ := ingest_ok h
  exact integrity_replaceRows ((sameScip_checked c "" db).integrity hint) hdone.replace

theorem jobProjects_ingest (h : ingest c db = (.ok (), db')) (jobId : String) :
    jobProjects jobId db'.subjobs = jobProjects jobId db.subjobs := by
  obtain ⟨rows, hdone⟩ := ingest_ok h
  obtain ⟨indexId, languageId, cleared, -, hp, hr⟩ := replaceRows_ok hdone.replace
  rw [hr.subjobs, hp.subjobs, (sameScip_checked c jobId db).projects]

end Call

end CodeIntel.Scip
