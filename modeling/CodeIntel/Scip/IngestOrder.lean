import CodeIntel.Relational.OwnedStore
import CodeIntel.Scip.IngestTables
import CodeIntel.Subjobs.LeaseFencing
import Mathlib.Data.Finset.Dedup

/-!
# Which symbols and relationships an index has after a sequence of ingests

A symbol stands in an index once, and so does a relationship. The row belongs to the
language row of the project that stored it first, and goes when that project is
ingested again. The other projects whose artifacts have it do not get it back.
-/

namespace CodeIntel.Scip

open Relational Schema Subjobs CodeIntel.Graph

/-! ## Rows as the index sees them -/

/-- The columns of the unique index of a row, and the language row it belongs to. -/
abbrev Slot (ν : Type) := (String × ν) × String

def symbolSlot (s : CodeIntelSymbol) : Slot String :=
  ((s.codeIntelIndexId, s.symbol), s.codeIntelLanguageIndexId)

/-- The columns that identify a relationship inside an index. -/
def relationshipTuple (r : CodeIntelRelationship) : RelationshipRow where
  sourceSymbol := r.sourceSymbol
  targetSymbol := r.targetSymbol
  isReference := r.isReference
  isImplementation := r.isImplementation
  isTypeDefinition := r.isTypeDefinition
  isDefinition := r.isDefinition

def relationshipSlot (r : CodeIntelRelationship) : Slot RelationshipRow :=
  ((r.codeIntelIndexId, relationshipTuple r), r.codeIntelLanguageIndexId)

/-- The slots after the deletes of a project and of the stale projects, and the
insert of the values that nothing else in the index has. -/
def ReplacesSlots {ν : Type} (indexId languageId : String) (stale : List String) (values : List ν)
    (slots slots' : List (Slot ν)) : Prop :=
  ∀ i v l, ((i, v), l) ∈ slots' ↔ ((i, v), l) ∈ slots ∧ l ≠ languageId ∧ l ∉ stale ∨
    l = languageId ∧ i = indexId ∧ v ∈ values ∧
      ∀ l', ((i, v), l') ∈ slots → l' = languageId ∨ l' ∈ stale

variable {indexId languageId : String} {c : IngestCall} {db db' : Database}

theorem replacesSlots_of_statements {ρ ν : Type} {conflict : ρ → ρ → Bool} {key : ρ → String × ν}
    {column : ρ → String} (hconflict : ∀ new r, conflict new r = true ↔ key r = key new)
    {stale : List String} {values : List ν} {batch rows : List ρ}
    (hkeys : batch.map key = values.map fun v => (indexId, v))
    (hbatch : ∀ r ∈ batch, column r = languageId) :
    ReplacesSlots indexId languageId stale values (rows.map fun r => (key r, column r))
      ((batch.foldl (insertMissing conflict)
        (deleteWhere (fun r => column r = languageId)
          (deleteWhere (fun r => stale.contains (column r)) rows))).map
        fun r => (key r, column r)) := by
  intro i v l
  have hkept : ∀ k l, (k, l) ∈ (deleteWhere (fun r => column r = languageId)
        (deleteWhere (fun r => stale.contains (column r)) rows)).map
          (fun r => (key r, column r)) ↔
      (k, l) ∈ rows.map (fun r => (key r, column r)) ∧ l ≠ languageId ∧ l ∉ stale := by
    intro k l
    simp only [deleteWhere, List.mem_map, List.mem_filter, Prod.mk.injEq]
    constructor
    · rintro ⟨r, ⟨⟨hr, hstale⟩, hown⟩, rfl, rfl⟩
      exact ⟨⟨r, hr, rfl, rfl⟩, by simpa using hown, by simpa using hstale⟩
    · rintro ⟨⟨r, hr, rfl, rfl⟩, hown, hstale⟩
      exact ⟨r, ⟨⟨hr, by simpa using hstale⟩, by simpa using hown⟩, rfl, rfl⟩
  have hfree : (i, v) ∉ (deleteWhere (fun r => column r = languageId)
        (deleteWhere (fun r => stale.contains (column r)) rows)).map key ↔
      ∀ l', ((i, v), l') ∈ rows.map (fun r => (key r, column r)) → l' = languageId ∨ l' ∈ stale := by
    constructor
    · intro hno l' hl'
      by_contra hother
      rw [not_or] at hother
      obtain ⟨r, hr, heq⟩ := List.mem_map.1 ((hkept (i, v) l').2 ⟨hl', hother⟩)
      exact hno (List.mem_map.2 ⟨r, hr, (Prod.mk.inj heq).1⟩)
    · intro hall hmem
      obtain ⟨r, hr, hkey⟩ := List.mem_map.1 hmem
      obtain ⟨hold, hown, hstale⟩ :=
        (hkept (i, v) (column r)).1 (List.mem_map.2 ⟨r, hr, by rw [hkey]⟩)
      exact (hall _ hold).elim hown hstale
  rw [mem_foldl_insertMissing hconflict hbatch, hkept, hfree, hkeys]
  simp only [List.mem_map, Prod.mk.injEq]
  constructor
  · rintro (hold | ⟨rfl, ⟨v', hv', rfl, rfl⟩, hno⟩)
    · exact .inl hold
    · exact .inr ⟨rfl, rfl, hv', hno⟩
  · rintro (hold | ⟨rfl, rfl, hv, hno⟩)
    · exact .inl hold
    · exact .inr ⟨rfl, ⟨v, hv, rfl, rfl⟩, hno⟩

/-- The tables an ingest replaces rows in. -/
structure SameTables (db db' : Database) : Prop where
  indexes : db'.codeIntelIndexes = db.codeIntelIndexes
  languages : db'.languageIndexes = db.languageIndexes
  symbols : db'.symbols = db.symbols
  relationships : db'.relationships = db.relationships

instance (db db' : Database) : Decidable (SameTables db db') :=
  decidable_of_iff (db'.codeIntelIndexes = db.codeIntelIndexes ∧
      db'.languageIndexes = db.languageIndexes ∧ db'.symbols = db.symbols ∧
      db'.relationships = db.relationships)
    ⟨fun ⟨h₁, h₂, h₃, h₄⟩ => ⟨h₁, h₂, h₃, h₄⟩, fun ⟨h₁, h₂, h₃, h₄⟩ => ⟨h₁, h₂, h₃, h₄⟩⟩

/-- A table whose rows are unique in an index and belong to a language row. -/
structure IndexTable (ν : Type) where
  slots : Database → List (Slot ν)
  values : Rows → List ν
  slots_eq : ∀ db db', SameTables db db' → slots db' = slots db
  replaces : ∀ c rows db db' indexId languageId cleared,
    prepare c db = .ok (indexId, languageId, cleared) → replaceRows c rows db = .ok db' →
      ReplacesSlots indexId languageId (staleIds c indexId db) (values rows) (slots db) (slots db')

theorem sameSymbol_iff (new s : CodeIntelSymbol) :
    sameSymbol new s = true ↔ (symbolSlot s).1 = (symbolSlot new).1 := by
  simp [sameSymbol, symbolSlot]

theorem sameRelationship_iff (new r : CodeIntelRelationship) :
    sameRelationship new r = true ↔ (relationshipSlot r).1 = (relationshipSlot new).1 := by
  simp [sameRelationship, relationshipSlot, relationshipTuple, and_assoc]

def symbolTable : IndexTable String where
  slots db := db.symbols.map symbolSlot
  values rows := rows.symbols.map SymbolRow.symbol
  slots_eq db db' h := by rw [h.symbols]
  replaces c rows db db' indexId languageId cleared hprepare hreplace := by
    obtain ⟨i, l, cleared', hprepare', hp, hr⟩ := replaceRows_ok hreplace
    cases hprepare.symm.trans hprepare'
    rw [hr.symbols, hp.symbols]
    apply replacesSlots_of_statements sameSymbol_iff
    · rw [List.map_map, List.map_map]
      rfl
    · intro s hs
      obtain ⟨row, -, rfl⟩ := List.mem_map.1 hs
      rfl

theorem prepare_relationships {cleared : Database}
    (h : prepare c db = .ok (indexId, languageId, cleared)) :
    cleared.relationships = deleteWhere (fun r => r.codeIntelLanguageIndexId = languageId)
      (deleteWhere (fun r => (staleIds c indexId db).contains r.codeIntelLanguageIndexId)
        db.relationships) := by
  obtain ⟨⟨i, indexes⟩, hindex, h⟩ := bind_eq_ok.1 h
  obtain ⟨⟨l, languages⟩, hlanguage, h⟩ := bind_eq_ok.1 h
  cases h
  rfl

theorem replaceRows_relationships {rows : Rows} {cleared : Database}
    (hprepare : prepare c db = .ok (indexId, languageId, cleared))
    (h : replaceRows c rows db = .ok db') :
    db'.relationships = (rows.relationships.map (storedRelationship c indexId languageId)).foldl
      (insertMissing sameRelationship) cleared.relationships := by
  obtain ⟨⟨i, l, cleared'⟩, hprepare', h⟩ := bind_eq_ok.1 h
  cases hprepare.symm.trans hprepare'
  cases h
  rfl

def relationshipTable : IndexTable RelationshipRow where
  slots db := db.relationships.map relationshipSlot
  values rows := rows.relationships
  slots_eq db db' h := by rw [h.relationships]
  replaces c rows db db' indexId languageId cleared hprepare hreplace := by
    rw [replaceRows_relationships hprepare hreplace, prepare_relationships hprepare]
    apply replacesSlots_of_statements sameRelationship_iff
    · rw [List.map_map]
      rfl
    · intro r hr
      obtain ⟨row, -, rfl⟩ := List.mem_map.1 hr
      rfl

/-! ## Which project a value belongs to -/

variable {ν : Type} (T : IndexTable ν)

namespace IndexTable

/-- The value is stored at the revision, for the project. -/
def Owns (db : Database) (scope : IndexScope) (key : ProjectKey) (v : ν) : Prop :=
  ∃ ci ∈ db.codeIntelIndexes, indexScope ci = scope ∧
    ∃ li ∈ db.languageIndexes, languageScope li = (ci.id, key) ∧ ((ci.id, v), li.id) ∈ T.slots db

/-- Every row belongs to a language row of its index. -/
def Owned (db : Database) : Prop :=
  ∀ i v l, ((i, v), l) ∈ T.slots db → ∃ li ∈ db.languageIndexes, li.id = l ∧ li.codeIntelIndexId = i

def stored (scope : IndexScope) (db : Database) : List ν :=
  ((T.slots db).filter fun x =>
    db.codeIntelIndexes.any fun ci => ci.id = x.1.1 && indexScope ci = scope).map fun x => x.1.2

theorem mem_stored_iff {db : Database} (howned : T.Owned db) {scope : IndexScope} {v : ν} :
    v ∈ T.stored scope db ↔ ∃ key, T.Owns db scope key v := by
  simp only [stored, List.mem_map, List.mem_filter, List.any_eq_true, Bool.and_eq_true,
    decide_eq_true_eq]
  constructor
  · rintro ⟨⟨⟨i, v⟩, l⟩, ⟨hslot, ci, hci, rfl, hscope⟩, rfl⟩
    obtain ⟨li, hli, rfl, hindex⟩ := howned _ _ _ hslot
    refine ⟨languageKey li, ci, hci, hscope, li, hli, ?_, hslot⟩
    rw [languageScope, hindex]
  · rintro ⟨key, ci, hci, hscope, li, -, -, hslot⟩
    exact ⟨((ci.id, v), li.id), ⟨hslot, ci, hci, rfl, hscope⟩, rfl⟩

section Transaction

variable {T} {c : IngestCall} {rows : Rows} {db cleared db' : Database}
  {indexId languageId : String} {scope : IndexScope} {key : ProjectKey} {v : ν}

theorem owns_iff_of_index
    (hrow : ∀ id, (scope, id) ∈ db.codeIntelIndexes.map indexRow → id = indexId)
    (hknown : ∀ li ∈ db.languageIndexes, li.codeIntelIndexId = indexId →
      (scope, indexId) ∈ db.codeIntelIndexes.map indexRow) :
    T.Owns db scope key v ↔ ∃ li ∈ db.languageIndexes, languageScope li = (indexId, key) ∧
      ((indexId, v), li.id) ∈ T.slots db := by
  constructor
  · rintro ⟨ci, hci, rfl, li, hli, hscope, hslot⟩
    obtain rfl : ci.id = indexId := hrow _ (List.mem_map.2 ⟨ci, hci, rfl⟩)
    exact ⟨li, hli, hscope, hslot⟩
  · rintro ⟨li, hli, hscope, hslot⟩
    obtain ⟨ci, hci, heq⟩ := List.mem_map.1 (hknown li hli (Prod.mk.inj hscope).1)
    obtain ⟨hci_scope, rfl⟩ := Prod.mk.inj heq
    exact ⟨ci, hci, hci_scope, li, hli, hscope, hslot⟩

section Tables

variable (hint : Integrity db) (hp : Prepared c db cleared indexId languageId)
  (hr : Replaced c rows cleared db' indexId languageId)
include hint hp hr

theorem owns_before :
    T.Owns db (payloadScope c.payload) key v ↔
      ∃ li ∈ db.languageIndexes, languageScope li = (indexId, key) ∧
        ((indexId, v), li.id) ∈ T.slots db := by
  apply owns_iff_of_index
  · intro id hid
    exact ((index_rows hint hp hr).1 id).1 (index_rows_kept hint hp hr _ hid)
  · intro li hli hindex
    exact index_known hint hp hr hli hindex

theorem owns_after :
    T.Owns db' (payloadScope c.payload) key v ↔
      ∃ li ∈ db'.languageIndexes, languageScope li = (indexId, key) ∧
        ((indexId, v), li.id) ∈ T.slots db' := by
  apply owns_iff_of_index
  · intro id hid
    exact ((index_rows hint hp hr).1 id).1 hid
  · intro li _ _
    exact ((index_rows hint hp hr).1 indexId).2 rfl

theorem owners_removed_iff (howned : T.Owned db) :
    (∀ l, ((indexId, v), l) ∈ T.slots db → l = languageId ∨ l ∈ staleIds c indexId db) ↔
      ∀ key, T.Owns db (payloadScope c.payload) key v → key = c.key ∨ key ∉ c.jobKeys db := by
  constructor
  · intro h key hkey
    obtain ⟨li, hli, hscope, hslot⟩ := (owns_before hint hp hr).1 hkey
    obtain ⟨hindex, rfl⟩ := Prod.mk.inj hscope
    exact (removed_language_iff hint hp hr hli hindex).1 (h li.id hslot)
  · intro h l hslot
    obtain ⟨li, hli, rfl, hindex⟩ := howned _ _ _ hslot
    refine (removed_language_iff hint hp hr hli hindex).2 (h _ ((owns_before hint hp hr).2 ?_))
    exact ⟨li, hli, by rw [languageScope, hindex], hslot⟩

end Tables

/-- Whose values the transaction leaves at its revision: those of the other projects
of its job, and those of its artifact that none of them has. -/
theorem owns_replaceRows (hint : Integrity db) (howned : T.Owned db)
    (h : replaceRows c rows db = .ok db') :
    T.Owns db' (payloadScope c.payload) key v ↔
      T.Owns db (payloadScope c.payload) key v ∧ ¬(key = c.key ∨ key ∉ c.jobKeys db) ∨
        key = c.key ∧ v ∈ T.values rows ∧
          ∀ key', T.Owns db (payloadScope c.payload) key' v → key' = c.key ∨ key' ∉ c.jobKeys db := by
  obtain ⟨indexId, languageId, cleared, hprepare, hp, hr⟩ := replaceRows_ok h
  have hslots := T.replaces c rows db db' indexId languageId cleared hprepare h
  obtain ⟨-, -, row, hrow_scope, hrow_id, -, hmem⟩ := language_rows hint hp hr
  rw [owns_after hint hp hr, ← owners_removed_iff hint hp hr howned]
  constructor
  · rintro ⟨li, hli, hscope, hslot⟩
    rcases (hslots _ _ _).1 hslot with ⟨hold, hkept⟩ | ⟨hid, -, hv, hfree⟩
    · -- an old row, whose language row is still there
      rcases (hmem li).1 hli with rfl | ⟨hli', -, -⟩
      · exact absurd hrow_id hkept.1
      · obtain ⟨hindex, rfl⟩ := Prod.mk.inj hscope
        refine .inl ⟨(owns_before hint hp hr).2 ⟨li, hli', hscope, hold⟩, fun hremoved => ?_⟩
        exact ((removed_language_iff hint hp hr hli' hindex).2 hremoved).elim hkept.1 hkept.2
    · -- a new row, under the language row of the project
      have hown : languageScope li = (indexId, c.key) := by
        by_contra hne
        exact (language_other_id hint hp hr hli hne).1 hid
      exact .inr ⟨(Prod.mk.inj (hscope.symm.trans hown)).2, hv, hfree⟩
  · rintro (⟨hold, hkept⟩ | ⟨rfl, hv, hfree⟩)
    · obtain ⟨li, hli, hscope, hslot⟩ := (owns_before hint hp hr).1 hold
      obtain ⟨hindex, rfl⟩ := Prod.mk.inj hscope
      have hid : ¬(li.id = languageId ∨ li.id ∈ staleIds c indexId db) := fun hremoved =>
        hkept ((removed_language_iff hint hp hr hli hindex).1 hremoved)
      rw [not_or, not_not] at hkept
      refine ⟨li, (hmem li).2 (.inr ⟨hli, isStale_eq_false_iff.2 fun _ => hkept.2, ?_⟩), hscope,
        (hslots _ _ _).2 (.inl ⟨hslot, not_or.1 hid⟩)⟩
      exact fun heq => hkept.1 (Prod.mk.inj heq).2
    · refine ⟨row, (hmem row).2 (.inl rfl), hrow_scope, (hslots _ _ _).2 (.inr ?_)⟩
      exact ⟨hrow_id, rfl, hv, hfree⟩

theorem owns_replaceRows_elsewhere (hint : Integrity db) (h : replaceRows c rows db = .ok db')
    (hscope : scope ≠ payloadScope c.payload) : T.Owns db' scope key v ↔ T.Owns db scope key v := by
  obtain ⟨indexId, languageId, cleared, hprepare, hp, hr⟩ := replaceRows_ok h
  have hslots := T.replaces c rows db db' indexId languageId cleared hprepare h
  have hothers := (index_rows hint hp hr).2 scope hscope
  have hslot : ∀ id li, id ≠ indexId → li ∈ db'.languageIndexes → languageScope li = (id, key) →
      (((id, v), li.id) ∈ T.slots db' ↔ ((id, v), li.id) ∈ T.slots db) := by
    intro id li hid hli hli_scope
    have hne : languageScope li ≠ (indexId, c.key) := fun heq =>
      hid (Prod.mk.inj (hli_scope.symm.trans heq)).1
    have hkept := language_other_id hint hp hr hli hne
    rw [hslots]
    simp [hkept, hid]
  constructor
  · rintro ⟨ci, hci, rfl, li, hli, hli_scope, hli_slot⟩
    have hrow := (hothers ci.id).1.1 (List.mem_map.2 ⟨ci, hci, rfl⟩)
    have hid := (hothers ci.id).2 hrow
    obtain ⟨ci₀, hci₀, heq⟩ := List.mem_map.1 hrow
    obtain ⟨hscope₀, hid₀⟩ := Prod.mk.inj heq
    have hindex : li.codeIntelIndexId ≠ indexId := by rwa [(Prod.mk.inj hli_scope).1]
    refine ⟨ci₀, hci₀, hscope₀, li, (mem_language_elsewhere hint hp hr hindex).1 hli, ?_⟩
    rw [hid₀]
    exact ⟨hli_scope, (hslot _ li hid hli hli_scope).1 hli_slot⟩
  · rintro ⟨ci, hci, rfl, li, hli, hli_scope, hli_slot⟩
    have hold : (indexScope ci, ci.id) ∈ db.codeIntelIndexes.map indexRow :=
      List.mem_map.2 ⟨ci, hci, rfl⟩
    have hid := (hothers ci.id).2 hold
    obtain ⟨ci₁, hci₁, heq⟩ := List.mem_map.1 ((hothers ci.id).1.2 hold)
    obtain ⟨hscope₁, hid₁⟩ := Prod.mk.inj heq
    have hindex : li.codeIntelIndexId ≠ indexId := by rwa [(Prod.mk.inj hli_scope).1]
    have hli' := (mem_language_elsewhere hint hp hr hindex).2 hli
    refine ⟨ci₁, hci₁, hscope₁, li, hli', ?_⟩
    rw [hid₁]
    exact ⟨hli_scope, (hslot _ li hid hli' hli_scope).2 hli_slot⟩

theorem owned_replaceRows (hint : Integrity db) (howned : T.Owned db)
    (h : replaceRows c rows db = .ok db') : T.Owned db' := by
  obtain ⟨indexId, languageId, cleared, hprepare, hp, hr⟩ := replaceRows_ok h
  have hslots := T.replaces c rows db db' indexId languageId cleared hprepare h
  obtain ⟨-, -, row, hrow_scope, hrow_id, -, hmem⟩ := language_rows hint hp hr
  intro i v l hslot
  rcases (hslots i v l).1 hslot with ⟨hold, hkept⟩ | ⟨rfl, rfl, -, -⟩
  · obtain ⟨li, hli, rfl, rfl⟩ := howned i v l hold
    refine ⟨li, ?_, rfl, rfl⟩
    by_cases hindex : li.codeIntelIndexId = indexId
    · have hremoved := (removed_language_iff hint hp hr hli hindex).not.1 (not_or.2 hkept)
      rw [not_or, not_not] at hremoved
      refine (hmem li).2 (.inr ⟨hli, isStale_eq_false_iff.2 fun _ => hremoved.2, ?_⟩)
      exact fun heq => hremoved.1 (Prod.mk.inj heq).2
    · exact (mem_language_elsewhere hint hp hr hindex).2 hli
  · exact ⟨row, (hmem row).2 (.inl rfl), hrow_id, (Prod.mk.inj hrow_scope).1⟩

end Transaction

end IndexTable

/-! ## Runs -/

theorem SameTables.integrity (h : SameTables db db') (hint : Integrity db) : Integrity db' :=
  hint.congr h.indexes h.languages

theorem sameTables_checked (c : IngestCall) (db : Database) : SameTables db (c.checked db) :=
  ⟨rfl, rfl, rfl, rfl⟩

/-- A successful `Ingest`, of any revision and any job, or anything else that leaves
the tables of the indexes alone. -/
inductive IndexStep where
  | ingest (c : IngestCall)
  | other (f : Database → Database)

def ingestMachine : Machine Database IndexStep where
  step db
    | .ingest c => match ingest c db with
      | (.ok (), db') => some db'
      | (.error _, _) => none
    | .other f => if SameTables db (f db) then some (f db) else none

theorem ingestMachine_step_cases {a : IndexStep} (h : ingestMachine.step db a = some db') :
    (∃ c, a = .ingest c ∧ ingest c db = (.ok (), db')) ∨
      (∃ f, a = .other f) ∧ SameTables db db' := by
  cases a with
  | ingest c =>
    simp only [ingestMachine] at h
    split at h
    · rename_i heq
      cases h
      exact .inl ⟨c, rfl, heq⟩
    · cases h
  | other f =>
    obtain ⟨hsame, heq⟩ := Option.ite_none_right_eq_some.1 h
    obtain rfl : f db = db' := Option.some.inj heq
    exact .inr ⟨⟨f, rfl⟩, hsame⟩

def IngestCall.rows (c : IngestCall) : Rows :=
  match loadRows c with
  | .ok rows => rows
  | .error _ => { symbols := [] }

theorem Ingested.rows_eq {rows : Rows} (h : Ingested c rows db db') : c.rows = rows := by
  rw [IngestCall.rows, h.load]

namespace IndexTable

section Call

variable {T} {c : IngestCall} {db db' : Database} {scope : IndexScope} {key : ProjectKey} {v : ν}

theorem owns_of_sameTables (h : SameTables db db') :
    T.Owns db' scope key v ↔ T.Owns db scope key v := by
  simp only [Owns, h.indexes, h.languages, T.slots_eq db db' h]

theorem owned_of_sameTables (h : SameTables db db') (howned : T.Owned db) : T.Owned db' := by
  unfold Owned
  rw [T.slots_eq db db' h, h.languages]
  exact howned

theorem owns_ingest (hint : Integrity db) (howned : T.Owned db) (h : ingest c db = (.ok (), db')) :
    T.Owns db' (payloadScope c.payload) key v ↔
      T.Owns db (payloadScope c.payload) key v ∧ ¬(key = c.key ∨ key ∉ c.jobKeys db) ∨
        key = c.key ∧ v ∈ T.values c.rows ∧
          ∀ key', T.Owns db (payloadScope c.payload) key' v → key' = c.key ∨ key' ∉ c.jobKeys db := by
  obtain ⟨rows, hdone⟩ := ingest_ok h
  have hsame := sameTables_checked c db
  have hjob := sameScip_checked c c.payload.repoIndexingJobId db
  rw [owns_replaceRows (hsame.integrity hint) (owned_of_sameTables hsame howned) hdone.replace,
    hdone.rows_eq]
  simp only [owns_of_sameTables hsame, hjob.jobKeys_iff]

theorem owns_ingest_elsewhere (hint : Integrity db) (h : ingest c db = (.ok (), db'))
    (hscope : scope ≠ payloadScope c.payload) : T.Owns db' scope key v ↔ T.Owns db scope key v := by
  obtain ⟨rows, hdone⟩ := ingest_ok h
  have hsame := sameTables_checked c db
  rw [owns_replaceRows_elsewhere (hsame.integrity hint) hdone.replace hscope, owns_of_sameTables hsame]

theorem owned_ingest (hint : Integrity db) (howned : T.Owned db) (h : ingest c db = (.ok (), db')) :
    T.Owned db' := by
  obtain ⟨rows, hdone⟩ := ingest_ok h
  have hsame := sameTables_checked c db
  exact owned_replaceRows (hsame.integrity hint) (owned_of_sameTables hsame howned) hdone.replace

end Call

def callAt (scope : IndexScope) : IndexStep → Option IngestCall
  | .ingest c => if payloadScope c.payload = scope then some c else none
  | .other _ => none

/-- The values of a table at a revision as a store: the projects own them, and an
ingest removes those of its own project and of the projects its job does not have. -/
def store (scope : IndexScope) : OwnedStore ingestMachine IngestCall ProjectKey ν where
  Inv db := Integrity db ∧ T.Owned db
  holds db key v := T.Owns db scope key v
  write := callAt scope
  owner := IngestCall.key
  values c := T.values c.rows
  removed db c key := key = c.key ∨ key ∉ c.jobKeys db
  removed_owner _ _ := .inl rfl
  inv_step db a db' hinv hstep := by
    rcases ingestMachine_step_cases hstep with ⟨c, -, hok⟩ | ⟨-, hsame⟩
    · exact ⟨integrity_ingest hinv.1 hok, owned_ingest hinv.1 hinv.2 hok⟩
    · exact ⟨hsame.integrity hinv.1, owned_of_sameTables hsame hinv.2⟩
  keep_step db a db' hinv hstep hnone key v := by
    rcases ingestMachine_step_cases hstep with ⟨c, rfl, hok⟩ | ⟨-, hsame⟩
    · apply owns_ingest_elsewhere hinv.1 hok
      rintro rfl
      simp [callAt] at hnone
    · exact owns_of_sameTables hsame
  write_step db a db' c hinv hstep hcall key v := by
    rcases ingestMachine_step_cases hstep with ⟨c', rfl, hok⟩ | ⟨⟨f, rfl⟩, -⟩
    · obtain ⟨rfl, heq⟩ := Option.ite_none_right_eq_some.1 hcall
      obtain rfl : c' = c := Option.some.inj heq
      exact owns_ingest hinv.1 hinv.2 hok
    · cases hcall

/-- The values of the artifacts last ingested for each project of the revision. -/
def lastValues (scope : IndexScope) (steps : List IndexStep) : List ν :=
  (lastBy IngestCall.key (steps.filterMap (callAt scope))).flatMap fun c => T.values c.rows

/-- A call deletes the only row of the value without storing it again, and no later
artifact has it. -/
def Lost (scope : IndexScope) (db : Database) (steps : List IndexStep) (v : ν) : Prop :=
  (T.store scope).Lost db steps v

theorem stored_eq_lastValues_iff [DecidableEq ν] {scope : IndexScope} {db db' : Database}
    {steps : List IndexStep} (hint : Integrity db) (howned : T.Owned db)
    (hnew : ∀ ci ∈ db.codeIntelIndexes, indexScope ci ≠ scope)
    (hrun : ingestMachine.run db steps = some db') :
    (T.stored scope db').toFinset = (T.lastValues scope steps).toFinset ↔
      ∀ v ∈ T.lastValues scope steps, ¬T.Lost scope db steps v := by
  have hinv : (T.store scope).Inv db := ⟨hint, howned⟩
  have hempty : ∀ v, ¬(T.store scope).Stored db v := by
    rintro v ⟨key, ci, hci, hscope, -⟩
    exact hnew ci hci hscope
  have howned' : T.Owned db' := (OwnedStore.inv_run hinv hrun).2
  have hiff := OwnedStore.stored_iff_lastValues_iff hinv hempty hrun
  have hstored : ∀ v, v ∈ T.stored scope db' ↔ (T.store scope).Stored db' v := fun v =>
    T.mem_stored_iff howned'
  simp only [Finset.ext_iff, List.mem_toFinset, hstored]
  exact hiff

end IndexTable

/-- The unique indexes and the foreign keys of the tables of an index. -/
structure IndexIntegrity (db : Database) : Prop extends Integrity db where
  symbols : symbolTable.Owned db
  relationships : relationshipTable.Owned db

/-- After any run of ingests into a new index its symbols and relationships are those
of the artifacts last ingested for each project exactly if none of these is lost: each
one that a call deleted is in the artifact of a later call. -/
theorem ingest_order_independent_iff {scope : IndexScope} {db db' : Database}
    {steps : List IndexStep} (hint : IndexIntegrity db)
    (hnew : ∀ ci ∈ db.codeIntelIndexes, indexScope ci ≠ scope)
    (hrun : ingestMachine.run db steps = some db') :
    (symbolTable.stored scope db').toFinset = (symbolTable.lastValues scope steps).toFinset ∧
        (relationshipTable.stored scope db').toFinset =
          (relationshipTable.lastValues scope steps).toFinset ↔
      (∀ v ∈ symbolTable.lastValues scope steps, ¬symbolTable.Lost scope db steps v) ∧
        ∀ t ∈ relationshipTable.lastValues scope steps, ¬relationshipTable.Lost scope db steps t :=
  and_congr (symbolTable.stored_eq_lastValues_iff hint.toIntegrity hint.symbols hnew hrun)
    (relationshipTable.stored_eq_lastValues_iff hint.toIntegrity hint.relationships hnew hrun)

/-! ## Two Go modules that share a symbol -/

def goInput (root : String) : CreateInput :=
  { sampleInput with
    id := root
    layer := .scip
    language := some "go"
    projectRoot := some root
    indexer := some "scip-go"
    workerClass := "scip-go"
    queueName := "codeintel-index-scip-go" }

def goMessage (root : String) (attempt : ℤ) : Payload where
  id := root
  repoIndexingJobId := "job"
  orgId := 1
  workspaceId := some "ws"
  repoId := 7
  branch := "main"
  revision := "main"
  commitHash := sampleCommit
  layer := .scip
  language := some "go"
  projectRoot := some root
  indexer := some "scip-go"
  workerClass := "scip-go"
  queueName := "codeintel-index-scip-go"
  attempt := attempt

def goIngest (now : Time) (root : String) (attempt : ℤ) (symbols : List String) : IngestCall where
  payload := goMessage root attempt
  artifactPath := "artifacts/index.scip"
  artifactSha256 := "sha"
  leaseOwner := "worker"
  attemptId := "attempt"
  load := .ok { symbols := symbols.map fun symbol => { symbol := symbol } }
  artifactRoot := "artifacts"
  newIndexId := "index"
  newLanguageId := "index-" ++ root
  precheckAt := now + 2
  now := now + 3

def goScope : IndexScope := ⟨1, 7, "ws", "main", "main", sampleCommit⟩

def goAttempt (now : Time) (root : String) (attempt : ℤ) (symbols : List String) :
    List IndexStep :=
  [.other fun db =>
      (claimScoped now (goMessage root attempt) "worker" "attempt" (now + 100) db).2,
    .other fun db => (markArtifactWritten (now + 1) ⟨root, "worker", "attempt"⟩ "tmp"
      "artifacts/index.scip" "sha" db).2,
    .ingest (goIngest now root attempt symbols)]

def goPlanned : List IndexStep :=
  ["svc1", "svc2"].map fun root => .other fun db => (upsertQueued 1 (goInput root) db).2

/-- The leases of attempts that never report back run out. -/
def goRequeue : IndexStep :=
  .other fun db => (requeueExpiredLeases 1000000 1000000 10 [] db).2

def sharedOnce : List IndexStep :=
  goPlanned ++ goAttempt 10 "svc1" 1 ["shared.Run"] ++ goAttempt 20 "svc2" 1 ["shared.Run"]

/-- The first module is ingested again, now without the symbol: before the other
module, or after it. -/
def reingestedBefore : List IndexStep :=
  goPlanned ++ goAttempt 10 "svc1" 1 ["shared.Run"] ++ [goRequeue] ++
    goAttempt 1000010 "svc1" 2 ["svc1.Run"] ++ goAttempt 1000020 "svc2" 1 ["shared.Run"]

def reingestedAfter : List IndexStep :=
  sharedOnce ++ [goRequeue] ++ goAttempt 1000010 "svc1" 2 ["svc1.Run"]

theorem sampleDatabase_integrity : IndexIntegrity sampleDatabase := by
  refine ⟨⟨by decide, by decide, by decide, by decide, by decide⟩, ?_, ?_⟩
  · rintro i v l ⟨⟩
  · rintro i v l ⟨⟩

/-- Ingested once, the modules share the symbol without losing it. -/
theorem shared_symbol_kept :
    ∃ db, ingestMachine.run sampleDatabase sharedOnce = some db ∧
      symbolTable.stored goScope db = ["shared.Run"] ∧
      ∀ v ∈ symbolTable.lastValues goScope sharedOnce,
        ¬symbolTable.Lost goScope sampleDatabase sharedOnce v := by
  refine ingestMachine.exists_run_of_any_imp
    (fun db => symbolTable.stored goScope db = ["shared.Run"] ∧
      relationshipTable.stored goScope db = []) (by decide +kernel) ?_
  rintro db hrun ⟨hstored, hrelationships⟩
  have hlast : (["shared.Run"] : List String).toFinset =
      (symbolTable.lastValues goScope sharedOnce).toFinset := by decide +kernel
  have hnone : ([] : List RelationshipRow).toFinset =
      (relationshipTable.lastValues goScope sharedOnce).toFinset := by decide +kernel
  refine ⟨hstored, ?_⟩
  exact ((ingest_order_independent_iff sampleDatabase_integrity (by decide) hrun).1
    ⟨hstored ▸ hlast, hrelationships ▸ hnone⟩).1

/-- The same three artifacts are ingested in two orders, and the artifacts last ingested
for the modules are the same. If the symbol was stored for the module that drops it, the
index does not have it any more. -/
theorem reingested_module_loses_shared_symbol :
    symbolTable.lastValues goScope reingestedBefore = ["svc1.Run", "shared.Run"] ∧
      symbolTable.lastValues goScope reingestedAfter = ["shared.Run", "svc1.Run"] ∧
      (∃ db, ingestMachine.run sampleDatabase reingestedBefore = some db ∧
        symbolTable.stored goScope db = ["svc1.Run", "shared.Run"]) ∧
      ∃ db, ingestMachine.run sampleDatabase reingestedAfter = some db ∧
        symbolTable.stored goScope db = ["svc1.Run"] := by
  refine ⟨by decide +kernel, by decide +kernel, ?_, ?_⟩
  · exact ingestMachine.exists_run_of_any _ (by decide +kernel)
  · exact ingestMachine.exists_run_of_any _ (by decide +kernel)

end CodeIntel.Scip
