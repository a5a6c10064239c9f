import Mathlib.Data.List.MinMax
import Mathlib.Data.List.Nodup
import Mathlib.Tactic.Common

/-!
# Tables as lists of rows

A table is the list of its rows, in storage order. The statements a store
issues are list functions: a guarded update, a keyed upsert, a filtered delete
and a keyed lookup. The lemmas say which rows a statement can change and that
updates which keep the key also keep every lookup in place. `Retains` compares
two tables row by row: nothing that matters was deleted.
-/

namespace CodeIntel.Relational

variable {α κ : Type*}

/-- The rows after `UPDATE ... SET set WHERE cond`. -/
def updateWhere (cond : α → Bool) (set : α → α) (rows : List α) : List α :=
  rows.map fun r => if cond r then set r else r

/-- The number of rows a statement with this `WHERE` clause touches. -/
def affected (cond : α → Bool) (rows : List α) : ℕ :=
  rows.countP cond

/-- The rows after `DELETE ... WHERE cond`. -/
def deleteWhere (cond : α → Bool) (rows : List α) : List α :=
  rows.filter fun r => !cond r

/-- `INSERT ... ON CONFLICT DO UPDATE`: the conflicting rows are merged, and
without a conflict the fresh row is stored. -/
def upsert (conflict : α → Bool) (merge : α → α) (fresh : α) (rows : List α) : List α :=
  if rows.any conflict then updateWhere conflict merge rows else rows ++ [fresh]

/-- `INSERT ... ON CONFLICT DO NOTHING` for one row. -/
def insertMissing (conflict : α → α → Bool) (rows : List α) (new : α) : List α :=
  if rows.any (conflict new) then rows else rows ++ [new]

def lookup [DecidableEq κ] (key : α → κ) (k : κ) (rows : List α) : Option α :=
  rows.find? fun r => key r = k

/-- No two rows share a key. -/
def UniqueKey (key : α → κ) (rows : List α) : Prop :=
  (rows.map key).Nodup

instance [DecidableEq κ] (key : α → κ) (rows : List α) : Decidable (UniqueKey key rows) :=
  inferInstanceAs (Decidable (List.Nodup _))

section Update

variable {cond : α → Bool} {set : α → α} {rows : List α}

theorem mem_updateWhere {r : α} :
    r ∈ updateWhere cond set rows ↔ ∃ r₀ ∈ rows, (if cond r₀ then set r₀ else r₀) = r := by
  simp [updateWhere]

theorem updateWhere_eq_self (h : ∀ r ∈ rows, cond r = false) :
    updateWhere cond set rows = rows := by
  unfold updateWhere
  rw [List.map_congr_left (g := id) fun r hr => by simp [h r hr], List.map_id]

theorem affected_eq_zero_iff : affected cond rows = 0 ↔ ∀ r ∈ rows, cond r = false := by
  simp [affected, List.countP_eq_zero]

theorem exists_of_affected_pos (h : 0 < affected cond rows) : ∃ r ∈ rows, cond r = true := by
  simpa [affected, List.countP_pos_iff] using h

theorem mem_upsert {conflict : α → Bool} {merge : α → α} {fresh r : α} :
    r ∈ upsert conflict merge fresh rows ↔
      (∃ r₀ ∈ rows, (if conflict r₀ then merge r₀ else r₀) = r) ∨
        (r = fresh ∧ ∀ r₀ ∈ rows, conflict r₀ = false) := by
  unfold upsert
  split_ifs with h
  · have hconflict : ¬ ∀ r₀ ∈ rows, conflict r₀ = false := by
      obtain ⟨r₀, hr₀, hc⟩ := List.any_eq_true.1 h
      exact fun hall => by simp [hall r₀ hr₀] at hc
    rw [mem_updateWhere, iff_false_intro hconflict, and_false, or_false]
  · have hnone : ∀ r₀ ∈ rows, conflict r₀ = false := by
      simpa using h
    have hself : updateWhere conflict merge rows = rows := updateWhere_eq_self hnone
    rw [List.mem_append, List.mem_singleton, iff_true_intro hnone, and_true, ← mem_updateWhere,
      hself]

theorem exists_find?_upsert {conflict : α → Bool} {merge : α → α} {fresh : α}
    (hmerge : ∀ r, conflict r = true → conflict (merge r) = true)
    (hfresh : conflict fresh = true) :
    ∃ r, (upsert conflict merge fresh rows).find? conflict = some r := by
  refine Option.isSome_iff_exists.1 (List.find?_isSome.2 ?_)
  unfold upsert
  split
  · rename_i hany
    obtain ⟨r, hr, hconflict⟩ := List.any_eq_true.1 hany
    exact ⟨merge r, mem_updateWhere.2 ⟨r, hr, if_pos hconflict⟩, hmerge r hconflict⟩
  · exact ⟨fresh, by simp, hfresh⟩

/-- A batch with `ON CONFLICT DO NOTHING` appends some of its rows, and none exactly
if each of them conflicts with a row that was there before. -/
theorem foldl_insertMissing (conflict : α → α → Bool) (batch rows : List α) :
    ∃ added, batch.foldl (insertMissing conflict) rows = rows ++ added ∧
      (∀ r ∈ added, r ∈ batch) ∧ (added = [] ↔ ∀ r ∈ batch, rows.any (conflict r) = true) := by
  induction batch generalizing rows with
  | nil => exact ⟨[], by simp⟩
  | cons new batch ih =>
    by_cases hnew : rows.any (conflict new) = true
    · obtain ⟨added, hfold, hmem, hnil⟩ := ih rows
      refine ⟨added, ?_, fun r hr => List.mem_cons_of_mem _ (hmem r hr), ?_⟩
      · rw [List.foldl_cons, insertMissing, if_pos hnew, hfold]
      · rw [hnil, List.forall_mem_cons, and_iff_right hnew]
    · obtain ⟨added, hfold, hmem, -⟩ := ih (rows ++ [new])
      refine ⟨new :: added, ?_, ?_, ?_⟩
      · rw [List.foldl_cons, insertMissing, if_neg hnew, hfold, List.append_assoc]
        rfl
      · intro r hr
        rcases List.mem_cons.1 hr with rfl | hr
        · exact List.mem_cons_self
        · exact List.mem_cons_of_mem _ (hmem r hr)
      · simp only [List.cons_ne_nil, List.forall_mem_cons, false_iff, not_and]
        intro h
        exact absurd h hnew

/-- What is seen of the rows after such a batch, where rows of the batch with one key look
alike: a row is only added if no row had its key. -/
theorem mem_map_foldl_insertMissing {τ : Type*} {conflict : α → α → Bool} {key : α → κ}
    {view : α → τ} (hconflict : ∀ new r, conflict new r = true ↔ key r = key new)
    {batch : List α} (hview : ∀ r ∈ batch, ∀ r' ∈ batch, key r = key r' → view r = view r') {v : τ} :
    v ∈ (batch.foldl (insertMissing conflict) rows).map view ↔
      v ∈ rows.map view ∨ ∃ r ∈ batch, view r = v ∧ key r ∉ rows.map key := by
  induction batch generalizing rows with
  | nil => simp
  | cons new batch ih =>
    have hany : rows.any (conflict new) = true ↔ key new ∈ rows.map key := by
      simp only [List.any_eq_true, hconflict, List.mem_map]
    rw [List.foldl_cons, ih fun r hr r' hr' => hview r (List.mem_cons_of_mem new hr) r'
      (List.mem_cons_of_mem new hr'), insertMissing, List.exists_mem_cons_iff]
    split_ifs with hold
    · -- the new row is skipped, as its key is there
      exact or_congr_right (or_iff_right fun h => h.2 (hany.1 hold)).symm
    · have hfresh : key new ∉ rows.map key := fun hmem => hold (hany.2 hmem)
      simp only [List.map_append, List.map_cons, List.map_nil, List.mem_append, List.mem_cons,
        List.not_mem_nil, or_false, not_or]
      constructor
      · rintro ((hr | rfl) | ⟨r, hr, hv, hno, -⟩)
        · exact .inl hr
        · exact .inr (.inl ⟨rfl, hfresh⟩)
        · exact .inr (.inr ⟨r, hr, hv, hno⟩)
      · rintro (hr | ⟨rfl, -⟩ | ⟨r, hr, hv, hno⟩)
        · exact .inl (.inl hr)
        · exact .inl (.inr rfl)
        · by_cases hkey : key r = key new
          · have hsame := hview r (List.mem_cons_of_mem new hr) new List.mem_cons_self hkey
            exact .inl (.inr (hv.symm.trans hsame))
          · exact .inr ⟨r, hr, hv, hno, hkey⟩

/-- What such a batch does to the conflict keys, each with another column that is the
same in the whole batch. -/
theorem mem_foldl_insertMissing {τ : Type*} {conflict : α → α → Bool} {key : α → κ} {column : α → τ}
    (hconflict : ∀ new r, conflict new r = true ↔ key r = key new) {t : τ} {batch : List α}
    (hbatch : ∀ r ∈ batch, column r = t) {k : κ} {c : τ} :
    (k, c) ∈ (batch.foldl (insertMissing conflict) rows).map (fun r => (key r, column r)) ↔
      (k, c) ∈ rows.map (fun r => (key r, column r)) ∨
        c = t ∧ k ∈ batch.map key ∧ k ∉ rows.map key := by
  rw [mem_map_foldl_insertMissing hconflict fun r hr r' hr' hkey => by
    rw [hkey, hbatch r hr, hbatch r' hr']]
  refine or_congr_right ⟨?_, ?_⟩
  · rintro ⟨r, hr, hview, hno⟩
    obtain ⟨rfl, rfl⟩ := Prod.mk.inj hview
    exact ⟨hbatch r hr, List.mem_map_of_mem hr, hno⟩
  · rintro ⟨rfl, hk, hno⟩
    obtain ⟨r, hr, rfl⟩ := List.mem_map.1 hk
    exact ⟨r, hr, by rw [hbatch r hr], hno⟩

theorem mem_keys_foldl_insertMissing {conflict : α → α → Bool} {key : α → κ}
    (hconflict : ∀ new r, conflict new r = true ↔ key r = key new) {batch : List α} {k : κ} :
    k ∈ (batch.foldl (insertMissing conflict) []).map key ↔ k ∈ batch.map key := by
  rw [mem_map_foldl_insertMissing hconflict fun _ _ _ _ h => h]
  simp

section Filtered

variable {conflict : α → α → Bool} {key : α → κ} {p q : α → Bool} {batch : List α}

theorem exists_earlier_of_forall_mem (hconflict : ∀ new r, conflict new r = true ↔ key r = key new)
    {before after : List α} {r : α}
    (hpass : ∀ r' ∈ ((before ++ r :: after).filter q).foldl (insertMissing conflict) [],
      p r' = true) (hq : q r = true) (hp : p r = false) :
    ∃ r' ∈ before, key r' = key r ∧ p r' = true := by
  -- the rows written up to `r` stay
  obtain ⟨old, hold, hmem, -⟩ := foldl_insertMissing conflict (before.filter q) []
  rw [List.nil_append] at hold
  obtain ⟨added, hfold, -, -⟩ := foldl_insertMissing conflict (after.filter q)
    (insertMissing conflict old r)
  rw [List.filter_append, List.filter_cons_of_pos hq, List.foldl_append, hold, List.foldl_cons,
    hfold] at hpass
  by_cases hany : old.any (conflict r) = true
  · obtain ⟨r', hr', hkey⟩ := List.any_eq_true.1 hany
    rw [insertMissing, if_pos hany] at hpass
    exact ⟨r', (List.mem_filter.1 (hmem r' hr')).1, (hconflict r r').1 hkey,
      hpass r' (List.mem_append_left _ hr')⟩
  · rw [insertMissing, if_neg hany] at hpass
    have hr := hpass r (List.mem_append_left _ (List.mem_append_right _ List.mem_cons_self))
    exact absurd (hp.symm.trans hr) Bool.false_ne_true

theorem foldl_insertMissing_filter_eq (hconflict : ∀ new r, conflict new r = true ↔ key r = key new)
    (hpq : ∀ r, p r = true → q r = true)
    (h : ∀ before r after, batch = before ++ r :: after → q r = true → p r = false →
      ∃ r' ∈ before, key r' = key r ∧ p r' = true) :
    (batch.filter p).foldl (insertMissing conflict) [] =
      (batch.filter q).foldl (insertMissing conflict) [] := by
  induction batch using List.reverseRecOn with
  | nil => rfl
  | append_singleton batch r ih =>
    have hbefore := ih fun before r' after hbatch =>
      h before r' (after ++ [r]) (by rw [hbatch, List.append_assoc, List.cons_append])
    rw [List.filter_append, List.filter_append, List.foldl_append, List.foldl_append, hbefore]
    cases hp : p r with
    | true => rw [List.filter_cons_of_pos hp, List.filter_cons_of_pos (hpq r hp)]; rfl
    | false =>
      cases hq : q r with
      | false => simp [hp, hq]
      | true =>
        obtain ⟨r', hr', hkey, hp'⟩ := h batch r [] rfl hq hp
        have hmem : key r ∈ ((batch.filter q).foldl (insertMissing conflict) []).map key :=
          (mem_keys_foldl_insertMissing hconflict).2 (hkey ▸ List.mem_map_of_mem
            (List.mem_filter.2 ⟨hr', hpq r' hp'⟩))
        obtain ⟨old, hold, holdkey⟩ := List.mem_map.1 hmem
        have hany : ((batch.filter q).foldl (insertMissing conflict) []).any (conflict r) =
            true := List.any_eq_true.2 ⟨old, hold, (hconflict r old).2 holdkey⟩
        simp [hp, hq, insertMissing, hany]

theorem of_mem_foldl_insertMissing_filter {r : α}
    (h : r ∈ (batch.filter p).foldl (insertMissing conflict) []) : r ∈ batch ∧ p r = true := by
  obtain ⟨added, hadded, hmem, -⟩ := foldl_insertMissing conflict (batch.filter p) []
  rw [hadded, List.nil_append] at h
  exact List.mem_filter.1 (hmem r h)

/-- Two filters of one batch, the first stricter than the second, leave the same rows in an
empty table exactly if a row that only passes the second has an earlier row of its key that
passes the first. -/
theorem foldl_insertMissing_filter_perm_iff
    (hconflict : ∀ new r, conflict new r = true ↔ key r = key new)
    (hpq : ∀ r, p r = true → q r = true) :
    ((batch.filter p).foldl (insertMissing conflict) []).Perm
        ((batch.filter q).foldl (insertMissing conflict) []) ↔
      ∀ before r after, batch = before ++ r :: after → q r = true → p r = false →
        ∃ r' ∈ before, key r' = key r ∧ p r' = true := by
  constructor
  · rintro hperm before r after rfl hq hp
    have hpass : ∀ r' ∈ ((before ++ r :: after).filter q).foldl (insertMissing conflict) [],
        p r' = true :=
      fun r' hr' => (of_mem_foldl_insertMissing_filter (hperm.mem_iff.2 hr')).2
    exact exists_earlier_of_forall_mem hconflict hpass hq hp
  · intro h
    rw [foldl_insertMissing_filter_eq hconflict hpq h]

theorem forall_mem_foldl_insertMissing_filter_iff
    (hconflict : ∀ new r, conflict new r = true ↔ key r = key new)
    (hpq : ∀ r, p r = true → q r = true) :
    (∀ r ∈ (batch.filter q).foldl (insertMissing conflict) [], p r = true) ↔
      ∀ before r after, batch = before ++ r :: after → q r = true → p r = false →
        ∃ r' ∈ before, key r' = key r ∧ p r' = true := by
  constructor
  · rintro hpass before r after rfl hq hp
    exact exists_earlier_of_forall_mem hconflict hpass hq hp
  · intro h r hr
    rw [← foldl_insertMissing_filter_eq hconflict hpq h] at hr
    exact (of_mem_foldl_insertMissing_filter hr).2

end Filtered

end Update

section Keys

variable {key : α → κ} {rows : List α}

theorem UniqueKey.map_of_mem (h : UniqueKey key rows) {f : α → α}
    (hf : ∀ r ∈ rows, key (f r) = key r) : UniqueKey key (rows.map f) := by
  have hkeys : rows.map (key ∘ f) = rows.map key := List.map_congr_left hf
  unfold UniqueKey at *
  rwa [List.map_map, hkeys]

theorem UniqueKey.map (h : UniqueKey key rows) {f : α → α} (hf : ∀ r, key (f r) = key r) :
    UniqueKey key (rows.map f) := h.map_of_mem fun r _ => hf r

theorem UniqueKey.append_fresh (h : UniqueKey key rows) {r : α}
    (hr : ∀ r₀ ∈ rows, key r₀ ≠ key r) : UniqueKey key (rows ++ [r]) := by
  unfold UniqueKey at *
  rw [List.map_append, List.map_singleton, List.nodup_append]
  refine ⟨h, by simp, ?_⟩
  intro a ha b hb
  obtain ⟨r₀, hr₀, rfl⟩ := List.mem_map.1 ha
  obtain rfl := List.mem_singleton.1 hb
  exact hr r₀ hr₀

theorem UniqueKey.foldl_insertMissing {conflict : α → α → Bool} {batch : List α}
    (hconflict : ∀ new r, conflict new r = true ↔ key r = key new) (h : UniqueKey key rows) :
    UniqueKey key (batch.foldl (insertMissing conflict) rows) := by
  refine List.foldlRecOn batch _ h fun kept hkept new _ => ?_
  unfold insertMissing
  split_ifs with hany
  · exact hkept
  · refine hkept.append_fresh fun r hr hkey => hany ?_
    exact List.any_eq_true.2 ⟨r, hr, (hconflict new r).2 hkey⟩

theorem UniqueKey.deleteWhere (h : UniqueKey key rows) (cond : α → Bool) :
    UniqueKey key (deleteWhere cond rows) :=
  List.Nodup.sublist (List.Sublist.map key List.filter_sublist) h

theorem UniqueKey.eq_of_key_eq (h : UniqueKey key rows) {r r' : α} (hr : r ∈ rows)
    (hr' : r' ∈ rows) (hk : key r = key r') : r = r' :=
  List.inj_on_of_nodup_map h hr hr' hk

variable [DecidableEq κ] {k : κ}

theorem mem_of_lookup {r : α} (h : lookup key k rows = some r) : r ∈ rows :=
  List.mem_of_find?_eq_some h

theorem key_of_lookup {r : α} (h : lookup key k rows = some r) : key r = k := by
  simpa [lookup] using List.find?_some h

theorem lookup_map {f : α → α} (hf : ∀ r, key (f r) = key r) :
    lookup key k (rows.map f) = (lookup key k rows).map f := by
  induction rows with
  | nil => rfl
  | cons r rs ih =>
    unfold lookup at *
    by_cases hk : key r = k
    · simp [hk, hf]
    · simpa [hk, hf] using ih

theorem lookup_append_of_some {r : α} {fresh : List α} (h : lookup key k rows = some r) :
    lookup key k (rows ++ fresh) = some r := by
  unfold lookup at *
  rw [List.find?_append, h]
  rfl

theorem lookup_eq_some_of_mem (h : UniqueKey key rows) {r : α} (hr : r ∈ rows)
    (hk : key r = k) : lookup key k rows = some r := by
  cases hl : lookup key k rows with
  | none =>
    have := List.find?_eq_none.1 hl r hr
    simp [hk] at this
  | some r' =>
    have := h.eq_of_key_eq (mem_of_lookup hl) hr ((key_of_lookup hl).trans hk.symm)
    rw [this]

theorem updateWhere_eq_map (cond : α → Bool) (set : α → α) (rows : List α) :
    updateWhere cond set rows = rows.map fun r => if cond r then set r else r := rfl

theorem UniqueKey.upsert (h : UniqueKey key rows) {merge : α → α}
    (hmerge : ∀ r, key (merge r) = key r) {fresh : α} (hfresh : key fresh = k) :
    UniqueKey key (upsert (fun r => key r = k) merge fresh rows) := by
  unfold Relational.upsert
  split
  · exact h.map fun r => by split <;> simp [hmerge]
  · rename_i hany
    refine h.append_fresh fun r hr hk => hany (List.any_eq_true.2 ⟨r, hr, ?_⟩)
    exact decide_eq_true (hk.trans hfresh)

theorem lookup_upsert {merge : α → α} (hmerge : ∀ r, key (merge r) = key r) {fresh : α}
    (hfresh : key fresh = k) :
    lookup key k (upsert (fun r => key r = k) merge fresh rows) =
      some ((lookup key k rows).elim fresh merge) := by
  unfold Relational.upsert
  split
  · rename_i hany
    obtain ⟨r, hr⟩ : ∃ r, lookup key k rows = some r := by
      obtain ⟨r, hr, hk⟩ := List.any_eq_true.1 hany
      exact Option.isSome_iff_exists.1 (List.find?_isSome.2 ⟨r, hr, hk⟩)
    rw [updateWhere_eq_map, lookup_map fun r => by split <;> simp [hmerge], hr]
    simp [key_of_lookup hr]
  · rename_i hany
    have hnone : lookup key k rows = none := by
      refine List.find?_eq_none.2 fun r hr hk => hany (List.any_eq_true.2 ⟨r, hr, hk⟩)
    unfold lookup at *
    rw [List.find?_append, hnone]
    simp [hfresh]

theorem lookup_upsert_of_ne {merge : α → α} (hmerge : ∀ r, key (merge r) = key r) {fresh : α}
    (hfresh : key fresh = k) {k' : κ} (hne : k' ≠ k) :
    lookup key k' (upsert (fun r => key r = k) merge fresh rows) = lookup key k' rows := by
  unfold Relational.upsert
  split
  · rw [updateWhere_eq_map, lookup_map fun r => by split <;> simp [hmerge]]
    cases hl : lookup key k' rows with
    | none => rfl
    | some r => simp [key_of_lookup hl, hne]
  · have hfresh' : ¬key fresh = k' := fun h => hne (h.symm.trans hfresh)
    unfold lookup
    simp [hfresh']

/-- A statement that can only match the row under `k`, and matches it, touches
exactly one row. -/
theorem affected_eq_one (h : UniqueKey key rows) {cond : α → Bool}
    (hkey : ∀ r, cond r = true → key r = k) {r : α} (hr : lookup key k rows = some r)
    (hcond : cond r = true) : affected cond rows = 1 := by
  induction rows with
  | nil => cases hr
  | cons a as ih =>
    have hnodup : key a ∉ as.map key ∧ UniqueKey key as := List.nodup_cons.1 h
    unfold affected lookup at *
    by_cases ha : key a = k
    · obtain rfl : a = r := by simpa [ha] using hr
      have hrest : as.countP cond = 0 := by
        refine List.countP_eq_zero.2 fun b hb hcb => hnodup.1 ?_
        rw [ha, ← hkey b hcb]
        exact List.mem_map_of_mem hb
      simp [hcond, hrest]
    · have hca : ¬cond a = true := fun hc => ha (hkey a hc)
      rw [List.countP_cons_of_neg hca]
      exact ih hnodup.2 (by simpa [ha] using hr)

end Keys

section Retains

/-- Every row that `owned` selects is still stored, possibly with other columns. -/
def Retains (key : α → κ) (owned : α → Prop) (rows rows' : List α) : Prop :=
  ∀ r ∈ rows, owned r → ∃ r' ∈ rows', key r' = key r

variable {key : α → κ} {owned : α → Prop} {rows rows' rows'' : List α}

theorem Retains.refl : Retains key owned rows rows := fun r hr _ => ⟨r, hr, rfl⟩

theorem Retains.trans (howned : ∀ r r', key r' = key r → owned r → owned r')
    (h : Retains key owned rows rows') (h' : Retains key owned rows' rows'') :
    Retains key owned rows rows'' := by
  intro r hr hown
  obtain ⟨r', hr', hkey⟩ := h r hr hown
  obtain ⟨r'', hr'', hkey'⟩ := h' r' hr' (howned r r' hkey hown)
  exact ⟨r'', hr'', hkey'.trans hkey⟩

theorem Retains.upsert {conflict : α → Bool} {merge : α → α} {fresh : α}
    (hmerge : ∀ r, key (merge r) = key r) :
    Retains key owned rows (upsert conflict merge fresh rows) := by
  intro r hr _
  unfold Relational.upsert
  split
  · refine ⟨_, mem_updateWhere.2 ⟨r, hr, rfl⟩, ?_⟩
    split
    · exact hmerge r
    · rfl
  · exact ⟨r, List.mem_append_left _ hr, rfl⟩

theorem Retains.foldl {β : Type*} {insert : List α → β → List α} {batch : List β}
    (howned : ∀ r r', key r' = key r → owned r → owned r')
    (hinsert : ∀ rows b, Retains key owned rows (insert rows b)) :
    Retains key owned rows (batch.foldl insert rows) := by
  induction batch generalizing rows with
  | nil => exact .refl
  | cons b batch ih => exact .trans howned (hinsert rows b) ih

theorem Retains.deleteWhere {cond : α → Bool} (h : ∀ r, owned r → cond r = false) :
    Retains key owned rows (deleteWhere cond rows) := by
  intro r hr hown
  exact ⟨r, List.mem_filter.2 ⟨hr, by simp [h r hown]⟩, rfl⟩

end Retains

section Select

variable {rows rows' : List α} {cond coarse : α → Bool}

theorem argmax_filter_eq_none {β : Type*} [LinearOrder β] {f : α → β} :
    (rows.filter cond).argmax f = none ↔ ∀ r ∈ rows, cond r = false := by
  simp [List.argmax_eq_none, List.filter_eq_nil_iff]

theorem mem_of_argmax_filter {β : Type*} [LinearOrder β] {f : α → β} {r : α}
    (h : (rows.filter cond).argmax f = some r) : r ∈ rows ∧ cond r = true :=
  List.mem_filter.1 (List.argmax_mem h)

/-- A query only sees the part of a table its condition allows. -/
theorem filter_eq_of_coarser (h : rows'.filter coarse = rows.filter coarse)
    (himp : ∀ r, cond r = true → coarse r = true) : rows'.filter cond = rows.filter cond := by
  have hcond : cond = fun r => cond r && coarse r := by
    funext r
    cases hr : cond r with
    | false => simp
    | true => simp [himp r hr]
  rw [hcond, ← List.filter_filter, ← List.filter_filter, h]

/-- A rewrite that fixes the rows of `kept` and takes every other row out of `cond`. -/
theorem filter_map_eq {f : α → α} {kept : α → Bool}
    (hkept : ∀ r ∈ rows, kept r = true → f r = r ∧ cond r = true)
    (hdrop : ∀ r ∈ rows, kept r = false → cond (f r) = false) :
    (rows.map f).filter cond = rows.filter kept := by
  induction rows with
  | nil => rfl
  | cons a as ih =>
    have htail := ih (fun r hr => hkept r (List.mem_cons_of_mem a hr))
      (fun r hr => hdrop r (List.mem_cons_of_mem a hr))
    cases ha : kept a with
    | true =>
      obtain ⟨hfix, hcond⟩ := hkept a List.mem_cons_self ha
      simp [hfix, hcond, ha, htail]
    | false =>
      have hcond := hdrop a List.mem_cons_self ha
      simp [hcond, ha, htail]

end Select

end CodeIntel.Relational
