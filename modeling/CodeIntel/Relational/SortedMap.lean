import Mathlib.Data.List.Sort
import CodeIntel.Relational.Table

/-!
# Maps in key order

A map that iterates in the order of its keys: a list of entries with strictly
increasing keys. The order is part of the type, so two maps with the same
lookups are the same map and every listing of keys is sorted without repetition.
-/

namespace CodeIntel.Relational

/-- A finite map, kept in increasing order of its keys. -/
structure SortedMap (κ α : Type*) [LinearOrder κ] where
  entries : List (κ × α)
  increasing : (entries.map Prod.fst).Pairwise (· < ·)

namespace SortedMap

variable {κ α : Type*} [LinearOrder κ]

instance [DecidableEq α] : DecidableEq (SortedMap κ α) := fun m m' =>
  decidable_of_iff (m.entries = m'.entries) (by cases m; cases m'; simp)

def empty : SortedMap κ α := ⟨[], List.Pairwise.nil⟩

def keys (m : SortedMap κ α) : List κ := m.entries.map Prod.fst

def get (m : SortedMap κ α) (k : κ) : Option α := (lookup Prod.fst k m.entries).map Prod.snd

def insert (m : SortedMap κ α) (k : κ) (v : α) : SortedMap κ α where
  entries := (m.entries.filter fun e => e.1 < k) ++ (k, v) :: m.entries.filter fun e => k < e.1
  increasing := by
    have hsub (p : κ × α → Bool) : ((m.entries.filter p).map Prod.fst).Pairwise (· < ·) :=
      m.increasing.sublist (List.filter_sublist.map Prod.fst)
    rw [List.map_append, List.map_cons, List.pairwise_append, List.pairwise_cons]
    refine ⟨hsub _, ⟨?_, hsub _⟩, ?_⟩
    · simp only [List.mem_map, List.mem_filter, decide_eq_true_eq]
      rintro _ ⟨e, ⟨-, he⟩, rfl⟩
      exact he
    · simp only [List.mem_map, List.mem_filter, decide_eq_true_eq, List.mem_cons]
      rintro _ ⟨e, ⟨-, he⟩, rfl⟩ _ (rfl | ⟨e', ⟨-, he'⟩, rfl⟩)
      · exact he
      · exact he.trans he'

variable {m : SortedMap κ α} {k k' : κ} {v v' : α}

theorem uniqueKey_entries (m : SortedMap κ α) : UniqueKey Prod.fst m.entries :=
  m.increasing.imp ne_of_lt

theorem keys_increasing (m : SortedMap κ α) : m.keys.Pairwise (· < ·) := m.increasing

theorem get_eq_some_iff : m.get k = some v ↔ (k, v) ∈ m.entries := by
  unfold get
  rw [Option.map_eq_some_iff]
  constructor
  · rintro ⟨e, he, rfl⟩
    obtain rfl := key_of_lookup he
    exact mem_of_lookup he
  · intro hmem
    exact ⟨(k, v), lookup_eq_some_of_mem m.uniqueKey_entries hmem rfl, rfl⟩

theorem mem_keys : k ∈ m.keys ↔ ∃ v, m.get k = some v := by
  simp only [keys, List.mem_map, get_eq_some_iff]
  constructor
  · rintro ⟨e, he, rfl⟩
    exact ⟨e.2, he⟩
  · rintro ⟨v, hv⟩
    exact ⟨(k, v), hv, rfl⟩

theorem mem_insert_entries {e : κ × α} :
    e ∈ (m.insert k v).entries ↔ e = (k, v) ∨ e ∈ m.entries ∧ e.1 ≠ k := by
  simp only [insert, List.mem_append, List.mem_cons, List.mem_filter, decide_eq_true_eq,
    ne_iff_lt_or_gt]
  tauto

theorem get_insert_self : (m.insert k v).get k = some v :=
  get_eq_some_iff.2 (mem_insert_entries.2 (.inl rfl))

theorem get_insert_of_ne (h : k' ≠ k) : (m.insert k v).get k' = m.get k' := by
  ext w
  rw [get_eq_some_iff, get_eq_some_iff, mem_insert_entries]
  constructor
  · rintro (heq | ⟨hmem, -⟩)
    · exact absurd (congrArg Prod.fst heq) h
    · exact hmem
  · exact fun hmem => .inr ⟨hmem, h⟩

/-- `BTreeMap::retain` by key. -/
def retain (m : SortedMap κ α) (p : κ → Bool) : SortedMap κ α where
  entries := m.entries.filter fun e => p e.1
  increasing := m.increasing.sublist (List.filter_sublist.map Prod.fst)

theorem get_retain_eq_some_iff {p : κ → Bool} :
    (m.retain p).get k = some v ↔ m.get k = some v ∧ p k = true := by
  rw [get_eq_some_iff, get_eq_some_iff]
  exact List.mem_filter

theorem retain_eq_self {p : κ → Bool} (h : ∀ e ∈ m.entries, p e.1 = true) : m.retain p = m := by
  obtain ⟨entries, increasing⟩ := m
  simp only [retain, mk.injEq]
  exact List.filter_eq_self.2 h

section Rows

variable {β : Type*} (key : β → κ) (value : β → α)

/-- The map of a list of rows; a later row replaces an earlier one. -/
def ofRows (rows : List β) : SortedMap κ α :=
  rows.foldl (fun m r => m.insert (key r) (value r)) empty

variable {key value}

theorem ofRows_append_singleton (rows : List β) (r : β) :
    ofRows key value (rows ++ [r]) = (ofRows key value rows).insert (key r) (value r) := by
  unfold ofRows
  rw [List.foldl_append]
  rfl

theorem mem_keys_ofRows {rows : List β} : k ∈ (ofRows key value rows).keys ↔ k ∈ rows.map key := by
  induction rows using List.reverseRecOn with
  | nil => simp [ofRows, empty, keys]
  | append_singleton rows r ih =>
    rw [ofRows_append_singleton, mem_keys, List.map_append, List.mem_append, ← ih, mem_keys]
    by_cases h : k = key r
    · subst h
      simp [get_insert_self]
    · simp [get_insert_of_ne h, h]

@[simp] theorem get_empty (k : κ) : (empty : SortedMap κ α).get k = none := rfl

/-- With distinct keys the rows decide, and the map where they have no key. -/
theorem get_foldl_insert {rows : List β} (h : UniqueKey key rows) (m : SortedMap κ α) (k : κ) :
    (rows.foldl (fun m r => m.insert (key r) (value r)) m).get k =
      ((lookup key k rows).map value).or (m.get k) := by
  induction rows using List.reverseRecOn with
  | nil => rfl
  | append_singleton rows r ih =>
    unfold UniqueKey at h
    rw [List.map_append, List.nodup_append] at h
    obtain ⟨hrows, -, hfresh⟩ := h
    rw [List.foldl_append, List.foldl_cons, List.foldl_nil]
    by_cases hk : k = key r
    · subst hk
      have hnone : rows.find? (fun r' => key r' = key r) = none := by
        refine List.find?_eq_none.2 fun r' hr' heq => ?_
        exact hfresh _ (List.mem_map_of_mem hr') _ (List.mem_singleton_self _)
          (of_decide_eq_true heq)
      unfold lookup
      rw [get_insert_self, List.find?_append, hnone]
      simp
    · have hr : [r].find? (fun r' => key r' = k) = none := by simp [Ne.symm hk]
      rw [get_insert_of_ne hk, ih hrows]
      unfold lookup
      rw [List.find?_append, hr, Option.or_none]

theorem get_ofRows {rows : List β} (h : UniqueKey key rows) (k : κ) :
    (ofRows key value rows).get k = (lookup key k rows).map value := by
  rw [ofRows, get_foldl_insert h, get_empty, Option.or_none]

theorem get_ofRows_of_mem {rows : List β} (h : UniqueKey key rows) {r : β} (hr : r ∈ rows) :
    (ofRows key value rows).get (key r) = some (value r) := by
  rw [get_ofRows h, lookup_eq_some_of_mem h hr rfl]
  rfl

end Rows

/-- The map with the entries of a second one stored over it. -/
def overlay (m extra : SortedMap κ α) : SortedMap κ α :=
  extra.entries.foldl (fun m e => m.insert e.1 e.2) m

theorem get_overlay (m extra : SortedMap κ α) (k : κ) :
    (m.overlay extra).get k = (extra.get k).or (m.get k) :=
  get_foldl_insert extra.uniqueKey_entries m k

end SortedMap

end CodeIntel.Relational
