import Mathlib.Data.Set.Basic
import Mathlib.Logic.Function.Basic
import Mathlib.Tactic.Common

/-!
# Maps whose inserts overwrite

A store that keeps one value for each key. A batch of inserts replaces the values
of the keys it writes. A query selects the entries whose value meets a condition.
-/

namespace CodeIntel.Relational

variable {κ ν α : Type*} [DecidableEq κ]

/-- Insert the elements of a batch one after the other. -/
def insertAll (key : α → κ) (val : α → ν) (m : κ → Option ν) (batch : List α) : κ → Option ν :=
  batch.foldl (fun m a => Function.update m (key a) (some (val a))) m

/-- The entries whose value meets the condition. -/
def selected (P : ν → Prop) (m : κ → Option ν) : Set (κ × ν) :=
  {x | m x.1 = some x.2 ∧ P x.2}

section Insert

variable {key : α → κ} {val : α → ν} {m : κ → Option ν} {batch : List α} {k : κ}

theorem insertAll_of_forall_ne (h : ∀ a ∈ batch, key a ≠ k) :
    insertAll key val m batch k = m k := by
  induction batch generalizing m with
  | nil => rfl
  | cons a batch ih =>
    have hrest : ∀ b ∈ batch, key b ≠ k := fun b hb => h b (List.mem_cons_of_mem a hb)
    calc insertAll key val m (a :: batch) k
        = insertAll key val (Function.update m (key a) (some (val a))) batch k := rfl
      _ = Function.update m (key a) (some (val a)) k := ih hrest
      _ = m k := Function.update_of_ne (h a List.mem_cons_self).symm _ _

theorem insertAll_of_exists (h : ∃ a ∈ batch, key a = k) :
    ∃ a ∈ batch, key a = k ∧ insertAll key val m batch k = some (val a) := by
  induction batch generalizing m with
  | nil =>
    obtain ⟨a, ha, -⟩ := h
    cases ha
  | cons c batch ih =>
    by_cases hlater : ∃ a ∈ batch, key a = k
    · obtain ⟨a, ha, hkey, hval⟩ := ih hlater
      exact ⟨a, List.mem_cons_of_mem c ha, hkey, hval⟩
    · have hnone : ∀ a ∈ batch, key a ≠ k := fun a ha heq => hlater ⟨a, ha, heq⟩
      obtain ⟨a, ha, rfl⟩ := h
      obtain rfl : a = c := (List.mem_cons.1 ha).resolve_right fun hmem => hnone a hmem rfl
      refine ⟨a, List.mem_cons_self, rfl, ?_⟩
      calc insertAll key val m (a :: batch) (key a)
          = insertAll key val (Function.update m (key a) (some (val a))) batch (key a) := rfl
        _ = Function.update m (key a) (some (val a)) (key a) := insertAll_of_forall_ne hnone
        _ = some (val a) := Function.update_self _ _ _

theorem exists_of_insertAll_eq_some {v : ν} (hm : m k = none)
    (h : insertAll key val m batch k = some v) : ∃ a ∈ batch, key a = k ∧ val a = v := by
  by_cases hwritten : ∃ a ∈ batch, key a = k
  · obtain ⟨a, ha, hkey, hval⟩ : ∃ a ∈ batch, key a = k ∧
        insertAll key val m batch k = some (val a) := insertAll_of_exists hwritten
    exact ⟨a, ha, hkey, Option.some.inj (hval.symm.trans h)⟩
  · rw [insertAll_of_forall_ne fun a ha heq => hwritten ⟨a, ha, heq⟩, hm] at h
    cases h

/-- A batch none of whose values is selected keeps the selection exactly if it writes
no selected key. -/
theorem selected_insertAll_eq_iff (key : α → κ) (val : α → ν) (P : ν → Prop)
    (m : κ → Option ν) (hP : ∀ a ∈ batch, ¬P (val a)) :
    selected P (insertAll key val m batch) = selected P m ↔
      ∀ a ∈ batch, ∀ v, m (key a) = some v → ¬P v := by
  -- a written key holds no selected value afterwards
  have hafter : ∀ a ∈ batch, ∀ v, insertAll key val m batch (key a) = some v → ¬P v := by
    intro a ha v hv
    obtain ⟨b, hb, -, hval⟩ : ∃ b ∈ batch, key b = key a ∧
        insertAll key val m batch (key a) = some (val b) := insertAll_of_exists ⟨a, ha, rfl⟩
    obtain rfl : v = val b := Option.some.inj (hv.symm.trans hval)
    exact hP b hb
  constructor
  · intro heq a ha v hv hPv
    have hsel : (key a, v) ∈ selected P (insertAll key val m batch) := by
      rw [heq]
      exact ⟨hv, hPv⟩
    exact hafter a ha v hsel.1 hPv
  · intro hfree
    ext ⟨k, v⟩
    by_cases hwritten : ∃ a ∈ batch, key a = k
    · obtain ⟨a, ha, rfl⟩ := hwritten
      exact iff_of_false (fun h => hafter a ha v h.1 h.2) fun h => hfree a ha v h.1 h.2
    · have hkept : insertAll key val m batch k = m k :=
        insertAll_of_forall_ne fun a ha heq => hwritten ⟨a, ha, heq⟩
      simp only [selected, Set.mem_ofPred_eq, hkept]

end Insert

end CodeIntel.Relational
