import Mathlib.Tactic.Common

/-!
# Fallible code

Inversion of the combinators of `Except`: a computation that returns a result has had a result
at each of its steps.
-/

namespace CodeIntel.Relational

variable {ε α β : Type*}

theorem bind_eq_ok {ε α β : Type} {x : Except ε α} {f : α → Except ε β} {b : β} :
    x >>= f = .ok b ↔ ∃ a, x = .ok a ∧ f a = .ok b := by
  cases x <;> simp [bind, Except.bind]

theorem map_eq_ok {x : Except ε α} {f : α → β} {b : β} :
    x.map f = .ok b ↔ ∃ a, x = .ok a ∧ f a = b := by
  cases x <;> simp [Except.map]

theorem mapError_eq_ok {ε' : Type*} {x : Except ε α} {f : ε → ε'} {a : α} :
    x.mapError f = .ok a ↔ x = .ok a := by
  cases x <;> simp [Except.mapError]

/-- A loop that may fail, with a body that keeps a predicate. -/
theorem foldlM_keeps {ε α β : Type} {P : β → Prop} {f : β → α → Except ε β}
    (hf : ∀ b a b', P b → f b a = .ok b' → P b') {batch : List α} {b b' : β} (hb : P b)
    (h : batch.foldlM f b = .ok b') : P b' := by
  induction batch generalizing b with
  | nil => exact Except.ok.inj h ▸ hb
  | cons a batch ih =>
    obtain ⟨b₁, hstep, h⟩ := bind_eq_ok.1 h
    exact ih (hf b a b₁ hb hstep) h

theorem forall₂_of_mapM_ok {ε α β : Type} {f : α → Except ε β} {xs : List α} {ys : List β}
    (h : xs.mapM f = .ok ys) : List.Forall₂ (fun x y => f x = .ok y) xs ys := by
  induction xs generalizing ys with
  | nil =>
    rw [← Except.ok.inj h]
    exact .nil
  | cons x xs ih =>
    rw [List.mapM_cons] at h
    obtain ⟨y, hx, h⟩ := bind_eq_ok.1 h
    obtain ⟨ys₀, hxs, h⟩ := bind_eq_ok.1 h
    rw [← Except.ok.inj h]
    exact .cons hx (ih hxs)

theorem exists_of_forall₂ {R : α → β → Prop} {xs : List α} {ys : List β}
    (h : List.Forall₂ R xs ys) :
    (∀ y ∈ ys, ∃ x ∈ xs, R x y) ∧ ∀ x ∈ xs, ∃ y ∈ ys, R x y := by
  induction h with
  | nil => simp
  | cons hxy _ ih =>
    obtain ⟨hback, hforth⟩ := ih
    simp only [List.mem_cons, forall_eq_or_imp, exists_eq_or_imp]
    exact ⟨⟨.inl hxy, fun y hy => .inr (hback y hy)⟩,
      ⟨.inl hxy, fun x hx => .inr (hforth x hx)⟩⟩

theorem pairwise_of_forall₂ {R : α → β → Prop} {S : α → α → Prop}
    {T : β → β → Prop} (hST : ∀ {x y x' y'}, R x y → R x' y' → S x x' → T y y') {xs : List α}
    {ys : List β} (h : List.Forall₂ R xs ys) (hxs : xs.Pairwise S) : ys.Pairwise T := by
  induction h with
  | nil => exact .nil
  | cons hxy hrest ih =>
    obtain ⟨hhead, htail⟩ := List.pairwise_cons.1 hxs
    refine List.pairwise_cons.2 ⟨?_, ih htail⟩
    intro y' hy'
    obtain ⟨x', hx', hxy'⟩ := (exists_of_forall₂ hrest).1 y' hy'
    exact hST hxy hxy' (hhead x' hx')

theorem mapM_ok {ε α β : Type} {f : α → Except ε β} {xs : List α} {ys : List β}
    (h : xs.mapM f = .ok ys) :
    (∀ y ∈ ys, ∃ x ∈ xs, f x = .ok y) ∧ ∀ x ∈ xs, ∃ y ∈ ys, f x = .ok y :=
  exists_of_forall₂ (forall₂_of_mapM_ok h)

end CodeIntel.Relational
