import CodeIntel.Text.GoString

/-!
# Names made of delimited parts

File names that join several parts with a separator. A part that does not contain
the separator can be read back, and a search for text that starts or ends with a
separator skips such a part.
-/

namespace CodeIntel.Text

section Delimiters

variable {α : Type*} {d : α} {pre : List α}

/-- A word followed by a separator begins a name whose first part has no separator only
if it goes past that part. -/
theorem concat_prefix_append_iff (hpre : d ∉ pre) {word rest : List α} :
    word ++ [d] <+: pre ++ rest ↔ ∃ more, word = pre ++ more ∧ more ++ [d] <+: rest := by
  induction pre generalizing word with
  | nil => simp
  | cons a pre ih =>
    obtain ⟨had, hpre⟩ := not_or.1 (mt List.mem_cons.2 hpre)
    cases word with
    | nil => simp [List.cons_prefix_cons, had]
    | cons b word =>
      rw [List.cons_append, List.cons_append, List.cons_prefix_cons, ih hpre]
      constructor
      · rintro ⟨rfl, more, rfl, hmore⟩
        exact ⟨more, rfl, hmore⟩
      · rintro ⟨more, hword, hmore⟩
        obtain ⟨rfl, rfl⟩ := List.cons.inj hword
        exact ⟨rfl, more, rfl, hmore⟩

theorem cons_infix_append_iff (hpre : d ∉ pre) {word rest : List α} :
    d :: word <:+: pre ++ rest ↔ d :: word <:+: rest := by
  induction pre with
  | nil => rfl
  | cons a pre ih =>
    obtain ⟨had, hpre⟩ := not_or.1 (mt List.mem_cons.2 hpre)
    rw [List.cons_append, List.infix_cons_iff, ih hpre, List.cons_prefix_cons]
    exact or_iff_right fun h => had h.1

theorem append_cons_prefix_iff {first : List α} (hfirst : d ∉ first) (hpre : d ∉ pre)
    {word rest : List α} :
    first ++ d :: word <+: pre ++ d :: rest ↔ first = pre ∧ word <+: rest := by
  induction first generalizing pre with
  | nil =>
    cases pre with
    | nil => simp [List.cons_prefix_cons]
    | cons a pre => simp_all [List.cons_prefix_cons]
  | cons b first ih =>
    obtain ⟨hdb, hfirst⟩ := not_or.1 (mt List.mem_cons.2 hfirst)
    cases pre with
    | nil => simp [List.cons_prefix_cons, Ne.symm hdb]
    | cons a pre =>
      obtain ⟨-, hpre⟩ := not_or.1 (mt List.mem_cons.2 hpre)
      rw [List.cons_append, List.cons_append, List.cons_prefix_cons, ih hfirst hpre,
        List.cons.injEq, and_assoc]

end Delimiters

/-! ## Decimal parts -/

section Decimal

theorem toList_toString_int (n : ℤ) :
    (toString n).toList =
      if n < 0 then '-' :: Nat.toDigits 10 n.natAbs else Nat.toDigits 10 n.natAbs := by
  rw [Int.toString_eq_repr, Int.repr_eq_if]
  by_cases h : 0 ≤ n
  · have habs : n.toNat = n.natAbs := by omega
    rw [if_pos h, if_neg (not_lt.2 h), Nat.toList_repr, habs]
  · have habs : (-n).toNat = n.natAbs := by omega
    rw [if_neg h, if_pos (not_le.1 h), String.toList_append, Nat.toList_repr, habs]
    rfl

theorem underscore_notMem_toString (n : ℤ) : '_' ∉ (toString n).toList := by
  rw [toList_toString_int]
  split <;> simp [Nat.underscore_not_in_toDigits]

theorem toDigits_injective : Function.Injective (Nat.toDigits 10) := by
  intro m n h
  have hread := congrArg (fun digits => Nat.ofDigitChars 10 digits 0) h
  simpa only [Nat.ofDigitChars_toDigits (by decide : 1 < 10) le_rfl] using hread

theorem toString_int_injective : Function.Injective (toString : ℤ → String) := by
  intro m n h
  have hchars := congrArg String.toList h
  rw [toList_toString_int, toList_toString_int] at hchars
  -- the sign is not a digit
  have hsign : ∀ k : ℕ, '-' ∉ Nat.toDigits 10 k := fun k hk =>
    absurd (Nat.isDigit_of_mem_toDigits (by decide) le_rfl hk) (by decide)
  split at hchars <;> split at hchars
  · have habs := toDigits_injective (List.cons.inj hchars).2
    omega
  · exact absurd (hchars ▸ List.mem_cons_self) (hsign n.natAbs)
  · exact absurd (hchars ▸ List.mem_cons_self) (hsign m.natAbs)
  · have habs := toDigits_injective hchars
    omega

end Decimal

end CodeIntel.Text
