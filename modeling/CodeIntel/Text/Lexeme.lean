import CodeIntel.Text.GoString

/-!
# Texts with quoted parts

A text is read as a list of lexemes: single characters and quoted parts. Cutting
at a token, splitting at a separator outside parentheses and trimming are defined
on lexemes, where no quoted part can be taken apart. The lemmas say how lists that
are put together from smaller ones come apart again.
-/

namespace CodeIntel.Text

/-- A character, or a quoted part with the text between its quotes. -/
inductive Lexeme where
  | plain (c : Char)
  | quoted (mark : Char) (body : List Char)
  deriving DecidableEq, Repr

namespace Lexeme

def text : Lexeme → List Char
  | plain c => [c]
  | quoted mark body => mark :: (body ++ [mark])

def isSpace : Lexeme → Bool
  | plain c => Text.isSpace c
  | quoted _ _ => false

/-- Trimming sees the quotes of a quoted part. -/
def Framed : Lexeme → Prop
  | plain _ => True
  | quoted mark _ => Text.isSpace mark = false

end Lexeme

open Lexeme

def lexemeText (ts : List Lexeme) : List Char :=
  ts.flatMap text

def trimLexemes (ts : List Lexeme) : List Lexeme :=
  ((ts.dropWhile Lexeme.isSpace).reverse.dropWhile Lexeme.isSpace).reverse

/-- Splits at the separators outside parentheses; `none` if the parentheses do not match. -/
def splitLexemesFrom (sep : Char) : ℕ → List Lexeme → List Lexeme → Option (List (List Lexeme))
  | depth, part, [] => if depth = 0 then some [part] else none
  | depth, part, t :: ts =>
    if t = plain '(' then splitLexemesFrom sep (depth + 1) (part ++ [t]) ts
    else if t = plain ')' then
      if depth = 0 then none else splitLexemesFrom sep (depth - 1) (part ++ [t]) ts
    else if t = plain sep ∧ depth = 0 then (splitLexemesFrom sep 0 [] ts).map (part :: ·)
    else splitLexemesFrom sep depth (part ++ [t]) ts

def splitLexemes (sep : Char) (ts : List Lexeme) : Option (List (List Lexeme)) :=
  splitLexemesFrom sep 0 [] ts

/-- Cuts at the first occurrence of a token. -/
def cutLexemes (token : List Char) : List Lexeme → Option (List Lexeme × List Lexeme)
  | [] => none
  | t :: ts =>
    if token.map plain <+: t :: ts then some ([], (t :: ts).drop token.length)
    else (cutLexemes token ts).map fun parts => (t :: parts.1, parts.2)

/-! ## Texts -/

section Text

variable {t : Lexeme} {ts us : List Lexeme}

@[simp] theorem lexemeText_nil : lexemeText [] = [] := rfl

@[simp] theorem lexemeText_cons : lexemeText (t :: ts) = t.text ++ lexemeText ts := rfl

@[simp] theorem lexemeText_append : lexemeText (ts ++ us) = lexemeText ts ++ lexemeText us :=
  List.flatMap_append

@[simp] theorem lexemeText_map_plain (cs : List Char) : lexemeText (cs.map plain) = cs := by
  induction cs with
  | nil => rfl
  | cons c cs ih => rw [List.map_cons, lexemeText_cons, ih]; rfl

theorem text_ne_nil (t : Lexeme) : t.text ≠ [] := by
  cases t <;> simp [text]

theorem lexemeText_eq_nil : lexemeText ts = [] ↔ ts = [] := by
  cases ts with
  | nil => simp
  | cons t ts => simp [text_ne_nil]

theorem dropWhile_flatMap {f : Lexeme → List Char} (h : ∀ t ∈ ts, t.Framed)
    (hf : ∀ t, f t = t.text ∨ f t = t.text.reverse) :
    (ts.flatMap f).dropWhile isSpace = (ts.dropWhile Lexeme.isSpace).flatMap f := by
  induction ts with
  | nil => rfl
  | cons t ts ih =>
    obtain ⟨ht, hts⟩ := List.forall_mem_cons.1 h
    rw [List.flatMap_cons]
    cases t with
    | plain c =>
      have hc : f (plain c) = [c] := (hf (plain c)).elim id id
      by_cases hspace : isSpace c = true
      · simp [hc, Lexeme.isSpace, hspace, ih hts]
      · simp [hc, Lexeme.isSpace, hspace]
    | quoted mark body =>
      have hmark : ∃ cs, f (quoted mark body) = mark :: cs := by
        rcases hf (quoted mark body) with htext | htext <;> simp [htext, text]
      obtain ⟨cs, hcs⟩ := hmark
      have hspace : isSpace mark = false := ht
      simp [hcs, Lexeme.isSpace, hspace]

theorem reverse_lexemeText (ts : List Lexeme) :
    (lexemeText ts).reverse = ts.reverse.flatMap fun t => t.text.reverse := by
  unfold lexemeText
  rw [List.reverse_flatMap]
  rfl

theorem trimSpaceChars_lexemeText (h : ∀ t ∈ ts, t.Framed) :
    trimSpaceChars (lexemeText ts) = lexemeText (trimLexemes ts) := by
  have hfront : (lexemeText ts).dropWhile isSpace = lexemeText (ts.dropWhile Lexeme.isSpace) :=
    dropWhile_flatMap h fun _ => .inl rfl
  have hrest : ∀ t ∈ (ts.dropWhile Lexeme.isSpace).reverse, t.Framed := fun t ht =>
    h t ((List.dropWhile_sublist _).subset (List.mem_reverse.1 ht))
  unfold trimSpaceChars trimLexemes
  rw [hfront, reverse_lexemeText, dropWhile_flatMap hrest fun _ => .inr rfl,
    ← List.reverse_reverse (List.dropWhile _ _), ← reverse_lexemeText, List.reverse_reverse,
    List.reverse_reverse]

theorem mem_of_mem_trimLexemes (h : t ∈ trimLexemes ts) : t ∈ ts := by
  have hsub := (List.dropWhile_sublist _).subset (List.mem_reverse.1 h)
  exact (List.dropWhile_sublist _).subset (List.mem_reverse.1 hsub)

theorem trimLexemes_of_ends {u : Lexeme} (ht : t.isSpace = false) (hu : u.isSpace = false) :
    trimLexemes (t :: (ts ++ [u])) = t :: (ts ++ [u]) := by
  simp [trimLexemes, ht, hu]

theorem trimLexemes_of_forall (h : ∀ t ∈ ts, t.isSpace = false) : trimLexemes ts = ts := by
  have hdrop : ∀ us : List Lexeme, (∀ t ∈ us, t.isSpace = false) →
      us.dropWhile Lexeme.isSpace = us := by
    intro us hus
    rw [List.dropWhile_eq_self_iff]
    intro hlen hspace
    rw [hus _ (List.getElem_mem hlen)] at hspace
    simp at hspace
  unfold trimLexemes
  rw [hdrop ts h, hdrop _ fun t ht => h t (List.mem_reverse.1 ht), List.reverse_reverse]

end Text

/-! ## Cutting -/

section Cut

variable {token : List Char} {ts left right : List Lexeme} {c : Char}

theorem eq_of_cutLexemes (h : cutLexemes token ts = some (left, right)) :
    ts = left ++ (token.map plain ++ right) := by
  induction ts generalizing left right with
  | nil => simp [cutLexemes] at h
  | cons t ts ih =>
    unfold cutLexemes at h
    split_ifs at h with htoken
    · obtain ⟨rest, hrest⟩ := htoken
      obtain ⟨rfl, rfl⟩ := Prod.mk.inj (Option.some.inj h)
      rw [← hrest, List.nil_append, List.drop_left' (by simp)]
    · obtain ⟨parts, hparts, hcut⟩ := Option.map_eq_some_iff.1 h
      obtain ⟨rfl, rfl⟩ := Prod.mk.inj hcut
      rw [ih (by rw [hparts]), List.cons_append]

theorem cutLexemes_append (hleft : plain c ∉ left) :
    cutLexemes (c :: token) (left ++ ((c :: token).map plain ++ right)) = some (left, right) := by
  induction left with
  | nil =>
    rw [List.nil_append, List.map_cons, List.cons_append, cutLexemes,
      if_pos (by rw [List.map_cons]; exact ⟨right, rfl⟩)]
    simp [List.drop_left']
  | cons t left ih =>
    obtain ⟨hne, hleft⟩ := not_or.1 (mt List.mem_cons.2 hleft)
    have htoken : ¬(c :: token).map plain <+: t :: (left ++ ((c :: token).map plain ++ right)) := by
      rw [List.map_cons, List.cons_prefix_cons]
      exact fun h => hne h.1
    rw [List.cons_append, cutLexemes, if_neg htoken, ih hleft]
    rfl

end Cut

/-! ## Splitting -/

section Split

variable {sep : Char} {t : Lexeme} {ts us part : List Lexeme} {parts words : List (List Lexeme)}

theorem mem_of_splitLexemesFrom {depth : ℕ} (h : splitLexemesFrom sep depth part ts = some parts) :
    ∀ p ∈ parts, ∀ u ∈ p, u ∈ part ∨ u ∈ ts := by
  induction ts generalizing depth part parts with
  | nil =>
    unfold splitLexemesFrom at h
    split_ifs at h
    cases h
    intro p hp u hu
    rw [List.mem_singleton.1 hp] at hu
    exact .inl hu
  | cons t ts ih =>
    have hkeep : ∀ {depth : ℕ} {parts : List (List Lexeme)},
        splitLexemesFrom sep depth (part ++ [t]) ts = some parts →
        ∀ p ∈ parts, ∀ u ∈ p, u ∈ part ∨ u ∈ t :: ts := by
      intro depth parts h p hp u hu
      rcases ih h p hp u hu with hpart | hlater
      · rcases List.mem_append.1 hpart with hpart | hlast
        · exact .inl hpart
        · exact .inr (List.mem_cons.2 (.inl (List.mem_singleton.1 hlast)))
      · exact .inr (List.mem_cons_of_mem _ hlater)
    unfold splitLexemesFrom at h
    split_ifs at h
    · exact hkeep h
    · exact hkeep h
    · obtain ⟨tail, htail, rfl⟩ := Option.map_eq_some_iff.1 h
      refine List.forall_mem_cons.2 ⟨fun u hu => .inl hu, fun p hp u hu => ?_⟩
      have hlater := (ih htail p hp u hu).resolve_left (by simp)
      exact .inr (List.mem_cons_of_mem _ hlater)
    · exact hkeep h

theorem mem_of_splitLexemes (h : splitLexemes sep ts = some parts) :
    ∀ p ∈ parts, ∀ u ∈ p, u ∈ ts := by
  intro p hp u hu
  exact (mem_of_splitLexemesFrom h p hp u hu).resolve_left (by simp)

/-- Outside and inside parentheses the list is kept in one part. -/
def IsWhole (sep : Char) (ts : List Lexeme) : Prop :=
  ∀ depth part rest, splitLexemesFrom sep depth part (ts ++ rest) =
    splitLexemesFrom sep depth (part ++ ts) rest

/-- Inside parentheses the list is kept in one part. -/
def IsNested (sep : Char) (ts : List Lexeme) : Prop :=
  ∀ depth part rest, splitLexemesFrom sep (depth + 1) part (ts ++ rest) =
    splitLexemesFrom sep (depth + 1) (part ++ ts) rest

theorem IsWhole.isNested (h : IsWhole sep ts) : IsNested sep ts :=
  fun depth => h (depth + 1)

theorem IsWhole.append (hts : IsWhole sep ts) (hus : IsWhole sep us) : IsWhole sep (ts ++ us) := by
  intro depth part rest
  rw [List.append_assoc, hts, hus, List.append_assoc]

theorem IsNested.append (hts : IsNested sep ts) (hus : IsNested sep us) :
    IsNested sep (ts ++ us) := by
  intro depth part rest
  rw [List.append_assoc, hts, hus, List.append_assoc]

theorem isWhole_of_forall
    (h : ∀ t ∈ ts, t ≠ plain '(' ∧ t ≠ plain ')' ∧ t ≠ plain sep) : IsWhole sep ts := by
  induction ts with
  | nil =>
    intro depth part rest
    rw [List.nil_append, List.append_nil]
  | cons t ts ih =>
    intro depth part rest
    obtain ⟨⟨hopen, hclose, hsep⟩, hts⟩ := List.forall_mem_cons.1 h
    rw [List.cons_append, splitLexemesFrom, if_neg hopen, if_neg hclose,
      if_neg (fun hand => hsep hand.1), ih hts, List.append_assoc, List.singleton_append]

theorem isNested_sep (hopen : sep ≠ '(') (hclose : sep ≠ ')') : IsNested sep [plain sep] := by
  intro depth part rest
  rw [List.singleton_append, splitLexemesFrom, if_neg (by simpa using hopen),
    if_neg (by simpa using hclose), if_neg (by simp)]

theorem IsNested.isWhole_parens (h : IsNested sep ts) :
    IsWhole sep (plain '(' :: (ts ++ [plain ')'])) := by
  intro depth part rest
  have hclose : plain ')' ≠ plain '(' := by decide
  rw [List.cons_append, splitLexemesFrom, if_pos rfl, List.append_assoc, h,
    List.singleton_append, splitLexemesFrom, if_neg hclose, if_pos rfl, if_neg (Nat.succ_ne_zero _),
    Nat.add_sub_cancel]
  simp only [List.append_assoc, List.cons_append, List.nil_append]

/-- The words, with a separator and a space between them. -/
def joinLexemes (sep : Char) (words : List (List Lexeme)) : List Lexeme :=
  [plain sep, plain ' '].intercalate words

theorem joinLexemes_cons (word : List Lexeme) (words : List (List Lexeme)) :
    joinLexemes sep (word :: words) =
      word ++ words.flatMap fun next => plain sep :: plain ' ' :: next := by
  induction words generalizing word with
  | nil => simp [joinLexemes]
  | cons next words ih =>
    rw [joinLexemes, List.intercalate_cons_cons, List.flatMap_cons]
    have hnext := ih next
    rw [joinLexemes] at hnext
    rw [hnext]
    simp

theorem isNested_joinLexemes (hopen : sep ≠ '(') (hclose : sep ≠ ')') (hspace : sep ≠ ' ')
    (h : ∀ word ∈ words, IsWhole sep word) :
    IsNested sep (joinLexemes sep words) := by
  have hblank : IsNested sep [plain sep, plain ' '] :=
    (isNested_sep hopen hclose).append
      (isWhole_of_forall (by simpa using hspace.symm)).isNested
  cases words with
  | nil => exact (isWhole_of_forall (by simp [joinLexemes])).isNested
  | cons word words =>
    obtain ⟨hword, hwords⟩ := List.forall_mem_cons.1 h
    rw [joinLexemes_cons]
    refine hword.isNested.append ?_
    clear h
    induction words with
    | nil => exact (isWhole_of_forall (by simp)).isNested
    | cons next words ih =>
      obtain ⟨hnext, hwords⟩ := List.forall_mem_cons.1 hwords
      exact (hblank.append hnext.isNested).append (ih hwords)

theorem splitLexemes_joinLexemes {word : List Lexeme} (hopen : sep ≠ '(') (hclose : sep ≠ ')')
    (hspace : sep ≠ ' ') (hword : IsWhole sep word) (hwords : ∀ next ∈ words, IsWhole sep next) :
    splitLexemes sep (joinLexemes sep (word :: words)) =
      some (word :: words.map (plain ' ' :: ·)) := by
  have hblank : IsWhole sep [plain ' '] := isWhole_of_forall (by simpa using hspace.symm)
  have hgeneral : ∀ (words : List (List Lexeme)) (part : List Lexeme),
      (∀ next ∈ words, IsWhole sep next) →
      splitLexemesFrom sep 0 part (words.flatMap fun next => plain sep :: plain ' ' :: next) =
        some (part :: words.map (plain ' ' :: ·)) := by
    intro words
    induction words with
    | nil => intro part _; rfl
    | cons next words ih =>
      intro part hwords
      obtain ⟨hnext, hwords⟩ := List.forall_mem_cons.1 hwords
      rw [List.flatMap_cons, List.cons_append, splitLexemesFrom, if_neg (by simpa using hopen),
        if_neg (by simpa using hclose), if_pos ⟨rfl, rfl⟩]
      have hstep := (hblank.append hnext) 0 [] (words.flatMap fun next => plain sep :: plain ' ' :: next)
      rw [List.nil_append, List.singleton_append] at hstep
      rw [hstep, ih _ hwords]
      rfl
  unfold splitLexemes
  rw [joinLexemes_cons, hword, List.nil_append, hgeneral words word hwords]

end Split

end CodeIntel.Text
