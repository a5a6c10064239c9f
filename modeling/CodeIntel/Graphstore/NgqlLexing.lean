import CodeIntel.Graphstore.Acceptance

/-!
# How nGQL reads a statement

The lexing of the database: literals in double and in single quotes with backslash
escapes, identifiers in backticks with doubled backticks, and single characters. A
text has at most one reading, and the reading of a text is the list of well quoted
lexemes with that text in which no identifier is followed by a backtick.
-/

namespace CodeIntel.Graphstore

open Text Lexeme

/-! ## The lexer -/

/-- Where the lexer stands; the body of a quoted part is what was read of it. -/
inductive LexMode where
  | code
  | literal (mark : Char) (escaped : Bool) (body : List Char)
  | identifier (body : List Char)

def lexFrom : LexMode → List Char → Option (List Lexeme)
  | .code, [] => some []
  | .code, c :: rest =>
    if c = '"' ∨ c = '\'' then lexFrom (.literal c false []) rest
    else if c = '\x60' then lexFrom (.identifier []) rest
    else (lexFrom .code rest).map (plain c :: ·)
  | .literal _ _ _, [] => none
  | .literal mark true body, c :: rest => lexFrom (.literal mark false (body ++ [c])) rest
  | .literal mark false body, c :: rest =>
    if c = '\\' then lexFrom (.literal mark true (body ++ [c])) rest
    else if c = mark then (lexFrom .code rest).map (quoted mark body :: ·)
    else lexFrom (.literal mark false (body ++ [c])) rest
  | .identifier _, [] => none
  | .identifier body, '\x60' :: '\x60' :: rest =>
    lexFrom (.identifier (body ++ ['\x60', '\x60'])) rest
  | .identifier body, c :: rest =>
    if c = '\x60' then (lexFrom .code rest).map (quoted '\x60' body :: ·)
    else lexFrom (.identifier (body ++ [c])) rest

-- the equations are generated here, once for all proofs below
attribute [local grind =] lexFrom

def lex (cs : List Char) : Option (List Lexeme) :=
  lexFrom .code cs

/-- Every backtick of the body is doubled. -/
def isDoubledBody : List Char → Bool
  | [] => true
  | '\x60' :: '\x60' :: rest => isDoubledBody rest
  | c :: rest => c ≠ '\x60' && isDoubledBody rest

/-- A lexeme that the lexer can return. -/
def WellQuoted : Lexeme → Prop
  | plain c => c ≠ '"' ∧ c ≠ '\'' ∧ c ≠ '\x60'
  | quoted mark body =>
    if mark = '\x60' then isDoubledBody body = true
    else (mark = '"' ∨ mark = '\'') ∧ isClosedBody mark false body = true

instance (t : Lexeme) : Decidable (WellQuoted t) :=
  match t with
  | plain c => inferInstanceAs (Decidable (c ≠ '"' ∧ c ≠ '\'' ∧ c ≠ '\x60'))
  | quoted mark body => inferInstanceAs (Decidable (if mark = '\x60' then isDoubledBody body = true
      else (mark = '"' ∨ mark = '\'') ∧ isClosedBody mark false body = true))

section Quoted

variable {mark : Char} {escaped : Bool} {body read rest cs : List Char} {ts : List Lexeme}

theorem lexFrom_literal (hslash : mark ≠ '\\') (h : isClosedBody mark escaped body = true) :
    lexFrom (.literal mark escaped read) (body ++ mark :: rest) =
      (lexFrom .code rest).map (quoted mark (read ++ body) :: ·) := by
  induction body generalizing escaped read with
  | nil =>
    cases escaped with
    | true => exact absurd h (by simp [isClosedBody])
    | false => simp [lexFrom, hslash]
  | cons c body ih =>
    have hread : read ++ c :: body = read ++ [c] ++ body := by simp
    cases escaped with
    | true => rw [List.cons_append, lexFrom, ih h, hread]
    | false =>
      simp only [isClosedBody] at h
      split_ifs at h with hc
      · rw [List.cons_append, lexFrom, if_pos hc, ih h, hread]
      · rw [Bool.and_eq_true, decide_eq_true_eq] at h
        rw [List.cons_append, lexFrom, if_neg hc, if_neg h.1, ih h.2, hread]

theorem exists_of_lexFrom_literal (h : lexFrom (.literal mark escaped read) cs = some ts) :
    ∃ body rest, cs = body ++ mark :: rest ∧ isClosedBody mark escaped body = true := by
  induction cs generalizing escaped read with
  | nil => cases escaped <;> simp [lexFrom] at h
  | cons c cs ih =>
    cases escaped with
    | true =>
      obtain ⟨body, rest, rfl, hbody⟩ := ih h
      exact ⟨c :: body, rest, rfl, hbody⟩
    | false =>
      rw [lexFrom] at h
      split_ifs at h with hslash hmark
      · obtain ⟨body, rest, rfl, hbody⟩ := ih h
        exact ⟨c :: body, rest, rfl, by simpa [isClosedBody, hslash] using hbody⟩
      · exact ⟨[], cs, by rw [hmark]; rfl, rfl⟩
      · obtain ⟨body, rest, rfl, hbody⟩ := ih h
        exact ⟨c :: body, rest, rfl, by simpa [isClosedBody, hslash, hmark] using hbody⟩

theorem lexFrom_identifier (h : isDoubledBody body = true) (hrest : rest.head? ≠ some '\x60') :
    lexFrom (.identifier read) (body ++ '\x60' :: rest) =
      (lexFrom .code rest).map (quoted '\x60' (read ++ body) :: ·) := by
  induction body using isDoubledBody.induct generalizing read with
  | case1 =>
    cases rest with
    | nil => simp [lexFrom]
    | cons c rest =>
      have hc : c ≠ '\x60' := by simpa using hrest
      simp [lexFrom, hc]
  | case2 body ih =>
    rw [List.cons_append, List.cons_append, lexFrom, ih h]
    simp
  | case3 c body hpair ih =>
    have hc : c ≠ '\x60' ∧ isDoubledBody body = true := by
      rw [isDoubledBody] at h
      · simpa using h
      · exact hpair
    rw [List.cons_append, lexFrom, if_neg hc.1, ih hc.2]
    · simp
    · rintro rest' rfl
      exact absurd rfl hc.1

theorem exists_of_lexFrom_identifier (h : lexFrom (.identifier read) cs = some ts) :
    ∃ body rest, cs = body ++ '\x60' :: rest ∧ isDoubledBody body = true ∧
      rest.head? ≠ some '\x60' := by
  induction cs using isDoubledBody.induct generalizing read with
  | case1 => simp [lexFrom] at h
  | case2 cs ih =>
    obtain ⟨body, rest, rfl, hbody, hrest⟩ := ih h
    exact ⟨'\x60' :: '\x60' :: body, rest, rfl, by rw [isDoubledBody, hbody], hrest⟩
  | case3 c cs hpair ih =>
    rw [lexFrom] at h
    · split_ifs at h with hc
      · refine ⟨[], cs, by rw [hc]; rfl, rfl, ?_⟩
        intro hhead
        obtain ⟨rest, rfl⟩ : ∃ rest, cs = '\x60' :: rest :=
          ⟨cs.tail, (List.cons_head?_tail hhead).symm⟩
        exact hpair rest hc rfl
      · obtain ⟨body, rest, rfl, hbody, hrest⟩ := ih h
        refine ⟨c :: body, rest, rfl, ?_, hrest⟩
        rw [isDoubledBody, hbody]
        · simpa using hc
        · rintro rest' rfl
          exact absurd rfl hc
    · exact hpair

end Quoted

/-! ## Readings -/

section Readings

variable {t : Lexeme} {ts us : List Lexeme} {cs rest : List Char}

variable {body : List Char}

theorem wellQuoted_identifier : WellQuoted (quoted '\x60' body) ↔ isDoubledBody body = true := by
  simp [WellQuoted]

theorem wellQuoted_literal {mark : Char} (hmark : mark = '"' ∨ mark = '\'') :
    WellQuoted (quoted mark body) ↔ isClosedBody mark false body = true := by
  have htick : mark ≠ '\x60' := by
    rintro rfl
    exact absurd hmark (by decide)
  simp [WellQuoted, htick, hmark]

theorem WellQuoted.mark {mark : Char} (h : WellQuoted (quoted mark body)) :
    mark = '\x60' ∨ mark = '"' ∨ mark = '\'' := by
  by_cases htick : mark = '\x60'
  · exact .inl htick
  · simp only [WellQuoted, if_neg htick] at h
    exact .inr h.1

theorem lex_text_append (ht : WellQuoted t)
    (hrest : isIdentifier t = true → rest.head? ≠ some '\x60') :
    lex (t.text ++ rest) = (lex rest).map (t :: ·) := by
  cases t with
  | plain c =>
    obtain ⟨hdouble, hsingle, htick⟩ := ht
    simp [lex, text, lexFrom, hdouble, hsingle, htick]
  | quoted mark body =>
    have hshape : (quoted mark body).text ++ rest = mark :: (body ++ mark :: rest) := by
      simp [text]
    rw [lex, hshape, lexFrom]
    rcases ht.mark with rfl | hmark
    · have hread : lexFrom (.identifier []) (body ++ '\x60' :: rest) = _ :=
        lexFrom_identifier (wellQuoted_identifier.1 ht) (hrest rfl)
      rw [if_neg (by decide), if_pos rfl, hread]
      rfl
    · have hslash : mark ≠ '\\' := by
        rintro rfl
        exact absurd hmark (by decide)
      have hread : lexFrom (.literal mark false []) (body ++ mark :: rest) = _ :=
        lexFrom_literal hslash ((wellQuoted_literal hmark).1 ht)
      rw [if_pos hmark, hread]
      rfl

theorem exists_of_lex (h : lex cs = some ts) :
    (cs = [] ∧ ts = []) ∨ ∃ t rest us, cs = t.text ++ rest ∧ WellQuoted t ∧
      (isIdentifier t = true → rest.head? ≠ some '\x60') ∧ lex rest = some us ∧ ts = t :: us := by
  cases cs with
  | nil => exact .inl ⟨rfl, (Option.some.inj h).symm⟩
  | cons c cs =>
    right
    have hfirst : ∃ t rest, c :: cs = t.text ++ rest ∧ WellQuoted t ∧
        (isIdentifier t = true → rest.head? ≠ some '\x60') := by
      rw [lex, lexFrom] at h
      split_ifs at h with hmark htick
      · obtain ⟨body, rest, rfl, hbody⟩ := exists_of_lexFrom_literal h
        refine ⟨quoted c body, rest, by simp [text], (wellQuoted_literal hmark).2 hbody, ?_⟩
        intro hident
        have htick : c = '\x60' := by simpa [isIdentifier] using hident
        exact absurd hmark (by rw [htick]; decide)
      · obtain ⟨body, rest, rfl, hbody, hrest⟩ := exists_of_lexFrom_identifier h
        subst htick
        refine ⟨quoted '\x60' body, rest, by simp [text], wellQuoted_identifier.2 hbody, ?_⟩
        exact fun _ => hrest
      · rw [not_or] at hmark
        refine ⟨plain c, cs, rfl, ⟨hmark.1, hmark.2, htick⟩, ?_⟩
        exact fun hident => absurd hident (by simp [isIdentifier])
    obtain ⟨t, rest, hcs, ht, hrest⟩ := hfirst
    rw [hcs, lex_text_append ht hrest] at h
    obtain ⟨us, hus, rfl⟩ := Option.map_eq_some_iff.1 h
    exact ⟨t, rest, us, hcs, ht, hrest, hus, rfl⟩

theorem head?_text_of_isIdentifier (ht : WellQuoted t) :
    isIdentifier t = true ↔ t.text.head? = some '\x60' := by
  cases t with
  | plain c => simpa [isIdentifier, text] using ht.2.2
  | quoted mark body => simp [isIdentifier, text]

theorem head?_ne_tick_of_separated (hts : ∀ u ∈ ts, WellQuoted u) (hsep : Separated (t :: ts))
    (hident : isIdentifier t = true) (hnil : ts = [] → rest.head? ≠ some '\x60') :
    (lexemeText ts ++ rest).head? ≠ some '\x60' := by
  cases ts with
  | nil => exact hnil rfl
  | cons u us =>
    have hu : isIdentifier u = false :=
      (List.isChain_cons_cons.1 hsep).1.resolve_left (by simp [hident])
    have hhead := (head?_text_of_isIdentifier (hts u List.mem_cons_self)).not.1 (by simp [hu])
    rw [lexemeText_cons, List.append_assoc, List.head?_append_of_ne_nil _ (text_ne_nil u)]
    exact hhead

theorem lex_lexemeText_append (hts : ∀ t ∈ ts, WellQuoted t) (hsep : Separated ts)
    (hlast : ∀ t ∈ ts.getLast?, isIdentifier t = true → rest.head? ≠ some '\x60') :
    lex (lexemeText ts ++ rest) = (lex rest).map (ts ++ ·) := by
  induction ts with
  | nil => simp
  | cons t ts ih =>
    have hlater : ∀ t ∈ ts, WellQuoted t := fun t ht => hts t (List.mem_cons_of_mem _ ht)
    have hnext : isIdentifier t = true → (lexemeText ts ++ rest).head? ≠ some '\x60' := by
      intro hident
      refine head?_ne_tick_of_separated hlater hsep hident ?_
      rintro rfl
      exact hlast t rfl hident
    have hlast' : ∀ t ∈ ts.getLast?, isIdentifier t = true → rest.head? ≠ some '\x60' := by
      intro u hu
      apply hlast u
      rw [List.getLast?_cons, Option.mem_def.1 hu]
      rfl
    rw [lexemeText_cons, List.append_assoc, lex_text_append (hts t List.mem_cons_self) hnext,
      ih hlater hsep.tail hlast', Option.map_map]
    rfl

theorem lex_eq_some_iff :
    lex cs = some ts ↔ lexemeText ts = cs ∧ (∀ t ∈ ts, WellQuoted t) ∧ Separated ts := by
  constructor
  · intro h
    induction ts generalizing cs with
    | nil =>
      rcases exists_of_lex h with ⟨rfl, -⟩ | ⟨t, rest, us, -, -, -, -, hts⟩
      · exact ⟨rfl, by simp, List.isChain_nil⟩
      · simp at hts
    | cons t ts ih =>
      rcases exists_of_lex h with ⟨-, hts⟩ | ⟨t', rest, us, rfl, ht, hrest, hus, hts⟩
      · simp at hts
      · obtain ⟨rfl, rfl⟩ := List.cons.inj hts
        obtain ⟨htext, hall, hsep⟩ := ih hus
        refine ⟨by rw [lexemeText_cons, htext], List.forall_mem_cons.2 ⟨ht, hall⟩, ?_⟩
        refine List.isChain_cons.2 ⟨fun u hu => ?_, hsep⟩
        by_contra hboth
        rw [not_or, Bool.not_eq_false, Bool.not_eq_false] at hboth
        obtain ⟨us, rfl⟩ : ∃ us, ts = u :: us := ⟨ts.tail, (List.cons_head?_tail hu).symm⟩
        have hhead := (head?_text_of_isIdentifier (hall u List.mem_cons_self)).1 hboth.2
        apply hrest hboth.1
        rw [← htext, lexemeText_cons, List.head?_append_of_ne_nil _ (text_ne_nil u), hhead]
  · rintro ⟨rfl, hall, hsep⟩
    have hread : lex (lexemeText ts ++ []) = _ :=
      lex_lexemeText_append hall hsep fun t _ _ => by simp
    rw [List.append_nil] at hread
    rw [hread]
    simp [lex, lexFrom]

end Readings

/-! ## The prefix of an INSERT -/

theorem isDoubledBody_of_notMem {body : List Char} (h : '\x60' ∉ body) :
    isDoubledBody body = true := by
  induction body using isDoubledBody.induct with
  | case1 => rfl
  | case2 body ih => exact absurd List.mem_cons_self h
  | case3 c body hpair ih =>
    rw [List.mem_cons, not_or] at h
    rw [isDoubledBody.eq_3 _ _ hpair, ih h.2, Bool.and_true, decide_eq_true_iff]
    exact Ne.symm h.1

namespace InsertKind

variable {kind : InsertKind}

theorem wellQuoted_preLexemes (hkind : kind.Inert) (hkeyword : '\'' ∉ kind.keyword.toList) :
    ∀ t ∈ kind.preLexemes, WellQuoted t := by
  obtain ⟨hinert, hnames⟩ := List.forall_mem_cons.1 hkind
  refine forall_mem_preLexemes (fun c hc => ?_) fun s hs => wellQuoted_identifier.2
    (isDoubledBody_of_notMem fun hmem => hnames s hs _ hmem (by decide))
  rcases hc with hc | hc
  · refine ⟨?_, ?_, ?_⟩
    · rintro rfl
      exact hinert _ hc (by decide)
    · rintro rfl
      exact hkeyword hc
    · rintro rfl
      exact hinert _ hc (by decide)
  · revert c
    decide

theorem getLast?_preLexemes : kind.preLexemes.getLast? = some (plain ' ') := by
  have hshape : kind.preLexemes = (("INSERT " ++ kind.keyword ++ " ").toList.map plain ++
      (quoted '\x60' kind.name.toList :: plain '(' ::
        (joinLexemes ',' (kind.props.map fun prop => [quoted '\x60' prop.toList]) ++
          ") VALUES".toList.map plain))) ++ [plain ' '] := by
    simp [preLexemes]
  rw [hshape, List.getLast?_concat]

theorem lex_pre_append (hkind : kind.Inert) (hkeyword : '\'' ∉ kind.keyword.toList)
    (rest : List Char) :
    lex (kind.pre.toList ++ rest) = (lex rest).map (kind.preLexemes ++ ·) := by
  have hsep : Separated kind.preLexemes := by
    simpa using kind.separated_preLexemes_append List.isChain_nil
  rw [← kind.lexemeText_preLexemes hkind]
  apply lex_lexemeText_append (wellQuoted_preLexemes hkind hkeyword) hsep
  intro t ht hident
  rw [getLast?_preLexemes, Option.mem_some_iff] at ht
  rw [← ht] at hident
  exact absurd hident (by decide)

end InsertKind

end CodeIntel.Graphstore
