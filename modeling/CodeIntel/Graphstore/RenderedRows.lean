import CodeIntel.Graphstore.Rendered
import CodeIntel.Text.Delimited

/-!
# Reading rendered rows

Rows as the renderers write them, a target and a tuple of values, are lists of
lexemes the scanners can read. Splitting the values of an INSERT gives its rows, and
splitting a row gives back its target and its values, whatever characters stand in
the string literals.
-/

namespace CodeIntel.Graphstore

open Text Lexeme Graphschema

/-! ## Literals -/

/-- A string literal as a lexeme. -/
def literal (separators : Bool) (s : String) : Lexeme :=
  quoted '"' (jsonBody separators s.toList)

section Literals

variable {separators : Bool} {s : String}

@[simp] theorem text_literal : (literal separators s).text = (jsonLiteral separators s).toList := by
  rw [jsonLiteral, String.toList_ofList]
  rfl

theorem lexemeText_literal :
    lexemeText [literal separators s] = (jsonLiteral separators s).toList := by
  rw [lexemeText_cons, text_literal, lexemeText_nil, List.append_nil]

theorem parseStringLiteral_jsonLiteral :
    parseStringLiteral (jsonLiteral separators s).toList = .ok s := by
  have hlast : ('"' :: (jsonBody separators s.toList ++ ['"'])).getLast? = some '"' := by
    rw [← List.cons_append, List.getLast?_concat]
  rw [jsonLiteral, String.toList_ofList]
  unfold parseStringLiteral
  rw [if_neg (by rw [hlast]; simp), List.tail_cons, unmarshalString_jsonBody]
  rfl

end Literals

/-! ## Words -/

/-- A list of lexemes that stands in one place of a row: no space and nothing that ends it. -/
def IsWord (ts : List Lexeme) : Prop :=
  ts ≠ [] ∧ ∀ t ∈ ts, Legible t ∧ t.isSpace = false ∧
    ∀ c ∈ [',', '(', ')', ':', ';'], t ≠ plain c

section Words

variable {ts us : List Lexeme}

theorem isWord_literal {separators : Bool} {s : String} : IsWord [literal separators s] := by
  refine ⟨by simp, ?_⟩
  intro t ht
  rw [List.mem_singleton.1 ht]
  exact ⟨legible_literal.2 (isClosedBody_jsonBody _), rfl, fun c _ => by simp [literal]⟩

theorem isWord_map_plain {cs : List Char} (hne : cs ≠ [])
    (h : ∀ c ∈ cs, isSpace c = false ∧ ∀ d ∈ ['"', '\x60', ',', '(', ')', ':', ';'], c ≠ d) :
    IsWord (cs.map plain) := by
  refine ⟨by simpa using hne, ?_⟩
  intro t ht
  obtain ⟨c, hc, rfl⟩ := List.mem_map.1 ht
  obtain ⟨hspace, hnot⟩ := h c hc
  refine ⟨⟨hnot _ (by decide), hnot _ (by decide)⟩, hspace, ?_⟩
  intro d hd heq
  apply hnot d _ (plain.inj heq)
  exact List.mem_cons_of_mem _ (List.mem_cons_of_mem _ hd)

theorem IsWord.append (hts : IsWord ts) (hus : IsWord us) : IsWord (ts ++ us) := by
  exact ⟨by simp [hts.1], List.forall_mem_append.2 ⟨hts.2, hus.2⟩⟩

theorem IsWord.isWhole (h : IsWord ts) : IsWhole ',' ts := by
  apply isWhole_of_forall
  intro t ht
  have hnot := (h.2 t ht).2.2
  exact ⟨hnot _ (by decide), hnot _ (by decide), hnot _ (by decide)⟩

theorem IsWord.trim (h : IsWord ts) : trimLexemes ts = ts :=
  trimLexemes_of_forall fun t ht => (h.2 t ht).2.1

theorem IsWord.trimSpaceChars (h : IsWord ts) :
    trimSpaceChars (lexemeText ts) = lexemeText ts := by
  rw [trimSpaceChars_lexemeText fun t ht => (h.2 t ht).1.framed, h.trim]

theorem trimSpaceChars_jsonLiteral {separators : Bool} {s : String} :
    trimSpaceChars (jsonLiteral separators s).toList = (jsonLiteral separators s).toList := by
  have hword : IsWord [literal separators s] := isWord_literal
  simpa using hword.trimSpaceChars

theorem toNat_of_isNumberChar {c : Char} (h : isNumberChar c = true) :
    43 ≤ c.toNat ∧ c.toNat ≤ 101 := by
  simp only [isNumberChar, Bool.or_eq_true, decide_eq_true_eq] at h
  rcases h with (((h | rfl) | rfl) | rfl) | rfl
  · obtain ⟨hlo, hhi⟩ := Char.isDigit_iff_toNat.1 h
    exact ⟨le_trans (by decide) hlo, le_trans hhi (by decide)⟩
  all_goals decide

theorem isWord_of_isNumberText {s : String} (h : IsNumberText s) : IsWord (s.toList.map plain) := by
  apply isWord_map_plain h.1
  intro c hc
  have hnumber := h.2 c hc
  obtain ⟨hlo, hhi⟩ := toNat_of_isNumberChar hnumber
  constructor
  · simp only [Text.isSpace, Bool.or_eq_false_iff, Bool.and_eq_false_iff, decide_eq_false_iff_not]
    omega
  · intro d hd heq
    have hnone : ∀ d ∈ ['"', '\x60', ',', '(', ')', ':', ';'], isNumberChar d = false := by decide
    rw [heq, hnone d hd] at hnumber
    simp at hnumber

theorem isNumberText_toString (n : ℤ) : IsNumberText (toString n) := by
  have hdigit : ∀ c ∈ Nat.toDigits 10 n.natAbs, isNumberChar c = true := by
    intro c hc
    have := Nat.isDigit_of_mem_toDigits (by decide) (by decide) hc
    simp [isNumberChar, this]
  unfold IsNumberText
  rw [toList_toString_int]
  split_ifs
  · refine ⟨by simp, fun c hc => ?_⟩
    rcases List.mem_cons.1 hc with rfl | hc
    · decide
    · exact hdigit c hc
  · exact ⟨Nat.toDigits_ne_nil, hdigit⟩

end Words

/-! ## Rows -/

structure Row where
  target : List Lexeme
  values : List (List Lexeme)
  isWord_target : IsWord target
  values_ne_nil : values ≠ []
  isWord_value : ∀ value ∈ values, IsWord value

namespace Row

def tuple (row : Row) : List Lexeme :=
  plain '(' :: (joinLexemes ',' row.values ++ [plain ')'])

def lexemes (row : Row) : List Lexeme :=
  row.target ++ plain ':' :: plain ' ' :: row.tuple

end Row

theorem lexemeText_joinLexemes (words : List (List Lexeme)) :
    lexemeText (joinLexemes ',' words) = [',', ' '].intercalate (words.map lexemeText) := by
  cases words with
  | nil => rfl
  | cons word words =>
    rw [joinLexemes_cons, lexemeText_append, List.map_cons]
    induction words generalizing word with
    | nil => simp
    | cons next words ih =>
      rw [List.flatMap_cons, List.map_cons, List.intercalate_cons_cons, ← ih next]
      simp [text]

variable {words : List (List Lexeme)}

theorem forall_mem_joinLexemes {P : Lexeme → Prop} (hplain : ∀ c ∈ [',', ' '], P (plain c))
    (h : ∀ word ∈ words, ∀ t ∈ word, P t) :
    ∀ t ∈ joinLexemes ',' words, P t := by
  intro t ht
  cases words with
  | nil => simp [joinLexemes] at ht
  | cons word words =>
    rw [joinLexemes_cons, List.mem_append, List.mem_flatMap] at ht
    rcases ht with ht | ⟨next, hnext, ht⟩
    · exact h word List.mem_cons_self t ht
    · simp only [List.mem_cons] at ht
      rcases ht with rfl | rfl | ht
      · exact hplain _ (by simp)
      · exact hplain _ (by simp)
      · exact h next (List.mem_cons_of_mem _ hnext) t ht

theorem legible_of_mem_joinLexemes (h : ∀ word ∈ words, ∀ t ∈ word, Legible t) :
    ∀ t ∈ joinLexemes ',' words, Legible t :=
  forall_mem_joinLexemes (by decide) h

/-- Splitting a joined list of words gives the words. -/
theorem splitTopLevel_joinLexemes (hne : words ≠ [])
    (hlegible : ∀ word ∈ words, ∀ t ∈ word, Legible t) (hwhole : ∀ word ∈ words, IsWhole ',' word)
    (htrim : ∀ word ∈ words, trimLexemes word = word ∧ word ≠ []) :
    splitTopLevel (lexemeText (joinLexemes ',' words)) ',' = .ok (words.map lexemeText) := by
  obtain ⟨word, words, rfl⟩ := List.exists_cons_of_ne_nil hne
  rw [splitTopLevel_eq_ok fun t ht => (legible_of_mem_joinLexemes hlegible t ht).tame]
  obtain ⟨⟨hfirst, hne⟩, htrim⟩ := List.forall_mem_cons.1 htrim
  obtain ⟨hword, hwords⟩ := List.forall_mem_cons.1 hwhole
  have hlater : ∀ next ∈ words, trimLexemes (plain ' ' :: next) = next := fun next hnext =>
    (htrim next hnext).1
  refine ⟨_, splitLexemes_joinLexemes (by decide) (by decide) (by decide) hword hwords, ?_, ?_⟩
  · refine List.forall_mem_cons.2 ⟨by rwa [hfirst], List.forall_mem_map.2 fun next hnext => ?_⟩
    rw [hlater next hnext]
    exact (htrim next hnext).2
  · rw [trimmedTexts, List.map_cons, List.map_cons, List.map_map, hfirst]
    exact congrArg _ (List.map_congr_left fun next hnext => by simp [hlater next hnext])

namespace Row

variable (row : Row)

theorem forall_mem_lexemes {P : Lexeme → Prop} (hplain : ∀ c ∈ [':', '(', ')', ',', ' '], P (plain c))
    (hwords : ∀ word ∈ row.target :: row.values, ∀ t ∈ word, P t) : ∀ t ∈ row.lexemes, P t := by
  obtain ⟨htarget, hvalues⟩ := List.forall_mem_cons.1 hwords
  intro t ht
  simp only [lexemes, tuple, List.mem_append, List.mem_cons, List.not_mem_nil, or_false] at ht
  rcases ht with ht | rfl | rfl | rfl | ht | rfl
  · exact htarget t ht
  · exact hplain _ (by simp)
  · exact hplain _ (by simp)
  · exact hplain _ (by simp)
  · apply forall_mem_joinLexemes _ hvalues t ht
    exact fun c hc => hplain c (List.mem_of_mem_drop (show c ∈ [':', '(', ')', ',', ' '].drop 3 from hc))
  · exact hplain _ (by simp)

theorem isWord_of_mem {word : List Lexeme} (h : word ∈ row.target :: row.values) : IsWord word := by
  rcases List.mem_cons.1 h with rfl | h
  · exact row.isWord_target
  · exact row.isWord_value word h

theorem legible : ∀ t ∈ row.lexemes, Legible t :=
  row.forall_mem_lexemes (by decide) fun word hword t ht => ((row.isWord_of_mem hword).2 t ht).1

theorem isWhole : IsWhole ',' row.lexemes := by
  have hcolon : IsWhole ',' [plain ':', plain ' '] := isWhole_of_forall (by decide)
  have htuple : IsNested ',' (joinLexemes ',' row.values) :=
    isNested_joinLexemes (by decide) (by decide) (by decide)
      fun value hvalue => (row.isWord_value value hvalue).isWhole
  exact row.isWord_target.isWhole.append (hcolon.append htuple.isWhole_parens)

theorem trim : trimLexemes row.lexemes = row.lexemes := by
  obtain ⟨t, ts, hts⟩ := List.exists_cons_of_ne_nil row.isWord_target.1
  have hfirst : t.isSpace = false := (row.isWord_target.2 t (by simp [hts])).2.1
  have hclose : (plain ')').isSpace = false := by decide
  have hrow : row.lexemes =
      t :: ((ts ++ plain ':' :: plain ' ' :: plain '(' :: joinLexemes ',' row.values) ++
        [plain ')']) := by
    simp [lexemes, tuple, hts]
  rw [hrow]
  exact trimLexemes_of_ends hfirst hclose

theorem indexOutside_colon :
    indexOutside (lexemeText row.lexemes) ':' = .ok (lexemeText row.target).length := by
  have hcolon : plain ':' ∉ row.target := by
    intro hmem
    exact (row.isWord_target.2 _ hmem).2.2 ':' (by decide) rfl
  have hcut : cutLexemes [':'] row.lexemes = some (row.target, plain ' ' :: row.tuple) :=
    cutLexemes_append hcolon
  unfold indexOutside
  rw [(scanStrings_lexemeText fun t ht => (row.legible t ht).tame).1,
    indexMarked_flatMap_marks (by decide) row.legible, hcut]
  rfl

theorem take_target :
    (lexemeText row.lexemes).take (lexemeText row.target).length = lexemeText row.target := by
  rw [lexemes, lexemeText_append, List.take_left]

theorem parseInsertRowValues_eq :
    parseInsertRowValues (lexemeText row.lexemes) = .ok (row.values.map lexemeText) := by
  have hdrop : (lexemeText row.lexemes).drop ((lexemeText row.target).length + 1) =
      ' ' :: '(' :: (lexemeText (joinLexemes ',' row.values) ++ [')']) := by
    rw [lexemes, lexemeText_append, List.drop_append]
    simp [text, tuple]
  have htrim : trimSpaceChars (' ' :: '(' :: (lexemeText (joinLexemes ',' row.values) ++ [')'])) =
      '(' :: (lexemeText (joinLexemes ',' row.values) ++ [')']) := by
    have hspace : isSpace ' ' = true ∧ isSpace '(' = false ∧ isSpace ')' = false := by decide
    simp [trimSpaceChars, hspace]
  have hlast : ('(' :: (lexemeText (joinLexemes ',' row.values) ++ [')'])).getLast? = some ')' := by
    rw [← List.cons_append, List.getLast?_concat]
  unfold parseInsertRowValues
  rw [row.indexOutside_colon]
  simp only [bind, Except.bind]
  rw [hdrop, htrim, if_neg (by rw [hlast]; simp), List.tail_cons, List.dropLast_concat]
  apply splitTopLevel_joinLexemes row.values_ne_nil
  · exact fun value hvalue t ht => ((row.isWord_value value hvalue).2 t ht).1
  · exact fun value hvalue => (row.isWord_value value hvalue).isWhole
  · exact fun value hvalue => ⟨(row.isWord_value value hvalue).trim, (row.isWord_value value hvalue).1⟩

theorem ne_nil : row.lexemes ≠ [] := by
  simp [lexemes]

theorem lexemeText_lexemes {target : String} {values : List String}
    (htarget : lexemeText row.target = target.toList)
    (hvalues : row.values.map lexemeText = values.map String.toList) :
    lexemeText row.lexemes = (insertRow target values).toList := by
  simp only [lexemes, tuple, lexemeText_append, lexemeText_cons, lexemeText_nil, text,
    lexemeText_joinLexemes, hvalues, htarget, insertRow, String.toList_append,
    String.toList_intercalate]
  simp

end Row

/-! ## Edge targets -/

/-- The target of an edge row. -/
def edgeTarget (separators : Bool) (fromVid toVid : String) (rank : ℤ) : List Lexeme :=
  [literal separators fromVid] ++ (['-', '>'].map plain ++
    ([literal separators toVid] ++ (['@'].map plain ++ (toString rank).toList.map plain)))

section EdgeTargets

variable (separators : Bool) (fromVid toVid : String) (rank : ℤ)

theorem isWord_edgeTarget : IsWord (edgeTarget separators fromVid toVid rank) := by
  have harrow : IsWord (['-', '>'].map plain) := isWord_map_plain (by simp) (by decide)
  have hat : IsWord (['@'].map plain) := isWord_map_plain (by simp) (by decide)
  have hrank := isWord_of_isNumberText (isNumberText_toString rank)
  exact isWord_literal.append (harrow.append (isWord_literal.append (hat.append hrank)))

theorem lexemeText_edgeTarget :
    lexemeText (edgeTarget separators fromVid toVid rank) =
      (jsonLiteral separators fromVid ++ "->" ++ jsonLiteral separators toVid ++ "@" ++
        toString rank).toList := by
  simp only [edgeTarget, lexemeText_append, lexemeText_map_plain, lexemeText_cons, lexemeText_nil,
    text_literal, String.toList_append, List.append_nil, List.append_assoc]
  rfl

/-- A token that does not begin in the text before it is found right after it. -/
theorem exists_indexTokenOutside (token : String) {c : Char} {cs : List Char}
    {ts left right : List Lexeme} (hchars : token.toList = c :: cs) (htoken : IsToken token.toList)
    (hlegible : ∀ t ∈ ts, Legible t) (hts : ts = left ++ (token.toList.map plain ++ right))
    (hleft : plain c ∉ left) :
    ∃ i, indexTokenOutside (lexemeText ts) token = .ok i ∧
      (lexemeText ts).take i = lexemeText left ∧
        (lexemeText ts).drop (i + token.length) = lexemeText right := by
  have hne : token ≠ "" := by
    rintro rfl
    simp at hchars
  refine ⟨(lexemeText left).length, ?_, ?_, ?_⟩
  · unfold indexTokenOutside
    rw [if_neg hne, (scanStrings_lexemeText fun t ht => (hlegible t ht).tame).1,
      indexMarked_flatMap_marks htoken hlegible, hts, hchars, cutLexemes_append hleft]
    rfl
  · rw [hts, lexemeText_append, List.take_left]
  · rw [hts, lexemeText_append, lexemeText_append, lexemeText_map_plain, ← List.append_assoc,
      List.drop_left' (by simp [String.length_toList])]

theorem splitEdgeTarget_edgeTarget (targetContext rankContext : String) :
    splitEdgeTarget targetContext rankContext
        (lexemeText (edgeTarget separators fromVid toVid rank)) =
      .ok ⟨(jsonLiteral separators fromVid).toList, (jsonLiteral separators toVid).toList,
        (toString rank).toList⟩ := by
  have hlegible : ∀ t ∈ edgeTarget separators fromVid toVid rank, Legible t := fun t ht =>
    ((isWord_edgeTarget separators fromVid toVid rank).2 t ht).1
  have hlater := fun t ht => hlegible t (List.mem_append_right _ (List.mem_append_right _ ht))
  obtain ⟨i, hfrom, htakeFrom, hdropFrom⟩ :=
    exists_indexTokenOutside "->" rfl (by decide) hlegible rfl (by simp [literal])
  obtain ⟨j, hto, htakeTo, hdropTo⟩ :=
    exists_indexTokenOutside "@" rfl (by decide) hlater rfl (by simp [literal])
  have hrank := (isWord_of_isNumberText (isNumberText_toString rank)).trimSpaceChars
  rw [show "->".length = 2 from rfl] at hdropFrom
  rw [show "@".length = 1 from rfl] at hdropTo
  simp only [splitEdgeTarget, hfrom, hdropFrom, hto, htakeFrom, htakeTo, hdropTo, hrank,
    withContext, Except.mapError, bind, Except.bind, pure, Except.pure]
  simp [trimSpaceChars_jsonLiteral]

end EdgeTargets

/-! ## Statements -/

section Statements

variable (kind : InsertKind)

theorem doubleTicks_of_notMem {s : String} (h : '\x60' ∉ s.toList) : doubleTicks s = s := by
  have hmap : ∀ cs : List Char, '\x60' ∉ cs →
      (cs.flatMap fun c => if c = '\x60' then ['\x60', '\x60'] else [c]) = cs := by
    intro cs hcs
    induction cs with
    | nil => rfl
    | cons c cs ih =>
      obtain ⟨hc, hcs⟩ := not_or.1 (mt List.mem_cons.2 hcs)
      rw [List.flatMap_cons, if_neg (Ne.symm hc), ih hcs]
      rfl
  rw [doubleTicks, ← String.toList_inj, String.toList_ofList]
  exact hmap _ h

theorem quoteIdentifierLocal_eq (s : String) : quoteIdentifierLocal s = quoteIdentifier s := by
  unfold quoteIdentifier quoteIdentifierLocal
  split_ifs with htick
  · rfl
  · rw [doubleTicks_of_notMem (by simpa using htick)]

theorem insertStatement_eq (rows : List String) :
    insertStatement kind.keyword kind.name kind.props rows =
      kind.pre ++ ", ".intercalate rows ++ ";" := by
  have hquote : quoteIdentifierLocal = quoteIdentifier := funext quoteIdentifierLocal_eq
  unfold insertStatement InsertKind.pre insertPrefix
  rw [hquote]

theorem hasPrefix_pre (body : String) : hasPrefix (kind.pre ++ body ++ ";") kind.pre = true := by
  rw [hasPrefix_iff, String.toList_append, String.toList_append, List.append_assoc]
  exact List.prefix_append _ _

theorem valuesPart_append (body : String) :
    kind.valuesPart (kind.pre ++ body ++ ";") = body.toList := by
  have hdrop : (kind.pre ++ body ++ ";").toList.drop kind.pre.toList.length =
      body.toList ++ [';'] := by
    rw [String.toList_append, String.toList_append, List.append_assoc, List.drop_left]
    rfl
  unfold InsertKind.valuesPart
  rw [hdrop, if_pos List.getLast?_concat, List.dropLast_concat]

theorem keyword_isPrefix_pre : ("INSERT " ++ kind.keyword).toList <+: kind.pre.toList := by
  simp only [InsertKind.pre, insertPrefix, String.append_assoc, String.toList_append]
  exact List.prefix_append _ _

theorem not_hasPrefix_vertexInsert (body : String) :
    hasPrefix (edgeInsert.pre ++ body ++ ";") vertexInsert.pre = false := by
  have hboth : ¬"INSERT VERTEX".toList <+: "INSERT EDGE".toList ∧
      ¬"INSERT EDGE".toList <+: "INSERT VERTEX".toList := by
    decide
  rw [Bool.eq_false_iff, Ne, hasPrefix_iff]
  intro hvertex
  have hedge := hasPrefix_iff.1 (hasPrefix_pre edgeInsert body)
  exact (List.prefix_or_prefix_of_prefix ((keyword_isPrefix_pre vertexInsert).trans hvertex)
    ((keyword_isPrefix_pre edgeInsert).trans hedge)).elim hboth.1 hboth.2

theorem splitTopLevel_rows {rows : List Row} (hne : rows ≠ []) {texts : List String}
    (htexts : rows.map (fun row => lexemeText row.lexemes) = texts.map String.toList) :
    splitTopLevel (kind.valuesPart (kind.pre ++ ", ".intercalate texts ++ ";")) ',' =
      .ok (rows.map fun row => lexemeText row.lexemes) := by
  have hbody : (", ".intercalate texts).toList =
      lexemeText (joinLexemes ',' (rows.map Row.lexemes)) := by
    rw [String.toList_intercalate, ← htexts, lexemeText_joinLexemes, List.map_map]
    rfl
  have hlexemes : rows.map (fun row => lexemeText row.lexemes) =
      (rows.map Row.lexemes).map lexemeText := List.map_map.symm
  rw [valuesPart_append, hbody, hlexemes]
  apply splitTopLevel_joinLexemes (by simpa using hne)
  · exact List.forall_mem_map.2 fun row _ => row.legible
  · exact List.forall_mem_map.2 fun row _ => row.isWhole
  · exact List.forall_mem_map.2 fun row _ => ⟨row.trim, row.ne_nil⟩

theorem parseInsertRows_rows {rows : List Row} (hne : rows ≠ []) {texts : List String}
    (htexts : rows.map (fun row => lexemeText row.lexemes) = texts.map String.toList) :
    parseInsertRows (kind.valuesPart (kind.pre ++ ", ".intercalate texts ++ ";")) =
      .ok (rows.map fun row => lexemeText row.lexemes) := by
  unfold parseInsertRows
  rw [splitTopLevel_rows kind hne htexts]
  simp only [bind, Except.bind]
  rw [if_neg (by simpa using hne)]
  rfl

end Statements

end CodeIntel.Graphstore
