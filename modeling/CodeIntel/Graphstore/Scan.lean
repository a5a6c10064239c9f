import CodeIntel.Text.JsonString
import CodeIntel.Text.Lexeme

/-!
# Scanning rendered statements

The validator of rendered statements takes them apart with small scanners that
skip double-quoted literals: splitting at commas outside parentheses, searching a
token, and looking for a second semicolon. On a text whose quoted parts hold none of
the characters the scanners look for, they agree with the operations on lexemes.
-/

namespace CodeIntel.Graphstore

open Text Lexeme

/-! ## Error texts -/

/-- A piece of an error text: given text, a string under `%q`, a character under `%q`. -/
inductive MessagePart where
  | text (s : String)
  | quoted (s : String)
  | rune (c : Char)
  deriving DecidableEq, Repr

abbrev Message := List MessagePart

def hexDigits (width n : ℕ) : List Char :=
  (List.range width).reverse.map fun i => Nat.digitChar (n / 16 ^ i % 16)

/-- One character of `strconv.Quote`; `isPrint` is `unicode.IsPrint`. -/
def quoteChar (isPrint : Char → Bool) (quote c : Char) : List Char :=
  if c = quote || c = '\\' then ['\\', c]
  else if isPrint c then [c]
  else if c = '\x07' then ['\\', 'a']
  else if c = '\x08' then ['\\', 'b']
  else if c = '\x0c' then ['\\', 'f']
  else if c = '\n' then ['\\', 'n']
  else if c = '\r' then ['\\', 'r']
  else if c = '\t' then ['\\', 't']
  else if c = '\x0b' then ['\\', 'v']
  else if c.toNat < 0x20 || c.toNat = 0x7f then ['\\', 'x'] ++ hexDigits 2 c.toNat
  else if c.toNat < 0x10000 then ['\\', 'u'] ++ hexDigits 4 c.toNat
  else ['\\', 'U'] ++ hexDigits 8 c.toNat

def MessagePart.render (isPrint : Char → Bool) : MessagePart → List Char
  | text s => s.toList
  | quoted s => '"' :: (s.toList.flatMap (quoteChar isPrint '"') ++ ['"'])
  | rune c => '\'' :: (quoteChar isPrint '\'' c ++ ['\''])

/-- The text of an error. -/
def Message.render (isPrint : Char → Bool) (message : Message) : String :=
  String.ofList (message.flatMap (MessagePart.render isPrint))

/-- `errors.New`. -/
def failure {α : Type} (text : String) : Except Message α :=
  .error [.text text]

/-- `json.SyntaxError.Error`. -/
def jsonMessage : JsonError → Message
  | .unexpectedEnd => [.text "unexpected end of JSON input"]
  | .invalidCharacter c context => [.text "invalid character ", .rune c, .text (" " ++ context)]

/-! ## The scanners -/

/-- `inString` and `escaped` of the loops; the second one is only set inside strings. -/
inductive ScanMode where
  | outside | inString | escaped
  deriving DecidableEq, Repr

def ScanMode.step : ScanMode → Char → ScanMode
  | outside, c => if c = '"' then inString else outside
  | inString, c => if c = '\\' then escaped else if c = '"' then outside else inString
  | escaped, _ => inString

/-- The tracking of strings that opens every loop: each character with whether the loop
reaches its own cases for it. -/
def scanStrings : ScanMode → List Char → List (Char × Bool)
  | _, [] => []
  | mode, c :: rest => (c, mode = .outside && c ≠ '"') :: scanStrings (mode.step c) rest

/-- `splitTopLevel` after the tracking of strings; `part` is what was read since the last
separator, in reverse. -/
def splitMarked (sep : Char) (terminated : Bool) :
    ℕ → List Char → List (Char × Bool) → Except Message (List (List Char))
  | depth, part, [] =>
    if !terminated || depth ≠ 0 then failure "unterminated string or tuple"
    else
      let last := trimSpaceChars part.reverse
      if last = [] then failure "empty trailing part" else .ok [last]
  | depth, part, (c, code) :: rest =>
    if code && c = '(' then splitMarked sep terminated (depth + 1) (c :: part) rest
    else if code && c = ')' then
      if depth = 0 then failure "unbalanced parentheses"
      else splitMarked sep terminated (depth - 1) (c :: part) rest
    else if code && c = sep && depth = 0 then
      let part := trimSpaceChars part.reverse
      if part = [] then failure "empty top-level part"
      else (splitMarked sep terminated 0 [] rest).map (part :: ·)
    else splitMarked sep terminated depth (c :: part) rest

def splitTopLevel (s : List Char) (sep : Char) : Except Message (List (List Char)) :=
  splitMarked sep (s.foldl ScanMode.step .outside = .outside) 0 [] (scanStrings .outside s)

/-- The first position outside strings at which the token stands. -/
def indexMarked (token : List Char) : List (Char × Bool) → Option ℕ
  | [] => none
  | (c, code) :: rest =>
    if code && token.isPrefixOf (c :: rest.map Prod.fst) then some 0
    else (indexMarked token rest).map (· + 1)

def indexOutside (s : List Char) (needle : Char) : Except Message ℕ :=
  match indexMarked [needle] (scanStrings .outside s) with
  | some i => .ok i
  | none => .error [.text "missing ", .rune needle, .text " outside string"]

def indexTokenOutside (s : List Char) (token : String) : Except Message ℕ :=
  if token = "" then failure "empty token"
  else match indexMarked token.toList (scanStrings .outside s) with
    | some i => .ok i
    | none => .error [.text "missing ", .quoted token, .text " outside string"]

def parseStringLiteral (raw : List Char) : Except Message String :=
  if raw.head? ≠ some '"' ∨ raw.getLast? ≠ some '"' then
    .error [.text "not a string literal: ", .text (String.ofList raw)]
  else (unmarshalString raw.tail).mapError jsonMessage

/-- The states of `validateSingleTerminatedStatement`. -/
inductive StatementMode where
  | code | inString | escaped | inIdent
  deriving DecidableEq, Repr

/-- The loop of `validateSingleTerminatedStatement`. At a doubled backtick it goes on to
the second one, which then closes the identifier. -/
def scanStatement : StatementMode → List Char → Except Message StatementMode
  | mode, [] => .ok mode
  | .escaped, _ :: rest => scanStatement .inString rest
  | .inString, c :: rest =>
    scanStatement (if c = '\\' then .escaped else if c = '"' then .code else .inString) rest
  | .inIdent, c :: rest =>
    scanStatement (if c = '\x60' && rest.head? ≠ some '\x60' then .code else .inIdent) rest
  | .code, c :: rest =>
    if c = ';' then failure "statement contains an extra top-level semicolon"
    else scanStatement
      (if c = '"' then .inString else if c = '\x60' then .inIdent else .code) rest

def validateSingleTerminatedStatement (stmt : List Char) : Except Message Unit :=
  if trimSpaceChars stmt ≠ stmt then failure "statement has leading or trailing whitespace"
  else if stmt.getLast? ≠ some ';' then failure "statement must terminate with semicolon"
  else match scanStatement .code stmt.dropLast with
    | .error e => .error e
    | .ok mode =>
      if mode = .code then .ok () else failure "unterminated quoted literal or identifier"

theorem scanStatement_code_append {cs rest : List Char}
    (h : ∀ c ∈ cs, c ≠ ';' ∧ c ≠ '"' ∧ c ≠ '\x60') :
    scanStatement .code (cs ++ rest) = scanStatement .code rest := by
  induction cs with
  | nil => rfl
  | cons c cs ih =>
    obtain ⟨⟨hsemi, hquote, htick⟩, hcs⟩ := List.forall_mem_cons.1 h
    rw [List.cons_append, scanStatement, if_neg hsemi, if_neg hquote, if_neg htick]
    exact ih hcs

/-! ## Lexemes the scanners read as they are -/

/-- The characters the scanners look for. -/
def scanned : List Char := ['"', '\x60', ';', ',', '(', ')', ':', '>', '@']

/-- The scanners skip double-quoted literals and no others: any other quoted part is
read as intended if it holds none of the characters they look for. -/
def Legible : Lexeme → Prop
  | plain c => c ≠ '"' ∧ c ≠ '\x60'
  | quoted mark body =>
    if mark = '"' then isClosedBody '"' false body = true
    else (mark = '\'' ∨ mark = '\x60') ∧ ∀ c ∈ body, c ∉ scanned

instance (t : Lexeme) : Decidable (Legible t) :=
  match t with
  | plain c => inferInstanceAs (Decidable (c ≠ '"' ∧ c ≠ '\x60'))
  | quoted mark body => inferInstanceAs (Decidable (if mark = '"' then
      isClosedBody '"' false body = true
      else (mark = '\'' ∨ mark = '\x60') ∧ ∀ c ∈ body, c ∉ scanned))

/-- The characters that change how the scanners read the text after them. -/
def disruptive : List Char := ['"', '\x60', ',', '(', ')']

/-- Splitting keeps the lexeme in one piece, whatever it makes of the characters inside. -/
def Tame : Lexeme → Prop
  | plain c => c ≠ '"'
  | quoted mark body =>
    if mark = '"' then isClosedBody '"' false body = true
    else (mark = '\'' ∨ mark = '\x60') ∧ ∀ c ∈ body, c ∉ disruptive

variable {ts : List Lexeme}

section Marks

variable {t : Lexeme} {body rest : List Char} {mark c : Char}

theorem legible_literal : Legible (quoted '"' body) ↔ isClosedBody '"' false body = true := by
  simp [Legible]

theorem Legible.inert (h : Legible (quoted mark body)) (hmark : mark ≠ '"') :
    (mark = '\'' ∨ mark = '\x60') ∧ ∀ c ∈ body, c ∉ scanned := by
  simpa only [Legible, if_neg hmark] using h

theorem tame_literal : Tame (quoted '"' body) ↔ isClosedBody '"' false body = true := by
  simp [Tame]

theorem Tame.notMem_disruptive (h : Tame (quoted mark body)) (hmark : mark ≠ '"') :
    (mark = '\'' ∨ mark = '\x60') ∧ ∀ c ∈ body, c ∉ disruptive := by
  simpa only [Tame, if_neg hmark] using h

theorem Legible.tame (h : Legible t) : Tame t := by
  cases t with
  | plain c => exact h.1
  | quoted mark body =>
    by_cases hmark : mark = '"'
    · subst hmark
      exact tame_literal.2 (legible_literal.1 h)
    · obtain ⟨hquote, hbody⟩ := h.inert hmark
      have hsub : ∀ c ∈ disruptive, c ∈ scanned := by decide
      simp only [Tame, if_neg hmark]
      exact ⟨hquote, fun c hc hmem => hbody c hc (hsub c hmem)⟩

theorem Tame.framed (h : Tame t) : t.Framed := by
  cases t with
  | plain c => trivial
  | quoted mark body =>
    change isSpace mark = false
    by_cases hmark : mark = '"'
    · rw [hmark]
      decide
    · rcases (h.notMem_disruptive hmark).1 with rfl | rfl <;> decide

theorem Legible.framed (h : Legible t) : t.Framed := h.tame.framed

/-- How the loops see a lexeme. -/
def marks : Lexeme → List (Char × Bool)
  | plain c => [(c, true)]
  | quoted mark body => (mark :: (body ++ [mark])).map fun c => (c, mark ≠ '"')

theorem map_fst_marks (t : Lexeme) : (marks t).map Prod.fst = t.text := by
  cases t with
  | plain c => rfl
  | quoted mark body => simp [marks, text, Function.comp_def]

theorem map_fst_flatMap_marks (ts : List Lexeme) :
    (ts.flatMap marks).map Prod.fst = lexemeText ts := by
  induction ts with
  | nil => rfl
  | cons t ts ih => rw [List.flatMap_cons, List.map_append, map_fst_marks, ih, lexemeText_cons]

/-- The mode inside a literal. -/
def stringMode (escaped : Bool) : ScanMode := if escaped then .escaped else .inString

/-- Up to its closing quote a literal is skipped; the induction carries along whether the
next character is escaped. -/
theorem scanStrings_closedBody {escaped : Bool} (h : isClosedBody '"' escaped body = true)
    (rest : List Char) :
    scanStrings (stringMode escaped) (body ++ '"' :: rest) =
        (body ++ ['"']).map (fun c => (c, false)) ++ scanStrings .outside rest ∧
      (body ++ ['"']).foldl ScanMode.step (stringMode escaped) = .outside := by
  induction body generalizing escaped with
  | nil =>
    cases escaped with
    | true => exact absurd h (by simp [isClosedBody])
    | false => exact ⟨rfl, rfl⟩
  | cons c body ih =>
    have hnext : ∃ next, (stringMode escaped).step c = stringMode next ∧
        isClosedBody '"' next body = true := by
      cases escaped with
      | true => exact ⟨false, rfl, h⟩
      | false =>
        simp only [isClosedBody] at h
        split_ifs at h with hslash
        · exact ⟨true, by rw [hslash]; rfl, h⟩
        · rw [Bool.and_eq_true, decide_eq_true_eq] at h
          exact ⟨false, by simp [stringMode, ScanMode.step, hslash, h.1], h.2⟩
    obtain ⟨next, hstep, hbody⟩ := hnext
    obtain ⟨hscan, hmode⟩ := ih hbody
    have hinside : stringMode escaped ≠ .outside := by cases escaped <;> decide
    constructor
    · rw [List.cons_append, scanStrings, hstep, hscan]
      simp [hinside]
    · rw [List.cons_append, List.foldl_cons, hstep, hmode]

theorem scanStrings_plain {word : List Char} (h : '"' ∉ word) (rest : List Char) :
    scanStrings .outside (word ++ rest) =
        word.map (fun c => (c, true)) ++ scanStrings .outside rest ∧
      word.foldl ScanMode.step .outside = .outside := by
  induction word with
  | nil => exact ⟨rfl, rfl⟩
  | cons c word ih =>
    obtain ⟨hc, hword⟩ := not_or.1 (mt List.mem_cons.2 h)
    obtain ⟨hscan, hmode⟩ := ih hword
    simp [scanStrings, ScanMode.step, Ne.symm hc, hscan, hmode]

theorem notMem_text (hmark : mark = '\'' ∨ mark = '\x60') (hbody : c ∉ body) (hquote : c ≠ '\'')
    (htick : c ≠ '\x60') : c ∉ (quoted mark body).text := by
  intro hmem
  have hcases : c = mark ∨ c ∈ body := by
    simpa [text, or_comm, or_assoc] using hmem
  rcases hcases with rfl | hin
  · exact hmark.elim hquote htick
  · exact hbody hin

theorem notMem_text_of_inert (hmark : mark = '\'' ∨ mark = '\x60') (hbody : ∀ c ∈ body, c ∉ scanned)
    (hc : c ∈ scanned) (htick : c ≠ '\x60') : c ∉ (quoted mark body).text := by
  refine notMem_text hmark (fun hin => hbody c hin hc) ?_ htick
  rintro rfl
  exact absurd hc (by decide)

theorem Tame.notMem_text (h : Tame (quoted mark body)) (hmark : mark ≠ '"') (hc : c ∈ disruptive)
    (htick : c ≠ '\x60') : c ∉ (quoted mark body).text := by
  obtain ⟨hquote, hbody⟩ := h.notMem_disruptive hmark
  refine Graphstore.notMem_text hquote (fun hin => hbody c hin hc) ?_ htick
  rintro rfl
  exact absurd hc (by decide)

theorem scanStrings_text (h : Tame t) (rest : List Char) :
    scanStrings .outside (t.text ++ rest) = marks t ++ scanStrings .outside rest ∧
      t.text.foldl ScanMode.step .outside = .outside := by
  cases t with
  | plain c =>
    have hc : '"' ∉ [c] := by simpa using Ne.symm h
    exact scanStrings_plain hc rest
  | quoted mark body =>
    by_cases hmark : mark = '"'
    · subst hmark
      have hclosed := scanStrings_closedBody (tame_literal.1 h)
      constructor
      · have hscan := (hclosed rest).1
        simp only [stringMode, Bool.false_eq_true, if_false] at hscan
        simp [text, marks, scanStrings, ScanMode.step, hscan]
      · exact (hclosed []).2
    · have hquote : '"' ∉ (quoted mark body).text := h.notMem_text hmark (by decide) (by decide)
      have hmarks : marks (quoted mark body) = (quoted mark body).text.map fun c => (c, true) := by
        simp [marks, text, hmark]
      rw [hmarks]
      exact scanStrings_plain hquote rest

theorem scanStrings_lexemeText (h : ∀ t ∈ ts, Tame t) :
    scanStrings .outside (lexemeText ts) = ts.flatMap marks ∧
      (lexemeText ts).foldl ScanMode.step .outside = .outside := by
  induction ts with
  | nil => exact ⟨rfl, rfl⟩
  | cons t ts ih =>
    obtain ⟨ht, hts⟩ := List.forall_mem_cons.1 h
    obtain ⟨hscan, hmode⟩ := ih hts
    obtain ⟨htext, htmode⟩ := scanStrings_text ht (lexemeText ts)
    rw [lexemeText_cons, htext, hscan, List.foldl_append, htmode, hmode]
    exact ⟨rfl, rfl⟩

/-- The loops have nothing to do for a word: it is quoted, or holds none of their characters. -/
def Passive (word : List (Char × Bool)) : Prop :=
  ∀ p ∈ word, p.2 = true → p.1 ∉ ['(', ')', ',']

theorem passive_marks_quoted (h : Tame (quoted mark body)) :
    Passive (marks (quoted mark body)) := by
  rintro ⟨c, code⟩ hmem hcode hc
  simp only [marks, List.mem_map] at hmem
  obtain ⟨c', hc', heq⟩ := hmem
  obtain ⟨rfl, rfl⟩ := Prod.mk.inj heq
  by_cases hmark : mark = '"'
  · simp [hmark] at hcode
  · have hdisruptive : c' ∈ disruptive ∧ c' ≠ '\x60' := by
      simp only [List.mem_cons, List.not_mem_nil, or_false] at hc
      rcases hc with rfl | rfl | rfl <;> decide
    exact h.notMem_text hmark hdisruptive.1 hdisruptive.2 hc'

theorem splitMarked_passive {sep : Char} {terminated : Bool} {word : List (Char × Bool)}
    (hsep : sep = ',') (h : Passive word) (depth : ℕ) (part : List Char)
    (rest : List (Char × Bool)) :
    splitMarked sep terminated depth part (word ++ rest) =
      splitMarked sep terminated depth ((word.map Prod.fst).reverse ++ part) rest := by
  subst hsep
  induction word generalizing part with
  | nil => rfl
  | cons p word ih =>
    obtain ⟨c, code⟩ := p
    obtain ⟨hfirst, hword⟩ := List.forall_mem_cons.1 h
    have hnone : ∀ d ∈ ['(', ')', ','], (code && decide (c = d)) = false := by
      intro d hd
      cases code with
      | false => rfl
      | true => simpa using fun heq : c = d => hfirst rfl (heq ▸ hd)
    rw [List.cons_append]
    simp only [splitMarked, hnone '(' (by decide), hnone ')' (by decide), hnone ',' (by decide),
      Bool.false_and, Bool.false_eq_true, if_false]
    rw [ih hword]
    simp

end Marks

/-! ## Splitting -/

section Split

variable {rows : List (List Char)}

/-- The parts as the scanner returns them. -/
def trimmedTexts (parts : List (List Lexeme)) : List (List Char) :=
  parts.map fun part => lexemeText (trimLexemes part)

/-- The parts as the scanner returns them, if none is blank. -/
def checkedTexts (parts : List (List Lexeme)) : Option (List (List Char)) :=
  if ∀ part ∈ parts, trimLexemes part ≠ [] then some (trimmedTexts parts) else none

theorem checkedTexts_cons (part : List Lexeme) (parts : List (List Lexeme)) :
    checkedTexts (part :: parts) = if trimLexemes part = [] then none
      else (checkedTexts parts).map (lexemeText (trimLexemes part) :: ·) := by
  by_cases hempty : trimLexemes part = []
  · simp [checkedTexts, hempty]
  · simp [checkedTexts, hempty, trimmedTexts, apply_ite]

theorem toOption_map {ε α β : Type} (f : α → β) (x : Except ε α) :
    (x.map f).toOption = x.toOption.map f := by
  cases x <;> rfl

theorem toOption_splitMarked (hts : ∀ t ∈ ts, Tame t) (part : List Lexeme)
    (hpart : ∀ t ∈ part, Tame t) (depth : ℕ) :
    (splitMarked ',' true depth (lexemeText part).reverse (ts.flatMap marks)).toOption =
      (splitLexemesFrom ',' depth part ts).bind checkedTexts := by
  induction ts generalizing depth part with
  | nil =>
    have htrim := trimSpaceChars_lexemeText fun t ht => (hpart t ht).framed
    simp only [List.flatMap_nil, splitMarked, splitLexemesFrom, List.reverse_reverse, htrim,
      lexemeText_eq_nil]
    by_cases hdepth : depth = 0
    · by_cases hempty : trimLexemes part = [] <;>
        simp [hdepth, hempty, failure, checkedTexts, trimmedTexts, Except.toOption]
    · simp [hdepth, failure, Except.toOption]
  | cons t ts ih =>
    obtain ⟨ht, hrest⟩ := List.forall_mem_cons.1 hts
    have hgo := ih hrest (part ++ [t]) (List.forall_mem_append.2 ⟨hpart, by simpa using ht⟩)
    rw [List.flatMap_cons]
    cases t with
    | quoted mark body =>
      have hacc : ((marks (quoted mark body)).map Prod.fst).reverse ++ (lexemeText part).reverse =
          (lexemeText (part ++ [quoted mark body])).reverse := by
        rw [map_fst_marks, ← List.reverse_append, lexemeText_append]
        simp
      rw [splitMarked_passive rfl (passive_marks_quoted ht), hacc, hgo]
      simp [splitLexemesFrom]
    | plain c =>
      have htrim := trimSpaceChars_lexemeText fun t ht => (hpart t ht).framed
      have hacc : c :: (lexemeText part).reverse = (lexemeText (part ++ [plain c])).reverse := by
        simp [text]
      simp only [marks, List.singleton_append, splitMarked, splitLexemesFrom, Bool.true_and,
        decide_eq_true_eq, Bool.and_eq_true, plain.injEq, List.reverse_reverse, htrim,
        lexemeText_eq_nil, hacc]
      split_ifs with _ _ _ _ hempty
      · exact hgo _
      · rfl
      · exact hgo _
      · simp [Option.bind_map, Function.comp_def, checkedTexts_cons, hempty, failure,
          Except.toOption]
      · have hnil := ih hrest [] (by simp) 0
        rw [lexemeText_nil, List.reverse_nil] at hnil
        rw [toOption_map, hnil, Option.bind_map]
        simp [Function.comp_def, checkedTexts_cons, hempty, Option.map_bind]
      · exact hgo _

theorem splitTopLevel_eq_ok (hts : ∀ t ∈ ts, Tame t) :
    splitTopLevel (lexemeText ts) ',' = .ok rows ↔
      ∃ parts, splitLexemes ',' ts = some parts ∧
        (∀ part ∈ parts, trimLexemes part ≠ []) ∧ rows = trimmedTexts parts := by
  obtain ⟨hscan, hmode⟩ := scanStrings_lexemeText hts
  have hsplit := toOption_splitMarked hts [] (by simp) 0
  have hok : ∀ {x : Except Message (List (List Char))}, x = .ok rows ↔ x.toOption = some rows := by
    intro x
    cases x <;> simp [Except.toOption]
  unfold splitTopLevel splitLexemes
  rw [hscan, hmode, hok]
  refine (Eq.congr_left hsplit).trans ?_
  simp [Option.bind_eq_some_iff, checkedTexts, eq_comm (a := rows)]

end Split

/-! ## Searching -/

section Search

variable {token : List Char}

/-- A token the scanners look for: it has a character of theirs and no quote. -/
def IsToken (token : List Char) : Prop :=
  (∃ c ∈ token, c ∈ scanned) ∧ ∀ c ∈ token, c ≠ '"' ∧ c ≠ '\'' ∧ c ≠ '\x60'

instance : Decidable (IsToken token) := inferInstanceAs (Decidable (_ ∧ _))

theorem IsToken.ne_nil (h : IsToken token) : token ≠ [] := by
  rintro rfl
  obtain ⟨c, hc, -⟩ := h.1
  simp at hc

theorem isPrefix_lexemeText_iff (htoken : ∀ c ∈ token, c ≠ '"' ∧ c ≠ '\'' ∧ c ≠ '\x60')
    (hts : ∀ t ∈ ts, Tame t) : token <+: lexemeText ts ↔ token.map plain <+: ts := by
  induction token generalizing ts with
  | nil => simp
  | cons c token ih =>
    cases ts with
    | nil => simp
    | cons t ts =>
      obtain ⟨hc, htoken⟩ := List.forall_mem_cons.1 htoken
      obtain ⟨ht, hts⟩ := List.forall_mem_cons.1 hts
      have hrest := ih htoken hts
      cases t with
      | plain d =>
        rw [lexemeText_cons, text, List.singleton_append, List.cons_prefix_cons, List.map_cons,
          List.cons_prefix_cons, hrest, plain.injEq]
      | quoted mark body =>
        -- a token does not begin with a quote
        have hmark : c ≠ mark := by
          rintro rfl
          exact (ht.notMem_disruptive hc.1).1.elim hc.2.1 hc.2.2
        rw [lexemeText_cons, text, List.cons_append, List.cons_prefix_cons, List.map_cons,
          List.cons_prefix_cons]
        simp [hmark]

/-- Where no occurrence of the token begins in a word, the search goes on behind it. -/
theorem indexMarked_append {word rest : List (Char × Bool)}
    (h : ∀ p later, p :: later <:+ word → p.2 = true →
      ¬token <+: p.1 :: (later ++ rest).map Prod.fst) :
    indexMarked token (word ++ rest) = (indexMarked token rest).map (· + word.length) := by
  induction word with
  | nil => simp
  | cons p word ih =>
    have hstart := h p word (List.suffix_refl _)
    rw [List.cons_append, indexMarked, if_neg (by simpa using hstart),
      ih fun p later hlater => h p later (hlater.trans (List.suffix_cons _ _)), Option.map_map]
    rfl

/-- The token does not begin in the lexeme, unless that is a literal. -/
def Skips (token : List Char) : Lexeme → Prop
  | plain _ => True
  | quoted mark body => mark ≠ '"' → ∃ c ∈ token, c ∉ body

theorem IsToken.skips {t : Lexeme} (htoken : IsToken token) (h : Legible t) : Skips token t := by
  cases t with
  | plain c => trivial
  | quoted mark body =>
    intro hmark
    obtain ⟨c, hc, hscanned⟩ := htoken.1
    exact ⟨c, hc, fun hmem => (h.inert hmark).2 c hmem hscanned⟩

theorem indexMarked_quoted {mark : Char} {body : List Char}
    (htoken : ∀ c ∈ token, c ≠ '"' ∧ c ≠ '\'' ∧ c ≠ '\x60') (ht : Tame (quoted mark body))
    (hskips : Skips token (quoted mark body)) (rest : List (Char × Bool)) :
    indexMarked token (marks (quoted mark body) ++ rest) =
      (indexMarked token rest).map (· + (quoted mark body).text.length) := by
  have hlength : (marks (quoted mark body)).length = (quoted mark body).text.length := by
    rw [← map_fst_marks, List.length_map]
  rw [← hlength]
  refine indexMarked_append fun p later hlater hcode hfound => ?_
  have htext := hlater.map Prod.fst
  rw [map_fst_marks] at htext
  have hmark : mark ≠ '"' := by
    obtain ⟨c, -, rfl⟩ := List.mem_map.1 (hlater.subset List.mem_cons_self)
    simpa using hcode
  obtain ⟨hquote, -⟩ := ht.notMem_disruptive hmark
  rw [List.map_append, ← List.cons_append, ← List.map_cons] at hfound
  -- the token stands within the lexeme, or it reaches behind the closing quote
  rcases List.prefix_or_prefix_of_prefix hfound (List.prefix_append _ _) with h | h
  · obtain ⟨c, hc, hbody⟩ := hskips hmark
    obtain ⟨-, hsingle, htick⟩ := htoken c hc
    exact notMem_text hquote hbody hsingle htick (htext.subset (h.subset hc))
  · have hlast : ((p :: later).map Prod.fst).getLast (by simp) = mark :=
      (htext.getLast (by simp)).trans (by simp [text])
    have hmem := h.subset (List.getLast_mem (by simp))
    rw [hlast] at hmem
    obtain ⟨-, hsingle, htick⟩ := htoken mark hmem
    exact hquote.elim hsingle htick

theorem indexMarked_of_skips (hne : token ≠ [])
    (htoken : ∀ c ∈ token, c ≠ '"' ∧ c ≠ '\'' ∧ c ≠ '\x60') (hts : ∀ t ∈ ts, Tame t)
    (hskips : ∀ t ∈ ts, Skips token t) :
    indexMarked token (ts.flatMap marks) =
      (cutLexemes token ts).map fun parts => (lexemeText parts.1).length := by
  induction ts with
  | nil => rfl
  | cons t ts ih =>
    have hstart := isPrefix_lexemeText_iff htoken hts
    obtain ⟨ht, hlater⟩ := List.forall_mem_cons.1 hts
    obtain ⟨hskip, hlaterSkips⟩ := List.forall_mem_cons.1 hskips
    rw [List.flatMap_cons, cutLexemes]
    cases t with
    | plain c =>
      rw [lexemeText_cons, text, List.singleton_append] at hstart
      simp only [marks, List.singleton_append, indexMarked, Bool.true_and,
        List.isPrefixOf_iff_prefix, map_fst_flatMap_marks, hstart]
      split_ifs with hfound
      · rfl
      · rw [ih hlater hlaterSkips, Option.map_map, Option.map_map]
        simp [Function.comp_def, text, Nat.add_comm]
    | quoted mark body =>
      have hfound : ¬token.map plain <+: quoted mark body :: ts := by
        obtain ⟨c, token, rfl⟩ := List.exists_cons_of_ne_nil hne
        simp
      rw [indexMarked_quoted htoken ht hskip, ih hlater hlaterSkips, if_neg hfound,
        Option.map_map, Option.map_map]
      simp [Function.comp_def, Nat.add_comm]

theorem indexMarked_flatMap_marks (htoken : IsToken token) (hts : ∀ t ∈ ts, Legible t) :
    indexMarked token (ts.flatMap marks) =
      (cutLexemes token ts).map fun parts => (lexemeText parts.1).length :=
  indexMarked_of_skips htoken.ne_nil htoken.2 (fun t ht => (hts t ht).tame) fun t ht =>
    htoken.skips (hts t ht)

end Search

end CodeIntel.Graphstore
