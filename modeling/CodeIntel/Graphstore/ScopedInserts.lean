import CodeIntel.Graphstore.NgqlLexing
import CodeIntel.Graphstore.RoundTrip

/-!
# What the database reads in an accepted statement

The scanners of the validator know double-quoted literals, and the statement loop
knows identifiers too; none of them knows single quotes, and the loop takes the second
of two backticks for the end of an identifier. Where no part in single quotes or in
backticks holds a character that disrupts them, an accepted statement is one INSERT
into the code graph in the reading of nGQL as well, and its rows are of the scope of
the payload. A quote in single quotes is enough to get a second command past them.
-/

namespace CodeIntel.Graphstore

open Relational Text Lexeme Graphschema Graph

/-! ## Statements of the scope -/

/-- The list is a double-quoted literal for the string, with blanks around it. -/
def StandsFor (ts : List Lexeme) (s : String) : Prop :=
  ∃ body, trimLexemes ts = [quoted '"' body] ∧ parseStringLiteral (quoted '"' body).text = .ok s

/-- The target of a vertex row: an identifier of the scope. -/
def IsVertexTarget (d : Digests) (input : RenderedStatementWrite) (target : List Lexeme) : Prop :=
  ∃ vid kind, StandsFor target vid ∧ ScopedVid d input vid kind

/-- The target of an edge row: two identifiers of the scope and a rank. -/
def IsEdgeTarget (d : Digests) (input : RenderedStatementWrite) (target : List Lexeme) : Prop :=
  ∃ left right rank fromVid toVid fromKind toKind,
    trimLexemes target = left ++ plain '-' :: plain '>' :: (right ++ plain '@' :: rank) ∧
    StandsFor left fromVid ∧ ScopedVid d input fromVid fromKind ∧
    StandsFor right toVid ∧ ScopedVid d input toVid toKind ∧
    ∃ n, parseRank (trimSpaceChars (lexemeText rank)) = .ok n

/-- A row: a target, a colon and a tuple with a value for each column, where the columns of
the scope have the payload's values. -/
def IsScopedRow (input : RenderedStatementWrite) (props : List String)
    (isTarget : List Lexeme → Prop) (row : List Lexeme) : Prop :=
  ∃ target tuple inner values, row = target ++ plain ':' :: tuple ∧ isTarget target ∧
    trimLexemes tuple = plain '(' :: (inner ++ [plain ')']) ∧
    splitLexemes ',' inner = some values ∧ values.length = props.length ∧
    ∀ column ∈ wantedValues input, ∀ value, (column.1, value) ∈ props.zip values →
      trimSpaceChars (lexemeText value) = column.2.toList

/-- In the reading of nGQL the statement is one INSERT, ended by its only semicolon, whose
rows are of the scope. -/
def IsScopedInsert (input : RenderedStatementWrite) (kind : InsertKind)
    (isTarget : List Lexeme → Prop) (stmt : String) : Prop :=
  ∃ values rows, lex stmt.toList = some (kind.preLexemes ++ values ++ [plain ';']) ∧
    plain ';' ∉ kind.preLexemes ++ values ∧ splitLexemes ',' values = some rows ∧ rows ≠ [] ∧
    ∀ row ∈ rows, IsScopedRow input kind.props isTarget (trimLexemes row)

/-- Every statement is a schema statement or one INSERT of the scope. -/
def OnlyScopedInserts (d : Digests) (input : RenderedStatementWrite) : Prop :=
  ∀ stmt ∈ input.statements, stmt ∈ renderSchemaStatements ∨
    IsScopedInsert input vertexInsert (IsVertexTarget d input) stmt ∨
    IsScopedInsert input edgeInsert (IsEdgeTarget d input) stmt

/-- The statement has a reading in which no part in single quotes or backticks holds a
disruptive character. -/
def ReadAlike (stmt : String) : Prop :=
  ∃ ts, lex stmt.toList = some ts ∧
    ∀ mark body, quoted mark body ∈ ts → mark ≠ '"' → ∀ c ∈ body, c ∉ disruptive

/-! ## The statement loop -/

variable {t : Lexeme}

section Loop

variable {ts : List Lexeme} {cs rest : List Char} {mode : StatementMode}

theorem tame_of_wellQuoted (ht : WellQuoted t)
    (h : ∀ mark body, t = quoted mark body → mark ≠ '"' → ∀ c ∈ body, c ∉ disruptive) : Tame t := by
  cases t with
  | plain c => exact ht.1
  | quoted mark body =>
    by_cases hmark : mark = '"'
    · subst hmark
      exact tame_literal.2 ((wellQuoted_literal (.inl rfl)).1 ht)
    · have hquote : mark = '\'' ∨ mark = '\x60' := by simpa [hmark, or_comm] using ht.mark
      simp only [Tame, if_neg hmark]
      exact ⟨hquote, h mark body rfl hmark⟩

theorem scanStatement_of_append (hcs : ∀ c ∈ cs, c ≠ '"' ∧ c ≠ '\x60')
    (h : scanStatement .code (cs ++ rest) = .ok mode) : scanStatement .code rest = .ok mode := by
  induction cs with
  | nil => exact h
  | cons c cs ih =>
    obtain ⟨⟨hquote, htick⟩, hcs⟩ := List.forall_mem_cons.1 hcs
    rw [List.cons_append, scanStatement] at h
    split_ifs at h
    · simp [failure] at h
    · exact ih hcs h

theorem scanStatement_of_text (ht : WellQuoted t) (htame : Tame t)
    (hrest : isIdentifier t = true → rest.head? ≠ some '\x60')
    (h : scanStatement .code (t.text ++ rest) = .ok mode) :
    t ≠ plain ';' ∧ scanStatement .code rest = .ok mode := by
  cases t with
  | plain c =>
    have hc : ∀ d ∈ [c], d ≠ '"' ∧ d ≠ '\x60' := by simpa using ⟨ht.1, ht.2.2⟩
    refine ⟨?_, scanStatement_of_append hc h⟩
    rintro heq
    rw [plain.inj heq, text, List.singleton_append, scanStatement, if_pos rfl] at h
    simp [failure] at h
  | quoted mark body =>
    refine ⟨by simp, ?_⟩
    rcases ht.mark with rfl | rfl | rfl
    · have htick : '\x60' ∉ body := fun hmem =>
        (htame.notMem_disruptive (by decide)).2 _ hmem (by decide)
      have hpass := scanStatement_identBody htick (hrest rfl)
      rw [← hpass]
      simpa [text, scanStatement] using h
    · have hpass : scanStatement .inString (body ++ '"' :: rest) = scanStatement .code rest :=
        scanStatement_closedBody (tame_literal.1 htame)
      rw [← hpass]
      simpa [text, scanStatement] using h
    · refine scanStatement_of_append (fun c hc => ?_) h
      have hbody := (htame.notMem_disruptive (by decide)).2
      have hcases : c = '\'' ∨ c ∈ body := by simpa [text, or_comm, or_assoc] using hc
      rcases hcases with rfl | hmem
      · decide
      · constructor <;> rintro rfl <;> exact hbody _ hmem (by decide)

theorem semicolon_notMem_of_scanStatement (hts : ∀ t ∈ ts, WellQuoted t ∧ Tame t)
    (hsep : Separated ts) (h : scanStatement .code (lexemeText ts) = .ok mode) :
    plain ';' ∉ ts := by
  induction ts with
  | nil => simp
  | cons t ts ih =>
    obtain ⟨⟨ht, htame⟩, hlater⟩ := List.forall_mem_cons.1 hts
    have hnext : isIdentifier t = true → (lexemeText ts).head? ≠ some '\x60' := by
      intro hident
      have hhead : (lexemeText ts ++ []).head? ≠ some '\x60' :=
        head?_ne_tick_of_separated (fun u hu => (hlater u hu).1) hsep hident (by simp)
      simpa using hhead
    obtain ⟨hne, hrest⟩ := scanStatement_of_text ht htame hnext h
    rw [List.mem_cons, not_or]
    exact ⟨Ne.symm hne, ih hlater hsep.tail hrest⟩

end Loop

/-! ## The view of the scanners -/

/-- A lexeme of the scanners: a character, or a double-quoted literal. -/
def IsFlat : Lexeme → Prop
  | plain c => c ≠ '"'
  | quoted mark body => mark = '"' ∧ isClosedBody '"' false body = true

/-- What the scanners make of a lexeme. -/
def view : Lexeme → List Lexeme
  | plain c => [plain c]
  | quoted mark body =>
    if mark = '"' then [quoted mark body] else (quoted mark body).text.map plain

section View

variable {ts us left right : List Lexeme} {token : List Char} {idx : ℕ}

theorem IsFlat.tame (h : IsFlat t) : Tame t := by
  cases t with
  | plain c => exact h
  | quoted mark body =>
    obtain ⟨rfl, hbody⟩ := h
    exact tame_literal.2 hbody

theorem IsFlat.skips (h : IsFlat t) : Skips token t := by
  cases t with
  | plain c => trivial
  | quoted mark body => exact fun hmark => absurd h.1 hmark

theorem lexemeText_view : lexemeText (view t) = t.text := by
  cases t with
  | plain c => rfl
  | quoted mark body =>
    rw [view]
    split_ifs
    · simp
    · exact lexemeText_map_plain _

theorem lexemeText_flatMap_view (ts : List Lexeme) :
    lexemeText (ts.flatMap view) = lexemeText ts := by
  induction ts with
  | nil => rfl
  | cons t ts ih => rw [List.flatMap_cons, lexemeText_append, lexemeText_view, ih, lexemeText_cons]

theorem isFlat_of_mem_view (htame : Tame t) : ∀ u ∈ view t, IsFlat u := by
  cases t with
  | plain c => exact List.forall_mem_singleton.2 htame
  | quoted mark body =>
    rw [view]
    split_ifs with hmark
    · subst hmark
      exact List.forall_mem_singleton.2 ⟨rfl, tame_literal.1 htame⟩
    · refine List.forall_mem_map.2 fun c hc => ?_
      rintro rfl
      exact htame.notMem_text hmark (by decide) (by decide) hc

/-- Where the scanners see none of the other two quotes, they see the lexemes. -/
theorem exists_of_flatMap_view (h : us.flatMap view = left ++ right)
    (hus : ∀ t ∈ us, WellQuoted t) (hleft : ∀ c ∈ ['\'', '\x60'], plain c ∉ left) :
    ∃ vs, us = left ++ vs ∧ vs.flatMap view = right := by
  induction left generalizing us with
  | nil => exact ⟨us, rfl, h⟩
  | cons t left ih =>
    cases us with
    | nil => simp at h
    | cons u us =>
      obtain ⟨hu, hus⟩ := List.forall_mem_cons.1 hus
      have hview : view u = [u] := by
        cases u with
        | plain c => rfl
        | quoted mark body =>
          by_contra hother
          have hmark : mark ≠ '"' := fun heq => hother (if_pos heq)
          have hquote : mark ∈ ['\'', '\x60'] := by simpa [hmark, or_comm] using hu.mark
          have hfirst : plain mark = t := by
            simp [view, text, hmark] at h
            exact h.1
          exact hleft mark hquote (hfirst ▸ List.mem_cons_self)
      rw [List.flatMap_cons, hview, List.singleton_append, List.cons_append] at h
      obtain ⟨rfl, hlater⟩ := List.cons.inj h
      obtain ⟨vs, rfl, hvs⟩ := ih hlater hus fun c hc =>
        (not_or.1 (mt List.mem_cons.2 (hleft c hc))).2
      exact ⟨vs, rfl, hvs⟩

theorem exists_of_indexMarked (hne : token ≠ [])
    (htoken : ∀ c ∈ token, c ≠ '"' ∧ c ≠ '\'' ∧ c ≠ '\x60') (hts : ∀ t ∈ ts, IsFlat t)
    (h : indexMarked token (scanStrings .outside (lexemeText ts)) = some idx) :
    ∃ left right, ts = left ++ (token.map plain ++ right) ∧
      (lexemeText ts).take idx = lexemeText left ∧
      (lexemeText ts).drop (idx + token.length) = lexemeText right := by
  have htame : ∀ t ∈ ts, Tame t := fun t ht => (hts t ht).tame
  rw [(scanStrings_lexemeText htame).1,
    indexMarked_of_skips hne htoken htame fun t ht => (hts t ht).skips] at h
  obtain ⟨⟨left, right⟩, hcut, rfl⟩ := Option.map_eq_some_iff.1 h
  have heq := eq_of_cutLexemes hcut
  have htext : lexemeText ts = lexemeText left ++ (token ++ lexemeText right) := by
    rw [heq, lexemeText_append, lexemeText_append, lexemeText_map_plain]
  refine ⟨left, right, heq, ?_, ?_⟩
  · rw [htext, List.take_left]
  · rw [htext, ← List.drop_drop, List.drop_left, List.drop_left]

theorem exists_of_indexTokenOutside {token : String}
    (htoken : ∀ c ∈ token.toList, c ≠ '"' ∧ c ≠ '\'' ∧ c ≠ '\x60') (hts : ∀ t ∈ ts, IsFlat t)
    (h : indexTokenOutside (lexemeText ts) token = .ok idx) :
    ∃ left right, ts = left ++ (token.toList.map plain ++ right) ∧
      (lexemeText ts).take idx = lexemeText left ∧
      (lexemeText ts).drop (idx + token.toList.length) = lexemeText right := by
  unfold indexTokenOutside at h
  split_ifs at h with hempty
  · simp [failure] at h
  · split at h
    · rename_i i hmarked
      cases h
      have hne : token.toList ≠ [] := fun hnil => hempty (String.toList_inj.1 hnil)
      exact exists_of_indexMarked hne htoken hts hmarked
    · simp at h

theorem exists_of_indexOutside {needle : Char}
    (hneedle : needle ≠ '"' ∧ needle ≠ '\'' ∧ needle ≠ '\x60') (hts : ∀ t ∈ ts, IsFlat t)
    (h : indexOutside (lexemeText ts) needle = .ok idx) :
    ∃ left right, ts = left ++ plain needle :: right ∧
      (lexemeText ts).take idx = lexemeText left ∧
      (lexemeText ts).drop (idx + 1) = lexemeText right := by
  unfold indexOutside at h
  split at h
  · rename_i i hmarked
    cases h
    exact exists_of_indexMarked (by simp) (List.forall_mem_singleton.2 hneedle) hts hmarked
  · simp at h

end View

/-! ## Literals -/

section Literals

variable {quote : Char} {escaped : Bool} {body body' rest rest' : List Char} {s : String}
  {ts : List Lexeme}

theorem not_isClosedBody_quote (hslash : quote ≠ '\\') (h : isClosedBody quote escaped [] = true) :
    isClosedBody quote escaped (quote :: rest) = false := by
  cases escaped with
  | true => exact absurd h (by simp [isClosedBody])
  | false => simp [isClosedBody, hslash]

theorem eq_of_closedBody (hslash : quote ≠ '\\') (h : isClosedBody quote escaped body = true)
    (h' : isClosedBody quote escaped body' = true)
    (heq : body ++ quote :: rest = body' ++ quote :: rest') : body = body' ∧ rest = rest' := by
  induction body generalizing escaped body' with
  | nil =>
    cases body' with
    | nil => exact ⟨rfl, (List.cons.inj heq).2⟩
    | cons c body' =>
      obtain ⟨rfl, -⟩ := List.cons.inj heq
      rw [not_isClosedBody_quote hslash h] at h'
      simp at h'
  | cons c body ih =>
    cases body' with
    | nil =>
      obtain ⟨rfl, -⟩ := List.cons.inj heq
      rw [not_isClosedBody_quote hslash h'] at h
      simp at h
    | cons c' body' =>
      obtain ⟨rfl, htail⟩ := List.cons.inj heq
      have hnext : ∃ next, isClosedBody quote next body = true ∧
          isClosedBody quote next body' = true := by
        cases escaped with
        | true => exact ⟨false, h, h'⟩
        | false =>
          simp only [isClosedBody] at h h'
          split_ifs at h h' with hc
          · exact ⟨true, h, h'⟩
          · rw [Bool.and_eq_true] at h h'
            exact ⟨false, h.2, h'.2⟩
      obtain ⟨next, hbody, hbody'⟩ := hnext
      obtain ⟨rfl, rfl⟩ := ih hbody hbody' htail
      exact ⟨rfl, rfl⟩

theorem exists_of_parseStringLiteral {raw : List Char} (h : parseStringLiteral raw = .ok s) :
    ∃ body, raw = '"' :: (body ++ ['"']) ∧ isClosedBody '"' false body = true := by
  unfold parseStringLiteral at h
  split_ifs at h with hends
  rw [not_or, not_not, not_not] at hends
  obtain ⟨hfirst, hlast⟩ := hends
  obtain ⟨tail, rfl⟩ : ∃ tail, raw = '"' :: tail := ⟨raw.tail, (List.cons_head?_tail hfirst).symm⟩
  rw [mapError_eq_ok, List.tail_cons, unmarshalString] at h
  split at h
  · simp at h
  · rename_i units rest hunits
    obtain ⟨body, rfl, hbody⟩ := exists_closed_of_jsonUnits hunits
    refine ⟨body, ?_, hbody⟩
    split at h
    · rename_i hspaces
      -- a blank after the literal would be the last character
      have hrest : rest = [] := by
        by_contra hne
        have hshape : '"' :: (body ++ '"' :: rest) = ('"' :: (body ++ ['"'])) ++ rest := by simp
        have hend : rest.getLast? = some '"' := by
          rwa [hshape, List.getLast?_append_of_ne_nil _ hne] at hlast
        have hall := List.dropWhile_eq_nil_iff.1 hspaces _ (List.mem_of_getLast? hend)
        exact absurd hall (by decide)
      rw [hrest]
    · simp at h

theorem mem_dropWhile_of_not {p : Lexeme → Bool} (hmem : t ∈ ts) (ht : p t = false) :
    t ∈ ts.dropWhile p := by
  rw [← List.takeWhile_append_dropWhile (p := p) (l := ts), List.mem_append] at hmem
  rcases hmem with hmem | hmem
  · rw [List.mem_takeWhile_imp hmem] at ht
    simp at ht
  · exact hmem

theorem mem_trimLexemes_of_not_isSpace (hmem : t ∈ ts) (ht : t.isSpace = false) :
    t ∈ trimLexemes ts := by
  have hfront := mem_dropWhile_of_not hmem ht
  have hback := mem_dropWhile_of_not (List.mem_reverse.2 hfront) ht
  exact List.mem_reverse.2 hback

theorem StandsFor.plain_notMem {c : Char} (h : StandsFor ts s) (hc : Text.isSpace c = false) :
    plain c ∉ ts := by
  obtain ⟨body, htrim, -⟩ := h
  intro hmem
  have htrimmed := mem_trimLexemes_of_not_isSpace hmem hc
  rw [htrim, List.mem_singleton] at htrimmed
  simp at htrimmed

theorem standsFor_of_parseStringLiteral (hts : ∀ t ∈ ts, IsFlat t)
    (h : parseStringLiteral (trimSpaceChars (lexemeText ts)) = .ok s) : StandsFor ts s := by
  rw [trimSpaceChars_lexemeText fun t ht => (hts t ht).tame.framed] at h
  obtain ⟨body, htext, hbody⟩ := exists_of_parseStringLiteral h
  have hflat : ∀ t ∈ trimLexemes ts, IsFlat t := fun t ht => hts t (mem_of_mem_trimLexemes ht)
  cases htrim : trimLexemes ts with
  | nil =>
    rw [htrim] at htext
    simp at htext
  | cons t rest =>
    rw [htrim, lexemeText_cons] at htext
    rw [htrim] at hflat
    have ht := hflat t List.mem_cons_self
    cases t with
    | plain c =>
      have hc : c = '"' := (List.cons.inj htext).1
      exact absurd hc ht
    | quoted mark body' =>
      obtain ⟨rfl, hbody'⟩ := ht
      have hsame : body' ++ '"' :: lexemeText rest = body ++ '"' :: [] := by
        simpa [text] using htext
      obtain ⟨rfl, hnil⟩ := eq_of_closedBody (by decide) hbody' hbody hsame
      obtain rfl := lexemeText_eq_nil.1 hnil
      refine ⟨body', htrim, ?_⟩
      rw [htrim] at h
      simpa using h

end Literals

/-! ## Targets -/

variable {d : Digests} {input : RenderedStatementWrite}

section Targets

variable {left : List Lexeme} {row : List Char} {values : List (List Char)} {idx : ℕ}

theorem isVertexTarget_of_identity (hleft : ∀ t ∈ left, IsFlat t)
    (hidx : indexOutside row ':' = .ok idx) (htake : row.take idx = lexemeText left)
    (h : validateVertexRowIdentity d row values input = .ok ()) :
    IsVertexTarget d input left ∧ plain '\'' ∉ left ∧ plain '\x60' ∉ left := by
  unfold validateVertexRowIdentity at h
  rw [hidx] at h
  obtain ⟨idx', hidx', h⟩ := bind_eq_ok.1 h
  cases hidx'
  obtain ⟨vid, hvid, h⟩ := bind_eq_ok.1 h
  rw [withContext_eq_ok, htake] at hvid
  have hstands := standsFor_of_parseStringLiteral hleft hvid
  cases values with
  | nil => exact absurd h (by simp [failure])
  | cons first values =>
    obtain ⟨kind, -, h⟩ := bind_eq_ok.1 h
    obtain ⟨named, hnamed, -⟩ := validateScopedVID_eq_ok.1 h
    exact ⟨⟨vid, named, hstands, hnamed⟩, hstands.plain_notMem (by decide),
      hstands.plain_notMem (by decide)⟩

theorem isDigit_of_parseDigits {cs : List Char} {n : ℕ} (h : parseDigits cs = some n) :
    ∀ c ∈ cs, c.isDigit = true := by
  unfold parseDigits at h
  split_ifs at h with hbad
  rw [Bool.not_eq_true, Bool.or_eq_false_iff, Bool.not_eq_false'] at hbad
  exact List.all_eq_true.1 hbad.2

theorem numeric_of_parseInt64 {cs : List Char} {n : ℤ} (h : parseInt64 cs = some n) :
    ∀ c ∈ cs, c.isDigit = true ∨ c = '-' ∨ c = '+' := by
  obtain ⟨hvalue, -⟩ := Option.filter_eq_some_iff.1 h
  have hdigits : ∀ {cs : List Char} {f : ℤ → ℤ},
      Option.map f (do let a ← parseDigits cs; pure ↑a) = some n →
        ∀ c ∈ cs, c.isDigit = true ∨ c = '-' ∨ c = '+' := by
    intro cs f hmap c hc
    cases hparsed : parseDigits cs with
    | none => simp [hparsed] at hmap
    | some m => exact .inl (isDigit_of_parseDigits hparsed c hc)
  split at hvalue
  · exact List.forall_mem_cons.2 ⟨.inr (.inl rfl), hdigits hvalue⟩
  · exact List.forall_mem_cons.2 ⟨.inr (.inr rfl), hdigits hvalue⟩
  · exact hdigits hvalue

theorem quote_notMem_of_parseRank {rank : List Lexeme} {n : ℤ} {c : Char}
    (hrank : ∀ t ∈ rank, IsFlat t) (hc : c = '\'' ∨ c = '\x60')
    (h : parseRank (trimSpaceChars (lexemeText rank)) = .ok n) : plain c ∉ rank := by
  intro hmem
  have hspace : (plain c).isSpace = false := by
    rcases hc with rfl | rfl <;> decide
  have htrimmed := mem_trimLexemes_of_not_isSpace hmem hspace
  unfold parseRank at h
  split at h
  · rename_i m hparsed
    obtain ⟨hparsed, -⟩ := Option.filter_eq_some_iff.1 hparsed
    rw [trimSpaceChars_lexemeText fun t ht => (hrank t ht).tame.framed] at hparsed
    have hin : c ∈ lexemeText (trimLexemes rank) :=
      List.mem_flatMap.2 ⟨plain c, htrimmed, List.mem_singleton_self c⟩
    have hnumeric := numeric_of_parseInt64 hparsed c hin
    rcases hc with rfl | rfl <;> exact absurd hnumeric (by decide)
  · simp at h

theorem exists_of_splitEdgeTarget {targetContext rankContext : String} {ts : List Lexeme}
    {target : EdgeTarget} (hts : ∀ t ∈ ts, IsFlat t)
    (h : splitEdgeTarget targetContext rankContext (lexemeText ts) = .ok target) :
    ∃ left right rank, ts = left ++ plain '-' :: plain '>' :: (right ++ plain '@' :: rank) ∧
      target.fromText = trimSpaceChars (lexemeText left) ∧
      target.toText = trimSpaceChars (lexemeText right) ∧
      target.rankText = trimSpaceChars (lexemeText rank) := by
  obtain ⟨arrowIdx, harrow, h⟩ := bind_eq_ok.1 h
  obtain ⟨rankIdx, hrank, h⟩ := bind_eq_ok.1 h
  cases h
  rw [withContext_eq_ok] at harrow hrank
  obtain ⟨left, later, hsplit, htake, hdrop⟩ := exists_of_indexTokenOutside (by decide) hts harrow
  replace hdrop : (lexemeText ts).drop (arrowIdx + 2) = lexemeText later := hdrop
  rw [hdrop] at hrank
  have hlater : ∀ t ∈ later, IsFlat t := fun t ht => hts t (by simp [hsplit, ht])
  obtain ⟨right, rank, rfl, htakeRank, hdropRank⟩ :=
    exists_of_indexTokenOutside (by decide) hlater hrank
  refine ⟨left, right, rank, hsplit, ?_, ?_, ?_⟩
  · rw [htake]
  · rw [hdrop, htakeRank]
  · rw [hdrop]
    exact congrArg trimSpaceChars hdropRank

theorem isEdgeTarget_of_identity (hleft : ∀ t ∈ left, IsFlat t)
    (hidx : indexOutside row ':' = .ok idx) (htake : row.take idx = lexemeText left)
    (h : validateEdgeRowIdentity d row values input = .ok ()) :
    IsEdgeTarget d input left ∧ plain '\'' ∉ left ∧ plain '\x60' ∉ left := by
  unfold validateEdgeRowIdentity at h
  rw [hidx] at h
  obtain ⟨idx', hidx', h⟩ := bind_eq_ok.1 h
  cases hidx'
  cases values with
  | nil => exact absurd h (by simp [failure])
  | cons first values =>
    obtain ⟨target, htarget, h⟩ := bind_eq_ok.1 h
    obtain ⟨fromVid, hfrom, h⟩ := bind_eq_ok.1 h
    obtain ⟨toVid, hto, h⟩ := bind_eq_ok.1 h
    obtain ⟨n, hn, h⟩ := bind_eq_ok.1 h
    obtain ⟨kind, -, h⟩ := bind_eq_ok.1 h
    obtain ⟨source, -, h⟩ := bind_eq_ok.1 h
    dsimp only at h
    split_ifs at h with hrank
    · simp [failure] at h
    obtain ⟨⟨⟩, hscopedFrom, hscopedTo⟩ := bind_eq_ok.1 h
    rw [withContext_eq_ok] at hfrom hto hscopedFrom hscopedTo
    obtain ⟨fromKind, hfromKind, -⟩ := validateScopedVID_eq_ok.1 hscopedFrom
    obtain ⟨toKind, htoKind, -⟩ := validateScopedVID_eq_ok.1 hscopedTo
    have hflat : ∀ t ∈ trimLexemes left, IsFlat t := fun t ht => hleft t (mem_of_mem_trimLexemes ht)
    rw [htake, trimSpaceChars_lexemeText fun t ht => (hleft t ht).tame.framed] at htarget
    obtain ⟨ts, us, rank, hshape, hfromText, htoText, hrankText⟩ :=
      exists_of_splitEdgeTarget hflat htarget
    rw [hshape] at hflat
    have hts : ∀ t ∈ ts, IsFlat t := fun t ht => hflat t (List.mem_append_left _ ht)
    have hus : ∀ t ∈ us, IsFlat t := fun t ht => hflat t (by simp [ht])
    have hranks : ∀ t ∈ rank, IsFlat t := fun t ht => hflat t (by simp [ht])
    rw [hfromText] at hfrom
    rw [htoText] at hto
    rw [hrankText] at hn
    have hstandsFrom := standsFor_of_parseStringLiteral hts hfrom
    have hstandsTo := standsFor_of_parseStringLiteral hus hto
    have hquote : ∀ c, c = '\'' ∨ c = '\x60' → plain c ∉ left := by
      intro c hc hmem
      have hspace : Text.isSpace c = false := by
        rcases hc with rfl | rfl <;> decide
      have htrimmed : plain c ∈ trimLexemes left := mem_trimLexemes_of_not_isSpace hmem hspace
      have hother : ∀ d ∈ ['-', '>', '@'], c ≠ d := by
        rcases hc with rfl | rfl <;> decide
      rw [hshape] at htrimmed
      simp only [List.mem_append, List.mem_cons, plain.injEq] at htrimmed
      rcases htrimmed with hin | heq | heq | hin | heq | hin
      · exact hstandsFrom.plain_notMem hspace hin
      · exact hother _ (by simp) heq
      · exact hother _ (by simp) heq
      · exact hstandsTo.plain_notMem hspace hin
      · exact hother _ (by simp) heq
      · exact quote_notMem_of_parseRank hranks hc hn hin
    exact ⟨⟨ts, us, rank, fromVid, toVid, fromKind, toKind, hshape, hstandsFrom, hfromKind,
      hstandsTo, htoKind, n, hn⟩, hquote _ (.inl rfl), hquote _ (.inr rfl)⟩

end Targets

/-! ## Rows -/

section Rows

variable {kind : InsertKind} {props : List String} {isTarget : List Lexeme → Prop}
  {ts us : List Lexeme} {parts : List (List Lexeme)} {c : Char}

theorem eq_plain_of_head? (ht : WellQuoted t) (hc : c ≠ '"' ∧ c ≠ '\'' ∧ c ≠ '\x60')
    (h : t.text.head? = some c) : t = plain c := by
  cases t with
  | plain d => rw [Option.some.inj h]
  | quoted mark body =>
    have hmark : mark = c := Option.some.inj h
    exact absurd (hmark ▸ ht.mark) (by simp [hc])

theorem eq_plain_of_getLast? (ht : WellQuoted t) (hc : c ≠ '"' ∧ c ≠ '\'' ∧ c ≠ '\x60')
    (h : t.text.getLast? = some c) : t = plain c := by
  cases t with
  | plain d => exact eq_plain_of_head? ht hc h
  | quoted mark body =>
    rw [text, ← List.cons_append, List.getLast?_concat] at h
    exact eq_plain_of_head? ht hc h

theorem exists_of_head? (hts : ∀ t ∈ ts, WellQuoted t) (hc : c ≠ '"' ∧ c ≠ '\'' ∧ c ≠ '\x60')
    (h : (lexemeText ts).head? = some c) : ∃ rest, ts = plain c :: rest := by
  cases ts with
  | nil => exact absurd h (by simp)
  | cons t ts =>
    rw [lexemeText_cons, List.head?_append_of_ne_nil _ (text_ne_nil t)] at h
    rw [eq_plain_of_head? (hts t List.mem_cons_self) hc h]
    exact ⟨ts, rfl⟩

theorem exists_of_getLast? (hts : ∀ t ∈ ts, WellQuoted t) (hc : c ≠ '"' ∧ c ≠ '\'' ∧ c ≠ '\x60')
    (h : (lexemeText ts).getLast? = some c) : ∃ front, ts = front ++ [plain c] := by
  rcases List.eq_nil_or_concat' ts with rfl | ⟨front, t, rfl⟩
  · simp at h
  · rw [lexemeText_append, lexemeText_cons, lexemeText_nil, List.append_nil,
      List.getLast?_append_of_ne_nil _ (text_ne_nil t)] at h
    rw [eq_plain_of_getLast? (hts t (by simp)) hc h]
    exact ⟨front, rfl⟩

theorem exists_of_parens (hts : ∀ t ∈ ts, WellQuoted t) (hopen : (lexemeText ts).head? = some '(')
    (hclose : (lexemeText ts).getLast? = some ')') :
    ∃ inner, ts = plain '(' :: (inner ++ [plain ')']) := by
  obtain ⟨rest, hrest⟩ := exists_of_head? hts (by decide) hopen
  obtain ⟨front, hfront⟩ := exists_of_getLast? hts (by decide) hclose
  cases front with
  | nil =>
    rw [hfront] at hrest
    exact absurd (List.cons.inj hrest).1 (by decide)
  | cons t inner =>
    rw [hfront, List.cons_append] at hrest
    exact ⟨inner, by rw [hfront, (List.cons.inj hrest).1, List.cons_append]⟩

theorem validateScopeValues_sound (h : validateScopeValues (trimmedTexts parts) props input = .ok ())
    (hparts : ∀ part ∈ parts, ∀ t ∈ part, t.Framed) :
    parts.length = props.length ∧
      ∀ column ∈ wantedValues input, ∀ value, (column.1, value) ∈ props.zip parts →
        trimSpaceChars (lexemeText value) = column.2.toList := by
  unfold validateScopeValues at h
  split_ifs at h with hlength
  · simp [failure] at h
  rw [not_not, trimmedTexts, List.length_map] at hlength
  refine ⟨hlength, fun column hcolumn value hvalue => ?_⟩
  have hframed := hparts value (List.of_mem_zip hvalue).2
  have hzip : (column.1, lexemeText (trimLexemes value)) ∈ props.zip (trimmedTexts parts) := by
    rw [trimmedTexts, List.zip_map_right]
    exact List.mem_map.2 ⟨_, hvalue, rfl⟩
  have hcheck := forM_eq_ok.1 h _ hzip
  unfold validateScopeValue at hcheck
  rw [lookup_wantedValues column hcolumn] at hcheck
  dsimp only at hcheck
  split_ifs at hcheck with hgot
  · rw [← hgot, String.toList_ofList, ← trimSpaceChars_lexemeText hframed,
      trimSpaceChars_trimSpaceChars]
  · simp [failure] at hcheck

/-- What the check of an identity says of the text before the colon. -/
def ChecksTarget (d : Digests) (input : RenderedStatementWrite) (kind : InsertKind)
    (isTarget : List Lexeme → Prop) : Prop :=
  ∀ {row values left idx}, (∀ t ∈ left, IsFlat t) → indexOutside row ':' = .ok idx →
    row.take idx = lexemeText left → kind.identity d row values input = .ok () →
    isTarget left ∧ plain '\'' ∉ left ∧ plain '\x60' ∉ left

theorem isScopedRow_of_validateRow (hcheck : ChecksTarget d input kind isTarget)
    (hus : ∀ t ∈ us, WellQuoted t ∧ Tame t)
    (h : kind.validateRow d input (lexemeText us) = .ok ()) :
    IsScopedRow input kind.props isTarget us := by
  have hview : ∀ t ∈ us.flatMap view, IsFlat t := by
    intro t ht
    obtain ⟨u, hu, htu⟩ := List.mem_flatMap.1 ht
    exact isFlat_of_mem_view (hus u hu).2 t htu
  obtain ⟨values, hvalues, h⟩ := bind_eq_ok.1 h
  obtain ⟨⟨⟩, hidentity, hscope⟩ := bind_eq_ok.1 h
  obtain ⟨idx, hidx, hvalues⟩ := bind_eq_ok.1 hvalues
  have hidxView := hidx
  rw [← lexemeText_flatMap_view] at hidxView
  obtain ⟨left, right, hsplit, htake, hdrop⟩ := exists_of_indexOutside (by decide) hview hidxView
  rw [lexemeText_flatMap_view] at htake hdrop
  have hleft : ∀ t ∈ left, IsFlat t := fun t ht => hview t (by rw [hsplit]; simp [ht])
  obtain ⟨htarget, hsingle, htick⟩ := hcheck hleft hidx htake hidentity
  -- before the colon there is no other quote, so the scanners see the lexemes there
  obtain ⟨tuple, hrow, htuple⟩ : ∃ tuple, us = left ++ plain ':' :: tuple ∧
      lexemeText tuple = lexemeText right := by
    rw [List.append_cons] at hsplit
    obtain ⟨tuple, hrow, htuple⟩ := exists_of_flatMap_view hsplit (fun t ht => (hus t ht).1)
      (by simp [hsingle, htick])
    refine ⟨tuple, by simpa using hrow, ?_⟩
    rw [← lexemeText_flatMap_view, htuple]
  have htupleMem : ∀ t ∈ tuple, t ∈ us := fun t ht => by simp [hrow, ht]
  have htrimmed : ∀ t ∈ trimLexemes tuple, WellQuoted t ∧ Tame t := fun t ht =>
    hus t (htupleMem t (mem_of_mem_trimLexemes ht))
  have htext : trimSpaceChars ((lexemeText us).drop (idx + 1)) = lexemeText (trimLexemes tuple) := by
    rw [hdrop, ← htuple, trimSpaceChars_lexemeText fun t ht => (hus t (htupleMem t ht)).2.framed]
  dsimp only at hvalues
  rw [htext] at hvalues
  split_ifs at hvalues with hparens
  rw [not_or, not_not, not_not] at hparens
  obtain ⟨inner, hinner⟩ := exists_of_parens (fun t ht => (htrimmed t ht).1) hparens.1 hparens.2
  rw [hinner] at htrimmed
  have hinnerMem : ∀ t ∈ inner, WellQuoted t ∧ Tame t := fun t ht => htrimmed t (by simp [ht])
  have hbetween : (lexemeText (trimLexemes tuple)).tail.dropLast = lexemeText inner := by
    rw [hinner, lexemeText_cons, lexemeText_append, lexemeText_cons, lexemeText_nil, text, text,
      List.append_nil, List.singleton_append, List.tail_cons, List.dropLast_concat]
  rw [hbetween, splitTopLevel_eq_ok fun t ht => (hinnerMem t ht).2] at hvalues
  obtain ⟨parts, hparts, -, rfl⟩ := hvalues
  have hframed : ∀ part ∈ parts, ∀ t ∈ part, t.Framed := fun part hpart t ht =>
    (hinnerMem t (mem_of_splitLexemes hparts part hpart t ht)).2.framed
  obtain ⟨hlength, hcolumns⟩ := validateScopeValues_sound hscope hframed
  exact ⟨left, tuple, inner, parts, hrow, htarget, hinner, hparts, hlength, hcolumns⟩

end Rows

end CodeIntel.Graphstore
