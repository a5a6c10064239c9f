import CodeIntel.Graph.VertexIds
import CodeIntel.Graphstore.RenderedRows
import Mathlib.Data.List.Chain

/-!
# Statements the validator accepts

An INSERT into the code graph passes when its rows carry the scope of the payload:
every identifier begins with the scoped prefix, the scope columns have the payload's
values and the rank of an edge is the digest of its ends, kind and source. Nothing is
asked of the other columns.
-/

namespace CodeIntel.Graphstore

open Relational Text Lexeme Graphschema Graph

/-! ## One terminated statement -/

section Terminated

variable {t : Lexeme} {ts : List Lexeme} {cs rest : List Char}

/-- A quoted identifier. -/
def isIdentifier : Lexeme → Bool
  | plain _ => false
  | quoted mark _ => mark = '\x60'

/-- No identifier follows another one directly: two backticks in a row do not close. -/
def Separated (ts : List Lexeme) : Prop :=
  ts.IsChain fun t u => isIdentifier t = false ∨ isIdentifier u = false

theorem scanStatement_closedBody {escaped : Bool} (h : isClosedBody '"' escaped cs = true) :
    scanStatement (if escaped then .escaped else .inString) (cs ++ '"' :: rest) =
      scanStatement .code rest := by
  induction cs generalizing escaped with
  | nil =>
    cases escaped with
    | true => exact absurd h (by simp [isClosedBody])
    | false => simp [scanStatement]
  | cons c cs ih =>
    cases escaped with
    | true => exact ih h
    | false =>
      simp only [isClosedBody] at h
      split_ifs at h with hslash
      · have hlater := ih h
        simpa [scanStatement, hslash] using hlater
      · rw [Bool.and_eq_true, decide_eq_true_eq] at h
        have hlater := ih h.2
        simpa [scanStatement, hslash, h.1] using hlater

theorem scanStatement_identBody (h : '\x60' ∉ cs) (hrest : rest.head? ≠ some '\x60') :
    scanStatement .inIdent (cs ++ '\x60' :: rest) = scanStatement .code rest := by
  induction cs with
  | nil => simp [scanStatement, hrest]
  | cons c cs ih =>
    obtain ⟨hc, hcs⟩ := not_or.1 (mt List.mem_cons.2 h)
    rw [List.cons_append, scanStatement, ← ih hcs]
    simp [Ne.symm hc]

theorem scanStatement_quoted {mark : Char} {body : List Char} (h : Legible (quoted mark body))
    (hrest : isIdentifier (quoted mark body) = true → rest.head? ≠ some '\x60') :
    scanStatement .code ((quoted mark body).text ++ rest) = scanStatement .code rest := by
  by_cases hquote : mark = '"'
  · subst hquote
    have hbody : scanStatement .inString (body ++ '"' :: rest) = scanStatement .code rest :=
      scanStatement_closedBody (legible_literal.1 h)
    simpa [text, scanStatement] using hbody
  · obtain ⟨hmark, hbody⟩ := h.inert hquote
    rcases hmark with rfl | rfl
    · apply scanStatement_code_append
      intro c hc
      have habsent : ∀ d ∈ scanned, d ≠ '\x60' → c ≠ d := by
        rintro d hd htick rfl
        exact notMem_text_of_inert (.inl rfl) hbody hd htick hc
      refine ⟨habsent _ (by decide) (by decide), habsent _ (by decide) (by decide), ?_⟩
      rintro rfl
      have hcases : '\x60' ∈ body := by simpa [text] using hc
      exact hbody _ hcases (by decide)
    · have htick : '\x60' ∉ body := fun hmem => hbody _ hmem (by decide)
      have hident := scanStatement_identBody htick (hrest rfl)
      simpa [text, scanStatement] using hident

theorem head?_lexemeText_ne_tick (h : ∀ t ∈ ts, Legible t)
    (hfirst : ∀ t ∈ ts.head?, isIdentifier t = false) :
    (lexemeText ts).head? ≠ some '\x60' := by
  cases ts with
  | nil => simp
  | cons t ts =>
    have ht := h t List.mem_cons_self
    have hident : isIdentifier t = false := hfirst t rfl
    cases t with
    | plain c => simpa [text] using ht.2
    | quoted mark body => simpa [text, isIdentifier] using hident

/-- On legible lexemes the statement loop looks for a semicolon among them. -/
theorem scanStatement_lexemeText (h : ∀ t ∈ ts, Legible t) (hsep : Separated ts) :
    scanStatement .code (lexemeText ts) =
      if plain ';' ∈ ts then failure "statement contains an extra top-level semicolon"
      else .ok .code := by
  induction ts with
  | nil => simp [scanStatement]
  | cons t ts ih =>
    obtain ⟨ht, hlater⟩ := List.forall_mem_cons.1 h
    have ih := ih hlater hsep.tail
    rw [lexemeText_cons]
    cases t with
    | plain c =>
      by_cases hsemi : c = ';'
      · subst hsemi
        simp [text, scanStatement]
      · have hpass : ∀ d ∈ [c], d ≠ ';' ∧ d ≠ '"' ∧ d ≠ '\x60' := by
          simpa using ⟨hsemi, ht⟩
        have hne : plain ';' ≠ plain c := fun heq => hsemi (plain.inj heq).symm
        rw [text, scanStatement_code_append hpass, ih]
        simp only [List.mem_cons, hne, false_or]
    | quoted mark body =>
      have hnext : isIdentifier (quoted mark body) = true →
          (lexemeText ts).head? ≠ some '\x60' := by
        intro hident
        apply head?_lexemeText_ne_tick hlater
        intro u hu
        obtain ⟨us, rfl⟩ : ∃ us, ts = u :: us := ⟨ts.tail, (List.cons_head?_tail hu).symm⟩
        have hpair := (List.isChain_cons_cons.1 hsep).1
        exact hpair.resolve_left (by simp [hident])
      have hne : plain ';' ≠ quoted mark body := by simp
      rw [scanStatement_quoted ht hnext, ih]
      simp only [List.mem_cons, hne, false_or]

end Terminated

/-! ## The text of a statement -/

section Separation

variable {us vs : List Lexeme} {c : Char}

theorem separated_of_forall (h : ∀ t ∈ us, isIdentifier t = false) : Separated us :=
  (List.pairwise_of_forall_mem_list fun t ht _ _ => .inl (h t ht)).isChain

theorem Separated.append_plain (hus : Separated us) (hvs : Separated vs) :
    Separated (us ++ plain c :: vs) := by
  refine List.isChain_append.2 ⟨hus, List.isChain_cons.2 ⟨fun u _ => .inl rfl, hvs⟩, ?_⟩
  intro t _ u hu
  rw [List.head?_cons, Option.mem_some_iff] at hu
  exact .inr (hu ▸ rfl)

theorem separated_joinLexemes {words : List (List Lexeme)} (h : ∀ word ∈ words, Separated word) :
    Separated (joinLexemes ',' words) := by
  have hgeneral : ∀ (words : List (List Lexeme)) (word : List Lexeme), Separated word →
      (∀ next ∈ words, Separated next) →
      Separated (word ++ words.flatMap fun next => plain ',' :: plain ' ' :: next) := by
    intro words
    induction words with
    | nil =>
      intro word hword _
      simpa using hword
    | cons next words ih =>
      intro word hword hwords
      obtain ⟨hnext, hwords⟩ := List.forall_mem_cons.1 hwords
      have hspace := Separated.append_plain (c := ' ') List.isChain_nil (ih next hnext hwords)
      simpa using hword.append_plain (c := ',') hspace
  cases words with
  | nil => exact List.isChain_nil
  | cons word words =>
    obtain ⟨hword, hwords⟩ := List.forall_mem_cons.1 h
    rw [joinLexemes_cons]
    exact hgeneral words word hword hwords

end Separation

/-- A name without characters the scanners look for. -/
def IsInert (s : String) : Prop := ∀ c ∈ s.toList, c ∉ scanned

instance (s : String) : Decidable (IsInert s) :=
  inferInstanceAs (Decidable (∀ c ∈ s.toList, c ∉ scanned))

variable {kind : InsertKind}

namespace InsertKind

/-- The keyword, the name and the columns are inert. -/
def Inert (kind : InsertKind) : Prop :=
  ∀ s ∈ kind.keyword :: kind.name :: kind.props, IsInert s

instance (kind : InsertKind) : Decidable kind.Inert :=
  inferInstanceAs (Decidable (∀ s ∈ kind.keyword :: kind.name :: kind.props, IsInert s))

theorem inert_vertexInsert : vertexInsert.Inert := by decide +kernel

theorem inert_edgeInsert : edgeInsert.Inert := by decide +kernel

/-- The prefix of a statement as lexemes. -/
def preLexemes (kind : InsertKind) : List Lexeme :=
  ("INSERT " ++ kind.keyword ++ " ").toList.map plain ++ (quoted '\x60' kind.name.toList ::
    plain '(' :: (joinLexemes ',' (kind.props.map fun prop => [quoted '\x60' prop.toList]) ++
      ") VALUES ".toList.map plain))

theorem lexemeText_preLexemes (h : kind.Inert) : lexemeText kind.preLexemes = kind.pre.toList := by
  have hquote : ∀ s ∈ kind.name :: kind.props,
      (quoteIdentifierLocal s).toList = '\x60' :: (s.toList ++ ['\x60']) := by
    intro s hs
    have htick : '\x60' ∉ s.toList := fun hmem => h s (List.mem_cons_of_mem _ hs) _ hmem (by decide)
    rw [quoteIdentifierLocal, doubleTicks_of_notMem htick, String.toList_append,
      String.toList_append]
    rfl
  have hprops : (kind.props.map fun prop => [quoted '\x60' prop.toList]).map lexemeText =
      (kind.props.map quoteIdentifierLocal).map String.toList := by
    rw [List.map_map, List.map_map]
    apply List.map_congr_left
    intro prop hprop
    rw [Function.comp_apply, Function.comp_apply, hquote prop (List.mem_cons_of_mem _ hprop)]
    simp [text]
  simp only [preLexemes, pre, insertPrefix, lexemeText_append, lexemeText_cons, text,
    lexemeText_map_plain, lexemeText_joinLexemes, hprops, String.toList_append,
    String.toList_intercalate, hquote kind.name List.mem_cons_self]
  simp

theorem forall_mem_preLexemes {P : Lexeme → Prop}
    (hplain : ∀ c, c ∈ kind.keyword.toList ∨ c ∈ "INSERT (,)VALUES".toList → P (plain c))
    (hident : ∀ s ∈ kind.name :: kind.props, P (quoted '\x60' s.toList)) :
    ∀ t ∈ kind.preLexemes, P t := by
  have hfixed : ∀ word ∈ ["INSERT ", " ", "(", ", ", ") VALUES "], ∀ c ∈ word.toList,
      P (plain c) := by
    intro word hword c hc
    apply hplain c
    right
    revert c word
    decide
  obtain ⟨hname, hprops⟩ := List.forall_mem_cons.1 hident
  intro t ht
  simp only [preLexemes, List.mem_append, List.mem_cons, List.mem_map, String.toList_append] at ht
  rcases ht with ⟨c, (hc | hc) | hc, rfl⟩ | rfl | rfl | ht | ⟨c, hc, rfl⟩
  · exact hfixed _ (by simp) c hc
  · exact hplain c (.inl hc)
  · exact hfixed _ (by simp) c hc
  · exact hname
  · exact hfixed "(" (by simp) _ (by simp)
  · refine forall_mem_joinLexemes (hfixed ", " (by simp)) (List.forall_mem_map.2 ?_) t ht
    intro prop hprop t ht
    rw [List.mem_singleton.1 ht]
    exact hprops prop hprop
  · exact hfixed _ (by simp) c hc

theorem Inert.forall_mem_preLexemes (h : kind.Inert) {P : Lexeme → Prop}
    (hplain : ∀ c, c ∉ ['"', '\x60', ';'] → P (plain c))
    (hident : ∀ s, IsInert s → P (quoted '\x60' s.toList)) : ∀ t ∈ kind.preLexemes, P t := by
  obtain ⟨hkeyword, hnames⟩ := List.forall_mem_cons.1 h
  refine InsertKind.forall_mem_preLexemes (fun c hc => hplain c ?_) fun s hs =>
    hident s (hnames s hs)
  rcases hc with hc | hc
  · exact fun hmem => hkeyword c hc (List.mem_of_mem_take (show c ∈ scanned.take 3 from hmem))
  · revert c
    decide

theorem legible_preLexemes (h : kind.Inert) : ∀ t ∈ kind.preLexemes, Legible t := by
  refine h.forall_mem_preLexemes ?_ ?_
  · intro c hc
    simp only [List.mem_cons, List.not_mem_nil, or_false, not_or] at hc
    exact ⟨hc.1, hc.2.1⟩
  · intro s hs
    have hbody : ∀ c ∈ s.toList, c ∉ scanned := hs
    simpa [Legible] using hbody

theorem semicolon_notMem_preLexemes (h : kind.Inert) : plain ';' ∉ kind.preLexemes := by
  intro hmem
  have hall : ∀ t ∈ kind.preLexemes, t ≠ plain ';' := by
    refine h.forall_mem_preLexemes ?_ ?_
    · rintro c hc heq
      rw [plain.inj heq] at hc
      exact hc (by decide)
    · simp
  exact hall _ hmem rfl

theorem separated_preLexemes_append {ts : List Lexeme} (hts : Separated ts) :
    Separated (kind.preLexemes ++ ts) := by
  have hplain : ∀ (cs : List Char), Separated (cs.map plain) := fun cs =>
    separated_of_forall (List.forall_mem_map.2 fun c _ => rfl)
  have hlast : Separated (" VALUES".toList.map plain ++ plain ' ' :: ts) :=
    (hplain _).append_plain hts
  have hprops : Separated (joinLexemes ',' (kind.props.map fun prop =>
      [quoted '\x60' prop.toList])) :=
    separated_joinLexemes (List.forall_mem_map.2 fun prop _ => List.isChain_singleton _)
  have hclose := hprops.append_plain (c := ')') hlast
  have hname : Separated [quoted '\x60' kind.name.toList] := List.isChain_singleton _
  have hopen := hname.append_plain (c := '(') hclose
  have hall := (hplain ("INSERT " ++ kind.keyword).toList).append_plain (c := ' ') hopen
  have hshape : kind.preLexemes ++ ts = ("INSERT " ++ kind.keyword).toList.map plain ++ plain ' ' ::
      ([quoted '\x60' kind.name.toList] ++ plain '(' ::
        (joinLexemes ',' (kind.props.map fun prop => [quoted '\x60' prop.toList]) ++ plain ')' ::
          (" VALUES".toList.map plain ++ plain ' ' :: ts))) := by
    simp [preLexemes]
  rw [hshape]
  exact hall

end InsertKind

section Statement

variable {rows : List Row} {texts : List String}

theorem Row.separated (row : Row)
    (h : ∀ word ∈ row.target :: row.values, ∀ t ∈ word, isIdentifier t = false) :
    Separated row.lexemes :=
  separated_of_forall (row.forall_mem_lexemes (by decide) h)

theorem Row.semicolon_notMem (row : Row) : plain ';' ∉ row.lexemes := by
  intro hmem
  have hall : ∀ t ∈ row.lexemes, t ≠ plain ';' := by
    refine row.forall_mem_lexemes (by decide) fun word hword t ht => ?_
    exact ((row.isWord_of_mem hword).2 t ht).2.2 ';' (by decide)
  exact hall _ hmem rfl

/-- A statement without its semicolon, as lexemes. -/
def statementLexemes (kind : InsertKind) (rows : List Row) : List Lexeme :=
  kind.preLexemes ++ joinLexemes ',' (rows.map Row.lexemes)

theorem toList_statement (hkind : kind.Inert)
    (htexts : rows.map (fun row => lexemeText row.lexemes) = texts.map String.toList) :
    (kind.pre ++ ", ".intercalate texts ++ ";").toList =
      lexemeText (statementLexemes kind rows) ++ [';'] := by
  rw [String.toList_append, String.toList_append, String.toList_intercalate, ← htexts,
    statementLexemes, lexemeText_append, kind.lexemeText_preLexemes hkind, lexemeText_joinLexemes,
    List.map_map]
  rfl

theorem legible_statementLexemes (hkind : kind.Inert) :
    ∀ t ∈ statementLexemes kind rows, Legible t := by
  intro t ht
  rcases List.mem_append.1 ht with ht | ht
  · exact kind.legible_preLexemes hkind t ht
  · exact legible_of_mem_joinLexemes (List.forall_mem_map.2 fun row _ => row.legible) t ht

theorem semicolon_notMem_statementLexemes (hkind : kind.Inert) :
    plain ';' ∉ statementLexemes kind rows := by
  have hrows : ∀ t ∈ joinLexemes ',' (rows.map Row.lexemes), t ≠ plain ';' := by
    refine forall_mem_joinLexemes (by decide) (List.forall_mem_map.2 fun row _ t ht heq => ?_)
    exact row.semicolon_notMem (heq ▸ ht)
  intro hmem
  rcases List.mem_append.1 hmem with hmem | hmem
  · exact kind.semicolon_notMem_preLexemes hkind hmem
  · exact hrows _ hmem rfl

/-- The statement of some rows ends with its only semicolon. -/
theorem validateSingleTerminatedStatement_rows (hkind : kind.Inert)
    (hsep : ∀ row ∈ rows, Separated row.lexemes)
    (htexts : rows.map (fun row => lexemeText row.lexemes) = texts.map String.toList) :
    validateSingleTerminatedStatement (kind.pre ++ ", ".intercalate texts ++ ";").toList =
      .ok () := by
  have hsepRows : Separated (statementLexemes kind rows) :=
    kind.separated_preLexemes_append (separated_joinLexemes (List.forall_mem_map.2 hsep))
  obtain ⟨rest, hrest⟩ : ∃ rest, lexemeText (statementLexemes kind rows) = 'I' :: rest := by
    rw [statementLexemes, lexemeText_append, kind.lexemeText_preLexemes hkind]
    obtain ⟨tail, htail⟩ := keyword_isPrefix_pre kind
    rw [← htail, String.toList_append]
    exact ⟨_, rfl⟩
  have htrim : trimSpaceChars ('I' :: (rest ++ [';'])) = 'I' :: (rest ++ [';']) := by
    have hspace : Text.isSpace 'I' = false ∧ Text.isSpace ';' = false := by decide
    simp [trimSpaceChars, hspace]
  have hscan := scanStatement_lexemeText (legible_statementLexemes hkind) hsepRows
  rw [if_neg (semicolon_notMem_statementLexemes hkind), hrest] at hscan
  rw [toList_statement hkind htexts, hrest, List.cons_append]
  unfold validateSingleTerminatedStatement
  rw [if_neg (not_not.2 htrim), ← List.cons_append,
    if_neg (not_not.2 (List.getLast?_concat)), List.dropLast_concat, hscan]
  rfl

variable {d : Digests} {input : RenderedStatementWrite} {counts : ℕ × ℕ}

theorem validateRows_rows (hne : rows ≠ [])
    (htexts : rows.map (fun row => lexemeText row.lexemes) = texts.map String.toList) {n : ℕ} :
    kind.validateRows d input (kind.pre ++ ", ".intercalate texts ++ ";") = .ok n ↔
      (∀ row ∈ rows, kind.validateRow d input (lexemeText row.lexemes) = .ok ()) ∧
        n = rows.length := by
  rw [validateRows_eq_ok, splitTopLevel_rows kind hne htexts]
  constructor
  · rintro ⟨texts, hsplit, -, hrows, hn⟩
    cases hsplit
    exact ⟨List.forall_mem_map.1 hrows, by rw [hn, List.length_map]⟩
  · rintro ⟨hrows, hn⟩
    exact ⟨_, rfl, by simpa using hne, List.forall_mem_map.2 hrows, by rw [hn, List.length_map]⟩

/-- What a statement of the kind adds to the counts. -/
inductive InsertKind.Counts : InsertKind → (ℕ → ℕ × ℕ) → Prop where
  | vertices : Counts vertexInsert fun n => (n, 0)
  | edges : Counts edgeInsert fun n => (0, n)

theorem validateStatement_rows {count : ℕ → ℕ × ℕ} (hkind : kind.Counts count) (hne : rows ≠ [])
    (hsep : ∀ row ∈ rows, Separated row.lexemes)
    (htexts : rows.map (fun row => lexemeText row.lexemes) = texts.map String.toList) {i : ℕ} :
    validateStatement d input i (kind.pre ++ ", ".intercalate texts ++ ";") = .ok counts ↔
      (∀ row ∈ rows, kind.validateRow d input (lexemeText row.lexemes) = .ok ()) ∧
        counts = count rows.length := by
  have hrun : validateStatement d input i (kind.pre ++ ", ".intercalate texts ++ ";") =
      ((withContext (kind.context ++ toString i ++ ": ") (kind.validateRows d input
        (kind.pre ++ ", ".intercalate texts ++ ";"))).mapError renderedValidation).map count := by
    unfold validateStatement
    cases hkind with
    | vertices =>
      rw [validateSingleTerminatedStatement_rows InsertKind.inert_vertexInsert hsep htexts]
      rw [if_pos (hasPrefix_pre vertexInsert _)]
    | edges =>
      rw [validateSingleTerminatedStatement_rows InsertKind.inert_edgeInsert hsep htexts]
      rw [not_hasPrefix_vertexInsert, if_neg Bool.false_ne_true,
        if_pos (hasPrefix_pre edgeInsert _)]
  rw [hrun, map_eq_ok]
  simp only [mapError_eq_ok, withContext, validateRows_rows hne htexts]
  constructor
  · rintro ⟨n, ⟨hrows, rfl⟩, rfl⟩
    exact ⟨hrows, rfl⟩
  · rintro ⟨hrows, rfl⟩
    exact ⟨_, ⟨hrows, rfl⟩, rfl⟩

end Statement

/-! ## Scoped identifiers -/

section ScopedVids

variable {d : Digests} {input : RenderedStatementWrite} {vid kind expected : String}

/-- An identifier of the payload's scope: the prefix, a kind and 32 hexadecimal digits. -/
structure ScopedVid (d : Digests) (input : RenderedStatementWrite) (vid kind : String) : Prop where
  kind_ne : kind ≠ ""
  colon_notMem : ':' ∉ kind.toList
  eq_append : ∃ key : List Char, key.length = 32 ∧ isLowerHex key = true ∧
    vid.toList = (scopedVidPrefix d input).toList ++ (kind.toList ++ ':' :: key)

theorem colon_notMem_of_isLowerHex {key : List Char} (h : isLowerHex key = true) : ':' ∉ key := by
  intro hmem
  simp only [isLowerHex, Bool.and_eq_true] at h
  exact absurd (List.all_eq_true.1 h.2 _ hmem) (by decide)

theorem validateScopedVID_eq_ok :
    validateScopedVID d vid expected input = .ok () ↔
      ∃ kind, ScopedVid d input vid kind ∧ (expected ≠ "" → kind = expected) := by
  unfold validateScopedVID
  dsimp only
  constructor
  · intro h
    have hstart : hasPrefix vid (scopedVidPrefix d input) = true := by
      by_contra hnot
      simp [Bool.eq_false_iff.2 hnot] at h
    obtain ⟨rest, hrest⟩ := hasPrefix_iff.1 hstart
    rw [hstart, Bool.not_true, if_neg Bool.false_ne_true, ← hrest, List.drop_left] at h
    split at h
    · simp at h
    · rename_i colon key hdrop
      split_ifs at h with hwant hempty hcolon hhex
      · simp [failure] at h
      have hfront : rest = rest.takeWhile (· ≠ ':') ++ colon :: key := by
        rw [← hdrop, List.takeWhile_append_dropWhile]
      have hmark : colon = ':' := by
        have hhead := List.head?_dropWhile_not (fun c => decide (c ≠ ':')) rest
        rw [hdrop] at hhead
        simpa using hhead
      have hkind : ':' ∉ rest.takeWhile (· ≠ ':') := fun hmem => by
        simpa using List.mem_takeWhile_imp hmem
      rw [not_or, not_not, Bool.not_eq_false] at hhex
      refine ⟨String.ofList (rest.takeWhile (· ≠ ':')), ⟨?_, by simpa using hkind, ?_⟩, ?_⟩
      · intro hnil
        by_cases hexpected : expected = ""
        · exact hempty ⟨hexpected, hnil⟩
        · exact hwant ⟨hexpected, fun heq => hexpected (heq ▸ hnil)⟩
      · refine ⟨key, hhex.1, hhex.2, ?_⟩
        rw [hmark] at hfront
        rw [← hrest, String.toList_ofList, ← hfront]
      · intro hexpected
        by_contra hne
        exact hwant ⟨hexpected, hne⟩
  · rintro ⟨kind, ⟨hne, hcolon, key, hlength, hhex, hvid⟩, hexpected⟩
    have hstart : hasPrefix vid (scopedVidPrefix d input) = true := by
      rw [hasPrefix_iff, hvid]
      exact List.prefix_append _ _
    have hkind : ∀ c ∈ kind.toList, decide (c ≠ ':') = true := by
      intro c hc
      rw [decide_eq_true_iff]
      rintro rfl
      exact hcolon hc
    rw [hstart, hvid, List.drop_left, List.takeWhile_append_of_pos hkind,
      List.dropWhile_append_of_pos hkind]
    have hkey := colon_notMem_of_isLowerHex hhex
    have hname : ¬(expected ≠ "" ∧ kind ≠ expected) := fun hand => hand.2 (hexpected hand.1)
    simp [hne, hname, hkey, hlength, hhex]

/-- The identity has the scope of the payload. -/
def SameScope (v : VertexIdentity) (input : RenderedStatementWrite) : Prop :=
  v.orgId = input.orgId ∧ v.workspaceId = input.workspaceId ∧ v.repoId = input.repoId ∧
    v.commitHash = input.commitHash ∧ v.schemaVersion = input.schemaVersion ∧
    v.builderVersion = input.builderVersion

theorem isLowerHex_hashParts (d : HexDigests) (parts : List String) :
    isLowerHex (hashParts d.toDigests parts 32).toList = true := by
  have hlength := VertexIdentity.length_hashParts d parts (show 32 ≤ 64 by decide)
  unfold isLowerHex
  rw [Bool.and_eq_true, decide_eq_true_iff, List.all_eq_true]
  constructor
  · intro hnil
    rw [hnil] at hlength
    exact absurd hlength (by decide)
  · intro c hc
    rw [hashParts, String.toList_ofList] at hc
    exact d.isLower_sha256Hex _ c (List.mem_of_mem_take hc)

theorem scopedVid_vid {d : HexDigests} {v : VertexIdentity} (hscope : SameScope v input)
    (hkind : v.kind ≠ "") (hcolon : ':' ∉ v.kind.toList) :
    ScopedVid d.toDigests input (v.vid d.toDigests) v.kind where
  kind_ne := hkind
  colon_notMem := hcolon
  eq_append := by
    obtain ⟨horg, hws, hrepo, hcommit, hschema, hbuilder⟩ := hscope
    refine ⟨(hashParts d.toDigests v.parts 32).toList, VertexIdentity.length_hashParts d _ (by decide),
      isLowerHex_hashParts d _, ?_⟩
    unfold VertexIdentity.vid scopedVidPrefix
    rw [horg, hws, hrepo, hcommit, hschema, hbuilder]
    simp only [String.toList_append, String.toList_intercalate, List.map_cons, List.map_nil,
      List.intercalate_cons_cons, List.intercalate_singleton, List.append_assoc]
    rfl

end ScopedVids

/-! ## Rows of the scope -/

section Rows

variable {d : Digests} {input : RenderedStatementWrite} {row : Row} {f : String → List Lexeme}
  {separators : Bool} {vid kind source fromVid toVid : String} {rank : ℤ}

/-- The scope columns have the payload's values. -/
def ScopeColumns (input : RenderedStatementWrite) (f : String → List Lexeme) : Prop :=
  ∀ column ∈ wantedValues input, lexemeText (f column.1) = column.2.toList

theorem lookup_wantedValues :
    ∀ column ∈ wantedValues input, (wantedValues input).lookup column.1 = some column.2 := by
  intro column hcolumn
  simp only [wantedValues, List.mem_cons, List.not_mem_nil, or_false] at hcolumn
  rcases hcolumn with rfl | rfl | rfl | rfl | rfl | rfl | rfl <;> rfl

theorem mem_props_of_mem_wantedValues :
    ∀ column ∈ wantedValues input, column.1 ∈ nodeProps ∧ column.1 ∈ edgeProps := by
  have hnames : ∀ name ∈ (wantedValues input).map Prod.fst,
      name ∈ nodeProps ∧ name ∈ edgeProps := by
    change ∀ name ∈ ["orgId", "workspaceId", "repoId", "revision", "commitHash", "schemaVersion",
      "builderVersion"], name ∈ nodeProps ∧ name ∈ edgeProps
    decide
  exact fun column hcolumn => hnames column.1 (List.mem_map_of_mem hcolumn)

theorem validateScopeValues_row {props : List String} (hvalues : row.values = props.map f)
    (hprops : ∀ column ∈ wantedValues input, column.1 ∈ props) :
    validateScopeValues (row.values.map lexemeText) props input = .ok () ↔
      ScopeColumns input f := by
  have hcheck : ∀ prop ∈ props, validateScopeValue input prop (lexemeText (f prop)) = .ok () ↔
      ∀ expected, (wantedValues input).lookup prop = some expected →
        lexemeText (f prop) = expected.toList := by
    intro prop hprop
    have htrim : trimSpaceChars (lexemeText (f prop)) = lexemeText (f prop) := by
      apply (row.isWord_value (f prop) _).trimSpaceChars
      rw [hvalues]
      exact List.mem_map_of_mem hprop
    unfold validateScopeValue
    rw [htrim]
    cases (wantedValues input).lookup prop with
    | none => simp
    | some expected =>
      simp only [Option.some.injEq, forall_eq']
      simp [failure, ← String.toList_inj]
  unfold validateScopeValues
  rw [if_neg (by simp [hvalues]), hvalues, List.map_map, ← List.map_prod_left_eq_zip, forM_eq_ok,
    List.forall_mem_map]
  constructor
  · intro hall column hcolumn
    have hprop := hprops column hcolumn
    exact (hcheck column.1 hprop).1 (hall column.1 hprop) _ (lookup_wantedValues column hcolumn)
  · intro hscope prop hprop
    refine (hcheck prop hprop).2 fun expected hwanted => ?_
    obtain ⟨before, after, hlist, -⟩ := List.lookup_eq_some_iff.1 hwanted
    exact hscope (prop, expected) (by rw [hlist]; simp)

theorem InsertKind.validateRow_eq_ok (kind : InsertKind) (hvalues : row.values = kind.props.map f)
    (hprops : ∀ column ∈ wantedValues input, column.1 ∈ kind.props) :
    kind.validateRow d input (lexemeText row.lexemes) = .ok () ↔
      kind.identity d (lexemeText row.lexemes) (row.values.map lexemeText) input = .ok () ∧
        ScopeColumns input f := by
  unfold InsertKind.validateRow
  rw [row.parseInsertRowValues_eq, ← validateScopeValues_row hvalues hprops]
  simp only [bind, Except.bind]
  cases kind.identity d (lexemeText row.lexemes) (row.values.map lexemeText) input with
  | error e => simp
  | ok u => simp

theorem validateRow_vertex (htarget : row.target = [literal separators vid])
    (hvalues : row.values = nodeProps.map f) (hkind : f "kind" = [literal separators kind]) :
    vertexInsert.validateRow d input (lexemeText row.lexemes) = .ok () ↔
      (∃ named, ScopedVid d input vid named ∧ (kind ≠ "" → named = kind)) ∧
        ScopeColumns input f := by
  obtain ⟨later, hlater⟩ : ∃ later, row.values.map lexemeText =
      (jsonLiteral separators kind).toList :: later := by
    rw [hvalues, nodeProps, List.map_cons, List.map_cons, hkind, lexemeText_literal]
    exact ⟨_, rfl⟩
  have htext : lexemeText row.target = (jsonLiteral separators vid).toList := by
    rw [htarget, lexemeText_literal]
  have hident : validateVertexRowIdentity d (lexemeText row.lexemes) (row.values.map lexemeText)
      input = validateScopedVID d vid kind input := by
    unfold validateVertexRowIdentity
    rw [row.indexOutside_colon, hlater]
    simp only [bind, Except.bind]
    rw [row.take_target, htext, trimSpaceChars_jsonLiteral, parseStringLiteral_jsonLiteral,
      trimSpaceChars_jsonLiteral, parseStringLiteral_jsonLiteral]
    rfl
  rw [InsertKind.validateRow_eq_ok vertexInsert hvalues
    fun column hcolumn => (mem_props_of_mem_wantedValues column hcolumn).1,
    ← validateScopedVID_eq_ok, ← hident]
  rfl

theorem parseInt64_toString {n : ℤ} (hlo : 0 ≤ n) (hhi : n < 2 ^ 63) :
    parseInt64 (toString n).toList = some n := by
  obtain ⟨m, rfl⟩ := Int.eq_ofNat_of_zero_le hlo
  have hdigits : parseDigits (Nat.toDigits 10 m) = some m := by
    have hall : (Nat.toDigits 10 m).all Char.isDigit = true := by
      rw [List.all_eq_true]
      exact fun c hc => Nat.isDigit_of_mem_toDigits (by decide) (by decide) hc
    have hvalue : (Nat.toDigits 10 m).foldl (fun n c => 10 * n + (c.toNat - 48)) 0 = m :=
      Nat.ofDigitChars_toDigits (by decide) (by decide)
    unfold parseDigits
    rw [hvalue, hall, if_neg (by simp [Nat.toDigits_ne_nil])]
  have hunsigned : ∀ sign ∈ ['-', '+'], ∀ cs, Nat.toDigits 10 m ≠ sign :: cs := by
    intro sign hsign cs heq
    have hnot : ∀ sign ∈ ['-', '+'], sign.isDigit = false := by decide
    have hdigit := Nat.isDigit_of_mem_toDigits (b := 10) (n := m) (c := sign) (by decide)
      (by decide) (by rw [heq]; exact List.mem_cons_self)
    rw [hnot sign hsign] at hdigit
    simp at hdigit
  rw [toList_toString_int, if_neg (by omega), Int.natAbs_natCast]
  unfold parseInt64
  dsimp only
  split
  · rename_i cs heq
    exact absurd heq (hunsigned _ (by decide) cs)
  · rename_i cs heq
    exact absurd heq (hunsigned _ (by decide) cs)
  · rw [hdigits]
    refine Option.filter_some.trans (if_pos ?_)
    simp only [Bool.and_eq_true, decide_eq_true_eq]
    omega

theorem parseRank_toString {n : ℤ} (hlo : 0 ≤ n) (hhi : n ≤ 0xFFFFFFFF) :
    parseRank (toString n).toList = .ok n := by
  unfold parseRank
  rw [parseInt64_toString hlo (by omega), Option.filter_some, if_pos (by simp [hlo, hhi])]

theorem validateRow_edge (htarget : row.target = edgeTarget separators fromVid toVid rank)
    (hvalues : row.values = edgeProps.map f) (hkind : f "kind" = [literal separators kind])
    (hsource : f "source" = [literal separators source]) (hlo : 0 ≤ rank)
    (hhi : rank ≤ 0xFFFFFFFF) :
    edgeInsert.validateRow d input (lexemeText row.lexemes) = .ok () ↔
      (rank = d.edgeRank (fromVid ++ "->" ++ toVid ++ ":" ++ kind ++ ":" ++ source) ∧
        (∃ kind, ScopedVid d input fromVid kind) ∧ ∃ kind, ScopedVid d input toVid kind) ∧
        ScopeColumns input f := by
  obtain ⟨later, hlater⟩ : ∃ later, row.values.map lexemeText =
      (jsonLiteral separators kind).toList :: later := by
    rw [hvalues, edgeProps, List.map_cons, List.map_cons, hkind, lexemeText_literal]
    exact ⟨_, rfl⟩
  have hsourceIdx : edgeSource (row.values.map lexemeText) = .ok source := by
    have hidx : edgePropsIndex "source" = some 14 := by decide
    have hvalue : (row.values.map lexemeText)[14]? = some (jsonLiteral separators source).toList := by
      rw [hvalues, ← lexemeText_literal, ← hsource]
      rfl
    unfold edgeSource
    rw [hidx, Option.bind_some, hvalue]
    dsimp only
    rw [trimSpaceChars_jsonLiteral, parseStringLiteral_jsonLiteral]
    rfl
  have hends : ∀ {vid : String}, validateScopedVID d vid "" input = .ok () ↔
      ∃ kind, ScopedVid d input vid kind := by
    intro vid
    simp [validateScopedVID_eq_ok]
  have hident : validateEdgeRowIdentity d (lexemeText row.lexemes) (row.values.map lexemeText)
      input = .ok () ↔
        rank = d.edgeRank (fromVid ++ "->" ++ toVid ++ ":" ++ kind ++ ":" ++ source) ∧
          (∃ kind, ScopedVid d input fromVid kind) ∧ ∃ kind, ScopedVid d input toVid kind := by
    unfold validateEdgeRowIdentity
    rw [row.indexOutside_colon, hlater]
    simp only [bind, Except.bind]
    rw [row.take_target, row.isWord_target.trimSpaceChars, htarget, splitEdgeTarget_edgeTarget]
    simp only [parseStringLiteral_jsonLiteral, trimSpaceChars_jsonLiteral, withContext,
      Except.mapError, parseRank_toString hlo hhi]
    rw [← hlater, hsourceIdx, ← hends, ← hends]
    by_cases hrank :
        rank = d.edgeRank (fromVid ++ "->" ++ toVid ++ ":" ++ kind ++ ":" ++ source)
    · simp only [← hrank, ne_eq, not_true_eq_false, if_false, true_and]
      cases validateScopedVID d fromVid "" input with
      | error e => simp
      | ok u => cases validateScopedVID d toVid "" input <;> simp
    · simp [hrank, failure]
  rw [InsertKind.validateRow_eq_ok edgeInsert hvalues
    fun column hcolumn => (mem_props_of_mem_wantedValues column hcolumn).2, ← hident]
  rfl

end Rows

/-! ## Batches -/

section Batches

variable {d : Digests} {input : RenderedStatementWrite} {counts : ℕ × ℕ} {i : ℕ}

theorem validateStatements_append {first later : List String}
    (h : validateStatements d input i first = .ok counts) :
    validateStatements d input i (first ++ later) =
      (validateStatements d input (i + first.length) later).map fun more =>
        (counts.1 + more.1, counts.2 + more.2) := by
  induction first generalizing i counts with
  | nil =>
    cases h
    rw [List.nil_append, List.length_nil, Nat.add_zero]
    cases validateStatements d input i later <;> simp [Except.map]
  | cons stmt first ih =>
    obtain ⟨here, hhere, h⟩ := bind_eq_ok.1 h
    obtain ⟨counts', hrest, h⟩ := bind_eq_ok.1 h
    cases h
    rw [List.cons_append, validateStatements, hhere]
    simp only [bind, Except.bind]
    rw [ih hrest, List.length_cons, Nat.add_right_comm]
    cases validateStatements d input (i + first.length + 1) later <;>
      simp [Except.map, pure, Except.pure, Nat.add_assoc]

/-- How a renderer writes the values of one kind: the text of each and its row. -/
structure RowFormat (V : Type) where
  text : V → String
  row : V → Row
  lexemeText_row : ∀ v, lexemeText (row v).lexemes = (text v).toList
  separated_row : ∀ v, Separated (row v).lexemes

def RowFormat.statement {V : Type} (format : RowFormat V) (kind : InsertKind) (batch : List V) :
    String :=
  kind.pre ++ ", ".intercalate (batch.map format.text) ++ ";"

theorem RowFormat.map_rows {V : Type} (format : RowFormat V) (batch : List V) :
    (batch.map format.row).map (fun row => lexemeText row.lexemes) =
      (batch.map format.text).map String.toList := by
  rw [List.map_map, List.map_map]
  exact List.map_congr_left fun v _ => format.lexemeText_row v

theorem RowFormat.validateStatement_eq_ok {V : Type} (format : RowFormat V) {kind : InsertKind}
    {count : ℕ → ℕ × ℕ} (hkind : kind.Counts count) {batch : List V} (hne : batch ≠ []) :
    validateStatement d input i (format.statement kind batch) = .ok counts ↔
      (∀ v ∈ batch, kind.validateRow d input (lexemeText (format.row v).lexemes) = .ok ()) ∧
        counts = count batch.length := by
  have hrows : batch.map format.row ≠ [] := by simpa using hne
  rw [RowFormat.statement, validateStatement_rows hkind hrows
    (List.forall_mem_map.2 fun v _ => format.separated_row v) (format.map_rows batch),
    List.forall_mem_map, List.length_map]

theorem RowFormat.validateStatements_batches {V : Type} (format : RowFormat V) {kind : InsertKind}
    {count : ℕ → ℕ × ℕ} (hkind : kind.Counts count) {batches : List (List V)}
    (hne : ∀ batch ∈ batches, batch ≠ [])
    (hrows : ∀ v ∈ batches.flatten,
      kind.validateRow d input (lexemeText (format.row v).lexemes) = .ok ()) (i : ℕ) :
    validateStatements d input i (batches.map (format.statement kind)) =
      .ok (count batches.flatten.length) := by
  have hadd : ∀ m n, count (m + n) = ((count m).1 + (count n).1, (count m).2 + (count n).2) := by
    cases hkind <;> simp
  induction batches generalizing i with
  | nil => cases hkind <;> rfl
  | cons batch batches ih =>
    obtain ⟨hbatch, hne⟩ := List.forall_mem_cons.1 hne
    rw [List.flatten_cons, List.forall_mem_append] at hrows
    rw [List.map_cons, validateStatements,
      (format.validateStatement_eq_ok hkind hbatch).2 ⟨hrows.1, rfl⟩, ih hne hrows.2,
      List.flatten_cons, List.length_append, hadd]
    rfl

theorem RowFormat.validateRow_of_statements {V : Type} (format : RowFormat V) {kind : InsertKind}
    {count : ℕ → ℕ × ℕ} (hkind : kind.Counts count) {batches : List (List V)}
    (hne : ∀ batch ∈ batches, batch ≠ [])
    (hall : ∀ stmt ∈ batches.map (format.statement kind), ∃ j here,
      validateStatement d input j stmt = .ok here) :
    ∀ v ∈ batches.flatten,
      kind.validateRow d input (lexemeText (format.row v).lexemes) = .ok () := by
  intro v hv
  obtain ⟨batch, hbatch, hmem⟩ := List.mem_flatten.1 hv
  obtain ⟨j, here, hok⟩ := hall _ (List.mem_map_of_mem hbatch)
  exact ((format.validateStatement_eq_ok hkind (hne batch hbatch)).1 hok).1 v hmem

section Snapshot

variable {V E : Type} {vertexFormat : RowFormat V} {edgeFormat : RowFormat E}
  {vertexBatches : List (List V)} {edgeBatches : List (List E)}

/-- The schema followed by INSERT statements over rows that pass is accepted, and every row
is counted. -/
theorem validateRenderedStatementWrite_batches (hscope : validateRenderedScope input = .ok ())
    (hstatements : input.statements = renderSchemaStatements ++
      vertexBatches.map (vertexFormat.statement vertexInsert) ++
        edgeBatches.map (edgeFormat.statement edgeInsert))
    (hvne : ∀ batch ∈ vertexBatches, batch ≠ []) (hene : ∀ batch ∈ edgeBatches, batch ≠ [])
    (hvertices : ∀ v ∈ vertexBatches.flatten,
      vertexInsert.validateRow d input (lexemeText (vertexFormat.row v).lexemes) = .ok ())
    (hedges : ∀ e ∈ edgeBatches.flatten,
      edgeInsert.validateRow d input (lexemeText (edgeFormat.row e).lexemes) = .ok ()) :
    validateRenderedStatementWrite d input =
      .ok (vertexBatches.flatten.length, edgeBatches.flatten.length) := by
  rw [validateRenderedStatementWrite_eq_ok]
  refine ⟨hscope, _, by rw [hstatements, List.append_assoc], ?_⟩
  rw [validateStatements_append (vertexFormat.validateStatements_batches .vertices hvne hvertices _),
    edgeFormat.validateStatements_batches .edges hene hedges]
  simp [Except.map]

theorem validateRow_of_accepted {counts : ℕ × ℕ}
    (haccepted : validateRenderedStatementWrite d input = .ok counts)
    (hstatements : input.statements = renderSchemaStatements ++
      vertexBatches.map (vertexFormat.statement vertexInsert) ++
        edgeBatches.map (edgeFormat.statement edgeInsert))
    (hvne : ∀ batch ∈ vertexBatches, batch ≠ []) (hene : ∀ batch ∈ edgeBatches, batch ≠ []) :
    (∀ v ∈ vertexBatches.flatten,
      vertexInsert.validateRow d input (lexemeText (vertexFormat.row v).lexemes) = .ok ()) ∧
    ∀ e ∈ edgeBatches.flatten,
      edgeInsert.validateRow d input (lexemeText (edgeFormat.row e).lexemes) = .ok () := by
  obtain ⟨-, inserts, hinserts, hchecked⟩ := validateRenderedStatementWrite_eq_ok.1 haccepted
  rw [hstatements, List.append_assoc] at hinserts
  obtain rfl := List.append_cancel_left hinserts
  have hall := List.forall_mem_append.1 (validateStatements_eq_ok hchecked)
  exact ⟨vertexFormat.validateRow_of_statements .vertices hvne hall.1,
    edgeFormat.validateRow_of_statements .edges hene hall.2⟩

end Snapshot

end Batches

end CodeIntel.Graphstore
