import CodeIntel.Text.GoString

/-!
# JSON string literals

The string encoders of Go's `encoding/json` and of `serde_json`, which differ on
two characters only, and the decoder of `encoding/json`. Decoding what either of
them writes gives the string back.
-/

namespace CodeIntel.Text

/-! ## Encoding -/

/-- U+2028 and U+2029, which end a line in JavaScript. -/
def isSeparator (c : Char) : Bool :=
  c.toNat = 0x2028 || c.toNat = 0x2029

/-- The characters written as `\u` and four digits; Go escapes the line separators too. -/
def isCodeEscaped (separators : Bool) (c : Char) : Bool :=
  c.toNat < 0x20 || separators && isSeparator c

/-- The two-character escapes, by the character they stand for. -/
def shortEscapes : List (Char × Char) :=
  [('"', '"'), ('\\', '\\'), ('\x08', 'b'), ('\x0c', 'f'), ('\n', 'n'), ('\r', 'r'), ('\t', 't')]

def codeEscape (n : ℕ) : List Char :=
  ['\\', 'u', Nat.digitChar (n / 4096), Nat.digitChar (n / 256 % 16), Nat.digitChar (n / 16 % 16),
    Nat.digitChar (n % 16)]

def escapeChar (separators : Bool) (c : Char) : List Char :=
  match shortEscapes.lookup c with
  | some letter => ['\\', letter]
  | none => if isCodeEscaped separators c then codeEscape c.toNat else [c]

def jsonBody (separators : Bool) (cs : List Char) : List Char :=
  cs.flatMap (escapeChar separators)

def jsonLiteral (separators : Bool) (s : String) : String :=
  String.ofList ('"' :: (jsonBody separators s.toList ++ ['"']))

theorem jsonLiteral_false_eq {s : String} (h : ∀ c ∈ s.toList, isSeparator c = false) :
    jsonLiteral false s = jsonLiteral true s := by
  have hbody : jsonBody false s.toList = jsonBody true s.toList := by
    unfold jsonBody
    rw [List.flatMap_def, List.flatMap_def]
    congr 1
    refine List.map_congr_left fun c hc => ?_
    have hcode : isCodeEscaped false c = isCodeEscaped true c := by
      simp [isCodeEscaped, h c hc]
    rw [escapeChar, escapeChar, hcode]
  rw [jsonLiteral, jsonLiteral, hbody]

/-! ## Decoding -/

/-- `json.SyntaxError`. -/
inductive JsonError where
  | unexpectedEnd
  | invalidCharacter (c : Char) (context : String)
  deriving DecidableEq, Repr

/-- What one step of the decoder finds: a character, or a UTF-16 code unit. -/
inductive JsonUnit where
  | char (c : Char)
  | code (n : ℕ)
  deriving DecidableEq, Repr

/-- The states of the scanner inside a string. -/
inductive JsonMode where
  | text
  | escape
  | hex (left value : ℕ)
  deriving DecidableEq, Repr

def hexDigitValue (c : Char) : Option ℕ :=
  if '0' ≤ c && c ≤ '9' then some (c.toNat - 48)
  else if 'a' ≤ c && c ≤ 'f' then some (c.toNat - 87)
  else if 'A' ≤ c && c ≤ 'F' then some (c.toNat - 55)
  else none

/-- The scanner works on bytes and names the first byte of what it cannot read. -/
def leadByte (c : Char) : Char :=
  let n := c.toNat
  if n < 0x80 then c
  else if n < 0x800 then Char.ofNat (0xC0 + n / 64)
  else if n < 0x10000 then Char.ofNat (0xE0 + n / 4096)
  else Char.ofNat (0xF0 + n / 262144)

/-- The character an escape letter stands for; the solidus may be escaped too. -/
def escapedLetter (letter : Char) : Option Char :=
  if letter = '/' then some '/'
  else (shortEscapes.find? fun entry => entry.2 = letter).map Prod.fst

def consUnit (u : JsonUnit) (result : Except JsonError (List JsonUnit × List Char)) :
    Except JsonError (List JsonUnit × List Char) :=
  result.map fun read => (u :: read.1, read.2)

/-- Reads a string up to its closing quote and returns what follows the quote. -/
def jsonUnits : JsonMode → List Char → Except JsonError (List JsonUnit × List Char)
  | _, [] => .error .unexpectedEnd
  | .text, c :: rest =>
    if c = '"' then .ok ([], rest)
    else if c = '\\' then jsonUnits .escape rest
    else if c.toNat < 0x20 then .error (.invalidCharacter c "in string literal")
    else consUnit (.char c) (jsonUnits .text rest)
  | .escape, c :: rest =>
    match escapedLetter c with
    | some e => consUnit (.char e) (jsonUnits .text rest)
    | none =>
      if c = 'u' then jsonUnits (.hex 3 0) rest
      else .error (.invalidCharacter (leadByte c) "in string escape code")
  | .hex left value, c :: rest =>
    match hexDigitValue c with
    | none => .error (.invalidCharacter (leadByte c) "in \\u hexadecimal character escape")
    | some digit =>
      match left with
      | 0 => consUnit (.code (16 * value + digit)) (jsonUnits .text rest)
      | left + 1 => jsonUnits (.hex left (16 * value + digit)) rest

def isHighSurrogate (n : ℕ) : Bool := 0xD800 ≤ n && n < 0xDC00

def isLowSurrogate (n : ℕ) : Bool := 0xDC00 ≤ n && n < 0xE000

/-- A surrogate on its own is replaced. -/
def codeChar (n : ℕ) : Char :=
  if isLowSurrogate n then '\uFFFD' else Char.ofNat n

def loneSurrogate (high : Option ℕ) : List Char :=
  high.elim [] fun _ => ['\uFFFD']

/-- Joins the two surrogates of a character; the first argument is a high surrogate still
waiting for its other half. -/
def resolveUnits : Option ℕ → List JsonUnit → List Char
  | high, [] => loneSurrogate high
  | high, .char c :: us => loneSurrogate high ++ c :: resolveUnits none us
  | high, .code n :: us =>
    match high.filter fun _ => isLowSurrogate n with
    | some m => Char.ofNat (0x10000 + (m - 0xD800) * 1024 + (n - 0xDC00)) :: resolveUnits none us
    | none =>
      if isHighSurrogate n then loneSurrogate high ++ resolveUnits (some n) us
      else loneSurrogate high ++ codeChar n :: resolveUnits none us

def isJsonSpace (c : Char) : Bool :=
  c = ' ' || c = '\t' || c = '\r' || c = '\n'

/-- `json.Unmarshal` into a string, of a text that begins with the given quote. -/
def unmarshalString (afterQuote : List Char) : Except JsonError String :=
  match jsonUnits .text afterQuote with
  | .error e => .error e
  | .ok (units, rest) =>
    match rest.dropWhile isJsonSpace with
    | [] => .ok (String.ofList (resolveUnits none units))
    | c :: _ => .error (.invalidCharacter (leadByte c) "after top-level value")

/-! ## Round trip -/

variable {separators : Bool}

section RoundTrip

theorem hexDigitValue_digitChar : ∀ n < 16, hexDigitValue (Nat.digitChar n) = some n := by
  decide

theorem lookup_shortEscapes : ∀ entry ∈ shortEscapes, escapedLetter entry.2 = some entry.1 := by
  decide

theorem ne_of_lookup_eq_none {c : Char} (h : shortEscapes.lookup c = none) :
    c ≠ '"' ∧ c ≠ '\\' := by
  have hplain : ∀ entry ∈ shortEscapes, c ≠ entry.1 := by
    intro entry hentry heq
    have hfound := List.lookup_eq_none_iff.1 h entry hentry
    simp [heq] at hfound
  exact ⟨hplain ('"', '"') (by decide), hplain ('\\', '\\') (by decide)⟩

theorem jsonUnits_codeEscape {n : ℕ} (hn : n < 0x10000) (rest : List Char) :
    jsonUnits .text (codeEscape n ++ rest) = consUnit (.code n) (jsonUnits .text rest) := by
  have hu : escapedLetter 'u' = none := by decide
  have hvalue : 16 * (16 * (16 * (16 * 0 + n / 4096) + n / 256 % 16) + n / 16 % 16) + n % 16 = n := by
    omega
  simp only [codeEscape, List.cons_append, List.nil_append, jsonUnits, hu,
    hexDigitValue_digitChar _ (by omega : n / 4096 < 16),
    hexDigitValue_digitChar _ (by omega : n / 256 % 16 < 16),
    hexDigitValue_digitChar _ (by omega : n / 16 % 16 < 16),
    hexDigitValue_digitChar _ (by omega : n % 16 < 16), hvalue]
  rfl

/-- How the decoder sees an encoded character. -/
def unitOf (separators : Bool) (c : Char) : JsonUnit :=
  match shortEscapes.lookup c with
  | some _ => .char c
  | none => if isCodeEscaped separators c then .code c.toNat else .char c

theorem toNat_lt_of_isCodeEscaped {c : Char} (h : isCodeEscaped separators c = true) :
    c.toNat < 0xD800 := by
  simp only [isCodeEscaped, isSeparator, Bool.or_eq_true, Bool.and_eq_true,
    decide_eq_true_eq] at h
  omega

theorem jsonUnits_escapeChar (c : Char) (rest : List Char) :
    jsonUnits .text (escapeChar separators c ++ rest) =
      consUnit (unitOf separators c) (jsonUnits .text rest) := by
  unfold escapeChar unitOf
  cases hlookup : shortEscapes.lookup c with
  | some letter =>
    have hmem : (c, letter) ∈ shortEscapes := by
      obtain ⟨l₁, l₂, hl, -⟩ := List.lookup_eq_some_iff.1 hlookup
      simp [hl]
    have hread := lookup_shortEscapes _ hmem
    simp only [List.cons_append, List.nil_append, jsonUnits, hread]
    rfl
  | none =>
    split_ifs with hcode
    · exact jsonUnits_codeEscape (Nat.lt_trans (toNat_lt_of_isCodeEscaped hcode) (by decide)) rest
    · obtain ⟨hquote, hslash⟩ := ne_of_lookup_eq_none hlookup
      have hcontrol : ¬c.toNat < 0x20 := by
        intro hlt
        exact hcode (by simp [isCodeEscaped, hlt])
      simp only [List.cons_append, List.nil_append, jsonUnits, hquote, hslash, hcontrol, if_false]

theorem jsonUnits_jsonBody (cs rest : List Char) :
    jsonUnits .text (jsonBody separators cs ++ '"' :: rest) =
      .ok (cs.map (unitOf separators), rest) := by
  induction cs with
  | nil => rfl
  | cons c cs ih =>
    unfold jsonBody at ih ⊢
    rw [List.flatMap_cons, List.append_assoc, jsonUnits_escapeChar, ih]
    rfl

theorem resolveUnits_unitOf (cs : List Char) :
    resolveUnits none (cs.map (unitOf separators)) = cs := by
  induction cs with
  | nil => rfl
  | cons c cs ih =>
    have hunit : unitOf separators c = .char c ∨
        unitOf separators c = .code c.toNat ∧ c.toNat < 0xD800 := by
      unfold unitOf
      split
      · exact .inl rfl
      · split_ifs with hcode
        · exact .inr ⟨rfl, toNat_lt_of_isCodeEscaped hcode⟩
        · exact .inl rfl
    rw [List.map_cons]
    obtain hchar | ⟨hcode, hlt⟩ := hunit
    · rw [hchar, resolveUnits, ih]
      rfl
    · have hhigh : isHighSurrogate c.toNat = false := by
        simp only [isHighSurrogate, Bool.and_eq_false_iff, decide_eq_false_iff_not]
        omega
      have hlow : isLowSurrogate c.toNat = false := by
        simp only [isLowSurrogate, Bool.and_eq_false_iff, decide_eq_false_iff_not]
        omega
      have hself : codeChar c.toNat = c := by
        simp [codeChar, hlow, Char.ofNat_toNat]
      rw [hcode, resolveUnits, hself, hhigh, ih]
      rfl

/-- Decoding an encoded string gives the string back, whichever encoder wrote it. -/
theorem unmarshalString_jsonBody (s : String) :
    unmarshalString (jsonBody separators s.toList ++ ['"']) = .ok s := by
  unfold unmarshalString
  rw [jsonUnits_jsonBody]
  simp [resolveUnits_unitOf]

end RoundTrip

/-! ## Closed bodies -/

/-- The text contains no end of a literal with this quote: every quote is escaped and the
text does not break off after a backslash. -/
def isClosedBody (quote : Char) : Bool → List Char → Bool
  | escaped, [] => !escaped
  | true, _ :: rest => isClosedBody quote false rest
  | false, c :: rest =>
    if c = '\\' then isClosedBody quote true rest else c ≠ quote && isClosedBody quote false rest

section ClosedBody

variable {quote : Char}

theorem isClosedBody_append {front back : List Char} {escaped : Bool}
    (hfront : isClosedBody quote escaped front = true) :
    isClosedBody quote escaped (front ++ back) = isClosedBody quote false back := by
  induction front generalizing escaped with
  | nil => cases escaped <;> simp_all [isClosedBody]
  | cons c front ih =>
    cases escaped with
    | true => exact ih hfront
    | false =>
      rw [List.cons_append]
      simp only [isClosedBody] at hfront ⊢
      split_ifs at hfront ⊢ with hc
      · exact ih hfront
      · rw [Bool.and_eq_true] at hfront
        rw [hfront.1, Bool.true_and, ih hfront.2]

theorem isClosedBody_escapeChar (c : Char) :
    isClosedBody '"' false (escapeChar separators c) = true := by
  unfold escapeChar
  cases hlookup : shortEscapes.lookup c with
  | some letter => rfl
  | none =>
    split_ifs with hcode
    · have hdigit : ∀ n < 16, Nat.digitChar n ≠ '"' ∧ Nat.digitChar n ≠ '\\' := by decide
      have hlt := toNat_lt_of_isCodeEscaped hcode
      simp [codeEscape, isClosedBody, hdigit _ (by omega : c.toNat / 4096 < 16),
        hdigit _ (by omega : c.toNat / 256 % 16 < 16), hdigit _ (by omega : c.toNat / 16 % 16 < 16),
        hdigit _ (by omega : c.toNat % 16 < 16)]
    · obtain ⟨hquote, hslash⟩ := ne_of_lookup_eq_none hlookup
      simp [isClosedBody, hquote, hslash]

theorem isClosedBody_jsonBody (cs : List Char) :
    isClosedBody '"' false (jsonBody separators cs) = true := by
  induction cs with
  | nil => rfl
  | cons c cs ih =>
    unfold jsonBody at ih ⊢
    rw [List.flatMap_cons, isClosedBody_append (isClosedBody_escapeChar c), ih]

theorem exists_of_consUnit {u : JsonUnit} {result : Except JsonError (List JsonUnit × List Char)}
    {units : List JsonUnit} {rest : List Char} (h : consUnit u result = .ok (units, rest)) :
    ∃ units', result = .ok (units', rest) := by
  cases result with
  | error e => simp [consUnit, Except.map] at h
  | ok read =>
    simp only [consUnit, Except.map, Except.ok.injEq, Prod.mk.injEq] at h
    exact ⟨read.1, by rw [← h.2]⟩

theorem ne_of_hexDigitValue {c : Char} {digit : ℕ} (h : hexDigitValue c = some digit) :
    c ≠ '"' ∧ c ≠ '\\' := by
  constructor <;> rintro rfl <;> simp [hexDigitValue] at h

/-- What the scanner accepts is a closed body with its quote. The induction follows the
input; only the mode after a backslash remembers anything about closing. -/
theorem exists_closed_of_jsonUnits {mode : JsonMode} {cs rest : List Char}
    {units : List JsonUnit} (h : jsonUnits mode cs = .ok (units, rest)) :
    ∃ body, cs = body ++ '"' :: rest ∧ isClosedBody '"' (mode = .escape) body = true := by
  induction cs generalizing mode units with
  | nil => cases mode <;> simp [jsonUnits] at h
  | cons c cs ih =>
    cases mode with
    | text =>
      simp only [jsonUnits] at h
      split_ifs at h with hquote hslash hcontrol
      · rw [Except.ok.injEq, Prod.mk.injEq] at h
        exact ⟨[], by rw [hquote, h.2]; rfl, rfl⟩
      · obtain ⟨body, rfl, hbody⟩ := ih h
        exact ⟨c :: body, rfl, by simpa [isClosedBody, hslash] using hbody⟩
      · obtain ⟨units', h'⟩ := exists_of_consUnit h
        obtain ⟨body, rfl, hbody⟩ := ih h'
        exact ⟨c :: body, rfl, by simpa [isClosedBody, hslash, hquote] using hbody⟩
    | escape =>
      simp only [jsonUnits] at h
      have hrest : ∃ body, cs = body ++ '"' :: rest ∧ isClosedBody '"' false body = true := by
        split at h
        · obtain ⟨units', h'⟩ := exists_of_consUnit h
          exact ih h'
        · split_ifs at h
          exact ih h
      obtain ⟨body, rfl, hbody⟩ := hrest
      exact ⟨c :: body, rfl, by simpa [isClosedBody] using hbody⟩
    | hex left value =>
      simp only [jsonUnits] at h
      split at h
      · simp at h
      · rename_i digit hdigit
        obtain ⟨hquote, hslash⟩ := ne_of_hexDigitValue hdigit
        have hrest : ∃ body, cs = body ++ '"' :: rest ∧ isClosedBody '"' false body = true := by
          cases left with
          | zero =>
            obtain ⟨units', h'⟩ := exists_of_consUnit h
            exact ih h'
          | succ left => exact ih h
        obtain ⟨body, rfl, hbody⟩ := hrest
        exact ⟨c :: body, rfl, by simpa [isClosedBody, hslash, hquote] using hbody⟩

end ClosedBody

end CodeIntel.Text
