import Mathlib.Algebra.Ring.Int.Defs
import Mathlib.Data.List.DropRight
import Mathlib.Data.List.Infix
import Mathlib.Data.String.Basic
import Mathlib.Tactic.Common

/-!
# Strings as the services handle them

The parts of Go's `strings` package and of the SQL pattern operators that the
indexing services rely on. Every function works on the list of characters, so
that it evaluates on concrete inputs.
-/

namespace CodeIntel.Text

section Decidable

variable (p : Char → Prop) [DecidablePred p] (cs : List Char)

/-- A test of the characters of a text visits the text, not every character there is. -/
instance (priority := high) decidableForallMem : Decidable (∀ c ∈ cs, p c) :=
  List.decidableBAll p cs

instance (priority := high) decidableExistsMem : Decidable (∃ c ∈ cs, p c) :=
  List.decidableBEx p cs

end Decidable

/-- `unicode.IsSpace`. -/
def isSpace (c : Char) : Bool :=
  let n := c.toNat
  (9 ≤ n && n ≤ 13) || n = 32 || n = 0x85 || n = 0xA0 || n = 0x1680 ||
    (0x2000 ≤ n && n ≤ 0x200A) || n = 0x2028 || n = 0x2029 || n = 0x202F || n = 0x205F ||
    n = 0x3000

/-- `strings.TrimSpace` on characters. -/
def trimSpaceChars (cs : List Char) : List Char :=
  ((cs.dropWhile isSpace).reverse.dropWhile isSpace).reverse

/-- `strings.TrimSpace`. -/
def trimSpace (s : String) : String :=
  String.ofList (trimSpaceChars s.toList)

theorem dropWhile_rdropWhile (p : Char → Bool) (cs : List Char) :
    ((cs.dropWhile p).rdropWhile p).dropWhile p = (cs.dropWhile p).rdropWhile p := by
  have hself : (cs.dropWhile p).dropWhile p = cs.dropWhile p := List.dropWhile_idempotent p cs
  obtain ⟨rest, hrest⟩ := List.rdropWhile_prefix p (l := cs.dropWhile p)
  cases htrim : (cs.dropWhile p).rdropWhile p with
  | nil => rfl
  | cons a as =>
    rw [htrim, List.cons_append] at hrest
    have ha : ¬p a = true := by
      intro hp
      rw [← hrest, List.dropWhile_cons_of_pos hp] at hself
      have hlen := congrArg List.length hself
      have hle := (List.dropWhile_suffix (l := as ++ rest) p).length_le
      rw [List.length_cons] at hlen
      omega
    exact List.dropWhile_cons_of_neg ha

theorem trimSpaceChars_trimSpaceChars (cs : List Char) :
    trimSpaceChars (trimSpaceChars cs) = trimSpaceChars cs := by
  change (((cs.dropWhile isSpace).rdropWhile isSpace).dropWhile isSpace).rdropWhile isSpace = _
  rw [dropWhile_rdropWhile]
  exact List.rdropWhile_idempotent isSpace _

theorem trimSpace_trimSpace (s : String) : trimSpace (trimSpace s) = trimSpace s := by
  unfold trimSpace
  rw [String.toList_ofList, trimSpaceChars_trimSpaceChars]

theorem nodup_eraseDups {α : Type} [DecidableEq α] (values : List α) : values.eraseDups.Nodup := by
  induction hn : values.length using Nat.strong_induction_on generalizing values with
  | _ n ih =>
    cases values with
    | nil => simp
    | cons value rest =>
      rw [List.eraseDups_cons]
      have hlength : (rest.filter fun other => !other == value).length < n := by
        rw [← hn]
        exact Nat.lt_succ_of_le (List.length_filter_le _ _)
      refine List.nodup_cons.2 ⟨?_, ih _ hlength _ rfl⟩
      simp

/-- `strings.TrimSpace(s) == ""`. -/
def isBlank (s : String) : Bool :=
  s.toList.all isSpace

/-- `strings.ToUpper`, exact on strings whose upper case is ASCII. -/
def toUpper (s : String) : String :=
  String.ofList (s.toList.map fun c =>
    if c.toNat = 0x131 then 'I' else if c.toNat = 0x17F then 'S' else c.toUpper)

/-- `strings.ToLower`, exact as far as the lower case is ASCII. -/
def toLower (s : String) : String :=
  String.ofList (s.toList.map fun c =>
    if c.toNat = 0x130 then 'i' else if c.toNat = 0x212A then 'k' else c.toLower)

/-- The simple case fold of a character that folds to ASCII. -/
def foldChar (c : Char) : Char :=
  if c.toNat = 0x212A then 'k' else if c.toNat = 0x17F then 's' else c.toLower

/-- `strings.EqualFold` against an ASCII string. -/
def equalFold (s t : String) : Bool :=
  s.toList.map foldChar = t.toList.map foldChar

/-- A non-empty run of decimal digits. -/
def parseDigits (cs : List Char) : Option ℕ :=
  if cs.isEmpty || !cs.all Char.isDigit then none
  else some (cs.foldl (fun n c => 10 * n + (c.toNat - 48)) 0)

/-- `strconv.ParseInt(s, 10, 32)`. -/
def parseInt32 (s : String) : Option ℤ :=
  let value : Option ℤ := match s.toList with
    | '-' :: cs => (parseDigits cs).map fun n => -(n : ℤ)
    | '+' :: cs => (parseDigits cs).map fun n => (n : ℤ)
    | cs => (parseDigits cs).map fun n => (n : ℤ)
  value.filter fun n => -2 ^ 31 ≤ n && n < 2 ^ 31

/-- `strings.HasPrefix`. -/
def hasPrefix (s p : String) : Bool :=
  p.toList.isPrefixOf s.toList

/-- `strings.HasSuffix`. -/
def hasSuffix (s p : String) : Bool :=
  p.toList.isSuffixOf s.toList

theorem hasPrefix_iff {s p : String} : hasPrefix s p = true ↔ p.toList <+: s.toList :=
  List.isPrefixOf_iff_prefix

theorem hasSuffix_iff {s p : String} : hasSuffix s p = true ↔ p.toList <:+ s.toList :=
  List.isSuffixOf_iff_suffix

def hasAnySuffix (s : String) (suffixes : List String) : Bool :=
  suffixes.any (hasSuffix s)

/-- `strings.TrimPrefix`. -/
def trimPrefix (s p : String) : String :=
  if hasPrefix s p then String.ofList (s.toList.drop p.toList.length) else s

theorem trimPrefix_append (p s : String) : trimPrefix (p ++ s) p = s := by
  simp [trimPrefix, hasPrefix]

theorem append_trimPrefix {s p : String} (h : hasPrefix s p = true) : p ++ trimPrefix s p = s := by
  obtain ⟨rest, hrest⟩ := List.isPrefixOf_iff_prefix.1 h
  apply String.toList_inj.1
  unfold trimPrefix
  rw [if_pos h, String.toList_append, String.toList_ofList, ← hrest, List.drop_left]

/-- `strings.Contains` on characters. -/
def containsChars (cs sub : List Char) : Bool :=
  cs.tails.any sub.isPrefixOf

/-- `strings.Contains`. -/
def contains (s sub : String) : Bool :=
  containsChars s.toList sub.toList

theorem contains_iff {s sub : String} : contains s sub = true ↔ sub.toList <:+: s.toList := by
  unfold contains containsChars
  rw [List.any_eq_true]
  constructor
  · rintro ⟨tail, htail, hsub⟩
    exact (List.isPrefixOf_iff_prefix.1 hsub).isInfix.trans
      ((List.mem_tails _ _).1 htail).isInfix
  · intro h
    obtain ⟨tail, hsub, htail⟩ := List.infix_iff_prefix_suffix.1 h
    exact ⟨tail, (List.mem_tails _ _).2 htail, List.isPrefixOf_iff_prefix.2 hsub⟩

/-- `s ILIKE '%sub%'` for a pattern without wildcards. -/
def containsFold (s sub : String) : Bool :=
  containsChars (s.toList.map Char.toLower) (sub.toList.map Char.toLower)

/-- SQL `LIKE` with `%`, `_` and the backslash escape. -/
def likeChars : List Char → List Char → Bool
  | [], cs => cs.isEmpty
  | '%' :: ps, cs => cs.tails.any (likeChars ps)
  | '_' :: ps, _ :: cs => likeChars ps cs
  | '_' :: _, [] => false
  | ['\\'], _ => false
  | '\\' :: p :: ps, c :: cs => p = c && likeChars ps cs
  | '\\' :: _ :: _, [] => false
  | p :: ps, c :: cs => p = c && likeChars ps cs
  | _ :: _, [] => false

/-- `s LIKE p || '%'`. -/
def likeOwnerPrefix (s p : String) : Bool :=
  likeChars (p.toList ++ ['%']) s.toList

/-- The pieces of a string between separators; `n` separators give `n + 1` pieces. -/
def splitOnChar (sep : Char) : List Char → List (List Char)
  | [] => [[]]
  | c :: cs =>
    if c = sep then [] :: splitOnChar sep cs
    else match splitOnChar sep cs with
      | [] => [[c]]
      | piece :: pieces => (c :: piece) :: pieces

/-- `strings.Split` at a one-character separator. -/
def split (s : String) (sep : Char) : List String :=
  (splitOnChar sep s.toList).map String.ofList

/-- `strings.ReplaceAll` of one character by another. -/
def replaceChar (s : String) (old new : Char) : String :=
  String.ofList (s.toList.map fun c => if c = old then new else c)

/-- `strings.TrimLeft` with a one-character cut set. -/
def trimLeft (s : String) (cut : Char) : String :=
  String.ofList (s.toList.dropWhile (· = cut))

/-- `strings.Trim` with a one-character cut set. -/
def trimBoth (s : String) (cut : Char) : String :=
  String.ofList ((s.toList.dropWhile (· = cut)).reverse.dropWhile (· = cut)).reverse

/-- `strings.Trim`. -/
def trimCutset (s cutset : String) : String :=
  let cut : Char → Bool := fun c => cutset.toList.contains c
  String.ofList ((s.toList.dropWhile cut).reverse.dropWhile cut).reverse

end CodeIntel.Text
