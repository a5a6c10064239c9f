import CodeIntel.Text.Delimited
import CodeIntel.Text.GoPath

/-!
# Paths as lists of segments

A slash-separated path is read as the list of its segments. The segments of a
path below a directory begin with those of the directory, and on a path without
empty and dot segments `path.Dir` and `path.Base` cut at the last slash.
-/

namespace CodeIntel.Text

section Split

variable {sep : Char} {cs pre base : List Char}

theorem splitOnChar_eq_splitOn (sep : Char) (cs : List Char) :
    splitOnChar sep cs = cs.splitOn sep := by
  induction cs with
  | nil => rfl
  | cons c cs ih =>
    unfold splitOnChar List.splitOn
    rw [ih, List.splitOnP_cons_eq_if_modifyHead, List.splitOn]
    simp only [beq_iff_eq]
    split_ifs
    · rfl
    · cases hsplit : List.splitOnP (· == sep) cs with
      | nil => exact absurd hsplit (List.splitOnP_ne_nil _ _)
      | cons piece pieces => rfl

theorem splitOnChar_ne_nil (sep : Char) (cs : List Char) : splitOnChar sep cs ≠ [] := by
  rw [splitOnChar_eq_splitOn]
  exact List.splitOnP_ne_nil _ _

theorem intercalate_splitOnChar (sep : Char) (cs : List Char) :
    [sep].intercalate (splitOnChar sep cs) = cs := by
  rw [splitOnChar_eq_splitOn, List.intercalate_splitOn]

variable {pieces : List (List Char)} {piece word : List Char}

theorem splitOnChar_intercalate (hpieces : ∀ piece ∈ pieces, sep ∉ piece) (hne : pieces ≠ []) :
    splitOnChar sep ([sep].intercalate pieces) = pieces := by
  rw [splitOnChar_eq_splitOn, List.splitOn_intercalate sep hpieces hne]

theorem splitOnChar_append_cons (sep : Char) (cs rest : List Char) :
    splitOnChar sep (cs ++ sep :: rest) = splitOnChar sep cs ++ splitOnChar sep rest := by
  simp only [splitOnChar_eq_splitOn, List.splitOn]
  exact List.splitOnP_append_cons cs rest (beq_self_eq_true sep)

theorem splitOnChar_of_notMem (h : sep ∉ cs) : splitOnChar sep cs = [cs] := by
  rw [splitOnChar_eq_splitOn, List.splitOn]
  exact List.splitOnP_eq_singleton fun c hc => beq_eq_false_iff_ne.2 fun heq => h (heq ▸ hc)

theorem notMem_of_mem_splitOnChar (h : piece ∈ splitOnChar sep cs) : sep ∉ piece := by
  induction cs generalizing piece with
  | nil => simp_all [splitOnChar]
  | cons c cs ih =>
    unfold splitOnChar at h
    split_ifs at h with hc
    · rcases List.mem_cons.1 h with rfl | h
      · exact List.not_mem_nil
      · exact ih h
    · cases hsplit : splitOnChar sep cs with
      | nil => exact absurd hsplit (splitOnChar_ne_nil sep cs)
      | cons first pieces =>
        rw [hsplit] at h ih
        rcases List.mem_cons.1 h with rfl | h
        · simp only [List.mem_cons, not_or]
          exact ⟨Ne.symm hc, ih List.mem_cons_self⟩
        · exact ih (List.mem_cons_of_mem _ h)

theorem notMem_or_eq_append_cons (sep : Char) (cs : List Char) :
    sep ∉ cs ∨ ∃ pre base, cs = pre ++ sep :: base ∧ sep ∉ base := by
  induction cs with
  | nil => exact .inl List.not_mem_nil
  | cons c cs ih =>
    rcases ih with hno | ⟨pre, base, rfl, hbase⟩
    · by_cases hc : c = sep
      · exact .inr ⟨[], cs, by rw [hc, List.nil_append], hno⟩
      · exact .inl fun h => (List.mem_cons.1 h).elim (fun heq => hc heq.symm) hno
    · exact .inr ⟨c :: pre, base, rfl, hbase⟩

/-- A piece stands between two separators once the text has one at each end. -/
theorem delimited_infix_iff_mem (hpiece : sep ∉ piece) :
    sep :: (piece ++ [sep]) <:+: sep :: (cs ++ [sep]) ↔ piece ∈ splitOnChar sep cs := by
  have hall : ∀ pieces : List (List Char), pieces ≠ [] → (∀ p ∈ pieces, sep ∉ p) →
      (sep :: (piece ++ [sep]) <:+: sep :: ([sep].intercalate pieces ++ [sep]) ↔
        piece ∈ pieces) := by
    intro pieces hne hno
    induction pieces with
    | nil => exact absurd rfl hne
    | cons first pieces ih =>
      have hfirst : sep ∉ first := hno first List.mem_cons_self
      cases pieces with
      | nil =>
        have hone : ¬sep :: (piece ++ [sep]) <:+: [sep] := fun h => by simpa using h.length_le
        rw [List.intercalate_singleton, List.infix_cons_iff, List.cons_prefix_cons,
          cons_infix_append_iff hfirst, or_iff_left hone, and_iff_right rfl,
          append_cons_prefix_iff hpiece hfirst, and_iff_left (List.prefix_refl _),
          List.mem_singleton]
      | cons second pieces =>
        have hnext := ih (List.cons_ne_nil _ _) fun p hp => hno p (List.mem_cons_of_mem _ hp)
        rw [List.intercalate_cons_cons, List.append_assoc, List.append_assoc, List.singleton_append,
          List.infix_cons_iff, List.cons_prefix_cons, cons_infix_append_iff hfirst,
          and_iff_right rfl, append_cons_prefix_iff hpiece hfirst,
          and_iff_left (List.nil_prefix), hnext, List.mem_cons (a := piece) (b := first)]
  have h := hall (splitOnChar sep cs) (splitOnChar_ne_nil sep cs)
    fun p hp => notMem_of_mem_splitOnChar hp
  rwa [intercalate_splitOnChar] at h

/-- Text that ends with a separator does not reach into a last piece. -/
theorem concat_infix_append_iff (hbase : sep ∉ base) {rest : List Char} :
    word ++ [sep] <:+: rest ++ base ↔ word ++ [sep] <:+: rest := by
  have hrev : ∀ text : List Char,
      word ++ [sep] <:+: text ↔ sep :: word.reverse <:+: text.reverse := fun text => by
    rw [← List.reverse_infix, List.reverse_append, List.reverse_singleton, List.singleton_append]
  rw [hrev, hrev, List.reverse_append]
  exact cons_infix_append_iff fun h => hbase (List.mem_reverse.1 h)

theorem suffix_of_suffix_append_cons (hword : sep ∉ word) (h : word <:+ pre ++ sep :: base) :
    word <:+ base := by
  have hbase : sep :: base <:+ pre ++ sep :: base := List.suffix_append pre _
  rcases Nat.lt_or_ge base.length word.length with hlt | hle
  · have hsub := (List.suffix_of_suffix_length_le hbase h hlt).subset
    exact absurd (hsub List.mem_cons_self) hword
  · exact List.suffix_of_suffix_length_le h ((List.suffix_cons sep base).trans hbase) hle

theorem intercalate_append {pieces' : List (List Char)} (hpieces : pieces ≠ [])
    (hpieces' : pieces' ≠ []) :
    [sep].intercalate (pieces ++ pieces') =
      [sep].intercalate pieces ++ sep :: [sep].intercalate pieces' := by
  induction pieces with
  | nil => exact absurd rfl hpieces
  | cons piece pieces ih =>
    cases pieces with
    | nil =>
      obtain ⟨first, rest, rfl⟩ := List.exists_cons_of_ne_nil hpieces'
      rw [List.singleton_append, List.intercalate_cons_cons, List.intercalate_singleton,
        List.append_assoc, List.singleton_append]
    | cons second pieces =>
      rw [List.cons_append, List.cons_append, List.intercalate_cons_cons, ← List.cons_append,
        ih (List.cons_ne_nil _ _), List.intercalate_cons_cons, List.append_assoc]
      simp only [List.append_assoc]

theorem hasPrefix_intercalate {path : String} {front back : List String}
    (h : split path '/' = front ++ back) (hfront : front ≠ []) (hback : back ≠ []) :
    hasPrefix path (String.intercalate "/" front ++ "/") = true := by
  have hchars : splitOnChar '/' path.toList =
      front.map String.toList ++ back.map String.toList := by
    rw [← List.map_append, ← h, split, List.map_map]
    simp [Function.comp_def]
  have hpath := intercalate_splitOnChar '/' path.toList
  rw [hchars, intercalate_append (mt List.map_eq_nil_iff.1 hfront)
    (mt List.map_eq_nil_iff.1 hback)] at hpath
  rw [hasPrefix_iff, String.toList_append, String.toList_intercalate, ← hpath, List.append_cons]
  exact List.prefix_append _ _

theorem split_intercalate {parts : List String} (hparts : ∀ part ∈ parts, '/' ∉ part.toList)
    (hne : parts ≠ []) : split (String.intercalate "/" parts) '/' = parts := by
  have hchars : splitOnChar '/' (String.intercalate "/" parts).toList =
      parts.map String.toList := by
    rw [String.toList_intercalate]
    refine splitOnChar_intercalate ?_ (mt List.map_eq_nil_iff.1 hne)
    rintro _ hpart
    obtain ⟨part, hmem, rfl⟩ := List.mem_map.1 hpart
    exact hparts part hmem
  rw [split, hchars, List.map_map]
  simp [Function.comp_def]

theorem slash_notMem_of_mem_split {path part : String} (h : part ∈ split path '/') :
    '/' ∉ part.toList := by
  obtain ⟨piece, hpiece, rfl⟩ := List.mem_map.1 h
  rw [String.toList_ofList]
  exact notMem_of_mem_splitOnChar hpiece

end Split

/-! ## Clean paths -/

section Clean

/-- A segment that `path.Clean` keeps as it is. -/
def IsCleanSegment (segment : List Char) : Prop :=
  segment ≠ [] ∧ segment ≠ ['.'] ∧ segment ≠ ['.', '.']

instance : DecidablePred IsCleanSegment := fun segment =>
  inferInstanceAs (Decidable (segment ≠ [] ∧ segment ≠ ['.'] ∧ segment ≠ ['.', '.']))

/-- A path relative to some directory, without empty and dot segments. -/
def IsCleanPath (path : String) : Prop :=
  ∀ segment ∈ splitOnChar '/' path.toList, IsCleanSegment segment

instance : DecidablePred IsCleanPath := fun path =>
  inferInstanceAs (Decidable (∀ segment ∈ splitOnChar '/' path.toList, IsCleanSegment segment))

variable {segments : List (List Char)} {dir base : List Char}

theorem foldl_cleanComponent (rooted : Bool) (h : ∀ segment ∈ segments, IsCleanSegment segment)
    (stack : List (List Char)) :
    segments.foldl (cleanComponent rooted) stack = segments.reverse ++ stack := by
  induction segments generalizing stack with
  | nil => rfl
  | cons segment segments ih =>
    obtain ⟨hempty, hdot, hdots⟩ := h segment List.mem_cons_self
    have hpush : cleanComponent rooted stack segment = segment :: stack := by
      simp [cleanComponent, hempty, hdot, hdots]
    rw [List.foldl_cons, hpush, ih fun s hs => h s (List.mem_cons_of_mem _ hs),
      List.reverse_cons, List.append_assoc, List.singleton_append]

theorem cleanChars_concat_slash (h : ∀ segment ∈ splitOnChar '/' dir, IsCleanSegment segment) :
    cleanChars (dir ++ ['/']) = dir := by
  have hdir : dir ≠ [] := by
    rintro rfl
    exact (h [] (by simp [splitOnChar])).1 rfl
  have hrooted : ['/'].isPrefixOf (dir ++ ['/']) = false := by
    obtain ⟨c, rest, rfl⟩ := List.exists_cons_of_ne_nil hdir
    by_cases hc : c = '/'
    · exact absurd rfl (h [] (by simp [splitOnChar, hc])).1
    · simp [List.isPrefixOf, Ne.symm hc]
  have hempty : cleanComponent false ((splitOnChar '/' dir).reverse ++ []) [] =
      (splitOnChar '/' dir).reverse ++ [] := by
    simp [cleanComponent]
  have hcomponents : ((splitOnChar '/' (dir ++ ['/'])).foldl (cleanComponent false) []).reverse =
      splitOnChar '/' dir := by
    rw [splitOnChar_append_cons, List.foldl_append, foldl_cleanComponent false h,
      splitOnChar_of_notMem List.not_mem_nil, List.foldl_cons, List.foldl_nil, hempty,
      List.append_nil, List.reverse_reverse]
  unfold cleanChars
  simp only [hrooted, hcomponents, intercalate_splitOnChar, hdir, Bool.false_eq_true, if_false]

theorem splitPath_of_notMem {cs : List Char} (h : '/' ∉ cs) : splitPath cs = ([], cs) := by
  have hall : cs.reverse.takeWhile (· ≠ '/') = cs.reverse :=
    List.takeWhile_eq_self_iff.2 fun c hc =>
      decide_eq_true fun heq => h (heq ▸ List.mem_reverse.1 hc)
  unfold splitPath
  simp only [hall, List.reverse_reverse, Nat.sub_self, List.take_zero]

theorem splitPath_append_cons (h : '/' ∉ base) :
    splitPath (dir ++ '/' :: base) = (dir ++ ['/'], base) := by
  have htake : (dir ++ '/' :: base).reverse.takeWhile (· ≠ '/') = base.reverse := by
    rw [List.reverse_append, List.reverse_cons, List.append_assoc, List.takeWhile_append_of_pos]
    · simp
    · exact fun c hc => decide_eq_true fun heq => h (heq ▸ List.mem_reverse.1 hc)
  have hlen : (dir ++ '/' :: base).length - base.length = (dir ++ ['/']).length := by
    simp only [List.length_append, List.length_cons, List.length_nil]
    omega
  unfold splitPath
  dsimp only
  rw [htake, List.reverse_reverse, hlen, List.append_cons dir '/' base, List.take_left]

variable {path : String}

theorem dirPath_of_notMem (h : '/' ∉ path.toList) : dirPath path = "." := by
  rw [dirPath, splitPath_of_notMem h]
  rfl

theorem dirPath_append (hpath : IsCleanPath path) (hcut : path.toList = dir ++ '/' :: base)
    (hbase : '/' ∉ base) :
    dirPath path = String.ofList dir := by
  have hdir : ∀ segment ∈ splitOnChar '/' dir, IsCleanSegment segment := fun segment hsegment =>
    hpath segment (by
      rw [hcut, splitOnChar_append_cons]
      exact List.mem_append_left _ hsegment)
  rw [dirPath, hcut, splitPath_append_cons hbase, cleanChars_concat_slash hdir]

theorem basePath_of_splitPath (pre : List Char) (hpath : IsCleanPath path)
    (hcut : (splitPath path.toList).2 = base) (hbase : base ∈ splitOnChar '/' path.toList)
    (hpre : path.toList = pre ++ base) : basePath path = String.ofList base := by
  have hne : base ≠ [] := (hpath base hbase).1
  have hno : '/' ∉ base := notMem_of_mem_splitOnChar hbase
  have hpathne : path ≠ "" := by
    rintro rfl
    exact hne (List.append_eq_nil_iff.1 hpre.symm).2
  -- the path does not end with a slash
  have htrim : path.toList.reverse.dropWhile (· = '/') = path.toList.reverse := by
    rw [hpre, List.reverse_append]
    obtain ⟨c, rest, hrev⟩ := List.exists_cons_of_ne_nil (List.reverse_ne_nil_iff.2 hne)
    have hc : c ≠ '/' := fun heq => hno (List.mem_reverse.1 (hrev ▸ heq ▸ List.mem_cons_self))
    rw [hrev, List.cons_append, List.dropWhile_cons_of_neg (by simpa using hc)]
  rw [basePath, if_neg hpathne, htrim, List.reverse_reverse, hcut]
  exact if_neg hne

theorem basePath_of_notMem (hpath : IsCleanPath path) (h : '/' ∉ path.toList) :
    basePath path = path := by
  rw [basePath_of_splitPath [] hpath (by rw [splitPath_of_notMem h])
    (by rw [splitOnChar_of_notMem h]; exact List.mem_singleton_self _) (List.nil_append _).symm,
    String.ofList_toList]

theorem basePath_append (hpath : IsCleanPath path) (hcut : path.toList = dir ++ '/' :: base)
    (hbase : '/' ∉ base) :
    basePath path = String.ofList base := by
  refine basePath_of_splitPath (dir ++ ['/']) hpath ?_ ?_ ?_
  · rw [hcut, splitPath_append_cons hbase]
  · rw [hcut, splitOnChar_append_cons, splitOnChar_of_notMem hbase]
    exact List.mem_append_right _ (List.mem_singleton_self _)
  · rw [hcut, ← List.append_cons]

end Clean

end CodeIntel.Text
