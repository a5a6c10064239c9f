import CodeIntel.Artifact.Agreement
import CodeIntel.Text.Segments

/-!
# The paths of documents

A joined path is made of proper segments. It is a fixed point of the sanitizer unless it is
empty or its first or last segment reads differently when it stands at an end of the path.
-/

namespace CodeIntel.Artifact

open Text

section Characters

variable {sep : Char} {pieces pieces' : List (List Char)}

theorem sublist_intercalate (h : pieces.Sublist pieces') :
    ([sep].intercalate pieces).Sublist ([sep].intercalate pieces') := by
  induction h with
  | slnil => exact List.Sublist.refl _
  | @cons pieces pieces' piece _ ih =>
    cases pieces' with
    | nil => exact ih.trans (List.nil_sublist _)
    | cons second rest =>
      rw [List.intercalate_cons_cons]
      exact ih.trans (List.sublist_append_right _ _)
  | @cons_cons pieces pieces' piece hsub ih =>
    cases pieces with
    | nil =>
      cases pieces' with
      | nil => exact List.Sublist.refl _
      | cons second rest =>
        rw [List.intercalate_singleton, List.intercalate_cons_cons, List.append_assoc]
        exact List.sublist_append_left _ _
    | cons second rest =>
      cases pieces' with
      | nil => exact absurd (List.sublist_nil.1 hsub) (List.cons_ne_nil _ _)
      | cons second' rest' =>
        rw [List.intercalate_cons_cons, List.intercalate_cons_cons]
        exact ih.append_left _

theorem eq_or_mem_of_mem_intercalate {c : Char} (h : c ∈ [sep].intercalate pieces) :
    c = sep ∨ ∃ piece ∈ pieces, c ∈ piece := by
  induction pieces with
  | nil => cases h
  | cons piece pieces ih =>
    cases pieces with
    | nil => exact .inr ⟨piece, List.mem_cons_self, by rwa [List.intercalate_singleton] at h⟩
    | cons second rest =>
      rw [List.intercalate_cons_cons, List.append_assoc, List.mem_append, List.mem_append,
        List.mem_singleton] at h
      rcases h with h | h | h
      · exact .inr ⟨piece, List.mem_cons_self, h⟩
      · exact .inl h
      · exact (ih h).imp_right fun ⟨p, hp, hc⟩ => ⟨p, List.mem_cons_of_mem _ hp, hc⟩

theorem trimSpaceChars_sublist (cs : List Char) : (trimSpaceChars cs).Sublist cs :=
  (List.rdropWhile_prefix isSpace _).sublist.trans (List.dropWhile_suffix isSpace).sublist

theorem contains_singleton {s sub : String} {c : Char} (hsub : sub.toList = [c]) :
    contains s sub = true ↔ c ∈ s.toList := by
  rw [contains_iff, hsub, List.singleton_infix_iff]

end Characters

/-! ## What a path is made of -/

section Parts

variable {value path projectRoot relativePath : String} {parts : List String}

def IsPart (part : String) : Prop :=
  part ≠ "" ∧ part ≠ "." ∧ part ≠ ".." ∧ ∀ c ∈ ['/', '\\', '\x00'], c ∉ part.toList

def keptParts (value : String) : List String :=
  (split value '/').filter fun part => part ≠ "" && part ≠ "."

/-- The paths that are accepted as they are, apart from segments that are left out. -/
def Accepts (value : String) : Prop :=
  '\x00' ∉ value.toList ∧ '\\' ∉ value.toList ∧ hasPrefix value "/" = false ∧
    hasDriveColon value = false ∧ ".." ∉ split value '/'

theorem sublist_of_split (h : parts.Sublist (split value '/')) :
    (String.intercalate "/" parts).toList.Sublist value.toList := by
  have hsplit : (split value '/').map String.toList = splitOnChar '/' value.toList := by
    simp [split, Function.comp_def]
  rw [String.toList_intercalate, ← intercalate_splitOnChar '/' value.toList, ← hsplit]
  exact sublist_intercalate (h.map _)

theorem mem_of_mem_split {part : String} {c : Char} (hpart : part ∈ split value '/')
    (hc : c ∈ part.toList) : c ∈ value.toList := by
  refine (sublist_of_split (List.singleton_sublist.2 hpart)).subset ?_
  rwa [String.toList_intercalate, List.map_singleton, List.intercalate_singleton]

theorem sanitizeRepoRelativePath_eq_some :
    sanitizeRepoRelativePath value = some path ↔
      ((trimSpace value = "" ∨ trimSpace value = ".") ∧ path = "") ∨
        (trimSpace value ≠ "" ∧ trimSpace value ≠ "." ∧ Accepts (trimSpace value) ∧
          path = String.intercalate "/" (keptParts (trimSpace value))) := by
  unfold sanitizeRepoRelativePath Accepts keptParts
  generalize trimSpace value = v
  have hbackslash : contains v "\\" = true ↔ '\\' ∈ v.toList := contains_singleton rfl
  have hnul : contains v "\x00" = true ↔ '\x00' ∈ v.toList := contains_singleton rfl
  have hparts : '\x00' ∉ v.toList →
      ((split v '/').any (fun part => part = ".." || contains part "\x00") = true ↔
        ".." ∈ split v '/') := by
    intro hno
    rw [List.any_eq_true]
    constructor
    · rintro ⟨part, hpart, hbad⟩
      rcases Bool.or_eq_true_iff.1 hbad with hdots | hin
      · exact of_decide_eq_true hdots ▸ hpart
      · exact absurd (mem_of_mem_split hpart ((contains_singleton rfl).1 hin)) hno
    · exact fun hdots => ⟨"..", hdots, rfl⟩
  by_cases hempty : v = "" ∨ v = "."
  · rw [if_pos (by simpa using hempty), Option.some_inj,
      or_iff_left fun h => hempty.elim h.1 h.2.1, and_iff_right hempty, eq_comm]
  · obtain ⟨hne, hdot⟩ := not_or.1 hempty
    by_cases hno : '\x00' ∈ v.toList
    · simp [hne, hdot, hnul.2 hno, hno]
    · by_cases hslash : '\\' ∈ v.toList
      · simp [hne, hdot, hbackslash.2 hslash, hslash]
      · have h₁ := Bool.eq_false_iff.2 (mt hnul.1 hno)
        have h₂ := Bool.eq_false_iff.2 (mt hbackslash.1 hslash)
        by_cases hdots : ".." ∈ split v '/'
        · have h₃ := (hparts hno).2 hdots
          simp only [hne, hdot, h₁, h₂, h₃, hdots]
          simp
        · have h₃ := Bool.eq_false_iff.2 (mt (hparts hno).1 hdots)
          simp only [hne, hdot, h₁, h₂, h₃, hdots, hno, hslash]
          cases hasPrefix v "/" <;> cases hasDriveColon v <;> simp [hne, hdot, eq_comm]

theorem isPart_of_mem_keptParts (h : Accepts value) : ∀ part ∈ keptParts value, IsPart part := by
  intro part hpart
  obtain ⟨hmem, hkept⟩ := List.mem_filter.1 hpart
  obtain ⟨hne, hdot⟩ : part ≠ "" ∧ part ≠ "." := by simpa using hkept
  refine ⟨hne, hdot, fun hdots => h.2.2.2.2 (hdots ▸ hmem), ?_⟩
  simp only [List.forall_mem_cons]
  exact ⟨slash_notMem_of_mem_split hmem, fun hc => h.2.1 (mem_of_mem_split hmem hc),
    fun hc => h.1 (mem_of_mem_split hmem hc), List.forall_mem_nil _⟩

theorem exists_parts_of_sanitize (h : sanitizeRepoRelativePath value = some path) :
    ∃ parts, (∀ part ∈ parts, IsPart part) ∧ path = String.intercalate "/" parts := by
  rcases sanitizeRepoRelativePath_eq_some.1 h with ⟨-, hpath⟩ | ⟨-, -, haccepts, hpath⟩
  · exact ⟨[], List.forall_mem_nil _, hpath⟩
  · exact ⟨_, isPart_of_mem_keptParts haccepts, hpath⟩

theorem exists_parts_of_join (h : joinProjectPathChecked projectRoot relativePath = some path) :
    ∃ parts, (∀ part ∈ parts, IsPart part) ∧ path = String.intercalate "/" parts := by
  unfold joinProjectPathChecked at h
  obtain ⟨root, hroot, h⟩ := Option.bind_eq_some_iff.1 h
  obtain ⟨relative, hrelative, h⟩ := Option.bind_eq_some_iff.1 h
  split_ifs at h with hnoRoot hnoRelative
  · exact Option.some.inj h ▸ exists_parts_of_sanitize hrelative
  · exact Option.some.inj h ▸ exists_parts_of_sanitize hroot
  · obtain ⟨first, hfirst, rfl⟩ := exists_parts_of_sanitize hroot
    obtain ⟨second, hsecond, rfl⟩ := exists_parts_of_sanitize hrelative
    refine ⟨first ++ second, List.forall_mem_append.2 ⟨hfirst, hsecond⟩, ?_⟩
    have hfirst' : first ≠ [] := fun hnil => hnoRoot (by rw [hnil]; rfl)
    have hsecond' : second ≠ [] := fun hnil => hnoRelative (by rw [hnil]; rfl)
    refine (Option.some.inj h).symm.trans (String.toList_injective ?_)
    rw [String.toList_append, String.toList_append, String.toList_intercalate,
      String.toList_intercalate, String.toList_intercalate, List.map_append]
    change _ ++ ['/'] ++ _ = ['/'].intercalate _
    rw [intercalate_append (mt List.map_eq_nil_iff.1 hfirst') (mt List.map_eq_nil_iff.1 hsecond'),
      List.append_assoc, List.singleton_append]
    rfl

/-! ## The fixed points -/

theorem accepts_intercalate (hparts : ∀ part ∈ parts, IsPart part) (hne : parts ≠ [])
    (hdrive : hasDriveColon (String.intercalate "/" parts) = false) :
    Accepts (String.intercalate "/" parts) := by
  have hsplit : split (String.intercalate "/" parts) '/' = parts :=
    split_intercalate (fun part hpart => (hparts part hpart).2.2.2 _ (by simp)) hne
  have hchar : ∀ c ∈ ['\\', '\x00'], c ∉ (String.intercalate "/" parts).toList := by
    intro c hc hmem
    rw [String.toList_intercalate] at hmem
    rcases eq_or_mem_of_mem_intercalate hmem with rfl | ⟨piece, hpiece, hin⟩
    · exact absurd hc (by decide)
    · obtain ⟨part, hpart, rfl⟩ := List.mem_map.1 hpiece
      exact (hparts part hpart).2.2.2 c (List.mem_cons_of_mem _ hc) hin
  refine ⟨hchar _ (by simp), hchar _ (by simp), Bool.eq_false_iff.2 fun hroot => ?_, hdrive, ?_⟩
  · -- a leading slash would be an empty first segment
    obtain ⟨rest, hrest⟩ := hasPrefix_iff.1 hroot
    have hempty : "" ∈ split (String.intercalate "/" parts) '/' := by
      rw [split, ← hrest]
      exact List.mem_cons_self
    exact (hparts "" (hsplit ▸ hempty)).1 rfl
  · intro hdots
    exact (hparts ".." (hsplit ▸ hdots)).2.2.1 rfl

theorem sanitize_intercalate_iff (hparts : ∀ part ∈ parts, IsPart part) (hne : parts ≠ []) :
    sanitizeRepoRelativePath (String.intercalate "/" parts) = some (String.intercalate "/" parts) ↔
      trimSpace (String.intercalate "/" parts) = String.intercalate "/" parts ∧
        hasDriveColon (String.intercalate "/" parts) = false := by
  have hsplit : split (String.intercalate "/" parts) '/' = parts :=
    split_intercalate (fun part hpart => (hparts part hpart).2.2.2 _ (by simp)) hne
  have hfix : ∀ name, name = "" ∨ name = "." → String.intercalate "/" parts ≠ name := by
    rintro name hname heq
    have hparts' : parts = [name] := by
      rw [← hsplit, heq]
      rcases hname with rfl | rfl <;> rfl
    have hpart := hparts name (by simp [hparts'])
    exact hname.elim hpart.1 hpart.2.1
  generalize hpath : String.intercalate "/" parts = path at *
  rw [sanitizeRepoRelativePath_eq_some]
  constructor
  · rintro (⟨-, hempty⟩ | ⟨-, -, haccepts, hkept⟩)
    · exact absurd hempty (hfix _ (.inl rfl))
    · have hsub : (String.intercalate "/" (keptParts (trimSpace path))).toList.Sublist
          (trimSpace path).toList := sublist_of_split List.filter_sublist
      rw [← hkept, trimSpace, String.toList_ofList] at hsub
      have htrim : trimSpace path = path := by
        rw [trimSpace, (trimSpaceChars_sublist _).antisymm hsub, String.ofList_toList]
      exact ⟨htrim, htrim ▸ haccepts.2.2.2.1⟩
  · rintro ⟨htrim, hdrive⟩
    rw [htrim]
    refine .inr ⟨hfix _ (.inl rfl), hfix _ (.inr rfl), ?_, ?_⟩
    · rw [← hpath] at hdrive ⊢
      exact accepts_intercalate hparts hne hdrive
    · have hkept : keptParts path = parts := by
        rw [keptParts, hsplit]
        refine List.filter_eq_self.2 fun part hpart => ?_
        simp [(hparts part hpart).1, (hparts part hpart).2.1]
      rw [hkept, hpath]

/-- A relative path without empty, dot or backslash parts that a second pass keeps. -/
structure SafePath (path : String) : Prop where
  nonempty : path ≠ ""
  relative : hasPrefix path "/" = false
  segments : ∀ part ∈ split path '/', part ∉ ["", ".", ".."]
  noBackslash : contains path "\\" = false
  stable : sanitizeRepoRelativePath path = some path

end Parts

end CodeIntel.Artifact
