import Mathlib.Data.Set.Function
import CodeIntel.Graph.AstSnapshot
import CodeIntel.Text.Segments

/-!
# Vertex identifiers

The indexer, the merge handler and the reader each build the identifier of a vertex.
All three write the same eight values in one format, and its last part is a digest of
all of them: where the digest does not collide, no two tenants, repositories, commits
or builders share an identifier.
-/

namespace CodeIntel.Graph

open Subjobs Text

/-- What SHA-256 gives the writers: 64 lower-case hexadecimal digits, and ranks read
from the first eight of them. -/
structure HexDigests extends Digests where
  length_sha256Hex : ∀ text, (sha256Hex text).toList.length = 64
  isLower_sha256Hex : ∀ text, ∀ c ∈ (sha256Hex text).toList,
    (('0' ≤ c && c ≤ '9') || ('a' ≤ c && c ≤ 'f')) = true
  edgeRank_nonneg : ∀ text, 0 ≤ edgeRank text
  edgeRank_le : ∀ text, edgeRank text ≤ 0xFFFFFFFF

/-- What a vertex identifier is built from. -/
structure VertexIdentity where
  orgId : ℤ
  workspaceId : String
  repoId : ℤ
  commitHash : String
  schemaVersion : ℤ
  (builderVersion kind key : String)
  deriving DecidableEq, Repr

namespace VertexIdentity

def parts (v : VertexIdentity) : List String :=
  [toString v.orgId, v.workspaceId, toString v.repoId, v.commitHash, toString v.schemaVersion,
    v.builderVersion, v.kind, v.key]

def hashedText (v : VertexIdentity) : String := "\x00".intercalate v.parts

def vid (d : Digests) (v : VertexIdentity) : String :=
  "cg:o" ++ toString v.orgId ++ ":w" ++ hashParts d [v.workspaceId] 8 ++ ":r" ++
    toString v.repoId ++ ":c" ++ String.ofList (v.commitHash.toList.take 12) ++ ":s" ++
    toString v.schemaVersion ++ ":b" ++ hashParts d [v.builderVersion] 8 ++ ":" ++ v.kind ++ ":" ++
    hashParts d v.parts 32

theorem parts_injective : Function.Injective parts := by
  intro v v' h
  simp only [parts, List.cons.injEq, and_true] at h
  obtain ⟨horg, hws, hrepo, hcommit, hschema, hbuilder, hkind, hkey⟩ := h
  cases v
  cases v'
  simp only [mk.injEq]
  exact ⟨toString_int_injective horg, hws, toString_int_injective hrepo, hcommit,
    toString_int_injective hschema, hbuilder, hkind, hkey⟩

/-- Without NUL bytes in the parts the text determines them. -/
theorem eq_of_hashedText {v v' : VertexIdentity} (h : v.hashedText = v'.hashedText)
    (hv : ∀ part ∈ v.parts, '\x00' ∉ part.toList) (hv' : ∀ part ∈ v'.parts, '\x00' ∉ part.toList) :
    v = v' := by
  have hread : ∀ v : VertexIdentity, (∀ part ∈ v.parts, '\x00' ∉ part.toList) →
      splitOnChar '\x00' v.hashedText.toList = v.parts.map String.toList := by
    intro v hv
    rw [hashedText, String.toList_intercalate]
    exact splitOnChar_intercalate (List.forall_mem_map.2 hv) (by simp [parts])
  have hparts : v.parts.map String.toList = v'.parts.map String.toList := by
    rw [← hread v hv, ← hread v' hv', h]
  exact parts_injective (List.map_injective_iff.2 (fun _ _ => String.toList_inj.1) hparts)

theorem length_hashParts (d : HexDigests) (parts : List String) {n : ℕ} (hn : n ≤ 64) :
    (hashParts d.toDigests parts n).toList.length = n := by
  rw [hashParts, String.toList_ofList, List.length_take, d.length_sha256Hex]
  omega

theorem hashParts_hashedText (d : Digests) (v : VertexIdentity) (n : ℕ) :
    hashParts d [v.hashedText] n = hashParts d v.parts n := by
  rw [hashParts, hashParts, hashedText, String.intercalate_singleton]

theorem hashParts_eq_of_vid_eq {d : HexDigests} {v v' : VertexIdentity}
    (h : v.vid d.toDigests = v'.vid d.toDigests) :
    hashParts d.toDigests v.parts 32 = hashParts d.toDigests v'.parts 32 := by
  have hsplit : ∀ v : VertexIdentity, ∃ front, (v.vid d.toDigests).toList =
      front ++ (hashParts d.toDigests v.parts 32).toList := fun v => ⟨_, String.toList_append⟩
  obtain ⟨front, hfront⟩ := hsplit v
  obtain ⟨front', hfront'⟩ := hsplit v'
  rw [h, hfront'] at hfront
  have hlength : (hashParts d.toDigests v'.parts 32).toList.length =
      (hashParts d.toDigests v.parts 32).toList.length := by
    rw [length_hashParts d _ (by decide), length_hashParts d _ (by decide)]
  exact (String.toList_inj.1 (List.append_inj_right' hfront hlength)).symm

end VertexIdentity

/-! ## The three writers -/

/-- The identity the indexer builds an identifier from. -/
def scopeIdentity (scope : CodeGraphScope) (kind key : String) : VertexIdentity where
  orgId := scope.orgId
  workspaceId := scope.workspaceId
  repoId := scope.repoId
  commitHash := scope.commitHash
  schemaVersion := getSchemaVersion scope
  builderVersion := getBuilderVersion scope
  kind := kind
  key := key

variable {scope : CodeGraphScope}

theorem buildCodeGraphVertexId_eq_ok {d : Digests} {kind key vid : String} :
    buildCodeGraphVertexId d scope kind key = .ok vid ↔
      assertValidScope scope = .ok () ∧ vid = (scopeIdentity scope kind key).vid d := by
  unfold buildCodeGraphVertexId
  cases assertValidScope scope with
  | error e => simp [bind, Except.bind]
  | ok u =>
    simp only [bind, Except.bind, pure, Except.pure, Except.ok.injEq, true_and]
    exact eq_comm

/-- The part of an identifier before its kind. -/
def VertexIdentity.scopeText (d : Digests) (v : VertexIdentity) : String :=
  "cg:o" ++ toString v.orgId ++ ":w" ++ hashParts d [v.workspaceId] 8 ++ ":r" ++
    toString v.repoId ++ ":c" ++ String.ofList (v.commitHash.toList.take 12) ++ ":s" ++
    toString v.schemaVersion ++ ":b" ++ hashParts d [v.builderVersion] 8 ++ ":"

theorem VertexIdentity.toList_vid (d : Digests) (v : VertexIdentity) :
    (v.vid d).toList = (v.scopeText d).toList ++ (v.kind.toList ++
      (":".toList ++ (hashParts d v.parts 32).toList)) := by
  have hsplit : v.vid d = v.scopeText d ++ v.kind ++ ":" ++ hashParts d v.parts 32 := rfl
  rw [hsplit, String.toList_append, String.toList_append, String.toList_append, List.append_assoc,
    List.append_assoc]

theorem VertexIdentity.kind_eq_of_vid_eq {d : HexDigests} {kind kind' key key' : String}
    (h : (scopeIdentity scope kind key).vid d.toDigests =
      (scopeIdentity scope kind' key').vid d.toDigests) : kind = kind' := by
  have hlists := congrArg String.toList h
  rw [toList_vid, toList_vid] at hlists
  have hkinds := List.append_cancel_left hlists
  have hlength : (":".toList ++
      (hashParts d.toDigests (scopeIdentity scope kind key).parts 32).toList).length =
        (":".toList ++
          (hashParts d.toDigests (scopeIdentity scope kind' key').parts 32).toList).length := by
    rw [List.length_append, List.length_append, length_hashParts d _ (by decide),
      length_hashParts d _ (by decide)]
  exact String.toList_inj.1 (List.append_inj_left' hkinds hlength)

/-- The identity the merge handler builds an identifier from. -/
def payloadIdentity (p : Payload) (kind key : String) : VertexIdentity where
  orgId := p.orgId
  workspaceId := workspaceOf p
  repoId := p.repoId
  commitHash := p.commitHash
  schemaVersion := defaultSchemaVersion
  builderVersion := defaultBuilder
  kind := kind
  key := key

theorem codeGraphVID_eq (d : Digests) (p : Payload) (kind key : String) :
    codeGraphVID d p kind key = (payloadIdentity p kind key).vid d := rfl

/-- `db.CodeGraphActiveScope`, as far as the identifiers read it. -/
structure CodeGraphActiveScope where
  repoId : ℤ
  (commitHash workspaceId : String)
  schemaVersion : ℤ
  builderVersion : String
  deriving DecidableEq, Repr

def mcpDefaultGraphBuilder : String := "codeintel-code-graph-v7"

def mcpHashParts (d : Digests) (parts : List String) (n : ℕ) : String :=
  let sum := (d.sha256Hex ("\x00".intercalate parts)).toList
  if n > sum.length then String.ofList sum else String.ofList (sum.take n)

def mcpCodeGraphVID (d : Digests) (orgId : ℤ) (scope : CodeGraphActiveScope) (kind key : String) :
    String :=
  let builder := if scope.builderVersion = "" then mcpDefaultGraphBuilder else scope.builderVersion
  let schema := if scope.schemaVersion ≤ 0 then 1 else scope.schemaVersion
  let commit := if scope.commitHash.toList.length > 12 then
    String.ofList (scope.commitHash.toList.take 12) else scope.commitHash
  let keyHash := mcpHashParts d [toString orgId, scope.workspaceId, toString scope.repoId,
    scope.commitHash, toString schema, builder, kind, key] 32
  "cg:o" ++ toString orgId ++ ":w" ++ mcpHashParts d [scope.workspaceId] 8 ++ ":r" ++
    toString scope.repoId ++ ":c" ++ commit ++ ":s" ++ toString schema ++ ":b" ++
    mcpHashParts d [builder] 8 ++ ":" ++ kind ++ ":" ++ keyHash

def activeIdentity (orgId : ℤ) (scope : CodeGraphActiveScope) (kind key : String) :
    VertexIdentity where
  orgId := orgId
  workspaceId := scope.workspaceId
  repoId := scope.repoId
  commitHash := scope.commitHash
  schemaVersion := if scope.schemaVersion ≤ 0 then 1 else scope.schemaVersion
  builderVersion := if scope.builderVersion = "" then mcpDefaultGraphBuilder else scope.builderVersion
  kind := kind
  key := key

theorem mcpHashParts_eq (d : Digests) (parts : List String) (n : ℕ) :
    mcpHashParts d parts n = hashParts d parts n := by
  simp only [mcpHashParts, hashParts]
  split_ifs with hlong
  · rw [List.take_of_length_le hlong.le]
  · rfl

theorem mcpCodeGraphVID_eq (d : Digests) (orgId : ℤ) (scope : CodeGraphActiveScope)
    (kind key : String) :
    mcpCodeGraphVID d orgId scope kind key = (activeIdentity orgId scope kind key).vid d := by
  have hcommit : (if scope.commitHash.toList.length > 12 then
      String.ofList (scope.commitHash.toList.take 12) else scope.commitHash) =
        String.ofList (scope.commitHash.toList.take 12) := by
    split_ifs with hlong
    · rfl
    · rw [List.take_of_length_le (not_lt.1 hlong), String.ofList_toList]
  unfold mcpCodeGraphVID VertexIdentity.vid VertexIdentity.parts activeIdentity
  dsimp only
  rw [hcommit, mcpHashParts_eq, mcpHashParts_eq, mcpHashParts_eq]

/-! ## Tenants -/

/-- A valid scope has the ids and texts the validators ask for. -/
structure ValidScope (scope : CodeGraphScope) : Prop where
  orgId : 0 < scope.orgId
  repoId : 0 < scope.repoId
  revision : isBlank scope.revision = false
  workspaceId : isBlank scope.workspaceId = false
  commitHash : isCommitHash scope.commitHash = true
  schemaVersion : ∀ version, scope.schemaVersion = some version → 0 < version
  builderVersion : ∀ builder, scope.builderVersion = some builder → isBlank builder = false

theorem assertValidScope_eq_ok : assertValidScope scope = .ok () ↔ ValidScope scope := by
  unfold assertValidScope
  constructor
  · intro h
    split_ifs at h with horg hrepo hrevision hworkspace hcommit hbuilder
    · split at h <;> exact absurd h (by simp)
    split at h
    · simp at h
    · rename_i hschema
      refine ⟨not_le.1 horg, not_le.1 hrepo, by simpa using hrevision, by simpa using hworkspace,
        by simpa using hcommit, ?_, ?_⟩
      · intro version hversion
        rw [hversion, Option.filter_some] at hschema
        by_contra hneg
        rw [if_pos (by simpa using hneg)] at hschema
        simp at hschema
      · intro builder hversion
        rw [hversion] at hbuilder
        simpa using hbuilder
  · rintro ⟨horg, hrepo, hrevision, hworkspace, hcommit, hschema, hbuilder⟩
    have hfilter : scope.schemaVersion.filter (· ≤ 0) = none := by
      cases hversion : scope.schemaVersion with
      | none => rfl
      | some version => simp [hschema version hversion]
    have hany : scope.builderVersion.any isBlank = false := by
      cases hversion : scope.builderVersion with
      | none => rfl
      | some builder => simpa using hbuilder builder hversion
    simp [not_le.2 horg, not_le.2 hrepo, hrevision, hworkspace, hcommit, hfilter, hany]

/-- Where the truncated digest does not collide, an identifier of the indexer belongs to one
tenant, repository, commit, schema, builder, kind and key; and the merge handler and the
reader compute the indexer's identifier from the same inputs. -/
theorem vertexIds_isolate_and_agree (d : HexDigests) {hashed : Set String}
    (hinj : Set.InjOn (fun text => hashParts d.toDigests [text] 32) hashed) :
    (∀ {scope scope' : CodeGraphScope} {kind kind' key key' vid : String},
      buildCodeGraphVertexId d.toDigests scope kind key = .ok vid →
      buildCodeGraphVertexId d.toDigests scope' kind' key' = .ok vid →
      (scopeIdentity scope kind key).hashedText ∈ hashed →
      (scopeIdentity scope' kind' key').hashedText ∈ hashed →
      (∀ part ∈ (scopeIdentity scope kind key).parts, '\x00' ∉ part.toList) →
      (∀ part ∈ (scopeIdentity scope' kind' key').parts, '\x00' ∉ part.toList) →
      scope.orgId = scope'.orgId ∧ scope.workspaceId = scope'.workspaceId ∧
        scope.repoId = scope'.repoId ∧ scope.commitHash = scope'.commitHash ∧
        getSchemaVersion scope = getSchemaVersion scope' ∧
        getBuilderVersion scope = getBuilderVersion scope' ∧ kind = kind' ∧ key = key') ∧
    (∀ {scope : CodeGraphScope} {p : Payload} {kind key vid : String},
      buildCodeGraphVertexId d.toDigests scope kind key = .ok vid →
      p.orgId = scope.orgId → workspaceOf p = scope.workspaceId → p.repoId = scope.repoId →
      p.commitHash = scope.commitHash → scope.schemaVersion = some defaultSchemaVersion →
      scope.builderVersion = some defaultBuilder → codeGraphVID d.toDigests p kind key = vid) ∧
    ∀ {scope : CodeGraphScope} {active : CodeGraphActiveScope} {kind key vid : String},
      buildCodeGraphVertexId d.toDigests scope kind key = .ok vid →
      active.workspaceId = scope.workspaceId → active.repoId = scope.repoId →
      active.commitHash = scope.commitHash → scope.schemaVersion = some active.schemaVersion →
      scope.builderVersion = some active.builderVersion →
      mcpCodeGraphVID d.toDigests scope.orgId active kind key = vid := by
  refine ⟨?_, ?_, ?_⟩
  · intro scope scope' kind kind' key key' vid hvid hvid' hmem hmem' hnul hnul'
    obtain ⟨-, rfl⟩ := buildCodeGraphVertexId_eq_ok.1 hvid
    obtain ⟨-, hsame⟩ := buildCodeGraphVertexId_eq_ok.1 hvid'
    have htext : (scopeIdentity scope kind key).hashedText =
        (scopeIdentity scope' kind' key').hashedText := by
      apply hinj hmem hmem'
      dsimp only
      rw [VertexIdentity.hashParts_hashedText, VertexIdentity.hashParts_hashedText]
      exact VertexIdentity.hashParts_eq_of_vid_eq hsame
    have hidentity := VertexIdentity.eq_of_hashedText htext hnul hnul'
    simpa only [scopeIdentity, VertexIdentity.mk.injEq] using hidentity
  · intro scope p kind key vid hvid horg hws hrepo hcommit hschema hbuilder
    obtain ⟨-, rfl⟩ := buildCodeGraphVertexId_eq_ok.1 hvid
    have hidentity : payloadIdentity p kind key = scopeIdentity scope kind key := by
      simp only [payloadIdentity, scopeIdentity, getSchemaVersion, getBuilderVersion, hschema,
        hbuilder, Option.getD_some, horg, hws, hrepo, hcommit]
    rw [codeGraphVID_eq, hidentity]
  · intro scope active kind key vid hvid hws hrepo hcommit hschema hbuilder
    obtain ⟨hvalid, rfl⟩ := buildCodeGraphVertexId_eq_ok.1 hvid
    have hvalid := assertValidScope_eq_ok.1 hvalid
    have hnonempty : active.builderVersion ≠ "" := by
      intro hempty
      have hnot := hvalid.builderVersion _ hbuilder
      rw [hempty] at hnot
      exact absurd hnot (by decide)
    have hidentity : activeIdentity scope.orgId active kind key = scopeIdentity scope kind key := by
      simp only [activeIdentity, scopeIdentity, getSchemaVersion, getBuilderVersion, hschema,
        hbuilder, Option.getD_some, hws, hrepo, hcommit,
        if_neg (not_le.2 (hvalid.schemaVersion _ hschema)), if_neg hnonempty]
    rw [mcpCodeGraphVID_eq, hidentity]

theorem rank_nonneg : ∀ _ : String, (0 : ℤ) ≤ 0 := fun _ => le_rfl

theorem rank_le : ∀ _ : String, (0 : ℤ) ≤ 0xFFFFFFFF := fun _ => by decide

/-- A digest that sees the first character of its text. -/
def firstCharDigests : HexDigests where
  sha256Hex text := String.ofList (List.replicate 64 (if text.toList.head? = some '1' then '0' else '1'))
  edgeRank _ := 0
  length_sha256Hex text := by simp
  isLower_sha256Hex text c hc := by
    rw [String.toList_ofList] at hc
    rw [List.eq_of_mem_replicate hc]
    split_ifs <;> decide
  edgeRank_nonneg := rank_nonneg
  edgeRank_le := rank_le

def tenantScope (orgId : ℤ) : CodeGraphScope where
  orgId := orgId
  repoId := 7
  revision := "main"
  commitHash := String.ofList (List.replicate 40 'a')
  workspaceId := "ws"

/-- Two tenants with the same repository and file have different identifiers. -/
theorem vertexIds_of_two_tenants :
    buildCodeGraphVertexId firstCharDigests.toDigests (tenantScope 1) "file" "a.go" ≠
      buildCodeGraphVertexId firstCharDigests.toDigests (tenantScope 2) "file" "a.go" := by
  have hdiffer : hashParts firstCharDigests.toDigests
      [(scopeIdentity (tenantScope 1) "file" "a.go").hashedText] 32 ≠
        hashParts firstCharDigests.toDigests
          [(scopeIdentity (tenantScope 2) "file" "a.go").hashedText] 32 := by
    decide +kernel
  have hinj : Set.InjOn (fun text => hashParts firstCharDigests.toDigests [text] 32)
      {(scopeIdentity (tenantScope 1) "file" "a.go").hashedText,
        (scopeIdentity (tenantScope 2) "file" "a.go").hashedText} := by
    rintro text (rfl | rfl) text' (rfl | rfl) heq
    · rfl
    · exact absurd heq hdiffer
    · exact absurd heq.symm hdiffer
    · rfl
  have hvalid : assertValidScope (tenantScope 1) = .ok () := by decide +kernel
  have hvid : buildCodeGraphVertexId firstCharDigests.toDigests (tenantScope 1) "file" "a.go" =
      .ok _ := buildCodeGraphVertexId_eq_ok.2 ⟨hvalid, rfl⟩
  intro heq
  have htenant := (vertexIds_isolate_and_agree firstCharDigests hinj).1 hvid (heq.symm.trans hvid)
    (Set.mem_insert _ _) (Set.mem_insert_of_mem _ rfl) (by decide +kernel) (by decide +kernel)
  exact absurd htenant.1 (by decide)

end CodeIntel.Graph
