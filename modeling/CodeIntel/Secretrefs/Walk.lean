import CodeIntel.Text.GoString
import Mathlib.Data.Rat.Defs

/-!
# Secret references in config trees

A config is a decoded JSON value. The walkers find the references to org secrets
in it, bind them to the org before the config is stored, and strip a config of its
secrets before it is sent to a client.
-/

namespace CodeIntel.Secretrefs

open Text

/-- A value of `encoding/json`; the fields of an object stand in the order in which a
range over the map meets them. -/
inductive Json where
  | null
  | bool (b : Bool)
  | num (n : ℚ)
  | str (s : String)
  | arr (items : List Json)
  | obj (fields : List (String × Json))
  deriving Repr

namespace Json

def isNull : Json → Bool
  | .null => true
  | _ => false

/-- `v.(string)`. -/
def asString : Json → Option String
  | .str s => some s
  | _ => none

/-- `v.(bool)`. -/
def asBool : Json → Option Bool
  | .bool b => some b
  | _ => none

end Json

/-- `record[key].(string)`. -/
def stringField (record : List (String × Json)) (key : String) : Option String :=
  (record.lookup key).bind Json.asString

/-- `record[key].(bool)`. -/
def boolField (record : List (String × Json)) (key : String) : Option Bool :=
  (record.lookup key).bind Json.asBool

/-! ## Collecting references -/

mutual

/-- Duplicates go within an array, and stay among the fields of an object. -/
def collect : Json → List String
  | .arr items => (collectItems items).eraseDups
  | .obj fields => (stringField fields "secretRef").toList ++ collectFields fields
  | .null | .bool _ | .num _ | .str _ => []

def collectItems : List Json → List String
  | [] => []
  | item :: items => collect item ++ collectItems items

def collectFields : List (String × Json) → List String
  | [] => []
  | field :: fields => collect field.2 ++ collectFields fields

end

def collectUnique (value : Json) : List String :=
  (collect value).eraseDups

theorem collectItems_eq_flatMap (items : List Json) :
    collectItems items = items.flatMap collect := by
  induction items with
  | nil => rfl
  | cons item items ih => rw [collectItems, ih, List.flatMap_cons]

theorem collectFields_eq_flatMap (fields : List (String × Json)) :
    collectFields fields = fields.flatMap fun field => collect field.2 := by
  induction fields with
  | nil => rfl
  | cons field fields ih => rw [collectFields, ih, List.flatMap_cons]

/-! ## Binding references to an org -/

def maxWalkDepth : ℕ := 64

/-- `bindToOrgAt`, by the depth that is left. -/
def bindToOrgAt (orgID : ℤ) : ℕ → Json → Json
  | 0, value => value
  | depth + 1, .arr items => .arr (items.map (bindToOrgAt orgID depth))
  | depth + 1, .obj fields =>
    match stringField fields "secretRef" with
    | some s => .obj [("secretRef", .str s), ("orgId", .num orgID)]
    | none => .obj (fields.map fun field => (field.1, bindToOrgAt orgID depth field.2))
  | _ + 1, value => value

def bindToOrg (value : Json) (orgID : ℤ) : Json :=
  bindToOrgAt orgID maxWalkDepth value

theorem bindToOrgAt_eq_self {orgID : ℤ} {depth : ℕ} {value : Json} (h : collect value = []) :
    bindToOrgAt orgID depth value = value := by
  induction depth generalizing value with
  | zero => rfl
  | succ depth ih =>
    cases value with
    | arr items =>
      rw [collect] at h
      have hnone : collectItems items = [] := by
        apply List.eq_nil_iff_forall_not_mem.2
        intro s hs
        have hmem := List.mem_eraseDups.2 hs
        rw [h] at hmem
        exact List.not_mem_nil hmem
      rw [collectItems_eq_flatMap, List.flatMap_eq_nil_iff] at hnone
      have hitems : items.map (bindToOrgAt orgID depth) = items := by
        refine (List.map_congr_left fun item hitem => ?_).trans (List.map_id items)
        rw [ih (hnone item hitem), id]
      rw [bindToOrgAt, hitems]
    | obj fields =>
      rw [collect, List.append_eq_nil_iff, collectFields_eq_flatMap, List.flatMap_eq_nil_iff] at h
      have href : stringField fields "secretRef" = none := Option.toList_eq_nil_iff.1 h.1
      have hfields : fields.map (fun f => (f.1, bindToOrgAt orgID depth f.2)) = fields := by
        refine (List.map_congr_left fun f hf => ?_).trans (List.map_id fields)
        rw [ih (h.2 f hf), id]
      rw [bindToOrgAt, href, hfields]
    | null | bool _ | num _ | str _ => rfl

theorem bindToOrg_eq_self {value : Json} (h : collect value = []) (orgID : ℤ) :
    bindToOrg value orgID = value :=
  bindToOrgAt_eq_self h

/-! ## Redacting -/

/-- The discriminators of the registered kinds, in registration order. Each kind
redacts a record to its discriminator alone. -/
def kinds : List String := ["secretRef", "env", "googleCloudSecret"]

/-- The first kind a record matches, with the string it refers to. -/
def matchingKind (record : List (String × Json)) : Option (String × String) :=
  kinds.findSome? fun kind => (stringField record kind).map fun s => (kind, s)

def isRecognisedSecretKind : Json → Bool
  | .obj record => (matchingKind record).isSome
  | _ => false

def sensitiveConfigKeys : List String :=
  ["token", "accesstoken", "refreshtoken", "password", "apikey", "clientsecret", "privatekey",
    "secret", "hardcodedsecret"]

def isSensitiveConfigKey (key : String) : Bool :=
  let bare := String.ofList (key.toList.filter fun c => c != '-' && c != '_')
  sensitiveConfigKeys.contains (toLower bare)

/-- `redactWithAt`, by the depth that is left. -/
def redactAt : ℕ → Json → Json
  | 0, value => value
  | depth + 1, .arr items => .arr (items.map (redactAt depth))
  | depth + 1, .obj fields =>
    match matchingKind fields with
    | some (kind, s) => .obj [(kind, .str s)]
    | none => .obj (fields.map fun field =>
        let child := redactAt depth field.2
        (field.1, if isSensitiveConfigKey field.1 && !isRecognisedSecretKind child
          then .str "[REDACTED]" else child))
  | _ + 1, value => value

def redact (value : Json) : Json :=
  redactAt maxWalkDepth value

end CodeIntel.Secretrefs
