import Tugboat.Lib.Program
import Tugboat.Lib.Text
import Tugboat.Resources.ConfigMap

/-!
# Custom resource definitions

The kind `CustomResourceDefinition` with its JSON form, and `validateCrdSpec`, the check that every
definition passes before it is stored.  `Accepted` is what the rest of the development uses of it:
there is one version, it is served and stored, the group is a domain name and not one of the
built-in groups, and the name of the definition is made of its plural and its group, which it
determines.

The schema of a version is a JSON text.  Reading such a text is a parameter, `JsonParser`.
-/

namespace Tugboat

open Json

/-- The parser of JSON texts, with the text of its errors.  A blank text is no JSON. -/
class JsonParser where
  parse : String → Except String Value
  parse_blank : ∀ text v, Text.trim text = "" → parse text ≠ .ok v

/-- A parser that reads nothing. -/
@[reducible]
def JsonParser.rejecting : JsonParser where
  parse _ := .error "expected value at line 1 column 1"
  parse_blank _ _ _ := by simp

/-! ## Names -/

namespace NameValidator

/-- A part of a domain name: letters, digits and hyphens, with no hyphen at either end. -/
def isLabel (label : String) : Bool :=
  let cs := label.toList
  cs.all (fun c => isAlnum c || c == '-') && (cs.head?.any isAlnum) && (cs.getLast?.any isAlnum)

/-- A domain name: parts with dots between them. -/
def isValidDnsSubdomain (name : String) : Bool :=
  name.toList.length ≤ 253 && (Text.split '.' name).all isLabel

/-- Letters of either case and digits. -/
def isAlnumAnyCase (c : Char) : Bool := isAlnum c || ('A' ≤ c && c ≤ 'Z')

/-- The name of a kind, in upper camel case. -/
def isValidKindName (name : String) : Bool :=
  let cs := name.toList
  cs.length ≤ 253 && (cs.head?.any fun c => 'A' ≤ c && c ≤ 'Z') && cs.all isAlnumAnyCase

lemma notMem_of_isValidDnsSubdomain {c : Char} (hc : (isAlnum c || c == '-') = false)
    (hdot : c ≠ '.') {name : String} (h : isValidDnsSubdomain name = true) : c ∉ name.toList := by
  simp only [isValidDnsSubdomain, Bool.and_eq_true, List.all_eq_true] at h
  rw [← Text.join_split '.' name]
  refine Text.notMem_join hdot fun part hpart hmem => ?_
  have hlabel := h.2 part hpart
  simp only [isLabel, Bool.and_eq_true, List.all_eq_true] at hlabel
  cases hc.symm.trans (hlabel.1.1 c hmem)

end NameValidator

/-! ## The kind -/

structure CustomResourceDefinitionNames where
  plural : String := ""
  singular : String := ""
  kind : String := ""
  listKind : String := ""
  deriving DecidableEq, Repr

/-- The schema of a version, as a JSON text. -/
structure CustomResourceValidation where
  openApiV3Schema : String := ""
  deriving DecidableEq, Repr

/-- That a version has a status of its own; there is nothing to say about it. -/
structure CustomResourceSubresourceStatus where
  deriving DecidableEq, Repr

structure CustomResourceSubresources where
  status : Option CustomResourceSubresourceStatus := none
  deriving DecidableEq, Repr

structure CustomResourceDefinitionVersion where
  name : String := ""
  served : Bool := false
  storage : Bool := false
  schema : Option CustomResourceValidation := none
  subresources : Option CustomResourceSubresources := none
  deriving DecidableEq, Repr

structure CustomResourceDefinitionSpec where
  group : String := ""
  names : Option CustomResourceDefinitionNames := none
  scope : String := ""
  versions : List CustomResourceDefinitionVersion := []
  deriving DecidableEq, Repr

structure CustomResourceDefinitionCondition where
  type : String := ""
  status : String := ""
  reason : String := ""
  message : String := ""
  lastTransitionTime : Option Time := none
  deriving DecidableEq, Repr

structure CustomResourceDefinitionStatus where
  acceptedNames : Option CustomResourceDefinitionNames := none
  storedVersions : List String := []
  conditions : List CustomResourceDefinitionCondition := []
  deriving DecidableEq, Repr

structure CustomResourceDefinition where
  typeMeta : Option TypeMeta := none
  objectMeta : Option ObjectMeta := none
  spec : Option CustomResourceDefinitionSpec := none
  status : Option CustomResourceDefinitionStatus := none
  deriving DecidableEq, Repr

/-! ## Validation -/

/-- The groups of built-in kinds, which custom resources may not use. -/
def reservedGroups : List String :=
  ["core", "apps", "authorization", "coordination", "snapshot", "apiextensions"]

/-- The reasons for which a definition is refused. -/
inductive CrdSpecValidationError
  | missingSpec
  | unsupportedScope (scope : String)
  | invalidGroup (group : String)
  | reservedGroup (group : String)
  | unsupportedVersionCount (count : ℕ)
  | invalidVersionName (name : String)
  | versionNotServed (name : String)
  | versionNotStorage (name : String)
  | missingNames
  | invalidPlural (plural : String)
  | invalidSingular (singular : String)
  | invalidKind (kind : String)
  | invalidListKind (listKind : String)
  | nameMismatch (expected actual : String)
  | invalidOpenApiSchemaJson (message : String)
  deriving DecidableEq, Repr

def CrdSpecValidationError.toText : CrdSpecValidationError → String
  | .missingSpec => "spec is required"
  | .unsupportedScope scope =>
    "spec.scope must be \"Cluster\" or \"Namespaced\", got \"" ++ scope ++ "\""
  | .invalidGroup group => "spec.group \"" ++ group ++ "\" is not a valid DNS subdomain"
  | .reservedGroup group => "spec.group \"" ++ group ++ "\" is reserved for built-in resources"
  | .unsupportedVersionCount count =>
    "spec.versions must contain exactly one version (got " ++ toString count ++ ")"
  | .invalidVersionName name => "spec.versions[0].name \"" ++ name ++ "\" is invalid"
  | .versionNotServed name =>
    "spec.versions[0].served must be true for the only version (\"" ++ name ++ "\")"
  | .versionNotStorage name =>
    "spec.versions[0].storage must be true for the only version (\"" ++ name ++ "\")"
  | .missingNames => "spec.names is required"
  | .invalidPlural plural => "spec.names.plural \"" ++ plural ++ "\" is invalid"
  | .invalidSingular singular => "spec.names.singular \"" ++ singular ++ "\" is invalid"
  | .invalidKind kind => "spec.names.kind \"" ++ kind ++ "\" must be UpperCamelCase"
  | .invalidListKind listKind => "spec.names.listKind \"" ++ listKind ++ "\" must be UpperCamelCase"
  | .nameMismatch expected actual =>
    "metadata.name must be \"" ++ expected ++ "\" (got \"" ++ actual ++ "\")"
  | .invalidOpenApiSchemaJson message =>
    "spec.versions[0].schema.openApiV3Schema is not valid JSON: " ++ message

def crdName (plural group : String) : String := plural ++ "." ++ group

def validateVersion (version : CustomResourceDefinitionVersion) :
    Except CrdSpecValidationError Unit := do
  ensure (NameValidator.isValidName version.name) (.invalidVersionName version.name)
  ensure version.served (.versionNotServed version.name)
  ensure version.storage (.versionNotStorage version.name)

def validateNames (names : CustomResourceDefinitionNames) : Except CrdSpecValidationError Unit := do
  ensure (NameValidator.isValidName names.plural) (.invalidPlural names.plural)
  ensure (NameValidator.isValidName names.singular) (.invalidSingular names.singular)
  ensure (NameValidator.isValidKindName names.kind) (.invalidKind names.kind)
  ensure (names.listKind = "" || NameValidator.isValidKindName names.listKind)
    (.invalidListKind names.listKind)

def validateSchemaText [JsonParser] (version : CustomResourceDefinitionVersion) :
    Except CrdSpecValidationError Unit :=
  match version.schema with
  | none => .ok ()
  | some schema =>
    match JsonParser.parse schema.openApiV3Schema with
    | .ok _ => .ok ()
    | .error message => .error (.invalidOpenApiSchemaJson message)

/-- `validate_crd_spec`: the first thing that is wrong with a definition. -/
def validateCrdSpec [JsonParser] (crd : CustomResourceDefinition) :
    Except CrdSpecValidationError Unit := do
  let spec ← require crd.spec .missingSpec
  ensure (spec.scope = "Namespaced" || spec.scope = "Cluster") (.unsupportedScope spec.scope)
  ensure (NameValidator.isValidDnsSubdomain spec.group) (.invalidGroup spec.group)
  ensure (!reservedGroups.contains spec.group) (.reservedGroup spec.group)
  match spec.versions with
  | [version] =>
    validateVersion version
    let names ← require spec.names .missingNames
    validateNames names
    let expectedName := crdName names.plural spec.group
    let actualName := (crd.objectMeta.bind (·.name)).getD ""
    ensure (actualName = expectedName) (.nameMismatch expectedName actualName)
    validateSchemaText version
  | versions => throw (.unsupportedVersionCount versions.length)

namespace CustomResourceDefinition

/-- What a definition that passes the check is like. -/
structure Accepted [JsonParser] (crd : CustomResourceDefinition)
    (spec : CustomResourceDefinitionSpec)
    (version : CustomResourceDefinitionVersion) (names : CustomResourceDefinitionNames) :
    Prop where
  spec_eq : crd.spec = some spec
  scope : spec.scope = "Namespaced" ∨ spec.scope = "Cluster"
  group : NameValidator.isValidDnsSubdomain spec.group = true
  unreserved : spec.group ∉ reservedGroups
  versions_eq : spec.versions = [version]
  version_name : NameValidator.isValidName version.name = true
  served : version.served = true
  names_eq : spec.names = some names
  plural : NameValidator.isValidName names.plural = true
  schema : ∀ schema ∈ version.schema, ∃ v, JsonParser.parse schema.openApiV3Schema = .ok v
  name_eq : crd.objectMeta.bind (·.name) = some (crdName names.plural spec.group)

variable {crd : CustomResourceDefinition}

lemma accepted_of_validateCrdSpec [JsonParser] (h : validateCrdSpec crd = .ok ()) :
    ∃ spec version names, Accepted crd spec version names := by
  simp only [validateCrdSpec, bind_eq_ok_iff, require_eq_ok_iff, ensure_eq_ok_iff] at h
  obtain ⟨spec, hspec, -, hscope, -, hgroup, -, hreserved, h⟩ := h
  split at h
  next version hversions =>
    simp only [bind_eq_ok_iff, require_eq_ok_iff, ensure_eq_ok_iff, validateVersion,
      validateNames] at h
    obtain ⟨-, ⟨-, hversion, -, hserved, -⟩, names, hnames, -, ⟨-, hplural, -⟩, -, hname,
      hschema⟩ := h
    refine ⟨spec, version, names, hspec, by simpa using hscope, hgroup, by simpa using hreserved,
      hversions, hversion, hserved, hnames, hplural, fun schema hmem => ?_, ?_⟩
    · simp only [validateSchemaText, Option.mem_def.1 hmem] at hschema
      split at hschema
      next v hv =>
        exact ⟨v, hv⟩
      · cases hschema
    -- the name is there: a definition without one would be called `""`
    cases hactual : crd.objectMeta.bind (·.name) with
    | some name => simpa [hactual] using hname
    | none =>
      have hempty : "" = crdName names.plural spec.group := by simpa [hactual] using hname
      have hlength := congrArg (fun s => s.toList.length) hempty
      simp [crdName] at hlength
  · cases h

lemma Accepted.dot_notMem [JsonParser] {spec : CustomResourceDefinitionSpec}
    {version : CustomResourceDefinitionVersion} {names : CustomResourceDefinitionNames}
    (h : Accepted crd spec version names) : '.' ∉ names.plural.toList :=
  NameValidator.notMem_of_isValidName (by decide) h.plural

end CustomResourceDefinition

/-! ## JSON form -/

section

variable [TimeCodec]

def CustomResourceDefinitionNames.fields (n : CustomResourceDefinitionNames) :
    List (String × Option Value) :=
  [("plural", encodeUnlessDefault "" .string n.plural),
   ("singular", encodeUnlessDefault "" .string n.singular),
   ("kind", encodeUnlessDefault "" .string n.kind),
   ("listKind", encodeUnlessDefault "" .string n.listKind)]

def CustomResourceDefinitionNames.toValue (n : CustomResourceDefinitionNames) : Value :=
  .object (Map.ofFields n.fields)

def CustomResourceDefinitionNames.fromValue (v : Value) :
    Option CustomResourceDefinitionNames := do
  let m ← v.asRecord ["plural", "singular", "kind", "listKind"]
  return {
    plural := ← decodeDefault m "plural" "" Value.asStr
    singular := ← decodeDefault m "singular" "" Value.asStr
    kind := ← decodeDefault m "kind" "" Value.asStr
    listKind := ← decodeDefault m "listKind" "" Value.asStr }

def CustomResourceValidation.toValue (s : CustomResourceValidation) : Value :=
  .object (Map.ofFields [("openApiV3Schema", encodeUnlessDefault "" .string s.openApiV3Schema)])

def CustomResourceValidation.fromValue (v : Value) : Option CustomResourceValidation := do
  let m ← v.asRecord ["openApiV3Schema"]
  return { openApiV3Schema := ← decodeDefault m "openApiV3Schema" "" Value.asStr }

def CustomResourceSubresourceStatus.toValue (_ : CustomResourceSubresourceStatus) : Value :=
  .object []

def CustomResourceSubresourceStatus.fromValue (v : Value) :
    Option CustomResourceSubresourceStatus := do
  let _ ← v.asRecord []
  return {}

def CustomResourceSubresources.toValue (s : CustomResourceSubresources) : Value :=
  .object (Map.ofFields [("status", s.status.map CustomResourceSubresourceStatus.toValue)])

def CustomResourceSubresources.fromValue (v : Value) : Option CustomResourceSubresources := do
  let m ← v.asRecord ["status"]
  return { status := ← decodeOption m "status" CustomResourceSubresourceStatus.fromValue }

def CustomResourceDefinitionVersion.fields (v : CustomResourceDefinitionVersion) :
    List (String × Option Value) :=
  [("name", encodeUnlessDefault "" .string v.name),
   ("served", encodeUnlessDefault false .bool v.served),
   ("storage", encodeUnlessDefault false .bool v.storage),
   ("schema", v.schema.map CustomResourceValidation.toValue),
   ("subresources", v.subresources.map CustomResourceSubresources.toValue)]

def CustomResourceDefinitionVersion.toValue (v : CustomResourceDefinitionVersion) : Value :=
  .object (Map.ofFields v.fields)

def CustomResourceDefinitionVersion.fromValue (v : Value) :
    Option CustomResourceDefinitionVersion := do
  let m ← v.asRecord ["name", "served", "storage", "schema", "subresources"]
  return {
    name := ← decodeDefault m "name" "" Value.asStr
    served := ← decodeDefault m "served" false decodeBool
    storage := ← decodeDefault m "storage" false decodeBool
    schema := ← decodeOption m "schema" CustomResourceValidation.fromValue
    subresources := ← decodeOption m "subresources" CustomResourceSubresources.fromValue }

def encodeVersions (versions : List CustomResourceDefinitionVersion) : Value :=
  .array (versions.map CustomResourceDefinitionVersion.toValue)

def CustomResourceDefinitionSpec.fields (s : CustomResourceDefinitionSpec) :
    List (String × Option Value) :=
  [("group", encodeUnlessDefault "" .string s.group),
   ("names", s.names.map CustomResourceDefinitionNames.toValue),
   ("scope", encodeUnlessDefault "" .string s.scope),
   ("versions", encodeUnlessDefault [] encodeVersions s.versions)]

def CustomResourceDefinitionSpec.toValue (s : CustomResourceDefinitionSpec) : Value :=
  .object (Map.ofFields s.fields)

def CustomResourceDefinitionSpec.fromValue (v : Value) : Option CustomResourceDefinitionSpec := do
  let m ← v.asRecord ["group", "names", "scope", "versions"]
  return {
    group := ← decodeDefault m "group" "" Value.asStr
    names := ← decodeOption m "names" CustomResourceDefinitionNames.fromValue
    scope := ← decodeDefault m "scope" "" Value.asStr
    versions :=
      ← decodeDefault m "versions" [] (decodeList CustomResourceDefinitionVersion.fromValue) }

def CustomResourceDefinitionCondition.toValue (c : CustomResourceDefinitionCondition) :
    Option Value := do
  let lastTransitionTime ← encodeTime c.lastTransitionTime
  return .object <| Map.ofFields
    [("type", encodeUnlessDefault "" .string c.type),
     ("status", encodeUnlessDefault "" .string c.status),
     ("reason", encodeUnlessDefault "" .string c.reason),
     ("message", encodeUnlessDefault "" .string c.message),
     ("lastTransitionTime", lastTransitionTime)]

def CustomResourceDefinitionCondition.fromValue (v : Value) :
    Option CustomResourceDefinitionCondition := do
  let m ← v.asRecord ["type", "status", "reason", "message", "lastTransitionTime"]
  return {
    type := ← decodeDefault m "type" "" Value.asStr
    status := ← decodeDefault m "status" "" Value.asStr
    reason := ← decodeDefault m "reason" "" Value.asStr
    message := ← decodeDefault m "message" "" Value.asStr
    lastTransitionTime := ← decodeOption m "lastTransitionTime" decodeTime }

def CustomResourceDefinitionStatus.toValue (s : CustomResourceDefinitionStatus) :
    Option Value := do
  let conditions ← s.conditions.mapM CustomResourceDefinitionCondition.toValue
  return .object <| Map.ofFields
    [("acceptedNames", s.acceptedNames.map CustomResourceDefinitionNames.toValue),
     ("storedVersions", encodeUnlessDefault [] (fun l => .array (l.map .string)) s.storedVersions),
     ("conditions", encodeUnlessDefault [] .array conditions)]

def CustomResourceDefinitionStatus.fromValue (v : Value) :
    Option CustomResourceDefinitionStatus := do
  let m ← v.asRecord ["acceptedNames", "storedVersions", "conditions"]
  return {
    acceptedNames := ← decodeOption m "acceptedNames" CustomResourceDefinitionNames.fromValue
    storedVersions := ← decodeDefault m "storedVersions" [] (decodeList Value.asStr)
    conditions :=
      ← decodeDefault m "conditions" [] (decodeList CustomResourceDefinitionCondition.fromValue) }

namespace CustomResourceDefinition

/-- The fields of the JSON form, given those that can fail to be written. -/
def fields (c : CustomResourceDefinition) (metadata status : Option Value) :
    List (String × Option Value) :=
  ((c.typeMeta.map TypeMeta.toFields).getD []) ++
    [("metadata", metadata), ("spec", c.spec.map CustomResourceDefinitionSpec.toValue),
     ("status", status)]

def toValue (c : CustomResourceDefinition) : Option Value := do
  let metadata ← encodeOption ObjectMeta.toValue c.objectMeta
  let status ← encodeOption CustomResourceDefinitionStatus.toValue c.status
  return .object (Map.ofFields (c.fields metadata status))

def fromValue (v : Value) : Option CustomResourceDefinition := do
  let m ← v.asObject
  return {
    typeMeta := TypeMeta.fromFields m
    objectMeta := ← decodeOption m "metadata" ObjectMeta.fromValue
    spec := ← decodeOption m "spec" CustomResourceDefinitionSpec.fromValue
    status := ← decodeOption m "status" CustomResourceDefinitionStatus.fromValue }

instance : ObjectMetaResource CustomResourceDefinition where
  resourceKind := .customResourceDefinition
  objectMeta := objectMeta
  setObjectMeta m c := { c with objectMeta := m }

/-- Definitions have no namespace; their names are checked with the spec. -/
instance [JsonParser] : Resource CustomResourceDefinition where
  setTypeMeta t c := { c with typeMeta := some t }
  toValue := toValue
  fromValue := fromValue
  validate c := (c.objectMeta.bind (·.namespace)).isNone && (validateCrdSpec c).isOk

end CustomResourceDefinition

/-! ## What is read back -/

section RoundTrip

omit [TimeCodec]

lemma asStr_string (s : String) : Value.asStr (.string s) = some s := rfl

lemma CustomResourceDefinitionNames.fromValue_toValue (n : CustomResourceDefinitionNames) :
    fromValue n.toValue = some n := by
  have hget := fun k => Map.get_ofFields n.fields k (by simp [fields])
  simp [fromValue, toValue, decodeDefault_of_get (hget "plural") asStr_string,
    decodeDefault_of_get (hget "singular") asStr_string,
    decodeDefault_of_get (hget "kind") asStr_string,
    decodeDefault_of_get (hget "listKind") asStr_string]

lemma CustomResourceValidation.fromValue_toValue (s : CustomResourceValidation) :
    fromValue s.toValue = some s := by
  have hget := Map.get_ofFields
    [("openApiV3Schema", encodeUnlessDefault "" Value.string s.openApiV3Schema)]
    "openApiV3Schema" (by simp)
  simp [fromValue, toValue, decodeDefault_of_get hget asStr_string]

lemma CustomResourceSubresources.fromValue_toValue (s : CustomResourceSubresources) :
    fromValue s.toValue = some s := by
  have hget := Map.get_ofFields
    [("status", s.status.map CustomResourceSubresourceStatus.toValue)] "status" (by simp)
  have hstatus : ∀ a : CustomResourceSubresourceStatus,
      CustomResourceSubresourceStatus.fromValue a.toValue = some a := fun _ => rfl
  simp [fromValue, toValue, decodeOption_of_get hget hstatus
      (fun a => by simp [CustomResourceSubresourceStatus.toValue])]

lemma CustomResourceDefinitionVersion.fromValue_toValue (v : CustomResourceDefinitionVersion) :
    fromValue v.toValue = some v := by
  have hget := fun k => Map.get_ofFields v.fields k (by simp [fields])
  have hbool : ∀ b : Bool, decodeBool (.bool b) = some b := fun _ => rfl
  simp [fromValue, toValue, decodeDefault_of_get (hget "name") asStr_string,
    decodeDefault_of_get (hget "served") hbool, decodeDefault_of_get (hget "storage") hbool,
    decodeOption_of_get (hget "schema") CustomResourceValidation.fromValue_toValue
      (fun a => by simp [CustomResourceValidation.toValue]),
    decodeOption_of_get (hget "subresources") CustomResourceSubresources.fromValue_toValue
      (fun a => by simp [CustomResourceSubresources.toValue])]

lemma decodeList_encodeVersions (versions : List CustomResourceDefinitionVersion) :
    decodeList CustomResourceDefinitionVersion.fromValue (encodeVersions versions) =
      some versions := by
  rw [encodeVersions, decodeList]
  induction versions with
  | nil => rfl
  | cons v versions ih =>
    rw [List.map_cons, List.mapM_cons, CustomResourceDefinitionVersion.fromValue_toValue, ih]
    rfl

lemma CustomResourceDefinitionSpec.fromValue_toValue (s : CustomResourceDefinitionSpec) :
    fromValue s.toValue = some s := by
  have hget := fun k => Map.get_ofFields s.fields k (by simp [fields])
  simp [fromValue, toValue, decodeDefault_of_get (hget "group") asStr_string,
    decodeOption_of_get (hget "names") CustomResourceDefinitionNames.fromValue_toValue
      (fun a => by simp [CustomResourceDefinitionNames.toValue]),
    decodeDefault_of_get (hget "scope") asStr_string,
    decodeDefault_of_get (hget "versions") decodeList_encodeVersions]

end RoundTrip

namespace CustomResourceDefinition

variable {c : CustomResourceDefinition} {m : Map}

lemma get_spec_of_toValue (h : c.toValue = some (.object m)) :
    m.get "spec" = c.spec.map CustomResourceDefinitionSpec.toValue := by
  simp only [toValue, Option.bind_eq_bind, Option.pure_def, Option.bind_eq_some_iff] at h
  obtain ⟨metadata, -, status, -, h⟩ := h
  cases h
  rw [Map.get_ofFields]
  · cases hc : c.typeMeta with
    | none => simp [fields, hc, List.lookup_cons]
    | some t => simp [fields, hc, List.lookup_cons, TypeMeta.toFields]
  · cases hc : c.typeMeta with
    | none => simp [fields, hc]
    | some t => simp [fields, hc, TypeMeta.toFields]

lemma decode_spec_of_fromValue (h : fromValue (.object m) = some c) :
    decodeOption m "spec" CustomResourceDefinitionSpec.fromValue = some c.spec := by
  simp only [fromValue, Value.asObject, Option.bind_eq_bind, Option.bind_some, Option.pure_def,
    Option.bind_eq_some_iff] at h
  obtain ⟨objectMeta, -, spec, hspec, status, -, h⟩ := h
  cases h
  exact hspec

lemma spec_of_fromValue {c' : CustomResourceDefinition} {m' : Map}
    (h : c.toValue = some (.object m)) (h' : fromValue (.object m') = some c')
    (hspec : m'.get "spec" = m.get "spec") : c'.spec = c.spec := by
  have hround : decodeOption m' "spec" CustomResourceDefinitionSpec.fromValue = some c.spec :=
    decodeOption_of_get (hspec.trans (get_spec_of_toValue h))
      CustomResourceDefinitionSpec.fromValue_toValue
      fun a => by simp [CustomResourceDefinitionSpec.toValue]
  exact Option.some.inj ((decode_spec_of_fromValue h').symm.trans hround)

end CustomResourceDefinition

end

section Codec

variable [LawfulTimeCodec] {α : Type} {m : Map} {k : String} {encode : α → Option Value}
  {decode : Value → Option α}

omit [LawfulTimeCodec] in
lemma decodeOption_encodeOption {a : Option α} {written : Option Value}
    (h : ∀ x ∈ a, ∀ v, encode x = some v → decode v = some x) (hnull : decode .null = none)
    (hwritten : encodeOption encode a = some written) (hget : m.get k = written) :
    decodeOption m k decode = some a := by
  cases a with
  | none =>
    cases hwritten
    rw [decodeOption, hget]
  | some a =>
    obtain ⟨v, hv, rfl⟩ := Option.map_eq_some_iff.1 hwritten
    have hdecode := h a rfl v hv
    unfold decodeOption
    rw [hget]
    split
    · contradiction
    next heq =>
      cases heq
      cases hnull.symm.trans hdecode
    next heq =>
      cases heq
      rw [hdecode]
      rfl

omit [LawfulTimeCodec] in
lemma mapM_of_mapM {l : List α} (h : ∀ a ∈ l, ∀ v, encode a = some v → decode v = some a)
    {vs : List Value} (hl : l.mapM encode = some vs) : vs.mapM decode = some l := by
  induction l generalizing vs with
  | nil =>
    cases hl
    rfl
  | cons a l ih =>
    rw [List.mapM_cons] at hl
    obtain ⟨v, hv, hl⟩ := Option.bind_eq_some_iff.1 hl
    obtain ⟨vs, hvs, hl⟩ := Option.bind_eq_some_iff.1 hl
    cases hl
    rw [List.mapM_cons, h a List.mem_cons_self v hv,
      ih (fun a' ha' => h a' (List.mem_cons_of_mem a ha')) hvs]
    rfl

lemma CustomResourceDefinitionCondition.fromValue_toValue {c : CustomResourceDefinitionCondition}
    {v : Value} (htime : ∀ t ∈ c.lastTransitionTime, t.FourDigitYear) (h : c.toValue = some v) :
    fromValue v = some c := by
  obtain ⟨time, hwritten, h⟩ := Option.bind_eq_some_iff.1 h
  change some (Value.object (Map.ofFields ?fields)) = _ at h
  cases h
  have hget := fun k => Map.get_ofFields ?fields k (by simp)
  simp [fromValue, decodeDefault_of_get (hget "type") asStr_string,
    decodeDefault_of_get (hget "status") asStr_string,
    decodeDefault_of_get (hget "reason") asStr_string,
    decodeDefault_of_get (hget "message") asStr_string,
    (decodeOption_time_eq_some_iff hwritten (hget "lastTransitionTime")).2 ⟨htime, rfl⟩]

/-- The years of the transitions have four digits. -/
def CustomResourceDefinitionStatus.Timely (s : CustomResourceDefinitionStatus) : Prop :=
  ∀ c ∈ s.conditions, ∀ t ∈ c.lastTransitionTime, t.FourDigitYear

lemma CustomResourceDefinitionStatus.fromValue_toValue {s : CustomResourceDefinitionStatus}
    {v : Value} (htimely : s.Timely) (h : s.toValue = some v) : fromValue v = some s := by
  obtain ⟨conditions, hconditions, h⟩ := Option.bind_eq_some_iff.1 h
  change some (Value.object (Map.ofFields ?fields)) = _ at h
  cases h
  have hget := fun k => Map.get_ofFields ?fields k (by simp)
  have hread := mapM_of_mapM
    (fun c hc _ => CustomResourceDefinitionCondition.fromValue_toValue (htimely c hc)) hconditions
  have hdecode : decodeDefault (Map.ofFields ?fields) "conditions" []
      (decodeList CustomResourceDefinitionCondition.fromValue) = some s.conditions := by
    rw [decodeDefault, hget "conditions"]
    by_cases hnil : conditions = []
    · subst hnil
      exact hread
    · simpa [encodeUnlessDefault, hnil, decodeList, List.lookup_cons] using hread
  simp [fromValue, decodeOption_of_get (hget "acceptedNames")
      CustomResourceDefinitionNames.fromValue_toValue
      (fun a => by simp [CustomResourceDefinitionNames.toValue]),
    decodeDefault_of_get (hget "storedVersions") (decodeList_map asStr_string), hdecode]

/-- The numbers and times of the definition are those that its JSON form has. -/
structure CustomResourceDefinition.Representable (c : CustomResourceDefinition) : Prop where
  ranged : ∀ m ∈ c.objectMeta, m.Ranged
  timely : ∀ m ∈ c.objectMeta, m.Timely
  timelyStatus : ∀ s ∈ c.status, s.Timely

/-- **A definition is read back as it was written.**  Only type metadata that is not there comes
back as empty type metadata. -/
theorem CustomResourceDefinition.toValue_reads_back
    (c : { c : CustomResourceDefinition // c.Representable }) :
    c.1.toValue.bind fromValue =
      c.1.toValue.map fun _ => { c.1 with typeMeta := some (c.1.typeMeta.getD {}) } := by
  obtain ⟨c, hranged, htimely, hstatusTimely⟩ := c
  cases hv : c.toValue with
  | none => rfl
  | some v =>
    obtain ⟨metadata, hmetadata, hv⟩ := Option.bind_eq_some_iff.1 hv
    obtain ⟨status, hstatus, hv⟩ := Option.bind_eq_some_iff.1 hv
    cases hv
    have hnodup : ((c.fields metadata status).map Prod.fst).Nodup := by
      cases hc : c.typeMeta <;> simp [fields, hc, TypeMeta.toFields]
    have hget := fun k => Map.get_ofFields (c.fields metadata status) k hnodup
    have hlookup : ((c.fields metadata status).lookup "apiVersion").join =
          (c.typeMeta.bind (·.apiVersion)).map .string ∧
        ((c.fields metadata status).lookup "kind").join =
          (c.typeMeta.bind (·.kind)).map .string ∧
        ((c.fields metadata status).lookup "metadata").join = metadata ∧
        ((c.fields metadata status).lookup "spec").join =
          c.spec.map CustomResourceDefinitionSpec.toValue ∧
        ((c.fields metadata status).lookup "status").join = status := by
      cases hc : c.typeMeta <;> simp [fields, hc, TypeMeta.toFields, List.lookup_cons]
    obtain ⟨hversion, hkind, hmeta, hspec, hstat⟩ := hlookup
    have htype : TypeMeta.fromFields (Map.ofFields (c.fields metadata status)) =
        some (c.typeMeta.getD {}) := by
      simp only [TypeMeta.fromFields,
        decodeOption_of_get ((hget _).trans hversion) asStr_string (by simp),
        decodeOption_of_get ((hget _).trans hkind) asStr_string (by simp)]
      cases c.typeMeta <;> rfl
    have hmeta := decodeOption_encodeOption (fun m hm _ hwritten =>
      ObjectMeta.fromValue_toValue (hranged m hm) (htimely m hm) hwritten) rfl hmetadata
      ((hget _).trans hmeta)
    have hspec := decodeOption_of_get ((hget _).trans hspec)
      CustomResourceDefinitionSpec.fromValue_toValue
      fun a => by simp [CustomResourceDefinitionSpec.toValue]
    have hstat := decodeOption_encodeOption
      (fun s hs _ => CustomResourceDefinitionStatus.fromValue_toValue (hstatusTimely s hs)) rfl
      hstatus ((hget _).trans hstat)
    simp [fromValue, Value.asObject, htype, hmeta, hspec, hstat]

end Codec

/-! ## Values for concrete runs -/

namespace Fixture

/-- There are no schemas here. -/
scoped instance parser : JsonParser := JsonParser.rejecting

/-- A definition of widgets, by the name of its version. -/
def widgets (version : String) : CustomResourceDefinition where
  objectMeta := some { name := some "widgets.example.com" }
  spec := some {
    group := "example.com", scope := "Namespaced"
    names := some { plural := "widgets", singular := "widget", kind := "Widget" }
    versions := [{ name := version, served := true, storage := true }] }

end Fixture

end Tugboat
