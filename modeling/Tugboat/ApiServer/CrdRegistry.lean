import Mathlib.Data.Option.Basic
import Tugboat.ApiServer.Router
import Tugboat.Lib.Run
import Tugboat.Store.Keys
import Tugboat.Store.Watch

/-!
# The registry of custom resource definitions

The server keeps what it needs of the stored definitions in memory.  The registry is filled once
from a list of the store, and then follows the events of a watch: a definition that is written
replaces all entries of its name, a definition that is deleted takes them away.

Entries are found by group, version and plural, while events are about definitions.  What holds the
two together is the name: it is made of plural and group, and an accepted definition has a single
version.  `CrdSync.Synced` says that the registry has the entries of the stored definitions and no
others; `CrdSync.mirrors_all` reads off what that means for a lookup.

Compiling a schema is a parameter, `SchemaCompiler`.
-/

namespace Tugboat

open Json

/-! ## Schemas -/

/-- An error that a schema finds in a value. -/
structure SchemaViolation where
  field : String
  message : String
  deriving DecidableEq, Repr

/-- What a schema is compiled to: all errors it finds in a value, in order. -/
structure CompiledSchema where
  errors : Value → List SchemaViolation

/-- At most this many errors are reported. -/
def maxValidationErrors : ℕ := 20

def CompiledSchema.validate (schema : CompiledSchema) (value : Value) :
    Except (List SchemaViolation) Unit :=
  let violations := (schema.errors value).take maxValidationErrors
  if violations.isEmpty then .ok () else .error violations

/-- The schema compiler, with the text of its errors. -/
class SchemaCompiler where
  compile : Value → Except String CompiledSchema

section

variable [JsonParser] [SchemaCompiler]

def validateVersionSchema (version : CustomResourceDefinitionVersion) : Except String Unit :=
  match version.schema with
  | none => .ok ()
  | some schema =>
    if Text.trim schema.openApiV3Schema = "" then .ok ()
    else do
      let schemaJson ← JsonParser.parse schema.openApiV3Schema
      let _ ← SchemaCompiler.compile schemaJson
      return ()

/-- `validate_crd_schemas`: all schemas of a definition can be compiled. -/
def validateCrdSchemas (crd : CustomResourceDefinition) : Except String Unit :=
  match crd.spec with
  | none => .ok ()
  | some spec => spec.versions.forM validateVersionSchema

end

/-! ## Entries -/

structure CrdVersionInfo where
  name : String
  served : Bool
  storage : Bool
  schemaJson : Option Value
  compiledSchema : Option CompiledSchema
  statusSubresource : Bool

/-- An entry of the registry in full; the routes use the part of it that is a `CrdEntry`. -/
structure FullCrdEntry where
  group : String
  plural : String
  singular : String
  kind : String
  listKind : String
  scope : ResourceScope
  version : CrdVersionInfo

namespace FullCrdEntry

def key (e : FullCrdEntry) : String × String × String := (e.group, e.version.name, e.plural)

def crdName (e : FullCrdEntry) : String := Tugboat.crdName e.plural e.group

def matchesCrdName (e : FullCrdEntry) (name : String) : Bool := name == e.crdName

end FullCrdEntry

def parseScope (scope : String) : Option ResourceScope :=
  if scope = "Cluster" then some .cluster
  else if scope = "Namespaced" then some .namespaced
  else none

/-- The schema of a version, parsed and compiled; the outer option is the failure to do so. -/
def readSchema [JsonParser] [SchemaCompiler] (version : CustomResourceDefinitionVersion) :
    Option (Option Value × Option CompiledSchema) :=
  match version.schema with
  | none => some (none, none)
  | some schema =>
    if Text.trim schema.openApiV3Schema = "" then some (none, none)
    else do
      let schemaJson ← (JsonParser.parse schema.openApiV3Schema).toOption
      let compiledSchema ← (SchemaCompiler.compile schemaJson).toOption
      return (some schemaJson, some compiledSchema)

/-- `from_crd`: the entry of a definition, for the first of its versions. -/
def fromCrd [JsonParser] [SchemaCompiler] (crd : CustomResourceDefinition) :
    Option FullCrdEntry := do
  let spec ← crd.spec
  let names ← spec.names
  let version ← spec.versions.head?
  let scope ← parseScope spec.scope
  let (schemaJson, compiledSchema) ← readSchema version
  return {
    group := spec.group
    plural := names.plural
    singular := names.singular
    kind := names.kind
    listKind := if names.listKind = "" then names.kind ++ "List" else names.listKind
    scope
    version := {
      name := version.name
      served := version.served
      storage := version.storage
      schemaJson
      compiledSchema
      statusSubresource := (version.subresources.bind (·.status)).isSome } }

/-! ## The registry -/

inductive CrdRegistryError
  | reservedGroup (group : String)
  deriving DecidableEq, Repr

/-- The map of the registry.  Entries are under their own keys, and none is of a reserved group. -/
structure CrdRegistryInner where
  byGroupVersionPlural : String × String × String → Option FullCrdEntry
  keyed : ∀ key entry, byGroupVersionPlural key = some entry → entry.key = key
  unreserved : ∀ key entry, byGroupVersionPlural key = some entry → entry.group ∉ reservedGroups

namespace CrdRegistryInner

def empty : CrdRegistryInner where
  byGroupVersionPlural _ := none
  keyed := by simp
  unreserved := by simp

/-- `lookup`: a version that is not served counts as not registered. -/
def lookup (r : CrdRegistryInner) (group version plural : String) : Option FullCrdEntry :=
  (r.byGroupVersionPlural (group, version, plural)).filter (·.version.served)

/-- The entry is in the registry, served or not. -/
def Lists (r : CrdRegistryInner) (entry : FullCrdEntry) : Prop :=
  r.byGroupVersionPlural entry.key = some entry

/-- Store an entry under its key. -/
def insert (r : CrdRegistryInner) (entry : FullCrdEntry) (h : entry.group ∉ reservedGroups) :
    CrdRegistryInner where
  byGroupVersionPlural := Function.update r.byGroupVersionPlural entry.key (some entry)
  keyed key entry' hentry := by
    rcases of_update_eq_some hentry with ⟨rfl, ⟨⟩⟩ | ⟨-, hentry⟩
    · rfl
    · exact r.keyed key entry' hentry
  unreserved key entry' hentry := by
    rcases of_update_eq_some hentry with ⟨-, ⟨⟩⟩ | ⟨-, hentry⟩
    · exact h
    · exact r.unreserved key entry' hentry

@[simp] lemma byGroupVersionPlural_insert_self (r : CrdRegistryInner) (entry : FullCrdEntry)
    (h : entry.group ∉ reservedGroups) :
    (r.insert entry h).byGroupVersionPlural entry.key = some entry := Function.update_self ..

lemma byGroupVersionPlural_insert_of_ne (r : CrdRegistryInner) {entry : FullCrdEntry}
    (h : entry.group ∉ reservedGroups) {key : String × String × String} (hkey : key ≠ entry.key) :
    (r.insert entry h).byGroupVersionPlural key = r.byGroupVersionPlural key :=
  Function.update_of_ne hkey ..

def upsert (r : CrdRegistryInner) (entry : FullCrdEntry) :
    Except CrdRegistryError CrdRegistryInner :=
  if h : entry.group ∈ reservedGroups then .error (.reservedGroup entry.group)
  else .ok (r.insert entry h)

def removeCrdName (r : CrdRegistryInner) (name : String) : CrdRegistryInner where
  byGroupVersionPlural key := (r.byGroupVersionPlural key).filter fun e => !e.matchesCrdName name
  keyed key entry h := r.keyed key entry (Option.filter_eq_some_iff.1 h).1
  unreserved key entry h := r.unreserved key entry (Option.filter_eq_some_iff.1 h).1

def replaceAll (entries : List FullCrdEntry) : Except CrdRegistryError CrdRegistryInner :=
  entries.foldlM upsert empty

end CrdRegistryInner

lemma parseScope_of_accepted {scope : String} (h : scope = "Namespaced" ∨ scope = "Cluster") :
    ∃ s, parseScope scope = some s := by
  rcases h with rfl | rfl
  · exact ⟨.namespaced, rfl⟩
  · exact ⟨.cluster, rfl⟩

lemma crdName_eq_of_key_eq {entry entry' : FullCrdEntry} (h : entry.key = entry'.key) :
    entry.crdName = entry'.crdName := by
  simp only [FullCrdEntry.key, Prod.mk.injEq] at h
  rw [FullCrdEntry.crdName, FullCrdEntry.crdName, h.1, h.2.2]

lemma byGroupVersionPlural_removeCrdName {r : CrdRegistryInner} {name : String}
    {key : String × String × String} {entry : FullCrdEntry} :
    (r.removeCrdName name).byGroupVersionPlural key = some entry ↔
      r.byGroupVersionPlural key = some entry ∧ entry.crdName ≠ name := by
  have hmatches : (!entry.matchesCrdName name) = true ↔ entry.crdName ≠ name := by
    rw [FullCrdEntry.matchesCrdName, Bool.not_eq_true', beq_eq_false_iff_ne, ne_comm]
  rw [CrdRegistryInner.removeCrdName, Option.filter_eq_some_iff, hmatches]

/-- A registry is built from the entries of a list: what it has is in the list, and it has
something for each of them. -/
lemma exists_foldlM_upsert (entries : List FullCrdEntry) (r : CrdRegistryInner)
    (h : ∀ entry ∈ entries, entry.group ∉ reservedGroups) :
    ∃ r', entries.foldlM CrdRegistryInner.upsert r = .ok r' ∧
      (∀ key entry, r'.byGroupVersionPlural key = some entry →
        entry ∈ entries ∨ r.byGroupVersionPlural key = some entry) ∧
      (∀ key, (r.byGroupVersionPlural key).isSome ∨ (∃ entry ∈ entries, entry.key = key) →
        (r'.byGroupVersionPlural key).isSome) := by
  induction entries generalizing r with
  | nil => exact ⟨r, rfl, fun _ _ h => .inr h, fun key h => by simpa using h⟩
  | cons e entries ih =>
    have he : e.group ∉ reservedGroups := h e List.mem_cons_self
    obtain ⟨r', hr', hmem, hsome⟩ :=
      ih (r.insert e he) fun entry hentry => h entry (List.mem_cons_of_mem e hentry)
    refine ⟨r', ?_, fun key entry hentry => ?_, fun key hkey => hsome key ?_⟩
    · rw [List.foldlM_cons, CrdRegistryInner.upsert, dif_neg he]
      exact hr'
    · rcases hmem key entry hentry with hlist | hold
      · exact .inl (List.mem_cons_of_mem e hlist)
      rcases of_update_eq_some hold with ⟨-, ⟨⟩⟩ | ⟨-, hold⟩
      · exact .inl List.mem_cons_self
      · exact .inr hold
    · by_cases heq : key = e.key
      · left
        rw [heq, CrdRegistryInner.byGroupVersionPlural_insert_self, Option.isSome_some]
      · rw [r.byGroupVersionPlural_insert_of_ne he heq]
        refine hkey.imp id ?_
        rintro ⟨entry, hentry, hkey'⟩
        rcases List.mem_cons.1 hentry with rfl | hentry
        · exact absurd hkey'.symm heq
        · exact ⟨entry, hentry, hkey'⟩

/-! ## Following the store -/

section

variable [JsonParser] [SchemaCompiler]

structure AcceptedCrd [JsonParser] [SchemaCompiler] where
  crd : CustomResourceDefinition
  validSpec : validateCrdSpec crd = .ok ()
  validSchemas : validateCrdSchemas crd = .ok ()

namespace AcceptedCrd

def name (c : AcceptedCrd) : String := (Resource.name c.crd).getD ""

def key (c : AcceptedCrd) : String :=
  Collection.createWatchKey CustomResourceDefinition none ++ c.name

end AcceptedCrd

/-- The stored definitions, with the keys in use. -/
structure CrdStore [JsonParser] [SchemaCompiler] where
  stored : String → Option AcceptedCrd
  keys : List String
  mem_keys : ∀ key c, stored key = some c → key ∈ keys
  keyed : ∀ key c, stored key = some c → c.key = key

namespace CrdStore

/-- All stored definitions, as a range read finds them. -/
def list (s : CrdStore) : List AcceptedCrd :=
  (s.keys.filter fun key =>
    (Collection.createWatchKey CustomResourceDefinition none).toList <+: key.toList).filterMap
      s.stored

def put (s : CrdStore) (c : AcceptedCrd) : CrdStore where
  stored := Function.update s.stored c.key (some c)
  keys := c.key :: s.keys
  mem_keys key c' h := by
    rcases of_update_eq_some h with ⟨rfl, -⟩ | ⟨-, h⟩
    · exact List.mem_cons_self
    · exact List.mem_cons_of_mem _ (s.mem_keys key c' h)
  keyed key c' h := by
    rcases of_update_eq_some h with ⟨rfl, ⟨⟩⟩ | ⟨-, h⟩
    · rfl
    · exact s.keyed key c' h

@[simp] lemma stored_put_self (s : CrdStore) (c : AcceptedCrd) :
    (s.put c).stored c.key = some c := Function.update_self ..

variable {key : String}

def delete (s : CrdStore) (key : String) : CrdStore where
  stored := Function.update s.stored key none
  keys := s.keys
  mem_keys key' c h := s.mem_keys key' c (of_update_none_eq_some h)
  keyed key' c h := s.keyed key' c (of_update_none_eq_some h)

end CrdStore

/-- The last part of a key, if it is not empty. -/
def lastSegment (key : String) : Option String :=
  (Text.split '/' key).getLast?.filter (· ≠ "")

def crdNameFromCrdOrKey (crd : CustomResourceDefinition) (key : String) : Option String :=
  (Resource.name crd).or (lastSegment key)

/-- `load_crds_into_registry`; the registry that is there stays when there is an error. -/
def loadCrdsIntoRegistry (s : CrdStore) (r : CrdRegistryInner) : CrdRegistryInner :=
  match CrdRegistryInner.replaceAll (s.list.filterMap fun c => fromCrd c.crd) with
  | .ok r' => r'
  | .error _ => r

def applyWritten (r : CrdRegistryInner) (crd : CustomResourceDefinition) (key : String) :
    CrdRegistryInner :=
  match fromCrd crd with
  | some entry =>
    let name := (crdNameFromCrdOrKey crd key).getD entry.crdName
    let r := r.removeCrdName name
    match r.upsert entry with
    | .ok r' => r'
    | .error _ => r
  | none =>
    match crdNameFromCrdOrKey crd key with
    | some name => r.removeCrdName name
    | none => r

/-- `apply_watch_event`.  A value that cannot be decoded is no value here; a deletion goes by the
key alone. -/
def applyWatchEvent (r : CrdRegistryInner) :
    WatchEvent (KeyValue CustomResourceDefinition) → CrdRegistryInner
  | .added kv | .modified kv =>
    match kv.value with
    | some crd => applyWritten r crd kv.key
    | none => r
  | .deleted kv =>
    match lastSegment kv.key with
    | some name => r.removeCrdName name
    | none => r

/-! ## Runs -/

/-- The stored definitions and the registry of a server. -/
structure CrdSync [JsonParser] [SchemaCompiler] where
  store : CrdStore
  registry : CrdRegistryInner

/-- A change of the store.  The event of a deletion may or may not carry the version that is gone,
and whatever is there in its place is not looked at. -/
inductive CrdChange [JsonParser] [SchemaCompiler]
  | create (crd : AcceptedCrd) (revision : ℕ)
  | update (crd : AcceptedCrd) (revision : ℕ)
  | delete (name : String) (payload : Option CustomResourceDefinition) (revision : ℕ)

namespace CrdSync

def load (s : CrdStore) (r : CrdRegistryInner) : CrdSync := ⟨s, loadCrdsIntoRegistry s r⟩

/-- A change is made, and its event applied.  Deleting what is not there is no change. -/
def step (s : CrdSync) : CrdChange → CrdSync
  | .create c revision =>
    ⟨s.store.put c, applyWatchEvent s.registry (.added ⟨c.key, some c.crd, revision⟩)⟩
  | .update c revision =>
    ⟨s.store.put c, applyWatchEvent s.registry (.modified ⟨c.key, some c.crd, revision⟩)⟩
  | .delete name payload revision =>
    let key := Collection.createWatchKey CustomResourceDefinition none ++ name
    if (s.store.stored key).isSome then
      ⟨s.store.delete key, applyWatchEvent s.registry (.deleted ⟨key, payload, revision⟩)⟩
    else s

end CrdSync

/-- The definition serves the version under the group and plural. -/
def Serves (crd : CustomResourceDefinition) (group version plural : String) : Prop :=
  ∃ spec names v, crd.spec = some spec ∧ spec.names = some names ∧ v ∈ spec.versions ∧
    spec.group = group ∧ names.plural = plural ∧ v.name = version ∧ v.served = true

def HoldsSchema (version : CustomResourceDefinitionVersion) (schemaJson : Option Value)
    (compiledSchema : Option CompiledSchema) : Prop :=
  match version.schema with
  | none => schemaJson = none ∧ compiledSchema = none
  | some schema => ∃ json compiled, JsonParser.parse schema.openApiV3Schema = .ok json ∧
      SchemaCompiler.compile json = .ok compiled ∧ schemaJson = some json ∧
      compiledSchema = some compiled

/-- The entry carries the scope, the kind and the schema of the version of the definition. -/
def Carries (entry : FullCrdEntry) (crd : CustomResourceDefinition) (version : String) : Prop :=
  ∀ spec names v, crd.spec = some spec → spec.names = some names → v ∈ spec.versions →
    v.name = version → parseScope spec.scope = some entry.scope ∧ entry.kind = names.kind ∧
      HoldsSchema v entry.version.schemaJson entry.version.compiledSchema

/-- The registry is that of the stored definitions: a lookup finds an entry exactly if a definition
serves it, the entry is that of the definition, and there are no other entries. -/
structure Mirrors (s : CrdSync) : Prop where
  lookup : ∀ group version plural, (s.registry.lookup group version plural).isSome = true ↔
    ∃ key c, s.store.stored key = some c ∧ Serves c.crd group version plural
  carries : ∀ group version plural entry key c,
    s.registry.lookup group version plural = some entry → s.store.stored key = some c →
      Serves c.crd group version plural → Carries entry c.crd version
  current : ∀ entry, s.registry.Lists entry → ∃ key c, s.store.stored key = some c ∧
    Serves c.crd entry.group entry.version.name entry.plural

/-! ## The entry of an accepted definition -/

lemma readSchema_of_valid {version : CustomResourceDefinitionVersion}
    (hparse : ∀ schema ∈ version.schema, ∃ v, JsonParser.parse schema.openApiV3Schema = .ok v)
    (hvalid : validateVersionSchema version = .ok ()) :
    ∃ schemaJson compiledSchema, readSchema version = some (schemaJson, compiledSchema) ∧
      HoldsSchema version schemaJson compiledSchema := by
  cases hschema : version.schema with
  | none => exact ⟨none, none, by simp only [readSchema, hschema], by simp [HoldsSchema, hschema]⟩
  | some schema =>
    obtain ⟨json, hjson⟩ := hparse schema hschema
    have hblank : Text.trim schema.openApiV3Schema ≠ "" := fun h =>
      JsonParser.parse_blank _ json h hjson
    simp only [validateVersionSchema, hschema, if_neg hblank, bind_eq_ok_iff] at hvalid
    obtain ⟨json', hjson', compiled, hcompiled, -⟩ := hvalid
    obtain rfl : json = json' := Except.ok.inj (hjson.symm.trans hjson')
    refine ⟨some json, some compiled, ?_, ?_⟩
    · simp [readSchema, hschema, hblank, hjson, Except.toOption, hcompiled]
    · simp only [HoldsSchema, hschema]
      exact ⟨json, compiled, hjson, hcompiled, rfl, rfl⟩

/-- The entry of an accepted definition, and all there is to know about it. -/
structure EntryOf (c : AcceptedCrd) (entry : FullCrdEntry) : Prop where
  fromCrd_eq : fromCrd c.crd = some entry
  name_eq : Resource.name c.crd = some entry.crdName
  unreserved : entry.group ∉ reservedGroups
  served : entry.version.served = true
  serves : ∀ group version plural,
    Serves c.crd group version plural ↔ entry.key = (group, version, plural)
  carries : Carries entry c.crd entry.version.name
  group_valid : NameValidator.isValidDnsSubdomain entry.group = true
  version_valid : NameValidator.isValidName entry.version.name = true
  plural_valid : NameValidator.isValidName entry.plural = true

lemma exists_entryOf (c : AcceptedCrd) : ∃ entry, EntryOf c entry := by
  obtain ⟨spec, version, names, hacc⟩ :=
    CustomResourceDefinition.accepted_of_validateCrdSpec c.validSpec
  obtain ⟨scope, hscope⟩ := parseScope_of_accepted hacc.scope
  have hschemas : validateVersionSchema version = .ok () := by
    have hall := c.validSchemas
    simp only [validateCrdSchemas, hacc.spec_eq, hacc.versions_eq] at hall
    obtain ⟨_, hversion, -⟩ := bind_eq_ok_iff.1 hall
    exact hversion
  obtain ⟨schemaJson, compiledSchema, hread, hholds⟩ := readSchema_of_valid hacc.schema hschemas
  have hfrom : fromCrd c.crd = some {
      group := spec.group, plural := names.plural, singular := names.singular, kind := names.kind
      listKind := if names.listKind = "" then names.kind ++ "List" else names.listKind
      scope
      version := {
        name := version.name, served := version.served, storage := version.storage
        schemaJson, compiledSchema
        statusSubresource := (version.subresources.bind (·.status)).isSome } } := by
    simp [fromCrd, hacc.spec_eq, hacc.names_eq, hacc.versions_eq, hscope, hread]
  -- the definition has one spec, one version and one set of names
  have hunique : ∀ {spec' names' v}, c.crd.spec = some spec' → spec'.names = some names' →
      v ∈ spec'.versions → spec = spec' ∧ names = names' ∧ version = v := by
    intro spec' names' v hspec hnames hv
    obtain rfl : spec = spec' := Option.some.inj (hacc.spec_eq.symm.trans hspec)
    rw [hacc.versions_eq, List.mem_singleton] at hv
    exact ⟨rfl, Option.some.inj (hacc.names_eq.symm.trans hnames), hv.symm⟩
  refine ⟨_, hfrom, hacc.name_eq, hacc.unreserved, hacc.served, fun group version' plural => ?_,
    fun spec' names' v hspec hnames hv _ => ?_, hacc.group, hacc.version_name, hacc.plural⟩
  · constructor
    · rintro ⟨spec', names', v, hspec, hnames, hv, rfl, rfl, rfl, -⟩
      obtain ⟨rfl, rfl, rfl⟩ := hunique hspec hnames hv
      rfl
    · rintro ⟨⟩
      exact ⟨spec, names, version, hacc.spec_eq, hacc.names_eq, by simp [hacc.versions_eq], rfl,
        rfl, rfl, hacc.served⟩
  · obtain ⟨rfl, rfl, rfl⟩ := hunique hspec hnames hv
    exact ⟨hscope, rfl, hholds⟩

variable {c : AcceptedCrd} {entry : FullCrdEntry}

lemma EntryOf.unique {entry' : FullCrdEntry} (h : EntryOf c entry) (h' : EntryOf c entry') :
    entry = entry' :=
  Option.some.inj (h.fromCrd_eq.symm.trans h'.fromCrd_eq)

lemma EntryOf.name (h : EntryOf c entry) : c.name = entry.crdName := by
  rw [AcceptedCrd.name, h.name_eq, Option.getD_some]

lemma AcceptedCrd.key_eq_iff {c' : AcceptedCrd} : c.key = c'.key ↔ c.name = c'.name :=
  String.append_right_inj _

lemma lastSegment_key (c : AcceptedCrd) : lastSegment c.key = some c.name := by
  obtain ⟨entry, hentry⟩ := exists_entryOf c
  have hslash : '/' ∉ c.name.toList := by
    rw [hentry.name, FullCrdEntry.crdName, crdName]
    simp only [String.toList_append, List.mem_append, not_or]
    exact ⟨⟨NameValidator.notMem_of_isValidName (by decide) hentry.plural_valid, by decide⟩,
      NameValidator.notMem_of_isValidDnsSubdomain (by decide) (by decide) hentry.group_valid⟩
  have hkey : c.key = Text.join '/' (kindSegments "apiextensions" "customresourcedefinitions" ++
      objectSegments none c.name) := by
    rw [← createCustomKey_eq_join]
    rfl
  have hne : c.name ≠ "" := by
    rw [hentry.name, FullCrdEntry.crdName, crdName]
    intro h
    have hlength := congrArg (fun s => s.toList.length) h
    simp at hlength
  rw [lastSegment, hkey, Text.split_join]
  · simp [objectSegments, hne]
  · intro s hs
    simp only [kindSegments, objectSegments, Option.toList_none, List.nil_append,
      List.cons_append, List.mem_cons, List.not_mem_nil, or_false] at hs
    rcases hs with rfl | rfl | rfl | rfl | rfl | rfl
    · decide
    · decide
    · decide
    · decide
    · decide
    · exact hslash
  · simp [kindSegments]

/-! ## The registry follows the store -/

/-- The registry has the entries of the stored definitions, under their keys, and no others. -/
def CrdSync.Synced (s : CrdSync) : Prop :=
  ∀ key entry, s.registry.byGroupVersionPlural key = some entry ↔
    ∃ k c, s.store.stored k = some c ∧ EntryOf c entry ∧ entry.key = key

namespace CrdSync

variable {s : CrdSync}

lemma Synced.mirrors (h : s.Synced) : Mirrors s where
  lookup group version plural := by
    constructor
    · intro hsome
      obtain ⟨entry, hentry⟩ := Option.isSome_iff_exists.1 hsome
      obtain ⟨k, c, hc, hof, hkey⟩ := (h _ entry).1 (Option.filter_eq_some_iff.1 hentry).1
      exact ⟨k, c, hc, (hof.serves ..).2 hkey⟩
    · rintro ⟨k, c, hc, hserves⟩
      obtain ⟨entry, hof⟩ := exists_entryOf c
      have hget := (h _ entry).2 ⟨k, c, hc, hof, (hof.serves ..).1 hserves⟩
      exact Option.isSome_iff_exists.2 ⟨entry, Option.filter_eq_some_iff.2 ⟨hget, hof.served⟩⟩
  carries group version plural entry k c hlookup hc hserves := by
    obtain ⟨entry', hof⟩ := exists_entryOf c
    have hkey := (hof.serves ..).1 hserves
    have hget := (h _ entry').2 ⟨k, c, hc, hof, hkey⟩
    obtain rfl : entry = entry' :=
      Option.some.inj ((Option.filter_eq_some_iff.1 hlookup).1.symm.trans hget)
    have hversion : entry.version.name = version := congrArg (fun key => key.2.1) hkey
    exact hversion ▸ hof.carries
  current entry hlists := by
    obtain ⟨k, c, hc, hof, -⟩ := (h _ entry).1 hlists
    exact ⟨k, c, hc, (hof.serves ..).2 rfl⟩

lemma Synced.written (h : s.Synced) (c : AcceptedCrd) :
    (⟨s.store.put c, applyWritten s.registry c.crd c.key⟩ : CrdSync).Synced := by
  obtain ⟨e, he⟩ := exists_entryOf c
  have hregistry : applyWritten s.registry c.crd c.key =
      (s.registry.removeCrdName c.name).insert e he.unreserved := by
    have hname : (crdNameFromCrdOrKey c.crd c.key).getD e.crdName = c.name := by
      rw [crdNameFromCrdOrKey, he.name_eq, Option.some_or, Option.getD_some, he.name]
    simp only [applyWritten, he.fromCrd_eq, hname, CrdRegistryInner.upsert,
      dif_neg he.unreserved]
  intro key entry
  simp only [hregistry]
  by_cases hkey : key = e.key
  · rw [hkey, CrdRegistryInner.byGroupVersionPlural_insert_self]
    constructor
    · intro heq
      cases heq
      exact ⟨c.key, c, s.store.stored_put_self c, he, rfl⟩
    · rintro ⟨k, c', hc', hof, hkey⟩
      -- the other definitions have other names
      have hname : c'.name = c.name := by
        rw [hof.name, he.name, crdName_eq_of_key_eq hkey]
      obtain rfl : c'.key = k := (s.store.put c).keyed k c' hc'
      rw [AcceptedCrd.key_eq_iff.2 hname, CrdStore.stored_put_self] at hc'
      cases hc'
      rw [hof.unique he]
  · rw [CrdRegistryInner.byGroupVersionPlural_insert_of_ne _ _ hkey,
      byGroupVersionPlural_removeCrdName, h key entry]
    constructor
    · rintro ⟨⟨k, c', hc', hof, hkey'⟩, hne⟩
      refine ⟨k, c', ?_, hof, hkey'⟩
      have hk : k ≠ c.key := by
        rw [← s.store.keyed k c' hc']
        exact fun heq => hne (hof.name ▸ AcceptedCrd.key_eq_iff.1 heq)
      exact (Function.update_of_ne hk ..).trans hc'
    · rintro ⟨k, c', hc', hof, rfl⟩
      rcases of_update_eq_some hc' with ⟨rfl, ⟨⟩⟩ | ⟨hk, hc'⟩
      · exact absurd (congrArg FullCrdEntry.key (hof.unique he)) hkey
      · refine ⟨⟨k, c', hc', hof, rfl⟩, fun hname => hk ?_⟩
        rw [← s.store.keyed k c' hc', AcceptedCrd.key_eq_iff, hof.name, hname]

lemma Synced.deleted (h : s.Synced) {c : AcceptedCrd} {name : String} (hname : c.name = name) :
    (⟨s.store.delete c.key, s.registry.removeCrdName name⟩ : CrdSync).Synced := by
  intro key entry
  rw [byGroupVersionPlural_removeCrdName, h key entry]
  constructor
  · rintro ⟨⟨k, c', hc', hof, hkey⟩, hne⟩
    refine ⟨k, c', ?_, hof, hkey⟩
    have hk : k ≠ c.key := by
      rw [← s.store.keyed k c' hc']
      exact fun heq => hne (hof.name ▸ (AcceptedCrd.key_eq_iff.1 heq).trans hname)
    exact (Function.update_of_ne hk ..).trans hc'
  · rintro ⟨k, c', hc', hof, hkey⟩
    have hstored := of_update_none_eq_some hc'
    refine ⟨⟨k, c', hstored, hof, hkey⟩, fun heq => ?_⟩
    have hk : k = c.key := by
      rw [← s.store.keyed k c' hstored, AcceptedCrd.key_eq_iff, hof.name, heq, hname]
    simp [hk, CrdStore.delete] at hc'

lemma Synced.step (h : s.Synced) (change : CrdChange) : (s.step change).Synced := by
  cases change with
  | create c revision | update c revision => exact h.written c
  | delete name payload revision =>
    simp only [CrdSync.step]
    split
    next hsome =>
      obtain ⟨c, hc⟩ := Option.isSome_iff_exists.1 hsome
      have hkey := s.store.keyed _ c hc
      have hname : c.name = name := (String.append_right_inj _).1 hkey
      rw [← hkey, applyWatchEvent, lastSegment_key, hname]
      exact h.deleted hname
    · exact h

/-! ## Loading the registry -/

lemma mem_list {s : CrdStore} {c : AcceptedCrd} : c ∈ s.list ↔ ∃ k, s.stored k = some c := by
  rw [CrdStore.list, List.mem_filterMap]
  constructor
  · rintro ⟨k, -, hk⟩
    exact ⟨k, hk⟩
  · rintro ⟨k, hk⟩
    refine ⟨k, List.mem_filter.2 ⟨s.mem_keys k c hk, decide_eq_true ?_⟩, hk⟩
    rw [← s.keyed k c hk, AcceptedCrd.key, String.toList_append]
    exact List.prefix_append _ _

lemma synced_load (s : CrdStore) (r : CrdRegistryInner) : (load s r).Synced := by
  have hmem : ∀ {entry}, entry ∈ s.list.filterMap (fun c => fromCrd c.crd) ↔
      ∃ k c, s.stored k = some c ∧ EntryOf c entry := by
    intro entry
    rw [List.mem_filterMap]
    constructor
    · rintro ⟨c, hc, hfrom⟩
      obtain ⟨k, hk⟩ := mem_list.1 hc
      obtain ⟨entry', hof⟩ := exists_entryOf c
      obtain rfl : entry = entry' := Option.some.inj (hfrom.symm.trans hof.fromCrd_eq)
      exact ⟨k, c, hk, hof⟩
    · rintro ⟨k, c, hk, hof⟩
      exact ⟨c, mem_list.2 ⟨k, hk⟩, hof.fromCrd_eq⟩
  obtain ⟨r', hr', hlist, hsome⟩ :=
    exists_foldlM_upsert (s.list.filterMap fun c => fromCrd c.crd) .empty fun entry hentry => by
      obtain ⟨k, c, -, hof⟩ := hmem.1 hentry
      exact hof.unreserved
  have hregistry : (load s r).registry = r' := by
    simp only [load, loadCrdsIntoRegistry, CrdRegistryInner.replaceAll, hr']
  intro key entry
  rw [hregistry]
  constructor
  · intro hentry
    rcases hlist key entry hentry with hentries | hempty
    · obtain ⟨k, c, hk, hof⟩ := hmem.1 hentries
      exact ⟨k, c, hk, hof, r'.keyed key entry hentry⟩
    · cases hempty
  · rintro ⟨k, c, hk, hof, rfl⟩
    obtain ⟨entry', hentry'⟩ := Option.isSome_iff_exists.1
      (hsome entry.key (.inr ⟨entry, hmem.2 ⟨k, c, hk, hof⟩, rfl⟩))
    -- two definitions with entries under one key have one name, and are the same
    rcases hlist _ entry' hentry' with hentries | hempty
    · obtain ⟨k', c', hk', hof'⟩ := hmem.1 hentries
      have hname : c'.name = c.name := by
        rw [hof'.name, hof.name, crdName_eq_of_key_eq (r'.keyed _ entry' hentry')]
      obtain rfl : k' = k := by
        rw [← s.keyed k' c' hk', ← s.keyed k c hk, AcceptedCrd.key_eq_iff.2 hname]
      obtain rfl : c' = c := Option.some.inj (hk'.symm.trans hk)
      rw [hentry', hof'.unique hof]
    · cases hempty

/-- **The registry mirrors the store**, after it is loaded and after every event. -/
theorem mirrors_all (s : CrdStore) (r : CrdRegistryInner) (changes : List CrdChange) :
    Run.AllStates step Mirrors (load s r) changes :=
  Run.AllStates.of_invariant (G := fun _ _ => True) (fun _ change hI _ => hI.step change)
    (fun _ hI => hI.mirrors) _ _ (synced_load s r) (Run.allSteps_of_forall fun _ _ => trivial)

end CrdSync

end

end Tugboat
