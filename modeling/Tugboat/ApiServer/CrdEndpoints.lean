import Tugboat.ApiServer.CrdRegistry
import Tugboat.ApiServer.ResourceHandlers
import Tugboat.Lib.Concurrent

/-!
# The endpoints of custom resource definitions

PUT and PATCH of a definition compare its scope and the name of its version with the stored ones
before they call the generic handlers.  The comparison is with a version they read themselves, the
update is computed from another one; but all stored versions agree on what is compared, so it does
not matter which of them is read.

What is a problem is how PATCH looks at its body.  It takes the scope and the version name from the
fields `scope` and `name`, while the deserializer also reads records from arrays.  A patch that
gives the spec, or the version, as an array is compared with nothing, and changes what should never
change.  `CrdServing.immutable_of_plain` rules these bodies out.
-/

namespace Tugboat

open Json Resource Program ResourceUpdater

/-! ## Checks -/

namespace CustomResourceDefinition

def scopeText (crd : CustomResourceDefinition) : Option String := crd.spec.map (·.scope)

def firstVersion (crd : CustomResourceDefinition) : Option String :=
  (crd.spec.bind (·.versions.head?)).map (·.name)

end CustomResourceDefinition

/-- The response when a field that is set once would change. -/
def immutableField (field currentField requestedField name current requested : String) :
    StatusResponse :=
  .invalid
    ("CustomResourceDefinition " ++ field ++ " cannot be changed once set (current: \"" ++
      current ++ "\", requested: \"" ++ requested ++ "\")")
    (some (.object [(currentField, .string current), ("name", .string name),
      (requestedField, .string requested)]))

/-- A field that is set may only be set to the same value. -/
def ensureSame (current requested : Option String) (response : String → String → StatusResponse) :
    Except StatusResponse Unit :=
  match current, requested with
  | some c, some r => if c ≠ r then .error (response c r) else .ok ()
  | _, _ => .ok ()

/-- The comparison in `ensure_immutable_spec`. -/
def checkImmutable (name : String) (current : CustomResourceDefinition)
    (newScope newVersionName : Option String) : Except StatusResponse Unit := do
  ensureSame current.scopeText newScope
    (immutableField "spec.scope" "currentScope" "requestedScope" name)
  ensureSame current.firstVersion newVersionName
    (immutableField "spec.versions[0].name" "currentVersion" "requestedVersion" name)

section

variable [TimeCodec] [JsonParser] [SchemaCompiler]

def validateCustomResourceDefinitionSchema (crd : CustomResourceDefinition) :
    Except StatusResponse Unit := do
  (validateCrdSchemas crd).mapError fun err =>
    .invalid ("Invalid CustomResourceDefinition schema: " ++ err)
      (some (.object [("reason", .string err)]))
  (validateCrdSpec crd).mapError fun err =>
    .invalid ("Invalid CustomResourceDefinition: " ++ err.toText)
      (some (.object [("name", ((Resource.name crd).map Value.string).getD .null),
        ("reason", .string err.toText)]))
  ensure (Resource.namespace crd).isNone
    (.invalid "CustomResourceDefinition is cluster-scoped and must not set metadata.namespace")

/-! ## Handlers -/

/-- `ensure_immutable_spec`: compare with the version that is stored at the moment. -/
def ensureImmutableSpec (name : String) (newScope newVersionName : Option String) :
    Handler CustomResourceDefinition Unit := do
  if newScope.isNone && newVersionName.isNone then return ()
  match ← Handler.store (.get none name) with
  | none => return ()
  | some current => Handler.ofExcept (checkImmutable name current.data newScope newVersionName)

/-- The options of PUT and PATCH. -/
def crdOptions : ReplaceOptions where
  preserveStatus := true
  useClientResourceVersion := false
  updateGeneration := true

example : patchOptions .customResourceDefinition = some crdOptions := rfl

structure PatchBody where
  fields : Map
  wellFormed : (Value.object fields).wellFormed = true

def patchScope (patch : Map) : Option String :=
  (patch.get "spec").bind (·.get "scope") |>.bind (·.asStr)

def patchVersionName (patch : Map) : Option String :=
  (patch.get "spec").bind (·.get "versions") |>.bind (·.asArray) |>.bind (·.head?)
    |>.bind (·.get "name") |>.bind (·.asStr)

def handleCustomResourceDefinitionReplace (name : String)
    (replacement : CustomResourceDefinition) :
    Handler CustomResourceDefinition (Response CustomResourceDefinition) := do
  Handler.ofExcept (validateCustomResourceDefinitionSchema replacement)
  ensureImmutableSpec name replacement.scopeText replacement.firstVersion
  replaceResource none name replacement crdOptions

def handleCustomResourceDefinitionPatch (name : String) (patch : Map) :
    Handler CustomResourceDefinition (Response CustomResourceDefinition) := do
  ensureImmutableSpec name (patchScope patch) (patchVersionName patch)
  patchResourceWithValidation none name patch crdOptions validateCustomResourceDefinitionSchema

/-- A request for a definition that is there. -/
inductive CrdRequest
  | replace (name : String) (replacement : CustomResourceDefinition)
  | patch (name : String) (body : PatchBody)
  | statusPatch (name : String) (body : PatchBody)
  | statusReplace (name : String) (replacement : CustomResourceDefinition)

namespace CrdRequest

def handler : CrdRequest → Handler CustomResourceDefinition (Response CustomResourceDefinition)
  | .replace name replacement => handleCustomResourceDefinitionReplace name replacement
  | .patch name body => handleCustomResourceDefinitionPatch name body.fields
  | .statusPatch name body => statusPatchResource none name body.fields
  | .statusReplace name replacement => statusReplaceResource none name replacement

/-- The body of a PATCH gives neither the spec nor the first version as an array. -/
def plainBody (patch : Map) : Bool :=
  match patch.get "spec" with
  | some (.array _) => false
  | some (.object spec) =>
    match Map.get spec "versions" with
    | some (.array (.array _ :: _)) => false
    | _ => true
  | _ => true

def plain : CrdRequest → Bool
  | .patch _ body => plainBody body.fields
  | .replace .. | .statusPatch .. | .statusReplace .. => true

end CrdRequest

end

/-! ## What never changes -/

/-- The facts about a definition that are set once. -/
structure CrdFacts where
  group : String
  plural : String
  scope : Option String
  version : Option String
  deriving DecidableEq, Repr

namespace CustomResourceDefinition

def facts (crd : CustomResourceDefinition) : CrdFacts where
  group := crd.group
  plural := crd.plural
  scope := crd.scopeText
  version := crd.firstVersion

variable {crd crd' : CustomResourceDefinition}

lemma facts_of_spec_eq (h : crd'.spec = crd.spec) : crd'.facts = crd.facts := by
  simp only [facts, group, plural, scopeText, firstVersion, h]

lemma group_plural_eq [JsonParser] (h : validateCrdSpec crd = .ok ())
    (h' : validateCrdSpec crd' = .ok ()) (hname : name crd' = name crd) :
    crd'.group = crd.group ∧ crd'.plural = crd.plural := by
  obtain ⟨spec, version, names, hacc⟩ := accepted_of_validateCrdSpec h
  obtain ⟨spec', version', names', hacc'⟩ := accepted_of_validateCrdSpec h'
  have hnames : crdName names'.plural spec'.group = crdName names.plural spec.group :=
    Option.some.inj (hacc'.name_eq.symm.trans (hname.trans hacc.name_eq))
  -- the plural ends at the first dot of the name
  have hsplit : ∀ {p g : String}, '.' ∉ p.toList →
      Text.splitOnce '.' (crdName p g) = some (p, g) := fun hp =>
    Text.splitOnce_eq_some.2 ⟨rfl, hp⟩
  have hpair := (hsplit hacc'.dot_notMem).symm.trans (hnames ▸ hsplit hacc.dot_notMem)
  obtain ⟨hplural, hgroup⟩ := Prod.mk.inj (Option.some.inj hpair)
  simp [group, plural, hacc.spec_eq, hacc'.spec_eq, hacc.names_eq, hacc'.names_eq, hplural, hgroup]

lemma Accepted.set_once [JsonParser] {spec : CustomResourceDefinitionSpec}
    {version : CustomResourceDefinitionVersion} {names : CustomResourceDefinitionNames}
    (h : crd.Accepted spec version names) :
    crd.scopeText = some spec.scope ∧ crd.firstVersion = some version.name := by
  simp [scopeText, firstVersion, h.spec_eq, h.versions_eq]

lemma facts_eq [JsonParser] (h : validateCrdSpec crd = .ok ()) (h' : validateCrdSpec crd' = .ok ())
    (hname : name crd' = name crd) (hscope : crd'.scopeText = crd.scopeText)
    (hversion : crd'.firstVersion = crd.firstVersion) : crd'.facts = crd.facts := by
  obtain ⟨hgroup, hplural⟩ := group_plural_eq h h' hname
  simp only [facts, hscope, hversion, hgroup, hplural]

end CustomResourceDefinition

open CustomResourceDefinition (accepted_of_validateCrdSpec facts_of_spec_eq spec_of_fromValue)

lemma ensureSame_self (o : Option String) (response : String → String → StatusResponse) :
    ensureSame o o response = .ok () := by
  cases o with
  | none => rfl
  | some s => simp [ensureSame]

lemma eq_of_ensureSame {current requested : String} {response : String → String → StatusResponse}
    (h : ensureSame (some current) (some requested) response = .ok ()) : requested = current := by
  by_contra hne
  simp [ensureSame, if_pos (Ne.symm hne)] at h

variable {crd : CustomResourceDefinition}

/-- A scope and a version name that were asked for are the ones that are set. -/
def CrdFacts.Agrees (facts : CrdFacts) (newScope newVersionName : Option String) : Prop :=
  (∀ scope ∈ newScope, facts.scope = some scope) ∧
    ∀ version ∈ newVersionName, facts.version = some version

/-! ## What PATCH makes of the spec -/

/-- A field with a default, read from merged fields: it is as before, or was taken out, or comes
from the patch. -/
lemma decodeDefault_mergeFields {α : Type} {target patch : Map} {k : String} {dflt a : α}
    {decode : Value → Option α} (hnodup : (patch.map Prod.fst).Nodup)
    (h : decodeDefault (mergeFields target patch) k dflt decode = some a) :
    decodeDefault target k dflt decode = some a ∨ a = dflt ∨
      ∃ v, patch.get k = some v ∧
        decode (rfc7396MergePatch ((target.get k).getD .null) v) = some a := by
  have hget := get_mergeFields (k := k) patch target hnodup
  cases hv : patch.get k with
  | none =>
    simp only [hv] at hget
    rw [decodeDefault, hget] at h
    exact .inl h
  | some v =>
    simp only [hv] at hget
    by_cases hnull : v = .null
    · rw [if_pos hnull] at hget
      rw [decodeDefault, hget] at h
      exact .inr (.inl (Option.some.inj h).symm)
    · rw [if_neg hnull] at hget
      rw [decodeDefault, hget] at h
      exact .inr (.inr ⟨v, rfl, h⟩)

lemma eq_string_of_asStr_merge {target v : Value} {text : String}
    (h : (rfc7396MergePatch target v).asStr = some text) : v = .string text := by
  rcases merge_cases target v with hmerge | ⟨fields, hmerge⟩
  · rw [hmerge] at h
    exact Value.eq_string_of_asStr h
  · rw [hmerge] at h
    cases h

lemma eq_array_of_decodeList_merge {α : Type} {decode : Value → Option α} {target v : Value}
    {list : List α} (h : decodeList decode (rfc7396MergePatch target v) = some list) :
    ∃ items, v = .array items ∧ items.mapM decode = some list := by
  rcases merge_cases target v with hmerge | ⟨fields, hmerge⟩
  · rw [hmerge] at h
    cases v with
    | array items => exact ⟨items, rfl, h⟩
    | null | bool b | number n | string s | object fields => cases h
  · rw [hmerge] at h
    cases h

namespace CustomResourceDefinitionSpec

structure PatchedBy (spec spec' : CustomResourceDefinitionSpec) (patch : Map) : Prop where
  scope : spec'.scope = spec.scope ∨ spec'.scope = "" ∨
    patch.get "scope" = some (.string spec'.scope)
  versions : spec'.versions = spec.versions ∨ spec'.versions = [] ∨
    ∃ items, patch.get "versions" = some (.array items) ∧
      items.mapM CustomResourceDefinitionVersion.fromValue = some spec'.versions

variable {spec : CustomResourceDefinitionSpec}

lemma fields_of_fromValue {m : Map} (h : fromValue (.object m) = some spec) :
    decodeDefault m "scope" "" Value.asStr = some spec.scope ∧
      decodeDefault m "versions" [] (decodeList CustomResourceDefinitionVersion.fromValue) =
        some spec.versions := by
  simp only [fromValue, Value.asRecord_object, Option.bind_eq_bind, Option.bind_some,
    Option.pure_def, Option.bind_eq_some_iff] at h
  obtain ⟨group, -, names, -, scope, hscope, versions, hversions, h⟩ := h
  cases h
  exact ⟨hscope, hversions⟩

lemma patchedBy_of_fromValue {spec' : CustomResourceDefinitionSpec} {patch : Map}
    (hnodup : (patch.map Prod.fst).Nodup)
    (h : fromValue (rfc7396MergePatch spec.toValue (.object patch)) = some spec') :
    PatchedBy spec spec' patch := by
  rw [rfc7396MergePatch] at h
  obtain ⟨hscope, hversions⟩ := fields_of_fromValue h
  obtain ⟨hscope₀, hversions₀⟩ := fields_of_fromValue spec.fromValue_toValue
  constructor
  · rcases decodeDefault_mergeFields hnodup hscope with h | h | ⟨v, hv, h⟩
    · exact .inl (Option.some.inj (h.symm.trans hscope₀))
    · exact .inr (.inl h)
    · exact .inr (.inr (hv.trans (congrArg some (eq_string_of_asStr_merge h))))
  · rcases decodeDefault_mergeFields hnodup hversions with h | h | ⟨v, hv, h⟩
    · exact .inl (Option.some.inj (h.symm.trans hversions₀))
    · exact .inr (.inl h)
    · obtain ⟨items, rfl, hitems⟩ := eq_array_of_decodeList_merge h
      exact .inr (.inr ⟨items, hv, hitems⟩)

end CustomResourceDefinitionSpec

namespace CrdRequest

lemma patchVersionName_of_plain {patch spec : Map} {items : List Value}
    {version : CustomResourceDefinitionVersion} (hplain : plainBody patch = true)
    (hspec : patch.get "spec" = some (.object spec))
    (hitems : Map.get spec "versions" = some (.array items))
    (hread : items.mapM CustomResourceDefinitionVersion.fromValue = some [version])
    (hname : version.name ≠ "") : patchVersionName patch = some version.name := by
  match items, hread with
  | [], hread => cases hread
  | item :: rest, hread =>
    rw [List.mapM_cons] at hread
    simp only [Option.bind_eq_bind, Option.pure_def, Option.bind_eq_some_iff] at hread
    obtain ⟨v, hv, vs, -, hcons⟩ := hread
    cases hcons
    have hfirst : patchVersionName patch = (item.get "name").bind (·.asStr) := by
      simp [patchVersionName, hspec, Value.get, Value.asObject, hitems, Value.asArray]
    cases item with
    | object m =>
      simp only [CustomResourceDefinitionVersion.fromValue, Value.asRecord_object,
        Option.bind_eq_bind, Option.bind_some, Option.pure_def, Option.bind_eq_some_iff] at hv
      obtain ⟨name, hdecode, _, -, _, -, _, -, _, -, hv⟩ := hv
      cases hv
      cases hget : Map.get m "name" with
      | none =>
        rw [decodeDefault, hget] at hdecode
        exact absurd (Option.some.inj hdecode).symm hname
      | some w =>
        rw [decodeDefault, hget] at hdecode
        rw [hfirst, Value.get, Value.asObject, Option.bind_some, hget]
        exact hdecode
    | array parts => simp [plainBody, hspec, hitems] at hplain
    | null | bool b | number n | string s => cases hv

end CrdRequest

def crdKey (name : String) : String :=
  ResourceStore.basePath ++ "/" ++ "apiextensions" ++ "/" ++ "customresourcedefinitions" ++ "/" ++
    name

lemma createKey_crd (ns : Option String) (name : String) :
    ResourceStore.createKey CustomResourceDefinition ns name = .ok (crdKey name) := rfl

section

variable [JsonParser]

/-- A plain patch of the spec of an accepted definition that gives an accepted one keeps the scope
and the version, if those it asks for are the ones that are set. -/
lemma facts_of_patchedBy {current updated : CustomResourceDefinition} {patch specPatch : Map}
    {spec spec' : CustomResourceDefinitionSpec} {version version' : CustomResourceDefinitionVersion}
    {names names' : CustomResourceDefinitionNames} (hplain : CrdRequest.plainBody patch = true)
    (hagrees : current.facts.Agrees (patchScope patch) (patchVersionName patch))
    (hpatch : patch.get "spec" = some (.object specPatch))
    (hacc : current.Accepted spec version names) (hacc' : updated.Accepted spec' version' names')
    (h : spec.PatchedBy spec' specPatch) :
    updated.scopeText = current.scopeText ∧ updated.firstVersion = current.firstVersion := by
  obtain ⟨hscope, hversion⟩ := hacc.set_once
  rw [hscope, hversion, hacc'.set_once.1, hacc'.set_once.2, Option.some.injEq, Option.some.injEq]
  constructor
  · rcases h.scope with heq | hempty | hget
    · exact heq
    · exact absurd hacc'.scope (by simp [hempty])
    have hasked : patchScope patch = some spec'.scope := by
      simp [patchScope, hpatch, Value.get, Value.asObject, hget, Value.asStr]
    exact (Option.some.inj (hscope.symm.trans (hagrees.1 _ hasked))).symm
  · have hname : version'.name ≠ "" := by
      intro hempty
      exact absurd hacc'.version_name (by rw [hempty]; decide)
    rcases h.versions with heq | hempty | ⟨items, hitems, hread⟩
    · rw [hacc'.versions_eq, hacc.versions_eq] at heq
      cases heq
      rfl
    · cases hacc'.versions_eq.symm.trans hempty
    rw [hacc'.versions_eq] at hread
    have hasked := CrdRequest.patchVersionName_of_plain hplain hpatch hitems hread hname
    exact (Option.some.inj (hversion.symm.trans (hagrees.2 _ hasked))).symm

/-! ## What the requests do -/

/-- What is stored under a key has the facts that belong to the key. -/
structure CrdFacts.Stored (facts : String → Option CrdFacts) (key : String)
    (found : Option (ContentData CustomResourceDefinition)) : Prop where
  facts_eq : found.map (·.data.facts) = facts key
  accepted : ∀ c ∈ found, validateCrdSpec c.data = .ok ()
  keyed : ∀ c ∈ found, ResourceStore.keyOf c.data = .ok key

/-- A definition that may be stored: it is accepted, and has the facts that belong to its key. -/
structure CrdFacts.MayStore (facts : String → Option CrdFacts) (crd : CustomResourceDefinition) :
    Prop where
  accepted : validateCrdSpec crd = .ok ()
  facts_eq : ∀ key, ResourceStore.keyOf crd = .ok key → facts key = some crd.facts

/-- Requests store nothing but definitions with the facts that belong to their keys, and remove
nothing. -/
def CrdFacts.protocol (facts : String → Option CrdFacts) :
    Protocol (StoreOp.interface CustomResourceDefinition) Unit where
  allowed _ op := op.removes = none ∧ ∀ crd ∈ op.stores, MayStore facts crd
  assumes _ op := match op with
    | .get ns name => fun r => ∀ key found,
        ResourceStore.createKey CustomResourceDefinition ns name = .ok key → r = .ok found →
          Stored facts key found
    | .put _ | .putIfNotExists _ | .delete _ _ => fun _ => True
  observe _ _ _ := ()

variable {facts : String → Option CrdFacts}

/-- What follows the comparison can rely on it: a scope and a version name that are asked for are
those of the key. -/
lemma wp_ensureImmutableSpec_bind {α : Type} (name : String)
    (newScope newVersionName : Option String) {next : Unit → Handler CustomResourceDefinition α}
    (h : (∀ f ∈ facts (crdKey name), f.Agrees newScope newVersionName) →
      (next ()).run.wp (CrdFacts.protocol facts) () fun _ _ => True) :
    (ensureImmutableSpec name newScope newVersionName >>= next).run.wp (CrdFacts.protocol facts) ()
      fun _ _ => True := by
  rw [wp_run_bind, ensureImmutableSpec]
  split
  next hnone =>
    simp only [Bool.and_eq_true, Option.isNone_iff_eq_none] at hnone
    refine h fun f _ => ?_
    rw [hnone.1, hnone.2]
    exact ⟨by simp, by simp⟩
  · rw [wp_run_bind]
    refine ⟨⟨rfl, by rintro crd ⟨⟩⟩, fun r hr => ?_⟩
    match r with
    | .error e => trivial
    | .ok none =>
      have hstored := hr _ _ (createKey_crd none name) rfl
      refine h fun f hf => ?_
      rw [← hstored.facts_eq] at hf
      cases hf
    | .ok (some current) =>
      have hstored := hr _ _ (createKey_crd none name) rfl
      simp only [Except.mapError, wp_done, Handler.wp_ofExcept]
      cases hcheck : checkImmutable name current.data newScope newVersionName with
      | error e => trivial
      | ok u =>
        refine h fun f hf => ?_
        rw [← hstored.facts_eq] at hf
        cases hf
        obtain ⟨spec, version, names, hacc⟩ :=
          accepted_of_validateCrdSpec (hstored.accepted current rfl)
        obtain ⟨hscope, hversion⟩ := hacc.set_once
        rw [checkImmutable, hscope, hversion, bind_eq_ok_iff] at hcheck
        obtain ⟨_, hs, hv⟩ := hcheck
        refine ⟨fun scope hmem => hscope.trans ?_, fun v hmem => hversion.trans ?_⟩
        · rw [Option.mem_def.1 hmem] at hs
          rw [eq_of_ensureSame hs]
        · rw [Option.mem_def.1 hmem] at hv
          rw [eq_of_ensureSame hv]

lemma validateCrdSpec_of_validateSchema [SchemaCompiler] {u : Unit}
    (h : validateCustomResourceDefinitionSchema crd = .ok u) : validateCrdSpec crd = .ok () := by
  simp only [validateCustomResourceDefinitionSchema, bind_eq_ok_iff] at h
  obtain ⟨_, -, _, hspec, -⟩ := h
  cases hv : validateCrdSpec crd with
  | ok u => rfl
  | error e =>
    rw [hv] at hspec
    cases hspec

/-- All that is looked at when a definition is checked are its spec and its name. -/
lemma validateCrdSpec_congr {crd' : CustomResourceDefinition} (hspec : crd'.spec = crd.spec)
    (hname : name crd' = name crd) :
    validateCrdSpec crd' = validateCrdSpec crd := by
  have hname' : crd'.objectMeta.bind (·.name) = crd.objectMeta.bind (·.name) := hname
  simp only [validateCrdSpec, hspec, hname']

lemma validateCrdSpec_applyRevision (c : ContentData CustomResourceDefinition) :
    validateCrdSpec c.applyRevision = validateCrdSpec c.data := by
  refine validateCrdSpec_congr rfl ?_
  rw [name, name, c.objectMeta_applyRevision]
  cases objectMeta c.data with
  | none | some m => rfl

lemma CrdFacts.Stored.shown {key : String} {c : ContentData CustomResourceDefinition}
    (h : CrdFacts.Stored facts key (some c)) :
    facts key = some c.applyRevision.facts ∧ validateCrdSpec c.applyRevision = .ok () := by
  constructor
  · exact h.facts_eq.symm.trans (congrArg some (facts_of_spec_eq rfl))
  · exact (validateCrdSpec_applyRevision c).trans (h.accepted c rfl)

variable (facts) in
/-- Every stored definition has the facts that belong to its key. -/
def CrdFacts.Kept (store : ResourceStore CustomResourceDefinition) (_ : Unit) : Prop :=
  ∀ key, CrdFacts.Stored facts key (store.kvs key)

variable {store : ResourceStore CustomResourceDefinition}

lemma CrdFacts.Kept.exec (h : Kept facts store ()) (access : Access)
    {op : StoreOp CustomResourceDefinition} (hop : (CrdFacts.protocol facts).allowed () op) :
    Kept facts (StoreOp.exec store access op).1 () := by
  intro key
  rcases StoreOp.exec_world store access op with hw | ⟨request, hstores, hw⟩ | ⟨key', hremoves, -⟩
  · rw [hw]
    exact h key
  · rw [hw]
    rcases ResourceStore.writeAll_cases (store.revision + 1) [request] store.kvs key with
      hk | ⟨r, hr, hrkey, hk⟩
    · rw [show (store.commit [request]).kvs key = store.kvs key from hk]
      exact h key
    · cases List.mem_singleton.1 hr
      have hstore := hop.2 request.value hstores
      rw [show (store.commit [request]).kvs key = _ from hk]
      refine ⟨(hstore.facts_eq key (hrkey ▸ request.keyed)).symm, ?_, ?_⟩
      · rintro c ⟨⟩
        exact hstore.accepted
      · rintro c ⟨⟩
        exact hrkey ▸ request.keyed
  · have hnone : op.removes = none := hop.1
    cases hnone.symm.trans hremoves

lemma CrdFacts.Kept.assumes (h : Kept facts store ()) (access : Access)
    (op : StoreOp CustomResourceDefinition) :
    (CrdFacts.protocol facts).assumes () op (StoreOp.exec store access op).2 := by
  cases op with
  | put crd | putIfNotExists crd | delete ns name => trivial
  | get ns name =>
    intro key found hkey hfound
    have hget := StoreOp.get_of_exec_get hfound
    rw [ResourceStore.get, hkey] at hget
    rw [← Except.ok.inj hget]
    exact h key

/-- A store of definitions as the server keeps it: creating one checks it first, so all that are
stored are accepted. -/
structure CrdTable where
  store : ResourceStore CustomResourceDefinition
  accepted : ∀ key c, store.kvs key = some c → validateCrdSpec c.data = .ok ()

namespace CrdTable

/-- Creating an accepted definition keeps all stored ones accepted. -/
def create (table : CrdTable) (crd : CustomResourceDefinition)
    (h : validateCrdSpec crd = .ok ()) : CrdTable where
  store := (table.store.putIfNotExists crd).1
  accepted key c hc := by
    have hexec : (StoreOp.exec table.store .answered (.putIfNotExists crd)).1.kvs key = some c := hc
    rcases StoreOp.kvs_of_exec hexec with hbefore | hstores
    · exact table.accepted key c hbefore
    · cases hstores
      exact h

/-- No definitions. -/
def empty : CrdTable where
  store := ResourceStore.empty
  accepted _ _ h := by cases h

def factsAt (table : CrdTable) (key : String) : Option CrdFacts :=
  (table.store.kvs key).map (·.data.facts)

end CrdTable

/-- Requests being handled over a store of definitions. -/
abbrev CrdServing (κ : Type) : Type :=
  Config (StoreOp.interface CustomResourceDefinition) κ
    (ResourceStore CustomResourceDefinition) Unit
    (Except StatusResponse (Response CustomResourceDefinition))

namespace CrdServing

variable {κ : Type} [DecidableEq κ]

/-- One store call of one request. -/
def step (c : CrdServing κ) (e : Event κ Access Empty) : CrdServing κ :=
  Config.step StoreOp.exec (fun s _ => s) (.free _) c e

/-- The version that a step stores in the place of another one has the same group, plural, scope and
version name, and passes the comparison with it. -/
def KeepsImmutable (c : CrdServing κ) (e : Event κ Access Empty) : Prop :=
  ∀ key, ∀ before ∈ c.world.kvs key, ∀ after ∈ (c.step e).world.kvs key,
    after.data.facts = before.data.facts ∧
      ∀ name, checkImmutable name before.data after.data.scopeText after.data.firstVersion = .ok ()

/-- The invariant: what is stored has the facts of its key, and every request keeps to the
protocol. -/
def Inv (facts : String → Option CrdFacts) (c : CrdServing κ) : Prop :=
  c.Keeps (CrdFacts.protocol facts) (CrdFacts.Kept facts)

lemma inv_step {c : CrdServing κ} (h : c.Inv facts) (e : Event κ Access Empty) :
    (c.step e).Inv facts := by
  -- what the protocol says is not part of the state, so any protocol gives the same step
  have hstep : c.step e = Config.step StoreOp.exec (fun s _ => s) (CrdFacts.protocol facts) c e :=
    rfl
  rw [hstep]
  refine Config.Keeps.step h e (fun k access op next _ _ hop => ?_) (fun x => x.elim)
  have hkept := CrdFacts.Kept.exec (h k).1 access hop
  exact ⟨CrdFacts.Kept.assumes (h k).1 access op, hkept, fun _ _ => hkept⟩

end CrdServing

variable [TimeCodec]

/-- **A plain patch that passed the comparison changes no facts**, whichever version it is applied
to: all that is used of it is that the version has the facts the patch was compared with. -/
lemma facts_of_applyPatch {current updated : CustomResourceDefinition} {body : PatchBody}
    (hplain : CrdRequest.plainBody body.fields = true)
    (hagrees : current.facts.Agrees (patchScope body.fields) (patchVersionName body.fields))
    (hcurrent : validateCrdSpec current = .ok ()) (hupdated : validateCrdSpec updated = .ok ())
    (hname : name updated = name current)
    (h : applyPatch current crdOptions body.fields = .ok updated) :
    updated.facts = current.facts := by
  obtain ⟨currentObj, object, decoded, m, hvalue, hdecoded, hobject, -, hset⟩ :=
    exists_object_applyPatch h
  have hspecs : decoded.spec = updated.spec := by rw [hset]; rfl
  have hmerged := get_mergeFields (k := "spec") body.fields currentObj
    (Value.nodup_of_wellFormed body.wellFormed)
  rw [← hobject "spec" (by decide)] at hmerged
  cases hpatch : body.fields.get "spec" with
  | none =>
    simp only [hpatch] at hmerged
    refine facts_of_spec_eq ?_
    rw [← hspecs]
    exact spec_of_fromValue hvalue hdecoded hmerged
  | some value =>
    obtain ⟨spec, version, names, hacc⟩ := accepted_of_validateCrdSpec hcurrent
    obtain ⟨spec', version', names', hacc'⟩ := accepted_of_validateCrdSpec hupdated
    have hdecode := CustomResourceDefinition.decode_spec_of_fromValue hdecoded
    rw [hspecs, hacc'.spec_eq] at hdecode
    -- a spec that is taken out is not accepted, so the patch has a value to merge
    obtain ⟨merged, hget, hread⟩ := exists_of_decodeOption hdecode
    simp only [hpatch, CustomResourceDefinition.get_spec_of_toValue hvalue, hacc.spec_eq,
      Option.map_some, Option.getD_some, hget] at hmerged
    split at hmerged
    · cases hmerged
    cases hmerged
    cases value with
    | object specPatch =>
      have hnodup := Value.nodup_of_wellFormed
        (Value.wellFormed_of_get body.wellFormed hpatch)
      obtain ⟨hscope, hversion⟩ := facts_of_patchedBy hplain hagrees hpatch hacc hacc'
        (CustomResourceDefinitionSpec.patchedBy_of_fromValue hnodup hread)
      exact CustomResourceDefinition.facts_eq hcurrent hupdated hname hscope hversion
    | array items => simp [CrdRequest.plainBody, hpatch] at hplain
    | null | bool b | number n | string s =>
      simp [rfc7396MergePatch, CustomResourceDefinitionSpec.fromValue,
        Value.asRecord] at hread

/-- An update of a stored definition that is accepted and keeps its facts may be stored. -/
lemma mayStore_of_enforced {options : ReplaceOptions} {patchMetadata : Option Value}
    {current : ContentData CustomResourceDefinition} {updated : CustomResourceDefinition}
    {key : String} (hstored : CrdFacts.Stored facts key (some current))
    (henforced : Enforced options patchMetadata current.applyRevision updated)
    (hacc : validateCrdSpec updated = .ok ())
    (hfacts : name updated = name current.applyRevision →
      updated.facts = current.applyRevision.facts) : CrdFacts.MayStore facts updated := by
  obtain ⟨spec, version, names, haccepted⟩ := accepted_of_validateCrdSpec hacc
  rcases henforced with hnone | ⟨contentChanged, c, u, hc, hu⟩
  · -- an accepted definition has metadata
    have hname := haccepted.name_eq
    simp [show updated.objectMeta = none from hnone] at hname
  have hname : name updated = name current.applyRevision := by
    rw [name, hu, name, hc]
    rfl
  refine ⟨hacc, fun key' hkey' => ?_⟩
  rw [ResourceStore.keyOf_congr hc hu rfl rfl,
    ResourceStore.keyOf_applyRevision (hstored.keyed current rfl)] at hkey'
  cases hkey'
  rw [← hstored.facts_eq, hfacts hname]
  rfl

/-- A request that reads a definition and puts an update of it keeps to the protocol, if the update
may be stored. -/
lemma wp_update (name : String)
    {update : CustomResourceDefinition → Except StatusResponse CustomResourceDefinition}
    (h : ∀ current updated, CrdFacts.Stored facts (crdKey name) (some current) →
      update current.applyRevision = .ok updated → CrdFacts.MayStore facts updated) :
    (readModifyWrite none name update).run.wp (CrdFacts.protocol facts) () fun _ _ => True := by
  refine wp_readModifyWrite ⟨rfl, by rintro crd ⟨⟩⟩ fun current updated hread hupdate => ?_
  refine ⟨rfl, fun crd hcrd => ?_⟩
  cases hcrd
  exact h current updated (hread _ _ (createKey_crd none name) rfl) hupdate

lemma validateCrdSpec_of_validateResource {u : Unit} (h : validateResource crd = .ok u) :
    validateCrdSpec crd = .ok () := by
  unfold validateResource at h
  split at h
  next hvalid =>
    have hok : (validateCrdSpec crd).isOk = true := (Bool.and_eq_true_iff.1 hvalid).2
    cases hv : validateCrdSpec crd with
    | ok u => rfl
    | error e =>
      rw [hv] at hok
      cases hok
  · cases h

lemma facts_of_readKeeping {current updated : CustomResourceDefinition}
    (h : ReadKeeping "spec" current updated) : updated.facts = current.facts := by
  obtain ⟨currentObj, object, decoded, m, hvalue, hdecoded, hspec, rfl⟩ := h
  have hkept : decoded.spec = current.spec :=
    spec_of_fromValue hvalue hdecoded hspec
  exact facts_of_spec_eq hkept

variable {replacement : CustomResourceDefinition}

lemma facts_of_applyReplacement {current updated : CustomResourceDefinition}
    (hagrees : current.facts.Agrees replacement.scopeText replacement.firstVersion)
    (hcurrent : validateCrdSpec current = .ok ()) (hupdated : validateCrdSpec updated = .ok ())
    (hname : name updated = name current)
    (h : applyReplacement current crdOptions replacement = .ok updated) :
    updated.facts = current.facts := by
  obtain ⟨-, replacementObj, object, decoded, m, -, hvalue, hdecoded, hobject, -, hset⟩ :=
    exists_object_applyReplacement h
  have hspec : decoded.spec = replacement.spec :=
    spec_of_fromValue hvalue hdecoded (hobject "spec" (by decide))
  have hfacts : replacement.facts = updated.facts :=
    facts_of_spec_eq (hspec.symm.trans (by rw [hset]; rfl))
  obtain ⟨spec, version, names, hacc⟩ := accepted_of_validateCrdSpec hupdated
  obtain ⟨hscope, hversion⟩ := hacc.set_once
  refine CustomResourceDefinition.facts_eq hcurrent hupdated hname ?_ ?_
  · exact hscope.trans (hagrees.1 _ ((congrArg CrdFacts.scope hfacts).trans hscope)).symm
  · exact hversion.trans (hagrees.2 _ ((congrArg CrdFacts.version hfacts).trans hversion)).symm

variable {name : String} {current : ContentData CustomResourceDefinition}
  {updated : CustomResourceDefinition}

section

variable (hstored : CrdFacts.Stored facts (crdKey name) (some current))

include hstored

lemma mayStore_of_patched {body : PatchBody}
    {check : CustomResourceDefinition → Except StatusResponse Unit}
    (hcheck : ∀ crd u, check crd = .ok u → validateCrdSpec crd = .ok ())
    (hplain : CrdRequest.plainBody body.fields = true) (hagrees : ∀ f ∈ facts (crdKey name),
      f.Agrees (patchScope body.fields) (patchVersionName body.fields))
    (h : patched body.fields crdOptions (validated check) current.applyRevision = .ok updated) :
    CrdFacts.MayStore facts updated := by
  simp only [patched, validated, bind_eq_ok_iff] at h
  obtain ⟨updated', happly, _, hvalid, h⟩ := h
  cases h
  have hacc := hcheck _ _ hvalid
  refine mayStore_of_enforced hstored
    (enforced_applyPatch current.objectMeta_applyRevision happly) hacc fun hname => ?_
  exact facts_of_applyPatch hplain (hagrees _ hstored.shown.1) hstored.shown.2 hacc hname happly

lemma mayStore_of_replaced (hagrees : ∀ f ∈ facts (crdKey name),
      f.Agrees replacement.scopeText replacement.firstVersion)
    (h : replaced name replacement crdOptions current.applyRevision = .ok updated) :
    CrdFacts.MayStore facts updated := by
  simp only [replaced, bind_eq_ok_iff] at h
  obtain ⟨_, -, updated', happly, _, hvalid, h⟩ := h
  cases h
  have hacc := validateCrdSpec_of_validateResource hvalid
  refine mayStore_of_enforced hstored
    (enforced_applyReplacement current.objectMeta_applyRevision happly) hacc
    fun hname => ?_
  exact facts_of_applyReplacement (hagrees _ hstored.shown.1) hstored.shown.2 hacc hname happly

lemma mayStore_of_statusPatched {patch : Map} (hpatch : patch.all (fun f => f.1 = "status") = true)
    (h : patched patch {} (validated validateResource) current.applyRevision = .ok updated) :
    CrdFacts.MayStore facts updated := by
  simp only [patched, validated, bind_eq_ok_iff] at h
  obtain ⟨updated', happly, _, hvalid, h⟩ := h
  cases h
  refine mayStore_of_enforced hstored
    (enforced_applyPatch current.objectMeta_applyRevision happly)
    (validateCrdSpec_of_validateResource hvalid) fun _ => ?_
  exact facts_of_readKeeping (readKeeping_applyPatch_of_status hpatch (by decide) happly)

lemma mayStore_of_statusReplaced
    (h : statusReplaced replacement current.applyRevision = .ok updated) :
    CrdFacts.MayStore facts updated := by
  simp only [statusReplaced, bind_eq_ok_iff] at h
  obtain ⟨_, -, updated', happly, _, hvalid, h⟩ := h
  cases h
  refine mayStore_of_enforced hstored
    (enforced_applyStatusUpdate current.objectMeta_applyRevision happly)
    (validateCrdSpec_of_validateResource hvalid) fun _ => ?_
  exact facts_of_readKeeping (readKeeping_applyStatusUpdate (by decide) happly)

end

variable [SchemaCompiler]

lemma CrdRequest.wp_handler (request : CrdRequest) (hplain : request.plain = true) :
    request.handler.run.wp (CrdFacts.protocol facts) () fun _ _ => True := by
  cases request with
  | replace name replacement =>
    rw [handler, handleCustomResourceDefinitionReplace, wp_run_bind, Handler.wp_ofExcept]
    split
    · refine wp_ensureImmutableSpec_bind name _ _ fun hagrees => ?_
      exact wp_update name fun current updated hstored hupdate =>
        mayStore_of_replaced hstored hagrees hupdate
    · trivial
  | patch name body =>
    refine wp_ensureImmutableSpec_bind name _ _ fun hagrees => ?_
    rw [patchResourceWithValidation, wp_run_bind, Handler.wp_ofExcept]
    split
    · exact wp_update name fun current updated hstored hupdate =>
        mayStore_of_patched hstored (fun _ _ => validateCrdSpec_of_validateSchema) hplain hagrees
          hupdate
    · trivial
  | statusPatch name body =>
    rw [handler, statusPatchResource]
    split
    · trivial
    rename_i hstatus
    exact wp_update name fun current updated hstored hupdate =>
      mayStore_of_statusPatched hstored (by simpa using hstatus) hupdate
  | statusReplace name replacement =>
    exact wp_update name fun current updated hstored hupdate =>
      mayStore_of_statusReplaced hstored hupdate

/-! ## The system -/

namespace CrdServing

variable {κ : Type}

/-- No request has been looked at yet. -/
def start (table : CrdTable) (requests : κ → CrdRequest) : CrdServing κ where
  world := table.store
  thread k := (requests k).handler.run
  seen _ := ()

lemma inv_start (table : CrdTable) (requests : κ → CrdRequest)
    (hplain : ∀ k, (requests k).plain = true) : (start table requests).Inv table.factsAt := by
  intro k
  refine ⟨fun key => ⟨rfl, fun c hc => table.accepted key c hc, fun c hc => ?_⟩, ?_⟩
  · exact table.store.keyed key c hc
  · exact (requests k).wp_handler (hplain k)

/-- **The immutable fields of a definition never change**, whatever PUT and PATCH requests are
served and however their store calls interleave: provided no PATCH gives the spec, or the first
version in it, as an array. -/
theorem immutable_of_plain [DecidableEq κ] (table : CrdTable) (requests : κ → CrdRequest)
    (hplain : ∀ k, (requests k).plain = true) (events : List (Event κ Access Empty)) :
    Run.AllSteps step KeepsImmutable (start table requests) events := by
  refine Run.AllSteps.of_invariant (I := Inv table.factsAt) (G := fun _ _ => True)
    (fun c e hI _ => inv_step hI e) (fun c e hI _ => ?_) _ _ (inv_start table requests hplain)
    (Run.allSteps_of_forall fun _ _ => trivial)
  intro key before hbefore after hafter
  obtain ⟨k, access⟩ | ⟨⟨⟩⟩ := e
  have hfirst := ((hI k).1 key).facts_eq
  have hnext := ((inv_step hI (.call k access) k).1 key).facts_eq
  rw [Option.mem_def.1 hbefore] at hfirst
  rw [Option.mem_def.1 hafter, ← hfirst] at hnext
  have hfacts : after.data.facts = before.data.facts := Option.some.inj hnext
  refine ⟨hfacts, fun name => ?_⟩
  have hscope : after.data.scopeText = before.data.scopeText := congrArg CrdFacts.scope hfacts
  have hversion : after.data.firstVersion = before.data.firstVersion :=
    congrArg CrdFacts.version hfacts
  rw [checkImmutable, hscope, hversion, ensureSame_self, ensureSame_self]
  rfl

end CrdServing

end

/-! ## A version given as an array -/

namespace CrdServing

namespace Sample

open Fixture

scoped instance compiler : SchemaCompiler where
  compile _ := .error "no schema"

def table : CrdTable := CrdTable.empty.create (widgets "v1") (by decide)

def patchOf (version : Value) (h : version.wellFormed = true) : CrdRequest :=
  .patch "widgets.example.com"
    ⟨[("spec", .object [("versions", .array [version])])], by
      simp [Value.wellFormed, Value.wellFormedFields, Value.wellFormedItems, h]⟩

def named : CrdRequest :=
  patchOf (.object [("name", .string "v1"), ("served", .bool true), ("storage", .bool true)])
    (by decide)

/-- The version as an array, with another name. -/
def listed : CrdRequest :=
  patchOf (.array [.string "v2", .bool true, .bool true]) (by decide)

/-- The version name of the stored definition. -/
def versionAt (c : CrdServing Unit) : Option (Option String) :=
  (c.world.kvs (crdKey "widgets.example.com")).map (·.data.firstVersion)

def patching : List (Event Unit Access Empty) :=
  [.call () .answered, .call () .answered, .call () .answered]

end Sample

open Fixture Sample in
theorem immutable_of_named :
    named.plain = true ∧
      Run.AllSteps step KeepsImmutable (start table fun _ : Unit => named) patching :=
  ⟨rfl, immutable_of_plain table (fun _ => named) (fun _ => rfl) patching⟩

open Fixture Sample in
/-- A PATCH that gives the version as an array stores the definition under another version name. -/
theorem version_changed_by_listed :
    versionAt (start table fun _ : Unit => listed) = some (some "v1") ∧
      versionAt (Run.exec step (start table fun _ : Unit => listed) patching) = some (some "v2") ∧
      ¬ Run.AllSteps step KeepsImmutable (start table fun _ : Unit => listed) patching := by
  refine ⟨by decide +kernel, by decide +kernel, ?_⟩
  rintro ⟨-, hput, -⟩
  -- the second call is the put
  have hbefore : versionAt ((start table fun _ : Unit => listed).step (.call () .answered)) =
      some (some "v1") := by decide +kernel
  have hafter : versionAt (((start table fun _ : Unit => listed).step (.call () .answered)).step
      (.call () .answered)) = some (some "v2") := by decide +kernel
  obtain ⟨before, hb, hbversion⟩ := Option.map_eq_some_iff.1 hbefore
  obtain ⟨after, ha, haversion⟩ := Option.map_eq_some_iff.1 hafter
  have hsame := congrArg CrdFacts.version (hput _ before hb after ha).1
  rw [show after.data.facts.version = some "v2" from haversion,
    show before.data.facts.version = some "v1" from hbversion] at hsame
  exact absurd hsame (by decide)

end CrdServing

end Tugboat
