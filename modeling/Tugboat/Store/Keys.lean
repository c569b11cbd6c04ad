import Tugboat.Resources.CustomResourceDefinition
import Tugboat.Store.Collection

/-!
# The key space of the store

All resources share one key-value store.  The key of an object is made of its group, its plural, its
namespace if it has one, and its name, with slashes between them; a list or a watch asks for all
keys that start with those of a kind, or of a namespace of a kind, and a slash.  None of the parts
has a slash in it, so keys can be taken apart again.

The version is not in the key, as a definition has a single one.  What keys tell apart is all but
the version of custom resources (`StoredObject.keys_exact`).
-/

namespace Tugboat

open ResourceStore CustomResource

namespace CustomResourceDefinition

/-- The group, plural and version that a definition serves, and whether its resources have a
namespace. -/
def group (crd : CustomResourceDefinition) : String := (crd.spec.map (·.group)).getD ""

def plural (crd : CustomResourceDefinition) : String :=
  ((crd.spec.bind (·.names)).map (·.plural)).getD ""

def versionName (crd : CustomResourceDefinition) : String :=
  ((crd.spec.bind (·.versions.head?)).map (·.name)).getD ""

def namespaced (crd : CustomResourceDefinition) : Bool :=
  crd.spec.any fun spec => spec.scope = "Namespaced"

end CustomResourceDefinition

/-! ## Keys as lists of parts -/

def kindSegments (group plural : String) : List String :=
  ["", "tugboat", "registry", group, plural]

/-- The parts of a key after those of its kind. -/
def objectSegments (ns : Option String) (name : String) : List String := ns.toList ++ [name]

lemma join_kindSegments (group plural : String) :
    Text.join '/' (kindSegments group plural) = basePath ++ "/" ++ group ++ "/" ++ plural := by
  refine String.toList_inj.1 ?_
  simp [kindSegments, Text.join, basePath, List.intercalate]

lemma createCustomKey_eq_join (group plural : String) (ns : Option String) (name : String) :
    createCustomKey group plural ns name =
      Text.join '/' (kindSegments group plural ++ objectSegments ns name) := by
  refine String.toList_inj.1 ?_
  cases ns with
  | none | some ns =>
    simp [createCustomKey, kindSegments, objectSegments, Text.join, basePath, List.intercalate]

lemma toList_createCustomWatchKey (group plural : String) (ns : Option String) :
    (createCustomWatchKey group plural ns).toList =
      (Text.join '/' (kindSegments group plural)).toList ++
        '/' :: (ns.map fun ns => ns.toList ++ ['/']).getD [] := by
  rw [join_kindSegments]
  cases ns with
  | none | some ns => simp [createCustomWatchKey]

lemma objectSegments_inj {ns ns' : Option String} {name name' : String} :
    objectSegments ns name = objectSegments ns' name' ↔ ns = ns' ∧ name = name' := by
  cases ns with
  | none | some ns =>
    cases ns' with
    | none | some ns' => simp [objectSegments]

lemma group_mem_reservedGroups (T : Type) [ObjectMetaResource T] :
    (Resource.descriptor T).group ∈ reservedGroups := by
  have hkinds : ∀ k ∈ Kind.all, k.descriptor.group ∈ reservedGroups := by decide +kernel
  exact hkinds _ (Kind.mem_all (Resource.resourceKind T))

lemma version_builtIn (T : Type) [ObjectMetaResource T] :
    (Resource.descriptor T).version = "v1" := by
  have hkinds : ∀ k ∈ Kind.all, k.descriptor.version = "v1" := by decide +kernel
  exact hkinds _ (Kind.mem_all (Resource.resourceKind T))

/-! ## Kinds and objects -/

section

variable [JsonParser]

/-- A kind of resources: a built-in one, or that of a definition that passes validation. -/
inductive ResourceType [JsonParser] : Type 1
  | builtIn (T : Type) [ObjectMetaResource T]
  | custom (crd : CustomResourceDefinition) (accepted : validateCrdSpec crd = .ok ())

namespace ResourceType

def group : ResourceType → String
  | builtIn T => (Resource.descriptor T).group
  | custom crd _ => crd.group

def version : ResourceType → String
  | builtIn T => (Resource.descriptor T).version
  | custom crd _ => crd.versionName

/-- The version of a built-in kind.  Definitions can change theirs, so it is not told for a custom
one. -/
def fixedVersion : ResourceType → Option String
  | builtIn T => some (Resource.descriptor T).version
  | custom _ _ => none

def plural : ResourceType → String
  | builtIn T => (Resource.descriptor T).plural
  | custom crd _ => crd.plural

def namespaced : ResourceType → Bool
  | builtIn T => (Resource.descriptor T).namespaced
  | custom crd _ => crd.namespaced

/-- The names that objects of the kind can have.  Definitions are named after what they define, all
other objects have names that pass the `NameValidator`. -/
def AcceptsName (name : String) : ResourceType → Prop
  | builtIn T =>
    if Resource.resourceKind T = .customResourceDefinition then
      ∃ crd, validateCrdSpec crd = .ok () ∧ Resource.name crd = some name
    else NameValidator.isValidName name = true
  | custom _ _ => NameValidator.isValidName name = true

def objectKey (ns : Option String) (name : String) : ResourceType → Except StoreError String
  | builtIn T => createKey T ns name
  | custom crd _ => .ok (createCustomKey crd.group crd.plural ns name)

/-- What the keys of the kind, or of one of its namespaces, start with. -/
def watchKey (ns : Option String) : ResourceType → String
  | builtIn T => Collection.createWatchKey T ns
  | custom crd _ => createCustomWatchKey crd.group crd.plural ns

end ResourceType

/-- An object with valid names.  It has a namespace if objects of its kind do. -/
structure StoredObject [JsonParser] where
  type : ResourceType
  «namespace» : Option String
  name : String
  hasNamespace : «namespace».isSome = type.namespaced
  validNamespace : ∀ ns ∈ «namespace», NameValidator.isValidName ns = true
  validName : type.AcceptsName name

namespace StoredObject

def key (o : StoredObject) : Except StoreError String := o.type.objectKey o.namespace o.name

/-- What an object is known by: group, version if its kind is built in, plural, namespace and
name. -/
def identity (o : StoredObject) : String × Option String × String × Option String × String :=
  (o.type.group, o.type.fixedVersion, o.type.plural, o.namespace, o.name)

end StoredObject

namespace ResourceType

lemma watchKey_eq (t : ResourceType) (ns : Option String) :
    t.watchKey ns = createCustomWatchKey t.group t.plural ns := by
  cases t with
  | builtIn T | custom crd h => rfl

lemma group_notMem_reservedGroups {crd : CustomResourceDefinition}
    (h : validateCrdSpec crd = .ok ()) : crd.group ∉ reservedGroups := by
  obtain ⟨spec, version, names, hacc⟩ := CustomResourceDefinition.accepted_of_validateCrdSpec h
  simpa [CustomResourceDefinition.group, hacc.spec_eq] using hacc.unreserved

/-- A custom kind never has the group of a built-in one. -/
lemma fixedVersion_eq_of_group_eq {t u : ResourceType} (h : t.group = u.group) :
    t.fixedVersion = u.fixedVersion := by
  cases t with
  | builtIn T =>
    have hreserved := group_mem_reservedGroups T
    cases u with
    | builtIn U => rw [fixedVersion, fixedVersion, version_builtIn T, version_builtIn U]
    | custom crd hcrd =>
      rw [show (Resource.descriptor T).group = crd.group from h] at hreserved
      exact absurd hreserved (group_notMem_reservedGroups hcrd)
  | custom crd hcrd =>
    cases u with
    | builtIn U =>
      have hreserved := group_mem_reservedGroups U
      rw [show (Resource.descriptor U).group = crd.group from h.symm] at hreserved
      exact absurd hreserved (group_notMem_reservedGroups hcrd)
    | custom crd' hcrd' => rfl

lemma slash_notMem (t : ResourceType) : '/' ∉ t.group.toList ∧ '/' ∉ t.plural.toList := by
  cases t with
  | builtIn T =>
    have hkinds : ∀ k ∈ Kind.all, '/' ∉ k.descriptor.group.toList ∧
        '/' ∉ k.descriptor.plural.toList := by decide +kernel
    exact hkinds _ (Kind.mem_all (Resource.resourceKind T))
  | custom crd h =>
    obtain ⟨spec, version, names, hacc⟩ :=
      CustomResourceDefinition.accepted_of_validateCrdSpec h
    simp only [group, plural, CustomResourceDefinition.group, CustomResourceDefinition.plural,
      hacc.spec_eq, hacc.names_eq, Option.map_some, Option.getD_some, Option.bind_some]
    exact ⟨NameValidator.notMem_of_isValidDnsSubdomain (by decide) (by decide) hacc.group,
      NameValidator.notMem_of_isValidName (by decide) hacc.plural⟩

lemma slash_notMem_kindSegments (t : ResourceType) :
    ∀ s ∈ kindSegments t.group t.plural, '/' ∉ s.toList := by
  obtain ⟨hgroup, hplural⟩ := t.slash_notMem
  simp only [kindSegments, List.mem_cons, List.not_mem_nil, or_false, forall_eq_or_imp, forall_eq]
  exact ⟨by decide, by decide, by decide, hgroup, hplural⟩

lemma slash_notMem_of_acceptsName {t : ResourceType} {name : String} (h : t.AcceptsName name) :
    '/' ∉ name.toList := by
  have hname : ∀ {name : String}, NameValidator.isValidName name = true → '/' ∉ name.toList :=
    NameValidator.notMem_of_isValidName (by decide)
  cases t with
  | custom crd hcrd => exact hname h
  | builtIn T =>
    simp only [AcceptsName] at h
    split at h
    · obtain ⟨crd, hcrd, hcrdName⟩ := h
      obtain ⟨spec, version, names, hacc⟩ :=
        CustomResourceDefinition.accepted_of_validateCrdSpec hcrd
      obtain rfl : crdName names.plural spec.group = name :=
        Option.some.inj (hacc.name_eq.symm.trans hcrdName)
      simp only [crdName, String.toList_append, List.mem_append, not_or]
      exact ⟨⟨hname hacc.plural, by decide⟩,
        NameValidator.notMem_of_isValidDnsSubdomain (by decide) (by decide) hacc.group⟩
    · exact hname h

end ResourceType

namespace StoredObject

/-- The key of an object is there, and its parts are those of the kind, the namespace and the
name. -/
lemma key_eq (o : StoredObject) :
    o.key = .ok (Text.join '/' (kindSegments o.type.group o.type.plural ++
      objectSegments o.namespace o.name)) := by
  rw [← createCustomKey_eq_join]
  obtain ⟨t, ns, name, hns, -, -⟩ := o
  cases t with
  | custom crd h => rfl
  | builtIn T =>
    cases ns with
    | none =>
      have hcluster : (Resource.descriptor T).clusterScoped = true := by
        cases hscope : (Resource.descriptor T).scope with
        | cluster => simp [ResourceApiDescriptor.clusterScoped, hscope]
        | namespaced =>
          simp [ResourceType.namespaced, ResourceApiDescriptor.namespaced, hscope] at hns
      exact Collection.createKey_of_clusterScoped hcluster none name
    | some ns =>
      have hnamespaced : (Resource.descriptor T).clusterScoped = false := by
        cases hscope : (Resource.descriptor T).scope with
        | namespaced => simp [ResourceApiDescriptor.clusterScoped, hscope]
        | cluster =>
          simp [ResourceType.namespaced, ResourceApiDescriptor.namespaced, hscope] at hns
      exact Collection.createKey_of_namespaced hnamespaced ns name

lemma slash_notMem_objectSegments (o : StoredObject) :
    ∀ s ∈ objectSegments o.namespace o.name, '/' ∉ s.toList := by
  intro s hs
  simp only [objectSegments, List.mem_append, List.mem_singleton, Option.mem_toList] at hs
  rcases hs with hns | rfl
  · exact NameValidator.notMem_of_isValidName (by decide) (o.validNamespace s hns)
  · exact ResourceType.slash_notMem_of_acceptsName o.validName

lemma slash_notMem_segments (o : StoredObject) :
    ∀ s ∈ kindSegments o.type.group o.type.plural ++ objectSegments o.namespace o.name,
      '/' ∉ s.toList := by
  intro s hs
  rcases List.mem_append.1 hs with hs | hs
  · exact o.type.slash_notMem_kindSegments s hs
  · exact o.slash_notMem_objectSegments s hs

/-- Two objects share a key exactly if they have the same group, plural, namespace and name. -/
lemma key_eq_iff (a b : StoredObject) :
    a.key = b.key ↔ a.type.group = b.type.group ∧ a.type.plural = b.type.plural ∧
      a.namespace = b.namespace ∧ a.name = b.name := by
  rw [a.key_eq, b.key_eq, Except.ok.injEq,
    Text.join_inj a.slash_notMem_segments b.slash_notMem_segments (by simp [kindSegments])
      (by simp [kindSegments])]
  simp [kindSegments, objectSegments_inj]

/-- A key starts with that of a kind, or of a namespace of it, exactly if its object has the group
and plural of the kind, and is in the namespace. -/
lemma watchKey_isPrefix_iff (t : ResourceType) (ns : Option String) (o : StoredObject) :
    (∃ key, o.key = .ok key ∧ (t.watchKey ns).toList <+: key.toList) ↔
      o.type.group = t.group ∧ o.type.plural = t.plural ∧ ∀ n ∈ ns, o.namespace = some n := by
  have hsegments : ∀ rest, kindSegments o.type.group o.type.plural ++
      objectSegments o.namespace o.name = kindSegments t.group t.plural ++ rest ↔
        o.type.group = t.group ∧ o.type.plural = t.plural ∧
          objectSegments o.namespace o.name = rest := by
    simp [kindSegments]
  simp only [o.key_eq, Except.ok.injEq, exists_eq_left', t.watchKey_eq,
    toList_createCustomWatchKey]
  rw [Text.join_append_isPrefix_join t.slash_notMem_kindSegments o.slash_notMem_segments
    (by simp [kindSegments]) (by simp [kindSegments])]
  simp only [hsegments]
  constructor
  · rintro ⟨rest, -, ⟨hgroup, hplural, rfl⟩, hx⟩
    refine ⟨hgroup, hplural, fun n hn => ?_⟩
    obtain rfl := Option.mem_def.1 hn
    rw [Option.map_some, Option.getD_some] at hx
    have hslash := o.slash_notMem_objectSegments
    cases hns : o.namespace with
    | none =>
      -- the key ends with the name, which has no slash
      rw [hns] at hx hslash
      rw [objectSegments, Option.toList_none, List.nil_append, Text.join_singleton] at hx
      exact absurd hx (Text.not_append_cons_isPrefix (hslash o.name (by simp [objectSegments])))
    | some m =>
      rw [hns] at hx hslash
      have hm : '/' ∉ m.toList := hslash m (by simp [objectSegments])
      have hname : '/' ∉ o.name.toList := hslash o.name (by simp [objectSegments])
      rw [objectSegments, Option.toList_some, List.singleton_append,
        Text.toList_join_cons m (by simp), Text.join_singleton] at hx
      obtain ⟨tail, htail⟩ := hx
      rw [List.append_assoc, List.singleton_append] at htail
      obtain ⟨heq, -⟩ := (List.append_cons_inj_of_notMem hm hname).1 htail.symm
      rw [String.toList_inj.1 heq]
  · rintro ⟨hgroup, hplural, hns⟩
    refine ⟨_, by simp [objectSegments], ⟨hgroup, hplural, rfl⟩, ?_⟩
    cases ns with
    | none => exact List.nil_prefix
    | some n =>
      rw [hns n rfl, objectSegments, Option.toList_some, List.singleton_append,
        Text.toList_join_cons n (by simp)]
      exact ⟨_, by rw [Option.map_some, Option.getD_some, List.append_assoc]; rfl⟩

/-- **Keys are distinct and lists are exact.**  Objects that differ in more than the version of a
custom kind have different keys, and what the keys of a kind or namespace start with is found in
the keys of its own objects only. -/
theorem keys_exact :
    (∀ a b : StoredObject, a.identity ≠ b.identity → a.key ≠ b.key) ∧
      ∀ (t : ResourceType) (ns : Option String) (o : StoredObject),
        (∃ key, o.key = .ok key ∧ (t.watchKey ns).toList <+: key.toList) ↔
          o.type.group = t.group ∧ o.type.fixedVersion = t.fixedVersion ∧
            o.type.plural = t.plural ∧ ∀ n ∈ ns, o.namespace = some n := by
  refine ⟨fun a b hne hkey => hne ?_, fun t ns o => ?_⟩
  · obtain ⟨hgroup, hplural, hns, hname⟩ := (key_eq_iff a b).1 hkey
    rw [identity, identity, hgroup, ResourceType.fixedVersion_eq_of_group_eq hgroup, hplural, hns,
      hname]
  · rw [watchKey_isPrefix_iff]
    constructor
    · rintro ⟨hgroup, hplural, hns⟩
      exact ⟨hgroup, ResourceType.fixedVersion_eq_of_group_eq hgroup, hplural, hns⟩
    · rintro ⟨hgroup, -, hplural, hns⟩
      exact ⟨hgroup, hplural, hns⟩

end StoredObject

end

/-! ## Two versions of one definition -/

namespace StoredObject

namespace Sample

open Fixture

def widget (version : String) (h : validateCrdSpec (widgets version) = .ok ()) : StoredObject where
  type := .custom (widgets version) h
  «namespace» := some "default"
  name := "demo"
  hasNamespace := rfl
  validNamespace := by
    intro ns hns
    rw [← Option.some.inj hns]
    decide
  validName := show NameValidator.isValidName "demo" = true by decide

end Sample

open Fixture Sample in
/-- The definition is deleted while a widget with finalizers stays, and created again in another
version: widgets of the two versions have the same key, and a list of the one finds the other. -/
theorem versions_share_keys :
    ∃ (h : validateCrdSpec (widgets "v1") = .ok ()) (h' : validateCrdSpec (widgets "v2") = .ok ()),
      (widget "v1" h).type.version ≠ (widget "v2" h').type.version ∧
        (widget "v1" h).key = (widget "v2" h').key ∧
        ∃ key, (widget "v1" h).key = .ok key ∧
          ((ResourceType.custom (widgets "v2") h').watchKey (some "default")).toList <+:
            key.toList := by
  refine ⟨by decide, by decide, by decide, by decide +kernel, _, rfl, by decide +kernel⟩

end StoredObject

end Tugboat
