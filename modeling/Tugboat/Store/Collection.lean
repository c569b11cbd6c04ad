import Mathlib.Data.List.Basic
import Tugboat.Resources.ConfigMap
import Tugboat.Store.ResourceStore

/-!
# Listing the store

`list` asks the key-value store for all keys that start with the key of the kind, or with that of
one namespace of the kind.  A `Collection` is a store together with the keys in use, and with the
invariant that makes such a range read mean what it should: the names in the keys have no slash.
Without it, an object called `b/c` in the namespace `a` would also be read as one of the namespace
`a/b`.

All that the server stores is like this.  Names that clients give pass the `NameValidator`, which
also looks at a `generateName`, and the roles stored at the start are called `system:...`.
-/

namespace Tugboat

/-- The objects of one kind, with the keys in use. -/
structure Collection (T : Type) [ObjectMetaResource T] extends ResourceStore T where
  /-- The keys in use. -/
  keys : List String
  mem_keys : ∀ key c, kvs key = some c → key ∈ keys
  /-- Neither the name of an object nor that of its namespace has a slash in it. -/
  noSlash : ∀ key c, kvs key = some c →
    (∀ name, Resource.name c.data = some name → '/' ∉ name.toList) ∧
      ∀ ns, Resource.namespace c.data = some ns → '/' ∉ ns.toList

namespace Collection

variable {T : Type} [ObjectMetaResource T]

def empty : Collection T where
  toResourceStore := .empty
  keys := []
  mem_keys := by simp [ResourceStore.empty]
  noSlash := by simp [ResourceStore.empty]

lemma of_commit_empty {t : T} {key key' : String} {c : ContentData T}
    {hkey : ResourceStore.keyOf t = .ok key}
    (h : (ResourceStore.empty.commit [⟨key, t, none, hkey⟩]).kvs key' = some c) :
    key' = key ∧ c.data = t := by
  simp only [ResourceStore.commit, ResourceStore.writeAll, List.foldl_cons, List.foldl_nil] at h
  by_cases heq : key' = key
  · rw [heq, Function.update_self, Option.some.injEq] at h
    exact ⟨heq, h ▸ rfl⟩
  · rw [Function.update_of_ne heq] at h
    exact absurd h (by simp [ResourceStore.empty])

def single (t : T) (key : String) (hkey : ResourceStore.keyOf t = .ok key)
    (hslash : (∀ name, Resource.name t = some name → '/' ∉ name.toList) ∧
      ∀ ns, Resource.namespace t = some ns → '/' ∉ ns.toList) :
    Collection T where
  toResourceStore := ResourceStore.empty.commit [⟨key, t, none, hkey⟩]
  keys := [key]
  mem_keys := fun _ _ h => List.mem_singleton.2 (of_commit_empty h).1
  noSlash := fun _ _ h => (of_commit_empty h).2 ▸ hslash

variable (T) in
/-- What the keys of a kind, or of one of its namespaces, start with. -/
def createWatchKey (ns : Option String) : String :=
  let d := Resource.descriptor T
  match ns with
  | some ns => ResourceStore.basePath ++ "/" ++ d.group ++ "/" ++ d.plural ++ "/" ++ ns ++ "/"
  | none => ResourceStore.basePath ++ "/" ++ d.group ++ "/" ++ d.plural ++ "/"

/-- `list`: the objects whose keys start with the key of the kind or namespace. -/
def list (s : Collection T) (ns : Option String) : List (ContentData T) :=
  (s.keys.filter fun key => (createWatchKey T ns).toList <+: key.toList).filterMap s.kvs

/-- The object is stored. -/
def Holds (s : Collection T) (t : T) : Prop := ∃ key c, s.kvs key = some c ∧ c.data = t

lemma not_holds_empty (t : T) : ¬ (empty : Collection T).Holds t := by
  rintro ⟨key, c, hkey, -⟩
  exact absurd hkey (by simp [empty, ResourceStore.empty])

/-! ## What the keys say -/

/-- A stored object has a name, and its key is made of its name and namespace. -/
lemma exists_createKey (s : Collection T) {key : String} {c : ContentData T}
    (h : s.kvs key = some c) :
    ∃ name, Resource.name c.data = some name ∧
      ResourceStore.createKey T (Resource.namespace c.data) name = .ok key := by
  obtain ⟨⟨m, name⟩, hname, hkey⟩ := bind_eq_ok_iff.1 (s.keyed key c h)
  obtain ⟨hmeta, hm⟩ := ResourceStore.nameOf_eq_ok hname
  refine ⟨name, ?_, ?_⟩
  · rw [Resource.name, hmeta, Option.bind_some, hm]
  · rw [Resource.namespace, hmeta, Option.bind_some]
    exact hkey

section ClusterScoped

variable (hT : (Resource.descriptor T).clusterScoped = true)

include hT

lemma createKey_of_clusterScoped (ns : Option String) (name : String) :
    ResourceStore.createKey T ns name = .ok (createWatchKey T none ++ name) := by
  simp only [ResourceStore.createKey, if_pos hT, createWatchKey]

/-- A range read over a cluster scoped kind goes through all of its objects. -/
lemma mem_list_none (s : Collection T) (t : T) : (∃ c ∈ s.list none, c.data = t) ↔ s.Holds t := by
  constructor
  · rintro ⟨c, hc, hdata⟩
    obtain ⟨key, -, hkey⟩ := List.mem_filterMap.1 hc
    exact ⟨key, c, hkey, hdata⟩
  · rintro ⟨key, c, hkey, hdata⟩
    obtain ⟨name, -, hname⟩ := s.exists_createKey hkey
    rw [createKey_of_clusterScoped hT, Except.ok.injEq] at hname
    refine ⟨c, List.mem_filterMap.2 ⟨key, List.mem_filter.2 ⟨s.mem_keys key c hkey, ?_⟩, hkey⟩,
      hdata⟩
    rw [← hname, String.toList_append]
    exact decide_eq_true (List.prefix_append _ _)

lemma exists_get_none (s : Collection T) (name : String) :
    ∃ r, s.get none name = .ok r ∧
      ∀ t, (∃ c, r = some c ∧ c.data = t) ↔ s.Holds t ∧ Resource.name t = some name := by
  refine ⟨s.kvs (createWatchKey T none ++ name), ?_, fun t => ⟨?_, ?_⟩⟩
  · rw [ResourceStore.get, createKey_of_clusterScoped hT, Except.map]
  · rintro ⟨c, hkey, rfl⟩
    obtain ⟨name', hname', hkey'⟩ := s.exists_createKey hkey
    rw [createKey_of_clusterScoped hT, Except.ok.injEq, String.append_right_inj] at hkey'
    exact ⟨⟨_, c, hkey, rfl⟩, hkey' ▸ hname'⟩
  · rintro ⟨⟨key, c, hkey, rfl⟩, hname⟩
    obtain ⟨name', hname', hkey'⟩ := s.exists_createKey hkey
    obtain rfl : name' = name := Option.some.inj (hname'.symm.trans hname)
    rw [createKey_of_clusterScoped hT, Except.ok.injEq] at hkey'
    exact ⟨c, hkey' ▸ hkey, rfl⟩

end ClusterScoped

section Namespaced

variable (hT : (Resource.descriptor T).clusterScoped = false)

include hT

lemma createKey_of_namespaced (ns name : String) :
    ResourceStore.createKey T (some ns) name = .ok (createWatchKey T (some ns) ++ name) := by
  simp only [ResourceStore.createKey, hT, Bool.false_eq_true, if_false, createWatchKey]

omit hT in
lemma toList_createWatchKey_some (ns : String) : (createWatchKey T (some ns)).toList =
      (createWatchKey T none).toList ++ (ns.toList ++ ['/']) := by
  simp only [createWatchKey, String.toList_append, List.append_assoc]
  rfl

omit hT in
lemma namespace_unique {ns ns' name : String} {rest : List Char} (hns : '/' ∉ ns'.toList)
    (hname : '/' ∉ name.toList) (h : (createWatchKey T (some ns)).toList ++ rest =
      (createWatchKey T (some ns') ++ name).toList) :
    ns' = ns ∧ name.toList = rest := by
  simp only [String.toList_append, toList_createWatchKey_some, List.append_assoc,
    List.singleton_append, List.append_cancel_left_eq] at h
  obtain ⟨heq, -, hrest⟩ := (List.append_cons_inj_of_notMem hns hname).1 h.symm
  exact ⟨String.toList_inj.1 heq, hrest⟩

/-- A stored object of a namespaced kind has a namespace, and neither its name nor its
namespace has a separator in it. -/
lemma exists_namespace (s : Collection T) {key : String} {c : ContentData T}
    (h : s.kvs key = some c) :
    ∃ ns name, Resource.namespace c.data = some ns ∧ Resource.name c.data = some name ∧
      '/' ∉ ns.toList ∧ '/' ∉ name.toList ∧ key = createWatchKey T (some ns) ++ name := by
  obtain ⟨name, hname, hkey⟩ := s.exists_createKey h
  cases hns : Resource.namespace c.data with
  | none =>
    rw [hns] at hkey
    simp only [ResourceStore.createKey, hT, Bool.false_eq_true, if_false, reduceCtorEq] at hkey
  | some ns =>
    rw [hns, createKey_of_namespaced hT, Except.ok.injEq] at hkey
    obtain ⟨hslashName, hslashNs⟩ := s.noSlash key c h
    exact ⟨ns, name, rfl, hname, hslashNs ns hns, hslashName name hname, hkey.symm⟩

/-- A range read over a namespace goes through the objects of this namespace. -/
lemma mem_list_some (s : Collection T) (ns : String) (t : T) :
    (∃ c ∈ s.list (some ns), c.data = t) ↔ s.Holds t ∧ Resource.namespace t = some ns := by
  constructor
  · rintro ⟨c, hc, rfl⟩
    obtain ⟨key, hfilter, hkey⟩ := List.mem_filterMap.1 hc
    obtain ⟨ns', name, hns', -, hslash, hslash', rfl⟩ := s.exists_namespace hT hkey
    obtain ⟨rest, hrest⟩ := of_decide_eq_true (List.mem_filter.1 hfilter).2
    obtain ⟨rfl, -⟩ := namespace_unique hslash hslash' hrest
    exact ⟨⟨_, c, hkey, rfl⟩, hns'⟩
  · rintro ⟨⟨key, c, hkey, rfl⟩, hns⟩
    obtain ⟨ns', name, hns', -, -, -, rfl⟩ := s.exists_namespace hT hkey
    obtain rfl : ns' = ns := Option.some.inj (hns'.symm.trans hns)
    refine ⟨c, List.mem_filterMap.2
      ⟨_, List.mem_filter.2 ⟨s.mem_keys _ c hkey, decide_eq_true ?_⟩, hkey⟩, rfl⟩
    rw [String.toList_append]
    exact List.prefix_append _ _

lemma exists_get_some (s : Collection T) (ns name : String) :
    ∃ r, s.get (some ns) name = .ok r ∧
      ∀ t, (∃ c, r = some c ∧ c.data = t) ↔
        s.Holds t ∧ Resource.namespace t = some ns ∧ Resource.name t = some name := by
  refine ⟨s.kvs (createWatchKey T (some ns) ++ name), ?_, fun t => ⟨?_, ?_⟩⟩
  · rw [ResourceStore.get, createKey_of_namespaced hT, Except.map]
  · rintro ⟨c, hkey, rfl⟩
    obtain ⟨ns', name', hns', hname', hslash, hslash', heq⟩ := s.exists_namespace hT hkey
    have hlist := congrArg String.toList heq
    rw [String.toList_append] at hlist
    obtain ⟨rfl, hrest⟩ := namespace_unique hslash hslash' hlist
    exact ⟨⟨_, c, hkey, rfl⟩, hns', hname'.trans (congrArg some (String.toList_inj.1 hrest))⟩
  · rintro ⟨⟨key, c, hkey, rfl⟩, hns, hname⟩
    obtain ⟨ns', name', hns', hname', -, -, rfl⟩ := s.exists_namespace hT hkey
    obtain rfl : ns' = ns := Option.some.inj (hns'.symm.trans hns)
    obtain rfl : name' = name := Option.some.inj (hname'.symm.trans hname)
    exact ⟨c, hkey, rfl⟩

end Namespaced

end Collection

end Tugboat
