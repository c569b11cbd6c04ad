import Tugboat.Lib.Decimal
import Tugboat.Lib.RevisionStore
import Tugboat.Resources.Meta

/-!
# The resource store

The store of `tugboat-resource-store`: objects of one kind under their registry keys, in a key-value
store that numbers its transactions.  Every stored object carries the revision of the transaction
that wrote it, and a put that names a revision only happens if the key still has that revision.

`ResourceStore` has its two invariants as fields: no object has a revision the store has not reached
(`revision_range`), and every object is stored under its own key (`keyed`).  So code that reads an
object and puts it back with the same name and namespace writes the key it read.  `PutRequest`s can
only be made for the object's own key, and `commit` and `erase` are the only ways to change a store.

`StoreOp` lists the calls the API server makes, each of them one request to the key-value store and
hence atomic; `StoreOp.exec` is what each does.  A call can also fail (`Access.unreachable`), and it
can take effect although its reply is lost (`Access.replyLost`).
-/

namespace Tugboat

inductive StoreError
  | fieldMissing (field : String)
  | invalidField (field reason : String)
  | etcd
  | optimisticLockFailed (revision : Int)
  deriving DecidableEq, Repr

/-- A stored object with the revision of the write that stored it. -/
structure ContentData (T : Type) where
  data : T
  revision : ℕ
  deriving DecidableEq, Repr

/-- The object as clients see it: its revision is its resource version. -/
def ContentData.applyRevision {T : Type} [ObjectMetaResource T] (c : ContentData T) : T :=
  Resource.modifyObjectMeta
    (fun m => { m with resourceVersion := some (toString c.revision) }) c.data

lemma ContentData.objectMeta_applyRevision {T : Type} [ObjectMetaResource T] (c : ContentData T) :
    Resource.objectMeta c.applyRevision = some { (Resource.objectMeta c.data).getD {} with
        resourceVersion := some (toString c.revision) } :=
  Resource.objectMeta_modifyObjectMeta _ c.data

namespace ResourceStore

/-- The root of all keys. -/
def basePath : String := "/tugboat/registry"

variable (T : Type) [ObjectMetaResource T]

/-- The key of an object.  A namespace is required, and used, only by namespaced kinds. -/
def createKey (ns : Option String) (name : String) : Except StoreError String :=
  let d := Resource.descriptor T
  if d.clusterScoped then
    .ok (basePath ++ "/" ++ d.group ++ "/" ++ d.plural ++ "/" ++ name)
  else
    match ns with
    | none => .error (.fieldMissing "metadata.namespace")
    | some ns => .ok (basePath ++ "/" ++ d.group ++ "/" ++ d.plural ++ "/" ++ ns ++ "/" ++ name)

variable {T}

def nameOf (t : T) : Except StoreError (ObjectMeta × String) :=
  match Resource.objectMeta t with
  | none => .error (.fieldMissing "metadata")
  | some m =>
    match m.name with
    | none => .error (.fieldMissing "metadata.name")
    | some name => .ok (m, name)

/-- The key of an object, from its own metadata. -/
def keyOf (t : T) : Except StoreError String := do
  let (m, name) ← nameOf t
  createKey T m.namespace name

lemma nameOf_eq_ok {t : T} {m : ObjectMeta} {name : String} (h : nameOf t = .ok (m, name)) :
    Resource.objectMeta t = some m ∧ m.name = some name := by
  unfold nameOf at h
  split at h
  · cases h
  rename_i m' hm
  split at h
  · cases h
  rename_i name' hname
  cases h
  exact ⟨hm, hname⟩

lemma keyOf_eq_ok {t : T} {key : String} (h : keyOf t = .ok key) :
    ∃ m name, Resource.objectMeta t = some m ∧ m.name = some name := by
  obtain ⟨⟨m, name⟩, hname, -⟩ := bind_eq_ok_iff.1 h
  exact ⟨m, name, nameOf_eq_ok hname⟩

/-- The revision a put is conditional on: the object's resource version, if it has one. -/
def expectedRevision (m : ObjectMeta) : Except StoreError (Option Int) :=
  match m.resourceVersion with
  | none => .ok none
  | some rv =>
    match Decimal.parseInt64 rv with
    | some r => .ok (some r)
    | none => .error (.invalidField "metadata.resourceVersion" "must be a valid integer")

/-- A resource version that is there is the expected revision, or the put is refused. -/
lemma expectedRevision_of_some {m : ObjectMeta} {expected : Option Int} (rv : String)
    (hrv : m.resourceVersion = some rv) (h : expectedRevision m = .ok expected) :
    ∃ r, Decimal.parseInt64 rv = some r ∧ expected = some r := by
  simp only [expectedRevision, hrv] at h
  split at h
  next r hr =>
    cases h
    exact ⟨r, hr, rfl⟩
  · cases h

end ResourceStore

def CustomResource.createCustomKey (group plural : String) (ns : Option String) (name : String) :
    String :=
  match ns with
  | some ns => ResourceStore.basePath ++ "/" ++ group ++ "/" ++ plural ++ "/" ++ ns ++ "/" ++ name
  | none => ResourceStore.basePath ++ "/" ++ group ++ "/" ++ plural ++ "/" ++ name

/-- What the keys of a custom resource definition, or of one of its namespaces, start with. -/
def CustomResource.createCustomWatchKey (group plural : String) (ns : Option String) : String :=
  match ns with
  | some ns => ResourceStore.basePath ++ "/" ++ group ++ "/" ++ plural ++ "/" ++ ns ++ "/"
  | none => ResourceStore.basePath ++ "/" ++ group ++ "/" ++ plural ++ "/"

open ResourceStore

/-- A put that is ready to be sent.  It always goes to the object's own key. -/
structure PutRequest (T : Type) [ObjectMetaResource T] where
  key : String
  value : T
  expectedRevision : Option Int
  keyed : keyOf value = .ok key

/-- The store: the last revision and the objects under their keys. -/
structure ResourceStore (T : Type) [ObjectMetaResource T] where
  /-- The revision of the last write. -/
  revision : ℕ
  /-- The stored objects. -/
  kvs : String → Option (ContentData T)
  /-- Every stored object was written by a transaction, and no later than the last one. -/
  revision_range : ∀ key c, kvs key = some c → 0 < c.revision ∧ c.revision ≤ revision
  /-- Every object is stored under its own key. -/
  keyed : ∀ key c, kvs key = some c → keyOf c.data = .ok key

namespace ResourceStore

variable {T : Type} [ObjectMetaResource T]

/-- The store before anything is written. -/
def empty : ResourceStore T where
  revision := 0
  kvs := fun _ => none
  revision_range := by simp
  keyed := by simp

def preparePut (value : T) : Except StoreError (PutRequest T) :=
  match nameOf value with
  | .error e => .error e
  | .ok (m, _) =>
    match expectedRevision m with
    | .error e => .error e
    | .ok expectedRevision =>
      match h : keyOf value with
      | .error e => .error e
      | .ok key => .ok { key, value, expectedRevision, keyed := h }

/-- A request that could be made is for the object it was made for, and conditional on the
resource version in its metadata. -/
lemma preparePut_eq_ok {value : T} {request : PutRequest T} (h : preparePut value = .ok request) :
    request.value = value ∧ ∃ m, Resource.objectMeta value = some m ∧
      expectedRevision m = .ok request.expectedRevision := by
  unfold preparePut at h
  split at h
  · cases h
  rename_i m name hname
  split at h
  · cases h
  rename_i expected hexpected
  split at h
  · cases h
  · cases h
    exact ⟨rfl, m, (nameOf_eq_ok hname).1, hexpected⟩

lemma keyOf_congr {t t' : T} {m m' : ObjectMeta} (h : Resource.objectMeta t = some m)
    (h' : Resource.objectMeta t' = some m') (hname : m'.name = m.name)
    (hns : m'.namespace = m.namespace) : keyOf t' = keyOf t := by
  have hnameOf : ∀ {u : T} {k : ObjectMeta}, Resource.objectMeta u = some k →
      keyOf u = match k.name with
        | none => .error (.fieldMissing "metadata.name")
        | some name => createKey T k.namespace name := by
    intro u k hk
    simp only [keyOf, nameOf, hk]
    cases k.name with
    | none | some name => rfl
  rw [hnameOf h, hnameOf h', hname, hns]

lemma keyOf_applyRevision {c : ContentData T} {key : String}
    (h : keyOf c.data = .ok key) : keyOf c.applyRevision = .ok key := by
  obtain ⟨m, name, hmeta, -⟩ := keyOf_eq_ok h
  have happly := c.objectMeta_applyRevision
  rw [hmeta] at happly
  rw [keyOf_congr hmeta happly rfl rfl]
  exact h

/-- The modification revision a comparison sees: zero for a key that is not there. -/
def modRevision (s : ResourceStore T) (key : String) : ℕ :=
  ((s.kvs key).map (·.revision)).getD 0

/-- The comparison a request adds to its transaction. -/
def holds (s : ResourceStore T) (r : PutRequest T) : Bool :=
  match r.expectedRevision with
  | none => true
  | some expected => (s.modRevision r.key : Int) = expected

def writeAll (revision : ℕ) (requests : List (PutRequest T))
    (kvs : String → Option (ContentData T)) : String → Option (ContentData T) :=
  requests.foldl (fun kvs r => Function.update kvs r.key (some ⟨r.value, revision⟩)) kvs

/-- What is stored after `writeAll` was stored before or comes from one of the requests. -/
lemma writeAll_cases (revision : ℕ) :
    ∀ (requests : List (PutRequest T)) (kvs : String → Option (ContentData T)) (key : String),
      writeAll revision requests kvs key = kvs key ∨
        ∃ r ∈ requests, r.key = key ∧ writeAll revision requests kvs key = some ⟨r.value, revision⟩
  | [], _, _ => .inl rfl
  | r :: requests, kvs, key => by
    rcases writeAll_cases revision requests
      (Function.update kvs r.key (some ⟨r.value, revision⟩)) key with h | ⟨r', hr', hk, h⟩
    · by_cases hkey : key = r.key
      · subst hkey
        rw [Function.update_self] at h
        exact .inr ⟨r, List.mem_cons_self, rfl, h⟩
      · rw [Function.update_of_ne hkey] at h
        exact .inl h
    · exact .inr ⟨r', List.mem_cons_of_mem r hr', hk, h⟩

def commit (s : ResourceStore T) (requests : List (PutRequest T)) : ResourceStore T where
  revision := s.revision + 1
  kvs := writeAll (s.revision + 1) requests s.kvs
  revision_range := by
    intro key c hc
    rcases writeAll_cases (s.revision + 1) requests s.kvs key with h | ⟨r, -, -, h⟩
    · have hrange := s.revision_range key c (h ▸ hc)
      omega
    · cases h.symm.trans hc
      exact ⟨Nat.succ_pos _, Nat.le_refl _⟩
  keyed := by
    intro key c hc
    rcases writeAll_cases (s.revision + 1) requests s.kvs key with h | ⟨r, -, hk, h⟩
    · exact s.keyed key c (h ▸ hc)
    · cases h.symm.trans hc
      exact hk ▸ r.keyed

/-- Remove a key.  Removing what is not there changes nothing, not even the revision. -/
def erase (s : ResourceStore T) (key : String) : ResourceStore T where
  revision := if (s.kvs key).isSome then s.revision + 1 else s.revision
  kvs := Function.update s.kvs key none
  revision_range := by
    intro key' c hc
    have hrange := s.revision_range key' c (of_update_none_eq_some hc)
    split <;> omega
  keyed := by
    intro key' c hc
    exact s.keyed key' c (of_update_none_eq_some hc)

/-! ## The operations -/

def putMany (s : ResourceStore T) (requests : List (PutRequest T)) :
    ResourceStore T × Except StoreError ℕ :=
  if requests.isEmpty then (s, .ok 0)
  else if requests.all s.holds then (s.commit requests, .ok (s.revision + 1))
  else (s, .error (.optimisticLockFailed ((requests.findSome? (·.expectedRevision)).getD 0)))

/-- `put`: one object, conditional on the resource version it carries. -/
def put (s : ResourceStore T) (value : T) : ResourceStore T × Except StoreError (ContentData T) :=
  match preparePut value with
  | .error e => (s, .error e)
  | .ok request =>
    let out := s.putMany [request]
    (out.1, out.2.map fun revision => ⟨value, revision⟩)

/-- `put_if_not_exists`: one object, if its key is not there; the resource version is ignored. -/
def putIfNotExists (s : ResourceStore T) (value : T) :
    ResourceStore T × Except StoreError (Option (ContentData T)) :=
  match h : keyOf value with
  | .error e => (s, .error e)
  | .ok key =>
    if (s.kvs key).isSome then (s, .ok none)
    else
      (s.commit [{ key, value, expectedRevision := none, keyed := h }],
        .ok (some ⟨value, s.revision + 1⟩))

/-- `get`: the object and the revision it was written at. -/
def get (s : ResourceStore T) (ns : Option String) (name : String) :
    Except StoreError (Option (ContentData T)) :=
  (createKey T ns name).map s.kvs

/-- `delete`: remove the object whatever its revision is, and return it. -/
def delete (s : ResourceStore T) (ns : Option String) (name : String) :
    ResourceStore T × Except StoreError (Option (ContentData T)) :=
  match createKey T ns name with
  | .error e => (s, .error e)
  | .ok key => (s.erase key, .ok (s.kvs key))

end ResourceStore

/-! ## Atomic access by concurrent callers -/

/-- The calls of the API server to the store. -/
inductive StoreOp (T : Type)
  | get (ns : Option String) (name : String)
  | put (value : T)
  | putIfNotExists (value : T)
  | delete (ns : Option String) (name : String)
  deriving DecidableEq, Repr

namespace StoreOp

variable {T : Type}

/-- The type of a successful reply. -/
abbrev Result : StoreOp T → Type
  | .get _ _ | .putIfNotExists _ | .delete _ _ => Option (ContentData T)
  | .put _ => ContentData T

variable (T) in
abbrev interface : Interface where
  Op := StoreOp T
  Reply op := Except StoreError op.Result

variable [ObjectMetaResource T]

/-- The effect and the reply of a call that is answered. -/
def apply (s : ResourceStore T) :
    (op : StoreOp T) → ResourceStore T × Except StoreError op.Result
  | .get ns name => (s, s.get ns name)
  | .put value => s.put value
  | .putIfNotExists value => s.putIfNotExists value
  | .delete ns name => s.delete ns name

/-- The effect and the reply of a call. -/
def exec : Program.Semantics (interface T) (ResourceStore T) Access
  | s, .answered, op => apply s op
  | s, .unreachable, _ => (s, .error .etcd)
  | s, .replyLost, op => ((apply s op).1, .error .etcd)

/-- The object a call stores if it takes effect. -/
def stores : StoreOp T → Option T
  | .put value | .putIfNotExists value => some value
  | .get _ _ | .delete _ _ => none

/-- The key a call removes if it takes effect. -/
def removes : StoreOp T → Option String
  | .delete ns name => (ResourceStore.createKey T ns name).toOption
  | .get _ _ | .put _ | .putIfNotExists _ => none

/-- **All a call can do** to the store: nothing, write its object under the object's own key, or
remove its key. -/
lemma exec_world (s : ResourceStore T) (access : Access) (op : StoreOp T) :
    (exec s access op).1 = s ∨
      (∃ r : PutRequest T, op.stores = some r.value ∧ (exec s access op).1 = s.commit [r]) ∨
      ∃ key, op.removes = some key ∧ (exec s access op).1 = s.erase key := by
  have happly : (apply s op).1 = s ∨
      (∃ r : PutRequest T, op.stores = some r.value ∧ (apply s op).1 = s.commit [r]) ∨
      ∃ key, op.removes = some key ∧ (apply s op).1 = s.erase key := by
    cases op with
    | get ns name => exact .inl rfl
    | put value =>
      simp only [apply, ResourceStore.put, putMany]
      split
      · exact .inl rfl
      rename_i r hr
      have hvalue : some value = some r.value := by
        rw [(preparePut_eq_ok hr).1]
      split
      · exact .inl rfl
      split
      · exact .inr (.inl ⟨r, hvalue, rfl⟩)
      · exact .inl rfl
    | putIfNotExists value =>
      simp only [apply, ResourceStore.putIfNotExists]
      split
      · exact .inl rfl
      split
      · exact .inl rfl
      · exact .inr (.inl ⟨_, rfl, rfl⟩)
    | delete ns name =>
      simp only [apply, ResourceStore.delete]
      split
      · exact .inl rfl
      rename_i key hkey
      refine .inr (.inr ⟨key, ?_, rfl⟩)
      simp only [removes, hkey]
      rfl
  cases access with
  | answered => exact happly
  | unreachable => exact .inl rfl
  | replyLost => exact happly

variable {s : ResourceStore T} {access : Access}

lemma kvs_of_exec {op : StoreOp T} {key : String} {c : ContentData T}
    (h : (exec s access op).1.kvs key = some c) :
    s.kvs key = some c ∨ op.stores = some c.data := by
  rcases exec_world s access op with hw | ⟨request, hstores, hw⟩ | ⟨key', -, hw⟩
  · rw [hw] at h
    exact .inl h
  · rw [hw] at h
    rcases writeAll_cases (s.revision + 1) [request] s.kvs key with
      hk | ⟨r, hr, -, hk⟩
    · exact .inl (hk.symm.trans h)
    cases List.mem_singleton.1 hr
    cases hk.symm.trans h
    exact .inr hstores
  · rw [hw] at h
    exact .inl (of_update_none_eq_some h)

lemma delete_of_gone {op : StoreOp T} {key : String} {c : ContentData T}
    (hbefore : s.kvs key = some c) (hafter : (exec s access op).1.kvs key = none) :
    ∃ ns name, op = .delete ns name ∧ ResourceStore.createKey T ns name = .ok key := by
  rcases exec_world s access op with hw | ⟨request, -, hw⟩ | ⟨key', hremoves, hw⟩
  · rw [hw] at hafter
    cases hbefore.symm.trans hafter
  · rw [hw] at hafter
    rcases writeAll_cases (s.revision + 1) [request] s.kvs key with hk | ⟨r, -, -, hk⟩
    · cases hbefore.symm.trans (hk.symm.trans hafter)
    · cases hk.symm.trans hafter
  · by_cases hkey : key = key'
    · subst hkey
      cases op with
      | delete ns name => exact ⟨ns, name, rfl, toOption_eq_some_iff.1 hremoves⟩
      | get ns name | put value | putIfNotExists value => cases hremoves
    · rw [hw] at hafter
      cases hbefore.symm.trans ((Function.update_of_ne hkey ..).symm.trans hafter)

/-- A put that reports success was accepted: its request could be made and its comparison
held. -/
lemma holds_of_exec_put {value : T} {stored : ContentData T}
    (h : (exec s access (.put value)).2 = .ok stored) :
    ∃ request, preparePut value = .ok request ∧ s.holds request = true := by
  cases access with
  | unreachable | replyLost => cases h
  | answered =>
    simp only [exec, apply, ResourceStore.put, putMany] at h
    split at h
    · cases h
    rename_i request hrequest
    refine ⟨request, hrequest, ?_⟩
    by_contra hholds
    simp [hholds] at h
    cases h

lemma get_of_exec_get {ns : Option String} {name : String} {found : Option (ContentData T)}
    (h : (exec s access (.get ns name)).2 = .ok found) : s.get ns name = .ok found := by
  cases access with
  | unreachable | replyLost => cases h
  | answered => exact h

end StoreOp

lemma ResourceStore.kvs_of_get {T : Type} [ObjectMetaResource T] {s : ResourceStore T}
    {ns : Option String} {name : String} {current : ContentData T}
    (h : s.get ns name = .ok (some current)) :
    ∃ key, createKey T ns name = .ok key ∧ s.kvs key = some current := by
  unfold get at h
  cases hkey : createKey T ns name with
  | error e =>
    rw [hkey] at h
    cases h
  | ok key =>
    rw [hkey] at h
    exact ⟨key, rfl, Except.ok.inj h⟩

end Tugboat
