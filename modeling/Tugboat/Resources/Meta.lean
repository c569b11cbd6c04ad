import Tugboat.Lib.Json
import Tugboat.Resources.ResourceApi

/-!
# Object metadata, and what every resource kind provides

`ObjectMeta` is the metadata record of every stored object and `Resource` the interface generic
server code is written against: the traits `Resource`, `StaticResource`, `ObjectMetaResource`,
`Serialize`, `DeserializeOwned` and `Validatable` in one class.  Access to the metadata is a lens,
and its laws are fields of the class: they are what the `apply_resource!` macro generates for every
kind.

The records have a derived JSON form: camel case names, a field with its default value is not
written, a missing field is read as its default.  A record may also be given as the array of its
fields.  Maps of labels and annotations are lists in increasing order of their keys.  How a point in
time is written is a parameter, `TimeCodec`.
-/

namespace Tugboat

open Json

structure Time where
  seconds : Int
  nanos : Int
  deriving DecidableEq, Repr

/-- The year of the time, in UTC, has four digits. -/
def Time.FourDigitYear (t : Time) : Prop := -62167219200 ≤ t.seconds ∧ t.seconds < 253402300800

instance (t : Time) : Decidable t.FourDigitYear := inferInstanceAs (Decidable (_ ∧ _))

/-- The RFC 3339 form of points in time.  A time outside the calendar has none. -/
class TimeCodec where
  /-- Write a time. -/
  toRfc3339 : Time → Option String
  /-- Read a time. -/
  parseFromRfc3339 : String → Option Time

/-- API version and kind of an object, as the object itself states them. -/
structure TypeMeta where
  apiVersion : Option String := none
  kind : Option String := none
  deriving DecidableEq, Repr

structure OwnerReference where
  apiVersion : String := ""
  kind : String := ""
  name : String := ""
  uid : String := ""
  controller : Option Bool := none
  deriving DecidableEq, Repr

structure ObjectMeta where
  name : Option String := none
  generateName : Option String := none
  «namespace» : Option String := none
  uid : Option String := none
  resourceVersion : Option String := none
  generation : Option Int := none
  creationTimestamp : Option Time := none
  deletionTimestamp : Option Time := none
  labels : List (String × String) := []
  annotations : List (String × String) := []
  ownerReferences : List OwnerReference := []
  finalizers : List String := []
  deriving DecidableEq, Repr

/-! ## JSON form -/

/-- Write a field that may be absent; the outer option is the failure to write it. -/
def encodeOption {α : Type} (encode : α → Option Value) : Option α → Option (Option Value)
  | none => some none
  | some a => (encode a).map some

section Json

variable [TimeCodec]

/-- An optional time, written; the outer option is the failure to write it. -/
def encodeTime : Option Time → Option (Option Value)
  | none => some none
  | some t => (TimeCodec.toRfc3339 t).map fun s => some (.string s)

def decodeTime (v : Value) : Option Time := v.asStr.bind TimeCodec.parseFromRfc3339

def TypeMeta.toFields (t : TypeMeta) : List (String × Option Value) :=
  [("apiVersion", t.apiVersion.map .string), ("kind", t.kind.map .string)]

/-- The type metadata is flattened into the object that holds it: it is read from the object's
own fields, and taken to be absent when they do not fit. -/
def TypeMeta.fromFields (m : Map) : Option TypeMeta := do
  let apiVersion ← decodeOption m "apiVersion" Value.asStr
  let kind ← decodeOption m "kind" Value.asStr
  return { apiVersion, kind }

def OwnerReference.toValue (o : OwnerReference) : Value :=
  .object <| Map.ofFields
    [("apiVersion", encodeUnlessDefault "" .string o.apiVersion),
     ("kind", encodeUnlessDefault "" .string o.kind),
     ("name", encodeUnlessDefault "" .string o.name),
     ("uid", encodeUnlessDefault "" .string o.uid),
     ("controller", o.controller.map .bool)]

def OwnerReference.fromValue (v : Value) : Option OwnerReference := do
  let m ← v.asRecord ["apiVersion", "kind", "name", "uid", "controller"]
  return {
    apiVersion := ← decodeDefault m "apiVersion" "" Value.asStr
    kind := ← decodeDefault m "kind" "" Value.asStr
    name := ← decodeDefault m "name" "" Value.asStr
    uid := ← decodeDefault m "uid" "" Value.asStr
    controller := ← decodeOption m "controller" decodeBool }

def ObjectMeta.toValue (o : ObjectMeta) : Option Value := do
  let creationTimestamp ← encodeTime o.creationTimestamp
  let deletionTimestamp ← encodeTime o.deletionTimestamp
  return .object <| Map.ofFields
    [("name", o.name.map .string),
     ("generateName", o.generateName.map .string),
     ("namespace", o.namespace.map .string),
     ("uid", o.uid.map .string),
     ("resourceVersion", o.resourceVersion.map .string),
     ("generation", o.generation.map fun n => .number (.int n)),
     ("creationTimestamp", creationTimestamp),
     ("deletionTimestamp", deletionTimestamp),
     ("labels", encodeUnlessDefault [] encodeStringMap o.labels),
     ("annotations", encodeUnlessDefault [] encodeStringMap o.annotations),
     ("ownerReferences",
       encodeUnlessDefault [] (fun l => .array (l.map OwnerReference.toValue)) o.ownerReferences),
     ("finalizers", encodeUnlessDefault [] (fun l => .array (l.map .string)) o.finalizers)]

lemma ObjectMeta.get_of_toValue {o : ObjectMeta} {v : Value} (h : o.toValue = some v) :
    v.get "resourceVersion" = o.resourceVersion.map .string ∧ v.get "finalizers" =
      encodeUnlessDefault [] (fun l => .array (l.map .string)) o.finalizers := by
  simp only [toValue, Option.bind_eq_bind, Option.bind_eq_some_iff] at h
  obtain ⟨_, -, _, -, h⟩ := h
  cases h
  constructor <;>
  · rw [Value.get, Value.asObject, Option.bind_some, Map.get_ofFields _ _ (by simp)]
    simp [List.lookup_cons]

def ObjectMeta.fromValue (v : Value) : Option ObjectMeta := do
  let m ← v.asRecord ["name", "generateName", "namespace", "uid", "resourceVersion", "generation",
    "creationTimestamp", "deletionTimestamp", "labels", "annotations", "ownerReferences",
    "finalizers"]
  return {
    name := ← decodeOption m "name" Value.asStr
    generateName := ← decodeOption m "generateName" Value.asStr
    «namespace» := ← decodeOption m "namespace" Value.asStr
    uid := ← decodeOption m "uid" Value.asStr
    resourceVersion := ← decodeOption m "resourceVersion" Value.asStr
    generation := ← decodeOption m "generation" decodeInt64
    creationTimestamp := ← decodeOption m "creationTimestamp" decodeTime
    deletionTimestamp := ← decodeOption m "deletionTimestamp" decodeTime
    labels := ← decodeDefault m "labels" [] decodeStringMap
    annotations := ← decodeDefault m "annotations" [] decodeStringMap
    ownerReferences :=
      ← decodeDefault m "ownerReferences" [] (decodeList OwnerReference.fromValue)
    finalizers := ← decodeDefault m "finalizers" [] (decodeList Value.asStr) }

end Json

/-! ## What is read back -/

/-- A codec that reads the times it writes, as long as their year has four digits.  Other years are
written with a sign, which is not read. -/
class LawfulTimeCodec extends TimeCodec where
  parse_toRfc3339 : ∀ t s, toRfc3339 t = some s →
    parseFromRfc3339 s = if t.FourDigitYear then some t else none

section RoundTrip

lemma OwnerReference.fromValue_toValue (o : OwnerReference) : fromValue o.toValue = some o := by
  change fromValue (.object (Map.ofFields ?fields)) = _
  have hget := fun k => Map.get_ofFields ?fields k (by simp)
  have hstr : ∀ s : String, Value.asStr (.string s) = some s := fun _ => rfl
  have hbool : ∀ b : Bool, decodeBool (.bool b) = some b := fun _ => rfl
  simp [fromValue, decodeDefault_of_get (hget "apiVersion") hstr,
    decodeDefault_of_get (hget "kind") hstr, decodeDefault_of_get (hget "name") hstr,
    decodeDefault_of_get (hget "uid") hstr,
    decodeOption_of_get (hget "controller") hbool (by simp)]

lemma decodeList_map {α : Type} {encode : α → Value} {decode : Value → Option α}
    (h : ∀ a, decode (encode a) = some a) (l : List α) :
    decodeList decode (.array (l.map encode)) = some l := by
  rw [decodeList]
  induction l with
  | nil => rfl
  | cons a l ih =>
    rw [List.map_cons, List.mapM_cons, h, ih]
    rfl

lemma decodeStringMap_encodeStringMap (m : List (String × String)) :
    decodeStringMap (encodeStringMap m) = some m := by
  rw [encodeStringMap, decodeStringMap]
  induction m with
  | nil => rfl
  | cons f m ih =>
    rw [List.map_cons, List.mapM_cons, ih]
    rfl

lemma decodeOption_time_eq_some_iff [LawfulTimeCodec] {m : Map} {k : String} {t t' : Option Time}
    {written : Option Value} (hwritten : encodeTime t = some written) (hget : m.get k = written) :
    decodeOption m k decodeTime = some t' ↔ (∀ x ∈ t, x.FourDigitYear) ∧ t' = t := by
  cases t with
  | none =>
    cases hwritten
    simp [decodeOption, hget, eq_comm]
  | some t =>
    obtain ⟨s, hs, rfl⟩ := Option.map_eq_some_iff.1 hwritten
    simp only [decodeOption, hget, decodeTime, Value.asStr, Option.bind_some,
      LawfulTimeCodec.parse_toRfc3339 t s hs]
    split <;> simp_all [eq_comm]

lemma decodeOption_int64 {m : Map} {k : String} {i : Option ℤ}
    (hranged : ∀ n ∈ i, -2 ^ 63 ≤ n ∧ n < 2 ^ 63)
    (hget : m.get k = i.map fun n => .number (.int n)) :
    decodeOption m k decodeInt64 = some i := by
  cases i with
  | none => simp [decodeOption, hget]
  | some n => simp only [decodeOption, hget, Option.map_some, decodeInt64, if_pos (hranged n rfl)]

namespace ObjectMeta

/-- The generation is an integer of 64 bits. -/
def Ranged (o : ObjectMeta) : Prop := ∀ g ∈ o.generation, -2 ^ 63 ≤ g ∧ g < 2 ^ 63

/-- The years of the timestamps have four digits. -/
def Timely (o : ObjectMeta) : Prop :=
  (∀ t ∈ o.creationTimestamp, t.FourDigitYear) ∧ ∀ t ∈ o.deletionTimestamp, t.FourDigitYear

variable {o o' : ObjectMeta} {v : Value}

lemma fromValue_toValue [LawfulTimeCodec] (hranged : o.Ranged) (htimely : o.Timely)
    (h : o.toValue = some v) : fromValue v = some o := by
  simp only [toValue, Option.bind_eq_bind, Option.bind_eq_some_iff] at h
  obtain ⟨creationTimestamp, hc, deletionTimestamp, hd, h⟩ := h
  change some (Value.object (Map.ofFields ?fields)) = _ at h
  cases h
  have hget := fun k => Map.get_ofFields ?fields k (by simp)
  have hstr : ∀ s : String, Value.asStr (.string s) = some s := fun _ => rfl
  simp [fromValue, decodeOption_of_get (hget "name") hstr (by simp),
    decodeOption_of_get (hget "generateName") hstr (by simp),
    decodeOption_of_get (hget "namespace") hstr (by simp),
    decodeOption_of_get (hget "uid") hstr (by simp),
    decodeOption_of_get (hget "resourceVersion") hstr (by simp),
    decodeOption_int64 hranged (hget "generation"),
    (decodeOption_time_eq_some_iff hc (hget "creationTimestamp")).2 ⟨htimely.1, rfl⟩,
    (decodeOption_time_eq_some_iff hd (hget "deletionTimestamp")).2 ⟨htimely.2, rfl⟩,
    decodeDefault_of_get (hget "labels") decodeStringMap_encodeStringMap,
    decodeDefault_of_get (hget "annotations") decodeStringMap_encodeStringMap,
    decodeDefault_of_get (hget "ownerReferences")
      (decodeList_map OwnerReference.fromValue_toValue),
    decodeDefault_of_get (hget "finalizers") (decodeList_map hstr)]

/-- Written metadata are read back as they were, or not at all. -/
lemma eq_of_fromValue_toValue [LawfulTimeCodec] (hranged : o.Ranged) (h : o.toValue = some v)
    (h' : fromValue v = some o') : o.Timely ∧ o' = o := by
  have htimely : o.Timely := by
    simp only [toValue, Option.bind_eq_bind, Option.bind_eq_some_iff] at h
    obtain ⟨creationTimestamp, hc, deletionTimestamp, hd, h⟩ := h
    change some (Value.object (Map.ofFields ?fields)) = _ at h
    cases h
    have hget := fun k => Map.get_ofFields ?fields k (by simp)
    simp only [fromValue, Value.asRecord_object, ↓Option.bind_eq_bind, ↓Option.bind_some,
      ↓Option.bind_eq_some_iff] at h'
    obtain ⟨_, -, _, -, _, -, _, -, _, -, _, -, _, hcreation, _, hdeletion, -⟩ := h'
    exact ⟨((decodeOption_time_eq_some_iff hc (hget "creationTimestamp")).1 hcreation).1,
      ((decodeOption_time_eq_some_iff hd (hget "deletionTimestamp")).1 hdeletion).1⟩
  exact ⟨htimely, Option.some.inj (h'.symm.trans (fromValue_toValue hranged htimely h))⟩

/-- Setting the deletion timestamp in the JSON form sets it in the metadata, and nothing else, if
they can still be read. -/
lemma eq_of_fromValue_insert_deletionTimestamp [LawfulTimeCodec] {fields : Map} {t : Time}
    {text : String} (h : fromValue (.object fields) = some o)
    (htext : TimeCodec.toRfc3339 t = some text)
    (h' : fromValue (.object (Map.insert "deletionTimestamp" (.string text) fields)) = some o') :
    o' = { o with deletionTimestamp := some t } := by
  have hoption : ∀ {α : Type} {k : String} {decode : Value → Option α}, k ≠ "deletionTimestamp" →
      decodeOption (Map.insert "deletionTimestamp" (.string text) fields) k decode =
        decodeOption fields k decode := fun hk => by
    rw [decodeOption, decodeOption, Map.get_insert_of_ne hk]
  have hdefault : ∀ {α : Type} {k : String} {dflt : α} {decode : Value → Option α},
      k ≠ "deletionTimestamp" →
      decodeDefault (Map.insert "deletionTimestamp" (.string text) fields) k dflt decode =
        decodeDefault fields k dflt decode := fun hk => by
    rw [decodeDefault, decodeDefault, Map.get_insert_of_ne hk]
  have hset : ∀ {d}, decodeOption (Map.insert "deletionTimestamp" (.string text) fields)
      "deletionTimestamp" decodeTime = some d → d = some t := fun {d} hd => by
    have hwritten : encodeTime (some t) = some (some (.string text)) := by simp [encodeTime, htext]
    exact ((decodeOption_time_eq_some_iff hwritten (Map.get_insert_self ..)).1 hd).2
  simp only [fromValue, Value.asRecord_object, ↓Option.bind_eq_bind, ↓Option.bind_some,
    ↓Option.bind_eq_some_iff, Option.pure_def] at h h'
  obtain ⟨_, hname, _, hgenerateName, _, hns, _, huid, _, hversion, _, hgeneration, _, hcreation, _,
    -, _, hlabels, _, hannotations, _, howners, _, hfinalizers, ⟨⟩⟩ := h
  obtain ⟨_, hname', _, hgenerateName', _, hns', _, huid', _, hversion', _, hgeneration', _,
    hcreation', _, hdeletion', _, hlabels', _, hannotations', _, howners', _, hfinalizers',
    ⟨⟩⟩ := h'
  cases hname'.symm.trans ((hoption (by decide)).trans hname)
  cases hgenerateName'.symm.trans ((hoption (by decide)).trans hgenerateName)
  cases hns'.symm.trans ((hoption (by decide)).trans hns)
  cases huid'.symm.trans ((hoption (by decide)).trans huid)
  cases hversion'.symm.trans ((hoption (by decide)).trans hversion)
  cases hgeneration'.symm.trans ((hoption (by decide)).trans hgeneration)
  cases hcreation'.symm.trans ((hoption (by decide)).trans hcreation)
  cases hset hdeletion'
  cases hlabels'.symm.trans ((hdefault (by decide)).trans hlabels)
  cases hannotations'.symm.trans ((hdefault (by decide)).trans hannotations)
  cases howners'.symm.trans ((hdefault (by decide)).trans howners)
  cases hfinalizers'.symm.trans ((hdefault (by decide)).trans hfinalizers)
  rfl

lemma ranged_of_fromValue [TimeCodec] (h : fromValue v = some o) : o.Ranged := by
  simp only [fromValue, ↓Option.bind_eq_bind, ↓Option.bind_eq_some_iff] at h
  obtain ⟨m, -, _, -, _, -, _, -, _, -, _, -, _, hgeneration, _, -, _, -, _, -, _, -, _, -, _, -,
    ⟨⟩⟩ := h
  intro g hg
  cases Option.mem_def.1 hg
  obtain ⟨v, -, hv⟩ := exists_of_decodeOption hgeneration
  unfold decodeInt64 at hv
  split at hv
  · split at hv
    next hrange =>
      cases hv
      exact hrange
    · cases hv
  · cases hv

end ObjectMeta

end RoundTrip

/-! ## Resources -/

/-- A kind of objects with metadata. -/
class ObjectMetaResource (T : Type) where
  /-- The kind, which gives the static descriptor. -/
  resourceKind : Kind
  /-- The metadata of an object. -/
  objectMeta : T → Option ObjectMeta
  /-- Replace the metadata of an object. -/
  setObjectMeta : Option ObjectMeta → T → T
  objectMeta_setObjectMeta : ∀ m t, objectMeta (setObjectMeta m t) = m := by intros; rfl
  setObjectMeta_objectMeta : ∀ t, setObjectMeta (objectMeta t) t = t := by intros; rfl
  setObjectMeta_setObjectMeta : ∀ m m' t,
    setObjectMeta m (setObjectMeta m' t) = setObjectMeta m t := by intros; rfl

attribute [simp] ObjectMetaResource.objectMeta_setObjectMeta
  ObjectMetaResource.setObjectMeta_objectMeta ObjectMetaResource.setObjectMeta_setObjectMeta

/-- What generic server code uses of a resource kind. -/
class Resource (T : Type) extends ObjectMetaResource T where
  /-- Replace what an object states about its API version and kind. -/
  setTypeMeta : TypeMeta → T → T
  /-- The JSON form of an object, if it can be written. -/
  toValue : T → Option Value
  /-- Read an object from its JSON form. -/
  fromValue : Value → Option T
  /-- The validation of a kind. -/
  validate : T → Bool

namespace Resource

export ObjectMetaResource (resourceKind objectMeta setObjectMeta objectMeta_setObjectMeta
  setObjectMeta_objectMeta setObjectMeta_setObjectMeta)

variable {T : Type} [ObjectMetaResource T]

variable (T) in
def descriptor : ResourceApiDescriptor := (resourceKind T).descriptor

variable (T) in
/-- The API version and kind new objects are given. -/
def typeMeta : TypeMeta :=
  let d := descriptor T
  { apiVersion :=
      some (if d.group = "core" ∨ d.group = "" then d.version else d.group ++ "/" ++ d.version)
    kind := some d.kind }

def name (t : T) : Option String := (objectMeta t).bind (·.name)

def «namespace» (t : T) : Option String := (objectMeta t).bind (·.namespace)

def finalizers (t : T) : List String := ((objectMeta t).map (·.finalizers)).getD []

def hasFinalizers (t : T) : Bool := !(finalizers t).isEmpty

/-- Apply `f` to the metadata, starting from empty metadata when there is none. -/
def modifyObjectMeta (f : ObjectMeta → ObjectMeta) (t : T) : T :=
  setObjectMeta (some (f ((objectMeta t).getD {}))) t

/-- Set the deletion timestamp unless there is one already. -/
def markForDeletion (timestamp : Time) (t : T) : T :=
  modifyObjectMeta (fun m => match m.deletionTimestamp with
    | some _ => m
    | none => { m with deletionTimestamp := some timestamp }) t

@[simp] lemma objectMeta_modifyObjectMeta (f : ObjectMeta → ObjectMeta) (t : T) :
    objectMeta (modifyObjectMeta f t) = some (f ((objectMeta t).getD {})) := by
  simp only [modifyObjectMeta, objectMeta_setObjectMeta]

lemma exists_objectMeta_markForDeletion (timestamp : Time) (t : T) :
    ∃ d, objectMeta (markForDeletion timestamp t) =
      some { (objectMeta t).getD {} with deletionTimestamp := d } := by
  rw [markForDeletion, objectMeta_modifyObjectMeta]
  split <;> exact ⟨_, rfl⟩

lemma name_markForDeletion (timestamp : Time) (t : T) :
    name (markForDeletion timestamp t) = name t := by
  obtain ⟨d, hd⟩ := exists_objectMeta_markForDeletion timestamp t
  rw [name, hd, name]
  cases objectMeta t with
  | none | some m => rfl

end Resource

/-! ## Values for concrete runs -/

namespace Fixture

/-- A calendar that knows a single instant. -/
scoped instance calendar : LawfulTimeCodec where
  toRfc3339 t := if t = ⟨1700000000, 0⟩ then some "2023-11-14T22:13:20+00:00" else none
  parseFromRfc3339 s := if s = "2023-11-14T22:13:20+00:00" then some ⟨1700000000, 0⟩ else none
  parse_toRfc3339 t s h := by
    split at h
    next ht =>
      cases h
      rw [if_pos rfl, ht]
      rfl
    · cases h

end Fixture

end Tugboat
