import Tugboat.ApiServer.CrdRegistry
import Tugboat.ApiServer.ResourceHandlers
import Tugboat.ApiServer.Watch

/-!
# The handlers of custom resources

Custom resources have no types of their own: they are stored as JSON, in an envelope that repeats
their metadata.  The handlers of `dispatch.rs` look the definition up in the registry, read the
resource, compute the new JSON and put it back on the condition that it has not changed.

As programs they call the key-value store, the registry and the store of namespaces (`CustomOp`).
What the last two answer is up to the outside at every call; what the store answers is up to the
other requests.

The metadata in the JSON is what counts.  `CustomResource.storedMeta` reads it, and the lemmas of
the last section say what the handlers' JSON functions do to it.
-/

namespace Tugboat

open Json

structure CustomResourceObject where
  typeMeta : Option TypeMeta
  objectMeta : Option ObjectMeta
  /-- What the JSON text in the envelope says, if it is JSON. -/
  rawJson : Option Value
  deriving DecidableEq, Repr

abbrev CustomStore : Type := RevisionStore String CustomResourceObject

abbrev CustomEntry : Type := RevisionStore.Entry CustomResourceObject

/-! ## Calls -/

/-- A registry as it is filled from accepted definitions: groups and plurals are valid. -/
structure ServedRegistry extends CrdRegistryInner where
  valid : ∀ key entry, byGroupVersionPlural key = some entry →
    NameValidator.isValidDnsSubdomain entry.group = true ∧
      NameValidator.isValidName entry.plural = true

/-- The calls of the handlers. -/
inductive CustomOp
  | store (op : RevisionStore.Op String CustomResourceObject)
  | lookup (group version plural : String)
  | namespaceExists (ns : String)

namespace CustomOp

/-- The reply to each call. -/
abbrev Result : CustomOp → Type
  | .store op => Except RevisionStore.Unavailable op.Result
  | .lookup _ _ _ => Option FullCrdEntry
  | .namespaceExists _ => Except StoreError Bool

abbrev interface : Interface where
  Op := CustomOp
  Reply := Result

/-- What the outside decides about a call. -/
structure Choice where
  access : Access := .answered
  /-- The registry at the moment. -/
  registry : ServedRegistry
  /-- The namespaces at the moment. -/
  namespaces : String → Bool

/-- The effect and the reply of a call. -/
def exec : Program.Semantics interface CustomStore Choice
  | s, choice, .store op => op.exec s choice.access
  | s, choice, .lookup group version plural => (s, choice.registry.lookup group version plural)
  | s, choice, .namespaceExists ns =>
    (s, if choice.access = .answered then .ok (choice.namespaces ns) else .error .etcd)

end CustomOp

abbrev CustomHandler (α : Type) : Type := ExceptT StatusResponse (Program CustomOp.interface) α

namespace CustomHandler

variable {α : Type}

def store (op : RevisionStore.Op String CustomResourceObject) : CustomHandler op.Result :=
  ExceptT.mk (.call (.store op) fun r =>
    .done (r.mapError fun _ => StatusResponse.ofStoreError .etcd))

/-- A check or a computation that makes no calls. -/
def ofExcept (x : Except StatusResponse α) : CustomHandler α := ExceptT.mk (.done x)

@[simp] lemma wp_ofExcept {γ : Type} {P : Protocol CustomOp.interface γ} {g : γ}
    {Q : γ → Except StatusResponse α → Prop} (x : Except StatusResponse α) :
    (ofExcept x : CustomHandler α).run.wp P g Q ↔ Q g x := Iff.rfl

end CustomHandler

namespace CustomResource

/-! ## The store -/

def getCustom (group plural : String) (ns : Option String) (name : String) :
    CustomHandler (Option CustomEntry) :=
  CustomHandler.store (.get (createCustomKey group plural ns name))

def listed (group plural : String) (ns : Option String) (key : String) : Bool :=
  (createCustomWatchKey group plural ns).toList <+: key.toList

def listCustom (group plural : String) (ns : Option String) :
    CustomHandler (List CustomEntry) :=
  CustomHandler.store (.range (listed group plural ns))

/-- The reply of a conditional write; the comparison can only fail if there is one. -/
def unlessConflict {α : Type} (expectedRevision : Option Int) : Option α → CustomHandler α
  | some a => return a
  | none => throw (.ofStoreError (.optimisticLockFailed (expectedRevision.getD 0)))

def putCustom (group plural : String) (ns : Option String) (name : String)
    (envelope : CustomResourceObject) (expectedRevision : Option Int) : CustomHandler ℕ := do
  let reply ← CustomHandler.store
    (.put (createCustomKey group plural ns name) envelope expectedRevision)
  unlessConflict expectedRevision reply

def deleteCustom (group plural : String) (ns : Option String) (name : String)
    (expectedRevision : Option Int) : CustomHandler Bool := do
  let reply ← CustomHandler.store (.delete (createCustomKey group plural ns name) expectedRevision)
  unlessConflict expectedRevision reply

/-! ## Checks -/

def lookup (group version plural : String) : CustomHandler FullCrdEntry :=
  ExceptT.mk (.call (.lookup group version plural) fun entry =>
    .done (require entry (.notFound
      ("Custom resource " ++ group ++ "/" ++ version ++ "/" ++ plural ++ " not found")
      (some (.object [("group", .string group), ("plural", .string plural),
        ("version", .string version)])))))

def lookupStatus (group version plural : String) : CustomHandler FullCrdEntry := do
  let entry ← lookup group version plural
  CustomHandler.ofExcept (ensure entry.version.statusSubresource (.notFound
    ("Status subresource for " ++ group ++ "/" ++ version ++ "/" ++ plural ++ " not found")))
  return entry

def ensureWriteScope (entry : FullCrdEntry) (ns : Option String) : Except StatusResponse Unit :=
  match entry.scope, ns with
  | .namespaced, none => .error (.badRequest "namespace required for namespaced custom resource")
  | .cluster, some _ =>
    .error (.badRequest "namespace not allowed for cluster-scoped custom resource")
  | _, _ => .ok ()

def ensureListScope (entry : FullCrdEntry) (ns : Option String) : Except StatusResponse Unit :=
  if entry.scope = .cluster ∧ ns.isSome then
    .error (.badRequest "namespace not allowed for cluster-scoped custom resource")
  else .ok ()

def ensureNamespaceExists (ns : String) : CustomHandler Unit :=
  ExceptT.mk (.call (.namespaceExists ns) fun r =>
    .done (match r with
      | .error e => .error (.ofStoreError e)
      | .ok found => ensure found (.notFound ("namespaces \"" ++ ns ++ "\" not found")
          (some (.object [("name", .string ns)])))))

def ensureNamespaceOf : Option String → CustomHandler Unit
  | some ns => ensureNamespaceExists ns
  | none => return ()

def customNotFound (entry : FullCrdEntry) (ns : Option String) (name : String) : StatusResponse :=
  .notFound (entry.kind ++ " \"" ++ name ++ "\" not found") (some (resourceIdentity ns name))

def getExisting (entry : FullCrdEntry) (ns : Option String) (name : String) :
    CustomHandler CustomEntry := do
  let found ← getCustom entry.group entry.plural ns name
  CustomHandler.ofExcept (require found (customNotFound entry ns name))

def requireObject (value : Value) : Except StatusResponse Map :=
  require value.asObject (.badRequest "custom resource body must be a JSON object")

def patchObject (patch : Value) : Except StatusResponse Map :=
  require patch.asObject (.badRequest "JSON merge patch body must be an object")

def apiVersion (entry : FullCrdEntry) : String := entry.group ++ "/" ++ entry.version.name

def enforceStringField (obj : Map) (field expected : String) : Except StatusResponse Map :=
  match (obj.get field).bind (·.asStr) with
  | some actual =>
    if actual ≠ expected then
      .error (.badRequest (field ++ " must be \"" ++ expected ++ "\", got \"" ++ actual ++ "\"")
        (some (.object [("actual", .string actual), ("expected", .string expected),
          ("field", .string field)])))
    else .ok obj
  | none => .ok (obj.insert field (.string expected))

def enforceTypeMeta (value : Value) (entry : FullCrdEntry) : Except StatusResponse Value := do
  let obj ← requireObject value
  let obj ← enforceStringField obj "apiVersion" (apiVersion entry)
  let obj ← enforceStringField obj "kind" entry.kind
  return .object obj

def metadataName (value : Value) : Option String :=
  (value.get "metadata").bind (·.get "name") |>.bind (·.asStr)

def validateMetadataName (value : Value) (expectedName : String) : Except StatusResponse Unit :=
  match metadataName value with
  | some actual =>
    if actual ≠ expectedName then .error (nameMismatch expectedName actual) else .ok ()
  | none => .ok ()

def validateCreateName (m : ObjectMeta) : Except StatusResponse Unit :=
  match m.name, m.generateName with
  | some name, _ =>
    ensure (NameValidator.isValidName name)
      (.badRequest "metadata.name is invalid" (some (.object [("name", .string name)])))
  | none, some generateName =>
    ensure (NameValidator.isValidGenerateName generateName)
      (.badRequest "metadata.generateName is invalid"
        (some (.object [("generateName", .string generateName)])))
  | none, none => .ok ()

def validateAgainstSchema (entry : FullCrdEntry) (value : Value) : Except StatusResponse Unit :=
  match entry.version.compiledSchema with
  | none => .ok ()
  | some schema =>
    (schema.validate value).mapError fun violations =>
      .invalid
        (entry.kind ++ "." ++ entry.group ++ " \"" ++ (metadataName value).getD "<unknown>" ++
          "\" is invalid: " ++
          "; ".intercalate (violations.map fun v => v.field ++ ": " ++ v.message))
        (some (.object
          [("causes", .array (violations.map fun v =>
              .object [("field", .string v.field), ("message", .string v.message),
                ("reason", .string "FieldValueInvalid")])),
            ("group", .string entry.group), ("kind", .string entry.kind),
            ("name", ((metadataName value).map Value.string).getD .null)]))

/-! ## Metadata and status -/

def applyNewMetadata (m : ObjectMeta) (uid : String) (now : Time) : ObjectMeta :=
  { m with
    uid := some uid, creationTimestamp := some now, generation := some 1, resourceVersion := none }

def preserveIdentityMetadata (current next : ObjectMeta) : ObjectMeta :=
  { next with
    name := current.name
    «namespace» := current.namespace
    uid := current.uid
    creationTimestamp := current.creationTimestamp
    deletionTimestamp := current.deletionTimestamp
    resourceVersion := current.resourceVersion }

/-- `compute_generation`: a change outside of the metadata, the type and the status counts. -/
def computeGeneration (current next : Value) (currentMeta : ObjectMeta) : Option Int :=
  if generationTrackedFields (current.asObject.getD []) ≠
      generationTrackedFields (next.asObject.getD []) then
    nextGeneration currentMeta.generation
  else currentMeta.generation

def preserveStatus (next current : Value) : Except StatusResponse Value := do
  let obj ← requireObject next
  return .object (restoreStatus (current.asObject.getD []) obj)

/-- A status that has an endpoint of its own is not changed by others. -/
def maybePreserveStatus (entry : FullCrdEntry) (next current : Value) :
    Except StatusResponse Value :=
  if entry.version.statusSubresource then preserveStatus next current else .ok next

def setStatus (value status : Value) : Except StatusResponse Value := do
  let obj ← requireObject value
  return .object (obj.insert "status" status)

def normalizeStatusForWrite (entry : FullCrdEntry) (value : Value) : Except StatusResponse Value :=
  if entry.version.statusSubresource then do
    let obj ← requireObject value
    return .object (if (obj.get "status").isSome then obj else obj.insert "status" (.object []))
  else .ok value

def resourceVersionAsRevision (value : Value) : Option Int :=
  (resourceVersion value).bind Decimal.parseInt64

def parseClientResourceVersion : Option String → Except StatusResponse (Option Int)
  | none => .ok none
  | some raw =>
    match Decimal.parseInt64 raw with
    | some revision => .ok (some revision)
    | none => .error (.badRequest "metadata.resourceVersion must be a valid integer"
        (some (.object [("resourceVersion", .string raw)])))

def hasFinalizers (value : Value) : Bool :=
  ((value.get "metadata").bind (·.get "finalizers") |>.bind (·.asArray)).any fun l => !l.isEmpty

section

variable [TimeCodec]

def preserveIdentityMetadataFromValue (next current : Value) : Except StatusResponse Value := do
  let currentMeta ← extractMetadata current
  let nextMeta ← extractMetadata next
  setMetadata next
    { preserveIdentityMetadata currentMeta nextMeta with generation := currentMeta.generation }

def preserveIdentityAndMaybeStatus (entry : FullCrdEntry) (next current : Value) :
    Except StatusResponse Value := do
  let currentMeta ← extractMetadata current
  let nextMeta ← extractMetadata next
  let next' ← setMetadata next
    { preserveIdentityMetadata currentMeta nextMeta with
      generation := computeGeneration current next currentMeta }
  maybePreserveStatus entry next' current

def setDeletionTimestamp (value : Value) (now : Time) : Except StatusResponse Value := do
  let m ← extractMetadata value
  if m.deletionTimestamp.isNone then setMetadata value { m with deletionTimestamp := some now }
  else return value

def envelopeFromValue (entry : FullCrdEntry) (value : Value) (m : ObjectMeta) :
    CustomResourceObject where
  typeMeta := some { apiVersion := some (apiVersion entry), kind := some entry.kind }
  objectMeta := some m
  rawJson := some value

/-- `custom_data_to_value`: the JSON of a stored resource, with its revision as resource version. -/
def customDataToValue (data : CustomEntry) :
    Except StatusResponse Value := do
  let value ← require data.value.rawJson .jsonError
  injectResourceVersion value data.revision

/-! ## Handlers -/

/-- What the server draws for a new resource. -/
structure Fresh where
  uid : String
  now : Time
  suffix : String
  deriving DecidableEq, Repr

/-- A new resource is in the namespace of the URL, or in none. -/
def placeMetadata (entry : FullCrdEntry) (ns : Option String) (m : ObjectMeta) :
    Except StatusResponse ObjectMeta :=
  match entry.scope with
  | .namespaced => .ok { m with «namespace» := ns }
  | .cluster =>
    if m.namespace.isSome then .error (.badRequest "metadata.namespace cannot be set") else .ok m

/-- The name of a new resource, which is drawn if the client gives none. -/
def newName (m : ObjectMeta) (suffix : String) : Except StatusResponse String :=
  match m.name with
  | some name => do
    validateCreateName m
    return name
  | none => do
    let generateName ← require m.generateName
      (.badRequest "metadata.name or metadata.generateName is required")
    validateCreateName m
    return generateName ++ suffix

def newMetadata (entry : FullCrdEntry) (ns : Option String) (m : ObjectMeta) (fresh : Fresh) :
    Except StatusResponse (ObjectMeta × String) := do
  let m ← placeMetadata entry ns m
  let name ← newName m fresh.suffix
  return (applyNewMetadata { m with name := some name } fresh.uid fresh.now, name)

/-- What POST computes: the new resource, its metadata and its name. -/
def created (entry : FullCrdEntry) (ns : Option String) (value : Value) (fresh : Fresh) :
    Except StatusResponse (Value × ObjectMeta × String) := do
  let value ← enforceTypeMeta value entry
  let m ← extractMetadata value
  let (m, name) ← newMetadata entry ns m fresh
  let value ← setMetadata value m
  let value ← normalizeStatusForWrite entry value
  validateAgainstSchema entry value
  return (value, m, name)

def create (group version : String) (ns : Option String) (plural : String) (value : Value)
    (fresh : Fresh) : CustomHandler Value := do
  let entry ← lookup group version plural
  CustomHandler.ofExcept (ensureWriteScope entry ns)
  ensureNamespaceOf ns
  let (value, m, name) ← CustomHandler.ofExcept (created entry ns value fresh)
  let revision ← putCustom entry.group entry.plural ns name (envelopeFromValue entry value m)
    (some 0)
  CustomHandler.ofExcept (injectResourceVersion value revision)

/-- What an update computes from the JSON of the current resource: the new JSON, its metadata and
the revision the put is conditional on. -/
abbrev Update : Type :=
  FullCrdEntry → Value → Except StatusResponse (Value × ObjectMeta × Option Int)

/-- The frame of every update: read the resource, compute the new one, put it back. -/
def readUpdatePut (entry : FullCrdEntry) (ns : Option String) (name : String) (update : Update) :
    CustomHandler Value := do
  CustomHandler.ofExcept (ensureWriteScope entry ns)
  let current ← getExisting entry ns name
  let currentValue ← CustomHandler.ofExcept (customDataToValue current)
  let (value, m, expectedRevision) ← CustomHandler.ofExcept (update entry currentValue)
  let revision ← putCustom entry.group entry.plural ns name (envelopeFromValue entry value m)
    expectedRevision
  CustomHandler.ofExcept (injectResourceVersion value revision)

/-- What PUT computes.  The client's resource version counts, if there is one. -/
def replaced (name : String) (replacement : Value) : Update := fun entry currentValue => do
  validateMetadataName replacement name
  let replacement ← enforceTypeMeta replacement entry
  let currentMeta ← extractMetadata currentValue
  let replacementMeta ← extractMetadata replacement
  let clientResourceVersion := replacementMeta.resourceVersion
  let m := { preserveIdentityMetadata currentMeta replacementMeta with
    generation := computeGeneration currentValue replacement currentMeta }
  let value ← maybePreserveStatus entry replacement currentValue
  let value ← setMetadata value m
  let value ← normalizeStatusForWrite entry value
  validateAgainstSchema entry value
  let expectedRevision ← parseClientResourceVersion clientResourceVersion
  return (value, m, expectedRevision.or (resourceVersionAsRevision currentValue))

def replace (group version : String) (ns : Option String) (plural name : String)
    (replacement : Value) : CustomHandler Value := do
  let entry ← lookup group version plural
  readUpdatePut entry ns name (replaced name replacement)

/-- `rfc7396_merge_patch` of `merge.rs`, a copy of the one for built-in resources. -/
def rfc7396MergePatch (target patch : Value) : Value := Tugboat.rfc7396MergePatch target patch

def patched (patch : Map) : Update := fun entry oldValue => do
  let value ← enforceTypeMeta (rfc7396MergePatch oldValue (.object patch)) entry
  let value ← preserveIdentityAndMaybeStatus entry value oldValue
  let value ← normalizeStatusForWrite entry value
  validateAgainstSchema entry value
  let m ← extractMetadata value
  return (value, m, resourceVersionAsRevision oldValue)

/-- The type of a resource cannot be patched; what a patch says about it is dropped. -/
def patch (group version : String) (ns : Option String) (plural name : String) (body : Value) :
    CustomHandler Value := do
  let fields ← CustomHandler.ofExcept (patchObject body)
  let fields := (fields.remove "apiVersion").remove "kind"
  CustomHandler.ofExcept (validatePatchName fields name)
  let entry ← lookup group version plural
  readUpdatePut entry ns name (patched fields)

/-- What PUT and PATCH of the status end with. -/
def statusUpdated (entry : FullCrdEntry) (value oldValue : Value) :
    Except StatusResponse (Value × ObjectMeta × Option Int) := do
  let value ← preserveIdentityMetadataFromValue value oldValue
  validateAgainstSchema entry value
  let m ← extractMetadata value
  return (value, m, resourceVersionAsRevision oldValue)

/-- What PUT of the status computes; a body without status clears it. -/
def statusReplaced (replacement : Value) : Update := fun entry oldValue => do
  let value ← setStatus oldValue ((replacement.get "status").getD .null)
  statusUpdated entry value oldValue

def replaceStatus (group version : String) (ns : Option String) (plural name : String)
    (replacement : Value) : CustomHandler Value := do
  let entry ← lookupStatus group version plural
  readUpdatePut entry ns name (statusReplaced replacement)

def statusPatched (patch : Map) : Update := fun entry oldValue =>
  let value := match patch.get "status" with
    | some statusPatch => rfc7396MergePatch oldValue (.object [("status", statusPatch)])
    | none => oldValue
  statusUpdated entry value oldValue

def patchStatus (group version : String) (ns : Option String) (plural name : String)
    (body : Value) : CustomHandler Value := do
  let fields ← CustomHandler.ofExcept (patchObject body)
  CustomHandler.ofExcept (ensure (fields.all fun f => f.1 = "status")
    (.badRequest "PATCH /status must contain only the status field"))
  let entry ← lookupStatus group version plural
  readUpdatePut entry ns name (statusPatched fields)

/-- DELETE: a resource with finalizers is only marked, any other is removed. -/
def delete (group version : String) (ns : Option String) (plural name : String) (now : Time) :
    CustomHandler Value := do
  let entry ← lookup group version plural
  CustomHandler.ofExcept (ensureWriteScope entry ns)
  let current ← getExisting entry ns name
  let currentValue ← CustomHandler.ofExcept (customDataToValue current)
  if hasFinalizers currentValue then
    let value ← CustomHandler.ofExcept (setDeletionTimestamp currentValue now)
    let m ← CustomHandler.ofExcept (extractMetadata value)
    let revision ← putCustom entry.group entry.plural ns name (envelopeFromValue entry value m)
      (resourceVersionAsRevision value)
    CustomHandler.ofExcept (injectResourceVersion value revision)
  else
    let deleted ← deleteCustom entry.group entry.plural ns name
      (resourceVersionAsRevision currentValue)
    -- a writer that came first has removed the key
    CustomHandler.ofExcept (ensure deleted (customNotFound entry ns name))
    return currentValue

end

/-! ## The metadata of a stored resource -/

section

variable [TimeCodec] {value : Value} {m : ObjectMeta}

lemma extractMetadata_eq_ok (h : extractMetadata value = .ok m) :
    ∃ metadata, value.get "metadata" = some metadata ∧ ObjectMeta.fromValue metadata = some m := by
  unfold extractMetadata at h
  split at h
  · cases h
  rename_i metadata hget
  split at h
  · cases h
  rename_i m' hm
  cases h
  exact ⟨metadata, hget, hm⟩

lemma ranged_of_extractMetadata (h : extractMetadata value = .ok m) : m.Ranged := by
  obtain ⟨metadata, -, hm⟩ := extractMetadata_eq_ok h
  exact ObjectMeta.ranged_of_fromValue hm

variable {value' : Value}

lemma setMetadata_eq_ok (h : setMetadata value m = .ok value') :
    ∃ fields metadata, value = .object fields ∧ m.toValue = some metadata ∧
      value' = .object (Map.insert "metadata" metadata fields) := by
  unfold setMetadata at h
  split at h
  next fields =>
    split at h
    · cases h
    rename_i metadata hm
    cases h
    exact ⟨fields, metadata, rfl, hm, rfl⟩
  · cases h

lemma get_setMetadata_of_ne (h : setMetadata value m = .ok value') {k : String}
    (hk : k ≠ "metadata") :
    value'.get k = value.get k := by
  obtain ⟨fields, metadata, rfl, -, rfl⟩ := setMetadata_eq_ok h
  exact Map.get_insert_of_ne hk metadata fields

lemma hasFinalizers_setMetadata (h : setMetadata value m = .ok value') :
    hasFinalizers value' = !m.finalizers.isEmpty := by
  obtain ⟨fields, metadata, rfl, hm, rfl⟩ := setMetadata_eq_ok h
  have hmetadata : (Value.object (Map.insert "metadata" metadata fields)).get "metadata" =
      some metadata := Map.get_insert_self "metadata" _ fields
  rw [hasFinalizers, hmetadata, Option.bind_some, (ObjectMeta.get_of_toValue hm).2]
  cases hl : m.finalizers with
  | nil => simp [encodeUnlessDefault]
  | cons f l => simp [encodeUnlessDefault, Value.asArray]

def storedMeta (o : CustomResourceObject) : Option ObjectMeta :=
  o.rawJson.bind fun value => (extractMetadata value).toOption

def storedFinalizers (o : CustomResourceObject) : List String :=
  ((storedMeta o).map (·.finalizers)).getD []

/-- The metadata in a JSON object are `m`, in a form in which finalizers are found without reading
all of them. -/
structure HasMeta (value : Value) (m : ObjectMeta) : Prop where
  extractMetadata_eq : extractMetadata value = .ok m
  hasFinalizers_eq : hasFinalizers value = !m.finalizers.isEmpty

lemma HasMeta.congr (h : HasMeta value m) (hget : value'.get "metadata" = value.get "metadata") :
    HasMeta value' m where
  extractMetadata_eq := by
    rw [← h.extractMetadata_eq, extractMetadata, extractMetadata, hget]
  hasFinalizers_eq := by
    rw [← h.hasFinalizers_eq, hasFinalizers, hasFinalizers, hget]

def CarriesMeta (o : CustomResourceObject) (m : ObjectMeta) : Prop :=
  ∃ value, o.rawJson = some value ∧ HasMeta value m

namespace CarriesMeta

variable {o : CustomResourceObject} {m : ObjectMeta}

lemma storedMeta_eq (h : CarriesMeta o m) : storedMeta o = some m := by
  obtain ⟨value, hraw, hmeta⟩ := h
  simp [storedMeta, hraw, hmeta.extractMetadata_eq, Except.toOption]

lemma storedFinalizers_eq (h : CarriesMeta o m) : storedFinalizers o = m.finalizers := by
  rw [storedFinalizers, h.storedMeta_eq]
  rfl

end CarriesMeta

end

section

variable [LawfulTimeCodec] {data : CustomEntry} {value : Value}

/-- Metadata that were set are read back as they are, or not at all. -/
lemma eq_of_extractMetadata_setMetadata {value value' : Value} {m m' : ObjectMeta}
    (hranged : m.Ranged) (h : setMetadata value m = .ok value')
    (h' : extractMetadata value' = .ok m') : m.Timely ∧ m' = m := by
  obtain ⟨fields, metadata, rfl, hm, rfl⟩ := setMetadata_eq_ok h
  obtain ⟨metadata', hget, hread⟩ := extractMetadata_eq_ok h'
  cases hget.symm.trans (Map.get_insert_self "metadata" metadata fields)
  exact ObjectMeta.eq_of_fromValue_toValue hranged hm hread

lemma hasMeta_setMetadata {value value' : Value} {m : ObjectMeta} (hranged : m.Ranged)
    (htimely : m.Timely) (h : setMetadata value m = .ok value') : HasMeta value' m := by
  refine ⟨?_, hasFinalizers_setMetadata h⟩
  obtain ⟨fields, metadata, rfl, hm, rfl⟩ := setMetadata_eq_ok h
  have hget : (Value.object (Map.insert "metadata" metadata fields)).get "metadata" =
      some metadata := Map.get_insert_self "metadata" metadata fields
  simp only [extractMetadata, hget, ObjectMeta.fromValue_toValue hranged htimely hm]

/-- What clients see of a stored resource. -/
structure Shows (data : CustomEntry) (value : Value)
    (m : ObjectMeta) : Prop where
  storedMeta_eq : storedMeta data.value = some m
  eq_of_extractMetadata : ∀ m', extractMetadata value = .ok m' →
    m.Timely ∧ m' = { m with resourceVersion := some (toString data.revision) }
  hasFinalizers_eq : hasFinalizers value = !m.finalizers.isEmpty
  resourceVersion_eq : resourceVersion value = some (toString data.revision)
  get_eq : ∀ k ≠ "metadata", data.value.rawJson.bind (·.get k) = value.get k

lemma exists_shows (h : customDataToValue data = .ok value) : ∃ m, Shows data value m := by
  obtain ⟨raw, hraw, hinject⟩ := bind_eq_ok_iff.1 h
  rw [require_eq_ok_iff] at hraw
  obtain ⟨m, hm, hset⟩ := bind_eq_ok_iff.1 hinject
  have hranged := ranged_of_extractMetadata hm
  have hfinalizers := hasFinalizers_setMetadata hset
  refine ⟨m, ?_, fun m' hm' => ?_, hfinalizers, resourceVersion_injectResourceVersion hinject,
    fun k hk => ?_⟩
  · simp [storedMeta, hraw, hm, Except.toOption]
  · obtain ⟨htimely, rfl⟩ := eq_of_extractMetadata_setMetadata
      (m := { m with resourceVersion := some (toString data.revision) }) hranged hset hm'
    exact ⟨htimely, rfl⟩
  · rw [hraw, Option.bind_some, get_setMetadata_of_ne hset hk]

omit [LawfulTimeCodec] in
lemma resourceVersionAsRevision_eq {revision : ℕ} (hle : revision ≤ RevisionStore.maxRevision)
    (h : resourceVersion value = some (toString revision)) :
    resourceVersionAsRevision value = some (revision : Int) := by
  have hlt : revision < 2 ^ 63 := by
    have hmax : RevisionStore.maxRevision = 9223372036854775807 := rfl
    omega
  rw [resourceVersionAsRevision, h, Option.bind_some, Decimal.parseInt64_toString, if_pos hlt]

end

end CustomResource

end Tugboat
