import Tugboat.ApiServer.Status

/-!
# Computing an updated object

The in-memory half of PATCH, PUT and the status endpoints: `ResourceUpdater` takes the current
object and what the client sent, and computes the object to store.  All of it works on the JSON form
of the objects and ends in `enforceMetadata`, which decides which metadata a client can change at
all.

The resource version of the result, which the store's put will be conditional on, is either the one
of the current object or the client's own: `expected_applyPatch` and `expected_applyStatusUpdate`.
-/

namespace Tugboat

open Json

/-! ## JSON merge patch -/

mutual

/-- A JSON merge patch applied to `target`: objects are merged recursively, everything else is
replaced. -/
def rfc7396MergePatch (target : Value) : Value → Value
  | .object patch => .object (mergeFields (target.asObject.getD []) patch)
  | patch => patch

/-- The loop over the fields of the patch. -/
def mergeFields (target : Map) : List (String × Value) → Map
  | [] => target
  | (key, value) :: patch =>
    mergeFields
      (if value = .null then target.remove key
        else target.insert key (rfc7396MergePatch ((target.get key).getD .null) value))
      patch

end

/-! ## The updater -/

/-- How an update treats the parts of an object the server may own. -/
structure ReplaceOptions where
  preserveStatus : Bool := false
  useClientResourceVersion : Bool := false
  updateGeneration : Bool := false
  deriving DecidableEq, Repr

/-- The fields whose change counts as a new generation. -/
def generationTrackedFields (object : Map) : Map :=
  object.filter fun f => f.1 ∉ ["metadata", "apiVersion", "kind", "status"]

/-- The next generation number, saturating at the largest 64-bit integer. -/
def nextGeneration (current : Option Int) : Option Int :=
  some (min (max (current.getD 0) 0 + 1) (2 ^ 63 - 1))

/-- Count a change of the content in the metadata. -/
def bumpGeneration {T : Type} [ObjectMetaResource T] (resource : T) : T :=
  match Resource.objectMeta resource with
  | some m =>
    Resource.setObjectMeta (some { m with generation := nextGeneration m.generation }) resource
  | none => resource

def restoreField (current : Map) (key : String) (object : Map) : Map :=
  match current.get key with
  | some v => object.insert key v
  | none => object

/-- Make the status of `object` the one of `current`, also when `current` has none. -/
def restoreStatus (current object : Map) : Map :=
  match current.get "status" with
  | some status => object.insert "status" status
  | none => object.remove "status"

/-- Add the entries of `current` to the map, keeping those already there. -/
def addMissing (current target : Map) : Map :=
  current.foldl (fun m f => if (m.get f.1).isSome then m else m.insert f.1 f.2) target

/-- Keep the entries of the metadata map `field` that the replacement does not mention. -/
def preserveMetadataMap (replacement currentMeta : Map) (field : String) : Map :=
  match currentMeta.get field with
  | some (.object currentField) =>
    if currentField.isEmpty then replacement
    else
      match (replacement.get "metadata").getD (.object []) with
      | .object metaMap =>
        match (Map.get metaMap field).getD (.object []) with
        | .object targetMap =>
          replacement.insert "metadata"
            (.object (Map.insert field (.object (addMissing currentField targetMap)) metaMap))
        | _ => replacement.insert "metadata" (.object metaMap)
      | _ => replacement
  | _ => replacement

def clientResourceVersion (patchMetadata : Option Value) : Option String :=
  patchMetadata.bind (·.get "resourceVersion") |>.bind (·.asStr)

namespace ResourceUpdater

variable {T : Type} [Resource T]

/-- Failure to write or read the JSON form of an object. -/
def jsonResult {α : Type} : Option α → Except StatusResponse α
  | some a => .ok a
  | none => .error .jsonError

def toObject (value : Value) (context : String) : Except StatusResponse Map :=
  match value with
  | .object m => .ok m
  | _ => .error (.internalError (context ++ " is not a JSON object"))

/-- The metadata an update ends with: the identity and the timestamps of the current object, the
generation, and the resource version the store will compare. -/
def enforcedMeta (options : ReplaceOptions) (patchMetadata : Option Value)
    (contentChanged : Bool) (current updated : ObjectMeta) : ObjectMeta :=
  { updated with
    name := current.name
    «namespace» := current.namespace
    uid := current.uid
    generation :=
      if options.updateGeneration && contentChanged then nextGeneration current.generation
      else current.generation
    creationTimestamp := current.creationTimestamp
    deletionTimestamp := current.deletionTimestamp
    resourceVersion :=
      if options.useClientResourceVersion then clientResourceVersion patchMetadata
      else current.resourceVersion }

/-- Nothing is enforced on an update that has lost its metadata; such an object has no key and
is refused by the store. -/
def enforceMetadata (options : ReplaceOptions) (patchMetadata : Option Value)
    (contentChanged : Bool) (current updated : T) : T :=
  match Resource.objectMeta current, Resource.objectMeta updated with
  | some c, some u =>
    Resource.setObjectMeta (some (enforcedMeta options patchMetadata contentChanged c u)) updated
  | _, _ => updated

/-- The object a PATCH asks for. -/
def applyPatch (current : T) (options : ReplaceOptions) (patch : Map) :
    Except StatusResponse T := do
  let currentValue ← jsonResult (Resource.toValue current)
  let currentObj ← toObject currentValue "current resource"
  let patchMetadata := patch.get "metadata"
  let mergedValue := rfc7396MergePatch (.object currentObj) (.object patch)
  let mergedObj ← toObject mergedValue "patched resource"
  let contentChanged :=
    generationTrackedFields currentObj ≠ generationTrackedFields mergedObj
  let mergedObj := restoreField currentObj "kind" (restoreField currentObj "apiVersion" mergedObj)
  let mergedObj := if options.preserveStatus then restoreStatus currentObj mergedObj else mergedObj
  let updated ← jsonResult (Resource.fromValue (.object mergedObj))
  return enforceMetadata options patchMetadata contentChanged current updated

/-- The object a PUT asks for. -/
def applyReplacement (current : T) (options : ReplaceOptions) (replacement : T) :
    Except StatusResponse T := do
  let currentValue ← jsonResult (Resource.toValue current)
  let currentObj ← toObject currentValue "current resource"
  let replacementValue ← jsonResult (Resource.toValue replacement)
  let replacementObj ← toObject replacementValue "replacement resource"
  let patchMetadata := replacementObj.get "metadata"
  let replacementObj :=
    restoreField currentObj "kind" (restoreField currentObj "apiVersion" replacementObj)
  let replacementObj :=
    if options.preserveStatus then restoreStatus currentObj replacementObj else replacementObj
  let replacementObj :=
    match currentObj.get "metadata" with
    | some (.object currentMeta) =>
      preserveMetadataMap (preserveMetadataMap replacementObj currentMeta "annotations")
        currentMeta "labels"
    | _ => replacementObj
  let contentChanged :=
    generationTrackedFields currentObj ≠ generationTrackedFields replacementObj
  let updated ← jsonResult (Resource.fromValue (.object replacementObj))
  return enforceMetadata options patchMetadata contentChanged current updated

/-- The current object with another status.  Status updates keep the current metadata. -/
def applyStatusUpdate (current : T) (options : ReplaceOptions) (status : Value) :
    Except StatusResponse T := do
  let currentValue ← jsonResult (Resource.toValue current)
  let currentObj ← toObject currentValue "current resource"
  let updated ← jsonResult (Resource.fromValue (.object (currentObj.insert "status" status)))
  return enforceMetadata options none false current updated

/-! ## What an update does to the metadata -/

/-- The metadata of `updated` is the enforced one, or gone. -/
def Enforced (options : ReplaceOptions) (patchMetadata : Option Value) (current updated : T) :
    Prop :=
  Resource.objectMeta updated = none ∨
    ∃ contentChanged c u, Resource.objectMeta current = some c ∧
      Resource.objectMeta updated = some (enforcedMeta options patchMetadata contentChanged c u)

variable {current : T} {c : ObjectMeta}

lemma enforced_enforceMetadata (options : ReplaceOptions) (patchMetadata : Option Value)
    (contentChanged : Bool) (hc : Resource.objectMeta current = some c) (updated : T) :
    Enforced options patchMetadata current
      (enforceMetadata options patchMetadata contentChanged current updated) := by
  cases hu : Resource.objectMeta updated with
  | none =>
    left
    simp only [enforceMetadata, hc, hu]
  | some u =>
    refine .inr ⟨contentChanged, c, u, hc, ?_⟩
    simp only [enforceMetadata, hc, hu, Resource.objectMeta_setObjectMeta]

variable {updated : T} {options : ReplaceOptions} {patch : Map}

lemma enforced_applyPatch (hc : Resource.objectMeta current = some c)
    (h : applyPatch current options patch = .ok updated) :
    Enforced options (patch.get "metadata") current updated := by
  simp only [applyPatch, bind_eq_ok_iff] at h
  obtain ⟨currentValue, -, currentObj, -, mergedObj, -, decoded, -, h⟩ := h
  cases h
  exact enforced_enforceMetadata _ _ _ hc decoded

lemma enforced_applyStatusUpdate (hc : Resource.objectMeta current = some c) {status : Value}
    (h : applyStatusUpdate current options status = .ok updated) :
    Enforced options none current updated := by
  simp only [applyStatusUpdate, bind_eq_ok_iff] at h
  obtain ⟨currentValue, -, currentObj, -, decoded, -, h⟩ := h
  cases h
  exact enforced_enforceMetadata _ _ _ hc decoded

/-! ## What an update keeps of the JSON form -/

omit [Resource T] in
lemma toObject_eq_ok {value : Value} {context : String} {m : Map}
    (h : toObject value context = .ok m) : value = .object m := by
  cases value with
  | object fields =>
    cases h
    rfl
  | null | bool b | number n | string s | array items => cases h

omit [Resource T] in
lemma jsonResult_eq_ok {α : Type} {x : Option α} {a : α} (h : jsonResult x = .ok a) :
    x = some a := by
  cases x with
  | none => cases h
  | some b =>
    cases h
    rfl

def bodyMetadata (replacement : T) : Option Value :=
  (Resource.toValue replacement).bind (·.get "metadata")

variable {replacement : T}

lemma enforced_applyReplacement (hc : Resource.objectMeta current = some c)
    (h : applyReplacement current options replacement = .ok updated) :
    Enforced options (bodyMetadata replacement) current updated := by
  simp only [applyReplacement, bind_eq_ok_iff] at h
  obtain ⟨currentValue, -, currentObj, -, value, hvalue, object, hobject, decoded, -, h⟩ := h
  cases h
  have hbody : bodyMetadata replacement = object.get "metadata" := by
    rw [bodyMetadata, jsonResult_eq_ok hvalue, toObject_eq_ok hobject]
    rfl
  rw [hbody]
  exact enforced_enforceMetadata _ _ _ hc decoded

variable {k : String}

lemma get_restoreField_of_ne {key : String} (h : k ≠ key) (current object : Map) :
    (restoreField current key object).get k = object.get k := by
  unfold restoreField
  split
  · exact Map.get_insert_of_ne h _ _
  · rfl

lemma get_restoreStatus (current object : Map) :
    (restoreStatus current object).get "status" = current.get "status" := by
  unfold restoreStatus
  split
  next status hstatus =>
    rw [Map.get_insert_self, hstatus]
  next hnone =>
    rw [Map.get_remove_self, hnone]

lemma get_restoreStatus_of_ne (h : k ≠ "status") (current object : Map) :
    (restoreStatus current object).get k = object.get k := by
  unfold restoreStatus
  split
  · exact Map.get_insert_of_ne h _ _
  · exact Map.get_remove_of_ne h _

lemma get_preserveMetadataMap_of_ne (h : k ≠ "metadata") (replacement currentMeta : Map)
    (field : String) :
    (preserveMetadataMap replacement currentMeta field).get k = replacement.get k := by
  unfold preserveMetadataMap
  split
  · split
    · rfl
    split
    · split
      · exact Map.get_insert_of_ne h _ _
      · exact Map.get_insert_of_ne h _ _
    · rfl
  · rfl

lemma merge_cases (target v : Value) :
    rfc7396MergePatch target v = v ∨ ∃ fields, rfc7396MergePatch target v = .object fields := by
  cases v with
  | object patch => exact .inr ⟨_, by rw [rfc7396MergePatch]⟩
  | null | bool b | number n | string s | array items =>
    left
    simp [rfc7396MergePatch]

lemma get_mergeFields_of_notMem :
    ∀ (patch : List (String × Value)) (target : Map), (∀ f ∈ patch, f.1 ≠ k) →
      (mergeFields target patch).get k = target.get k
  | [], target, _ => by rw [mergeFields]
  | (key, value) :: patch, target, h => by
    have hkey : k ≠ key := Ne.symm (h (key, value) List.mem_cons_self)
    rw [mergeFields, get_mergeFields_of_notMem patch _ fun f hf =>
      h f (List.mem_cons_of_mem _ hf)]
    split
    · exact Map.get_remove_of_ne hkey _
    · exact Map.get_insert_of_ne hkey _ _

/-- What a patch makes of a field, when no field is in it twice. -/
lemma get_mergeFields :
    ∀ (patch : List (String × Value)) (target : Map), (patch.map Prod.fst).Nodup →
      (mergeFields target patch).get k =
        match Map.get patch k with
        | none => target.get k
        | some value =>
          if value = .null then none
          else some (rfc7396MergePatch ((target.get k).getD .null) value)
  | [], target, _ => by rw [mergeFields]; rfl
  | (key, value) :: patch, target, h => by
    obtain ⟨hkey, hpatch⟩ := List.nodup_cons.1 h
    rw [mergeFields, Map.get_cons]
    by_cases hk : k = key
    · -- the rest of the patch does not mention the field
      subst hk
      rw [if_pos rfl, get_mergeFields_of_notMem patch _ fun f hf heq =>
        hkey (List.mem_map.2 ⟨f, hf, heq⟩)]
      split
      next hnull =>
        simp [hnull]
      next hnull =>
        simp [hnull]
    · rw [if_neg hk, get_mergeFields patch _ hpatch]
      split
      · split
        · exact Map.get_remove_of_ne hk _
        · exact Map.get_insert_of_ne hk _ _
      · split
        · rfl
        congr 2
        split
        · rw [Map.get_remove_of_ne hk]
        · rw [Map.get_insert_of_ne hk]

/-- The updated object is read from a JSON object that keeps the fields `kept` of the current
one; only its metadata is then overwritten. -/
def ReadKeeping (kept : String) (current updated : T) : Prop :=
  ∃ (currentObj object : Map) (decoded : T) (m : Option ObjectMeta),
    Resource.toValue current = some (.object currentObj) ∧
    Resource.fromValue (.object object) = some decoded ∧
    object.get kept = currentObj.get kept ∧ updated = Resource.setObjectMeta m decoded

lemma enforceMetadata_eq (options : ReplaceOptions) (patchMetadata : Option Value)
    (contentChanged : Bool) (current updated : T) :
    ∃ m, enforceMetadata options patchMetadata contentChanged current updated =
      Resource.setObjectMeta m updated := by
  unfold enforceMetadata
  split
  · exact ⟨_, rfl⟩
  · exact ⟨Resource.objectMeta updated, (Resource.setObjectMeta_objectMeta updated).symm⟩

/-- The fields that an update may take from the current object in any case. -/
def ownedFields : List String := ["kind", "apiVersion", "status", "metadata"]

/-- Neither the type nor a preserved status is among the other fields. -/
lemma get_restored (hk : k ∉ ownedFields) (preserve : Bool) (current object : Map) :
    (if preserve = true then restoreStatus current (restoreField current "kind"
        (restoreField current "apiVersion" object))
      else restoreField current "kind" (restoreField current "apiVersion" object)).get k =
      object.get k := by
  simp only [ownedFields, List.mem_cons, List.not_mem_nil, or_false, not_or] at hk
  split
  · rw [get_restoreStatus_of_ne hk.2.2.1, get_restoreField_of_ne hk.1,
      get_restoreField_of_ne hk.2.1]
  · rw [get_restoreField_of_ne hk.1, get_restoreField_of_ne hk.2.1]

/-- The other fields of a patched object are read from the merged ones, and a preserved status from
the current object. -/
lemma exists_object_applyPatch (h : applyPatch current options patch = .ok updated) :
    ∃ (currentObj object : Map) (decoded : T) (m : Option ObjectMeta),
      Resource.toValue current = some (.object currentObj) ∧
      Resource.fromValue (.object object) = some decoded ∧
      (∀ k ∉ ownedFields, object.get k = (mergeFields currentObj patch).get k) ∧
      (options.preserveStatus = true → object.get "status" = currentObj.get "status") ∧
      updated = Resource.setObjectMeta m decoded := by
  simp only [applyPatch, bind_eq_ok_iff] at h
  obtain ⟨currentValue, hvalue, currentObj, hobj, mergedObj, hmerged, decoded, hdecoded, h⟩ := h
  cases h
  obtain ⟨m, hm⟩ := enforceMetadata_eq options (patch.get "metadata") _ current decoded
  refine ⟨currentObj, _, decoded, m, ?_, jsonResult_eq_ok hdecoded, fun k hk => ?_,
    fun hoptions => ?_, hm⟩
  · rw [jsonResult_eq_ok hvalue, toObject_eq_ok hobj]
  · have hobject := toObject_eq_ok hmerged
    rw [rfc7396MergePatch] at hobject
    rw [get_restored hk, ← Value.object.inj hobject]
    rfl
  · rw [if_pos hoptions, get_restoreStatus]

/-- The other fields of a replaced object are read from the replacement, and a preserved status from
the current object. -/
lemma exists_object_applyReplacement
    (h : applyReplacement current options replacement = .ok updated) :
    ∃ (currentObj replacementObj object : Map) (decoded : T) (m : Option ObjectMeta),
      Resource.toValue current = some (.object currentObj) ∧
      Resource.toValue replacement = some (.object replacementObj) ∧
      Resource.fromValue (.object object) = some decoded ∧
      (∀ k ∉ ownedFields, object.get k = replacementObj.get k) ∧
      (options.preserveStatus = true → object.get "status" = currentObj.get "status") ∧
      updated = Resource.setObjectMeta m decoded := by
  simp only [applyReplacement, bind_eq_ok_iff] at h
  obtain ⟨_, hcurrent, currentObj, hobj, _, hvalue, replacementObj, hobj', decoded, hdecoded,
    h⟩ := h
  cases h
  obtain ⟨m, hm⟩ := enforceMetadata_eq options (replacementObj.get "metadata") _ current decoded
  rw [toObject_eq_ok hobj] at hcurrent
  rw [toObject_eq_ok hobj'] at hvalue
  -- the metadata is filled in from the current object, which no other field sees
  have hget : ∀ (k : String) (object : Map), k ≠ "metadata" →
      Map.get (match currentObj.get "metadata" with
      | some (.object currentMeta) => preserveMetadataMap
          (preserveMetadataMap object currentMeta "annotations") currentMeta "labels"
      | _ => object) k = object.get k := by
    intro k object hk
    split
    · rw [get_preserveMetadataMap_of_ne hk, get_preserveMetadataMap_of_ne hk]
    · rfl
  refine ⟨currentObj, replacementObj, _, decoded, m, jsonResult_eq_ok hcurrent,
    jsonResult_eq_ok hvalue, jsonResult_eq_ok hdecoded, fun k hk => ?_, fun hoptions => ?_, hm⟩
  · rw [hget k _ fun hmeta => hk (by simp [hmeta, ownedFields]), get_restored hk]
  · rw [hget _ _ (by decide), if_pos hoptions, get_restoreStatus]

lemma readKeeping_applyPatch_of_status (hpatch : patch.all (fun f => f.1 = "status") = true)
    (hk : k ∉ ownedFields) (h : applyPatch current options patch = .ok updated) :
    ReadKeeping k current updated := by
  obtain ⟨currentObj, object, decoded, m, hvalue, hdecoded, hother, -, hm⟩ :=
    exists_object_applyPatch h
  refine ⟨currentObj, object, decoded, m, hvalue, hdecoded, ?_, hm⟩
  rw [hother k hk, get_mergeFields_of_notMem]
  intro f hf hname
  have hstatus : f.1 = "status" := by simpa using List.all_eq_true.1 hpatch f hf
  exact hk (by simp [← hname, hstatus, ownedFields])

lemma readKeeping_applyStatusUpdate {status : Value} (hk : k ≠ "status")
    (h : applyStatusUpdate current options status = .ok updated) :
    ReadKeeping k current updated := by
  simp only [applyStatusUpdate, bind_eq_ok_iff] at h
  obtain ⟨currentValue, hvalue, currentObj, hobj, decoded, hdecoded, h⟩ := h
  cases h
  obtain ⟨m, hm⟩ := enforceMetadata_eq options none false current decoded
  refine ⟨currentObj, _, decoded, m, ?_, jsonResult_eq_ok hdecoded, ?_, hm⟩
  · rw [jsonResult_eq_ok hvalue, toObject_eq_ok hobj]
  · exact Map.get_insert_of_ne hk _ _

end ResourceUpdater

end Tugboat
