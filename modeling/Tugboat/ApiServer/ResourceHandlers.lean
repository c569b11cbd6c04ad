import Tugboat.ApiServer.ResourceUpdater

/-!
# The generic request handlers

The handlers of `resource_handlers.rs` as programs over the store.  Every update handler has the
same frame, *read the current object, compute the updated one, put it back if it differs*
(`readModifyWrite`); the handlers differ in the computation and in what they check before the read.

`patchOptions` is the table of the options each kind's PATCH and PUT endpoints pass.  The kinds
without an entry have no such endpoints.
-/

namespace Tugboat

open Json Resource

abbrev Handler (T α : Type) : Type := ExceptT StatusResponse (Program (StoreOp.interface T)) α

/-- What a successful request answers with. -/
inductive Response (T : Type)
  | created (object : T)
  | updated (object : T)
  | read (object : T)
  deriving DecidableEq, Repr

namespace Handler

variable {T α : Type}

/-- One call to the store; its errors become error responses. -/
def store (op : StoreOp T) : Handler T op.Result :=
  ExceptT.mk (.call op fun r => .done (r.mapError StatusResponse.ofStoreError))

/-- A check or a computation that makes no calls. -/
def ofExcept (x : Except StatusResponse α) : Handler T α := ExceptT.mk (.done x)

section Wp

variable {γ : Type} {P : Protocol (StoreOp.interface T) γ} {g : γ}
  {Q : γ → Except StatusResponse α → Prop}

@[simp] lemma wp_ofExcept (x : Except StatusResponse α) :
    (ofExcept x : Handler T α).run.wp P g Q ↔ Q g x := Iff.rfl

end Wp

end Handler

/-! ## Checks -/

def resourceIdentity (ns : Option String) (name : String) : Value :=
  match ns with
  | some ns => .object [("name", .string name), ("namespace", .string ns)]
  | none => .object [("name", .string name)]

def nameMismatch (expectedName actualName : String) : StatusResponse :=
  .badRequest
    ("metadata.name must match resource name in URL: expected \"" ++ expectedName ++
      "\", got \"" ++ actualName ++ "\"")
    (some (.object [("name", .string expectedName), ("providedName", .string actualName)]))

def validatePatchName (patch : Map) (expectedName : String) : Except StatusResponse Unit :=
  match (patch.get "metadata").bind (·.get "name") |>.bind (·.asStr) with
  | some actualName =>
    if actualName ≠ expectedName then .error (nameMismatch expectedName actualName) else .ok ()
  | none => .ok ()

section Generic

variable {T : Type} [Resource T]

def validateResourceName (resource : T) (expectedName : String) : Except StatusResponse Unit :=
  match name resource with
  | some actualName =>
    if actualName ≠ expectedName then .error (nameMismatch expectedName actualName) else .ok ()
  | none => .ok ()

def validateResource (resource : T) : Except StatusResponse Unit :=
  if validate resource then .ok ()
  else .error (.badRequest ("Invalid " ++ (descriptor T).kind ++ " resource"))

variable (T) in
/-- The response when there is no object to act on. -/
def resourceNotFound (ns : Option String) (name : String) : StatusResponse :=
  .notFound ((descriptor T).kind ++ " not found") (some (resourceIdentity ns name))

/-! ## Reading and updating -/

/-- `read_resource`, and the first half of every update: the current object, with its revision
as its resource version. -/
def getCurrent (ns : Option String) (name : String) : Handler T T := do
  match ← Handler.store (.get ns name) with
  | some current => return current.applyRevision
  | none => throw (resourceNotFound T ns name)

variable [DecidableEq T]

/-- The second half of every update: put the object back, unless nothing changed. -/
def putIfChanged (current updated : T) : Handler T T := do
  if current ≠ updated then
    return (← Handler.store (.put updated)).applyRevision
  else
    return updated

/-- Read the current object, compute the updated one and put it back. -/
def readModifyWrite (ns : Option String) (name : String)
    (update : T → Except StatusResponse T) : Handler T (Response T) := do
  let current ← getCurrent ns name
  let updated ← Handler.ofExcept (update current)
  return .updated (← putIfChanged current updated)

section Wp

open Program

variable {γ : Type} {P : Protocol (StoreOp.interface T) γ} {g : γ} {ns : Option String}
  {name : String} {Q : γ → Except StatusResponse T → Prop}

omit [DecidableEq T] in
lemma wp_getCurrent (hget : P.allowed g (.get ns name))
    (hfound : ∀ current : ContentData T, P.assumes g (.get ns name) (.ok (some current)) →
      Q (P.observe g (.get ns name) (.ok (some current))) (.ok current.applyRevision))
    (hfail : ∀ r e, Q (P.observe g (.get ns name) r) (.error e)) :
    (getCurrent ns name : Handler T T).run.wp P g Q := by
  simp only [getCurrent, wp_run_bind]
  refine ⟨hget, fun r hr => ?_⟩
  match r with
  | .error e | .ok none => exact hfail _ _
  | .ok (some current) => exact hfound current hr

/-- Putting back an object is at most one put, of the updated object. -/
lemma wp_putIfChanged {current updated : T} (hput : P.allowed g (.put updated))
    (hend : ∀ g' r, Q g' r) :
    (putIfChanged current updated).run.wp P g Q := by
  unfold putIfChanged
  split
  · rw [wp_run_bind]
    refine ⟨hput, fun r _ => ?_⟩
    match r with
    | .error e | .ok data => exact hend _ _
  · exact hend _ _

variable {update : T → Except StatusResponse T} (hget : P.allowed g (.get ns name))
  (hput : ∀ (current : ContentData T) (updated : T),
    P.assumes g (.get ns name) (.ok (some current)) → update current.applyRevision = .ok updated →
    P.allowed (P.observe g (.get ns name) (.ok (some current))) (.put updated))

include hget hput

/-- An update makes its put only after its read, and puts what it computed from what it read. -/
lemma wp_readModifyWrite :
    (readModifyWrite ns name update).run.wp P g fun _ _ => True := by
  rw [readModifyWrite, wp_run_bind]
  refine wp_getCurrent hget (fun current hassume => ?_) (fun _ _ => trivial)
  simp only [wp_run_bind, Handler.wp_ofExcept]
  cases hupdate : update current.applyRevision with
  | error e => trivial
  | ok updated =>
    refine wp_putIfChanged (hput current updated hassume hupdate) (fun g' r => ?_)
    cases r with
    | error e | ok t => trivial

variable (update) in
omit [DecidableEq T] in
/-- The same for a request that reads and puts without comparing. -/
lemma wp_getCurrent_put : (do
      let current ← getCurrent ns name
      let updated ← Handler.ofExcept (update current)
      return Response.updated (← Handler.store (.put updated)).applyRevision :
        Handler T (Response T)).run.wp P g fun _ _ => True := by
  rw [wp_run_bind]
  refine wp_getCurrent hget (fun current hassume => ?_) fun _ _ => trivial
  simp only [wp_run_bind, Handler.wp_ofExcept]
  cases hupdate : update current.applyRevision with
  | error e => trivial
  | ok updated =>
    refine ⟨hput current updated hassume hupdate, fun r _ => ?_⟩
    cases r with
    | error e | ok data => trivial

end Wp

def patched (patch : Map) (options : ReplaceOptions) (finish : T → T → Except StatusResponse T)
    (current : T) : Except StatusResponse T := do
  finish current (← ResourceUpdater.applyPatch current options patch)

def validated (check : T → Except StatusResponse Unit) (_current updated : T) :
    Except StatusResponse T := do
  check updated
  return updated

omit [Resource T] [DecidableEq T] in
/-- Validation accepts or refuses, it does not change the object. -/
lemma eq_of_validated {check : T → Except StatusResponse Unit} {current patched updated : T}
    (h : validated check current patched = .ok updated) : updated = patched := by
  obtain ⟨-, -, h⟩ := bind_eq_ok_iff.1 h
  cases h
  rfl

def patchResourceWithValidation (ns : Option String) (name : String) (patch : Map)
    (options : ReplaceOptions) (check : T → Except StatusResponse Unit) :
    Handler T (Response T) := do
  Handler.ofExcept (validatePatchName patch name)
  readModifyWrite ns name (patched patch options (validated check))

/-- What PUT computes. -/
def replaced (name : String) (replacement : T) (options : ReplaceOptions) (current : T) :
    Except StatusResponse T := do
  validateResourceName replacement name
  let updated ← ResourceUpdater.applyReplacement current options replacement
  validateResource updated
  return updated

def replaceResource (ns : Option String) (name : String) (replacement : T)
    (options : ReplaceOptions) : Handler T (Response T) :=
  readModifyWrite ns name (replaced name replacement options)

def statusPatchResource (ns : Option String) (name : String) (patch : Map) :
    Handler T (Response T) := do
  if ¬ patch.all (fun f => f.1 = "status") then
    throw (.badRequest "PATCH /status must contain only status field.")
  readModifyWrite ns name (patched patch {} (validated validateResource))

/-- What a PUT of the status computes; a body without status clears it. -/
def statusReplaced (replacement current : T) : Except StatusResponse T := do
  let replacementValue ← ResourceUpdater.jsonResult (toValue replacement)
  let status := (replacementValue.get "status").getD .null
  let updated ← ResourceUpdater.applyStatusUpdate current {} status
  validateResource updated
  return updated

def statusReplaceResource (ns : Option String) (name : String) (replacement : T) :
    Handler T (Response T) :=
  readModifyWrite ns name (statusReplaced replacement)

/-! ## Deleting and creating -/

/-- `delete_resource`: an object with finalizers is only marked, any other is removed. -/
def deleteResource (ns : Option String) (name : String) (now : Time) :
    Handler T (Response T) := do
  let current ← getCurrent ns name
  if hasFinalizers current then
    return .read (← putIfChanged current (markForDeletion now current))
  else
    match ← Handler.store (.delete ns name) with
    | some data => return .read data.applyRevision
    | none => throw (resourceNotFound T ns name)

/-- The loop over generated names. -/
def createGenerated (object : T) (objectMeta : ObjectMeta) : List String → Handler T (Response T)
  | [] => throw (.conflict "Generate name failed")
  | name :: names => do
    let candidate := setObjectMeta (some { objectMeta with name := some name }) object
    match ← Handler.store (.putIfNotExists candidate) with
    | some data => return .created data.applyRevision
    | none => createGenerated object objectMeta names

/-- `create_object!`: the server sets the identity of the new object and stores it under a name
that is not taken.  The new identifier, the time and the five suffixes the name generator would
draw are inputs. -/
def createObject (object : T) (objectMeta : ObjectMeta) (uid : String) (now : Time)
    (suffixes : Fin 5 → String) : Handler T (Response T) := do
  let object := setTypeMeta (typeMeta T) object
  let objectMeta := { objectMeta with
    uid := some uid, creationTimestamp := some now, generation := some 1, resourceVersion := none }
  match objectMeta.name, objectMeta.generateName with
  | some _, _ =>
    match ← Handler.store (.putIfNotExists (setObjectMeta (some objectMeta) object)) with
    | some data => return .created data.applyRevision
    | none => throw (.conflict "Specified name already exists")
  | none, none => throw (.badRequest "metadata.generateName is required")
  | none, some base =>
    createGenerated object objectMeta ((List.ofFn suffixes).map fun s => base ++ s)

section Wp

open Program

variable {γ : Type} {P : Protocol (StoreOp.interface T) γ} {object : T}

omit [DecidableEq T] in
lemma wp_createGenerated (m : ObjectMeta)
    (hput : ∀ g m', P.allowed g (.putIfNotExists (setObjectMeta m' object))) :
    ∀ (names : List String) (g : γ),
      (createGenerated object m names).run.wp P g fun _ _ => True := by
  intro names
  induction names with
  | nil => exact fun _ => trivial
  | cons name names ih =>
    intro g
    rw [createGenerated, wp_run_bind]
    refine ⟨hput g _, fun r _ => ?_⟩
    rcases r with e | _ | data
    · trivial
    · exact ih _
    · trivial

omit [DecidableEq T] in
/-- A creation only makes calls that store the object if its key is free, and changes the object
in its metadata only. -/
lemma wp_createObject
    (hput : ∀ g t m, P.allowed g (.putIfNotExists (setObjectMeta m (setTypeMeta t object))))
    (g : γ) (objectMeta : ObjectMeta) (uid : String) (now : Time) (suffixes : Fin 5 → String) :
    (createObject object objectMeta uid now suffixes).run.wp P g fun _ _ => True := by
  simp only [createObject]
  split
  · rw [wp_run_bind]
    refine ⟨hput g _ _, fun r _ => ?_⟩
    rcases r with e | _ | data <;> trivial
  · trivial
  · exact wp_createGenerated _ (fun g m => hput g _ m) _ g

end Wp

end Generic

/-! ## The options of each kind -/

/-- The options of the PATCH and PUT endpoints of each kind that has them. -/
def patchOptions : Kind → Option ReplaceOptions
  | .deployment | .fleet | .replicaSet | .ship =>
    some { preserveStatus := true, useClientResourceVersion := true, updateGeneration := true }
  | .clusterRole | .clusterRoleBinding | .role | .roleBinding | .lease | .configMap | .secret
  | .serviceAccount =>
    some { preserveStatus := false, useClientResourceVersion := true, updateGeneration := true }
  | .customResourceDefinition | .node | .persistentVolume | .persistentVolumeClaim
  | .shipSnapshot | .volumeSnapshot | .volumeSnapshotClass | .volumeSnapshotContent =>
    some { preserveStatus := true, useClientResourceVersion := false, updateGeneration := true }
  | .clusterNetworkClass | .networkClass | .namespace | .storageClass | .shipClass
  | .runtimeClass => none

end Tugboat
