import Tugboat.ApiServer.ResourceHandlers
import Tugboat.Resources.ShipCodec

/-!
# The Ship endpoints

The handlers of `v1_core/ship.rs` that can touch a migration, and the part of the node drain that
does.  A migration starts when `spec.targetNodeName` is set; PUT and PATCH check the change of that
field against the phase in the status, and the abort endpoint clears the field and declares the
migration failed.

Of the defaulting of the service account only whether it refused the request is kept, as an input of
the handlers.
-/

namespace Tugboat

open Json Resource

/-! ## Checks -/

def migrationInProgress : StatusResponse :=
  .conflict ("Cannot change spec.targetNodeName while migration is in progress; " ++
    "use /migrate/abort to cancel it first")

/-- The response to an abort when there is nothing to abort. -/
def noPendingTarget : StatusResponse := .conflict "Ship does not have a pending migration target"

def validateShipTargetNodeNameUpdate (current updated : Ship) : Except StatusResponse Unit :=
  if updated.targetNodeName = some "" then
    .error (.badRequest "spec.targetNodeName must not be empty")
  else if updated.targetNodeName.isSome ∧ updated.targetNodeName = updated.nodeName then
    .error (.badRequest "spec.targetNodeName must differ from spec.nodeName")
  else if current.targetNodeName ≠ updated.targetNodeName ∧ current.hasActiveMigration then
    .error migrationInProgress
  else .ok ()

variable {current updated ship aborted : Ship}

/-- A target change that is accepted is to a node other than the Ship's own, and is none while a
migration is under way. -/
lemma of_validateShipTargetNodeNameUpdate
    (h : validateShipTargetNodeNameUpdate current updated = .ok ()) :
    (updated.targetNodeName.isSome → updated.targetNodeName ≠ updated.nodeName) ∧
      (current.hasActiveMigration = true → updated.targetNodeName = current.targetNodeName) := by
  unfold validateShipTargetNodeNameUpdate at h
  split at h
  · cases h
  split at h
  · cases h
  rename_i hdiffer
  split at h
  · cases h
  next hactive =>
    refine ⟨fun hsome heq => hdiffer ⟨hsome, heq⟩, fun hmigrating => ?_⟩
    by_contra hne
    exact hactive ⟨Ne.symm hne, hmigrating⟩

def shipIsRunning (ship : Ship) : Bool := ship.nodeName.any (· ≠ "")

def validateShipRestoreFromSnapshotUpdate (current updated : Ship) : Except StatusResponse Unit :=
  let currentValue := current.spec.bind (·.restoreFromSnapshot)
  let updatedValue := updated.spec.bind (·.restoreFromSnapshot)
  if updatedValue = some "" then
    .error (.badRequest "spec.restoreFromSnapshot must not be empty")
  else if currentValue ≠ updatedValue ∧ shipIsRunning current then
    .error (.conflict "spec.restoreFromSnapshot is immutable after the Ship is running")
  else .ok ()

/-- The target a Ship is moving to is given up, and the migration declared failed. -/
def abortShipMigration (now : Time) (ship : Ship) : Except StatusResponse Ship :=
  match ship.targetNodeName with
  | none => .error noPendingTarget
  | some target =>
    let spec := ship.spec.map fun s : ShipSpec => ({ s with targetNodeName := none } : ShipSpec)
    let ship := { ship with spec }
    let ship := bumpGeneration ship
    let status := ship.status.getD {}
    let migration := status.migration.getD {}
    .ok { ship with
      status := some { status with
        migration := some { migration with
          phase := .failed
          targetNodeName := some (migration.targetNodeName.getD target)
          message := "Live migration aborted via API request"
          timestamp := some now }
        conditions := status.conditions ++
          [({ status := "VmMigrationAborted"
              message := "Live migration to node '" ++ target ++ "' was aborted by API request"
              timestamp := some now } : ShipCondition)] } }

@[simp] lemma spec_bumpGeneration (ship : Ship) : (bumpGeneration ship).spec = ship.spec := by
  unfold bumpGeneration
  split <;> rfl

@[simp] lemma status_bumpGeneration (ship : Ship) : (bumpGeneration ship).status = ship.status := by
  unfold bumpGeneration
  split <;> rfl

variable {now : Time}

lemma phase_of_abortShipMigration (h : abortShipMigration now ship = .ok aborted) :
    aborted.phase = some .failed := by
  unfold abortShipMigration at h
  split at h
  · cases h
  · cases h
    rfl

lemma nodeName_of_abortShipMigration (h : abortShipMigration now ship = .ok aborted) :
    aborted.nodeName = ship.nodeName := by
  unfold abortShipMigration at h
  split at h
  · cases h
  cases h
  simp only [Ship.nodeName, spec_bumpGeneration]
  cases ship.spec with
  | none | some spec => rfl

lemma targetNodeName_of_abortShipMigration (h : abortShipMigration now ship = .ok aborted) :
    aborted.targetNodeName = none := by
  unfold abortShipMigration at h
  split at h
  · cases h
  cases h
  simp only [Ship.targetNodeName, spec_bumpGeneration]
  cases ship.spec with
  | none | some spec => rfl

variable [TimeCodec] {defaults : Except StatusResponse Unit}

/-- The last steps of PUT and PATCH, after the updated Ship is computed. -/
def checkShipUpdate (defaults : Except StatusResponse Unit) (current updated : Ship) :
    Except StatusResponse Ship := do
  defaults
  validateResource updated
  validateShipTargetNodeNameUpdate current updated
  validateShipRestoreFromSnapshotUpdate current updated
  return updated

/-! ## The handlers -/

def shipOptions : ReplaceOptions :=
  { preserveStatus := true, useClientResourceVersion := true, updateGeneration := true }

/-- What PUT computes. -/
def shipReplaced (name : String) (replacement : Ship) (defaults : Except StatusResponse Unit)
    (current : Ship) : Except StatusResponse Ship := do
  validateResourceName replacement name
  let replaced ← ResourceUpdater.applyReplacement current shipOptions replacement
  checkShipUpdate defaults current replaced

def handleShipReplace (ns name : String) (replacement : Ship)
    (defaults : Except StatusResponse Unit) : Handler Ship (Response Ship) :=
  readModifyWrite (some ns) name (shipReplaced name replacement defaults)

def shipPatched (patch : Map) (defaults : Except StatusResponse Unit) (current : Ship) :
    Except StatusResponse Ship := do
  let patched ← ResourceUpdater.applyPatch current shipOptions patch
  checkShipUpdate defaults current patched

def handleShipPatch (ns name : String) (patch : Map) (defaults : Except StatusResponse Unit) :
    Handler Ship (Response Ship) :=
  readModifyWrite (some ns) name (shipPatched patch defaults)

def handleShipMigrationAbort (ns name : String) (now : Time) : Handler Ship (Response Ship) := do
  let current ← getCurrent (some ns) name
  let aborted ← Handler.ofExcept (abortShipMigration now current)
  return .updated (← Handler.store (.put aborted)).applyRevision

def handleShipStatusPatch (ns name : String) (patch : Map) : Handler Ship (Response Ship) :=
  statusPatchResource (some ns) name patch

def handleShipStatusReplace (ns name : String) (replacement : Ship) :
    Handler Ship (Response Ship) :=
  statusReplaceResource (some ns) name replacement

/-- `create_ship_with_defaults`.  Whether the namespace exists is read from another kind and is an
input, as are the identifier, the time and the name suffixes of `createObject`. -/
def createShipWithDefaults (ns : String) (ship : Ship) (namespaceExists : Bool)
    (defaults : Except StatusResponse Unit) (uid : String) (now : Time)
    (suffixes : Fin 5 → String) : Handler Ship (Response Ship) := do
  if ¬ namespaceExists then
    throw (.notFound ("namespaces \"" ++ ns ++ "\" not found")
      (some (.object [("name", .string ns)])))
  match ship.objectMeta with
  | none => throw (.badRequest "metadata is required")
  | some objectMeta => do
    Handler.ofExcept defaults
    Handler.ofExcept (validateResource ship)
    createObject ship { objectMeta with «namespace» := some ns } uid now suffixes

/-! ## Draining a node -/

def prepareShipForDrain (ship : Ship) (targetNodeName : String) : Ship :=
  bumpGeneration
    { ship with
      spec := some { ship.spec.getD {} with targetNodeName := some targetNodeName } }

/-- What a drain does with one Ship it has planned to move.  The puts of a drain are one
transaction; making them one by one only adds states in between. -/
def drainShip (ns name targetNodeName : String) : Handler Ship (Response Ship) := do
  let current ← getCurrent (some ns) name
  return .updated
    (← Handler.store (.put (prepareShipForDrain current targetNodeName))).applyRevision

/-! ## What the updates do to target and phase -/

lemma spec_of_readKeeping (h : ResourceUpdater.ReadKeeping "spec" current updated) :
    updated.spec = current.spec := by
  obtain ⟨currentObj, object, decoded, m, hcurrent, hdecoded, hget, rfl⟩ := h
  change decoded.spec = current.spec
  exact Ship.spec_of_fromValue hcurrent hdecoded hget

lemma phase_of_readKeeping (h : ResourceUpdater.ReadKeeping "status" current updated) :
    updated.phase = current.phase := by
  obtain ⟨currentObj, object, decoded, m, hcurrent, hdecoded, hget, rfl⟩ := h
  change decoded.phase = current.phase
  exact Ship.phase_of_fromValue hcurrent hdecoded hget

lemma spec_of_statusPatched {patch : Map} (hall : patch.all (fun f => f.1 = "status") = true)
    (h : patched patch {} (validated validateResource) current = .ok updated) :
    updated.spec = current.spec := by
  obtain ⟨merged, hmerged, hvalid⟩ := bind_eq_ok_iff.1 h
  rw [eq_of_validated hvalid]
  exact spec_of_readKeeping (ResourceUpdater.readKeeping_applyPatch_of_status hall (by decide)
    hmerged)

lemma spec_of_statusReplaced {replacement : Ship}
    (h : statusReplaced replacement current = .ok updated) : updated.spec = current.spec := by
  simp only [statusReplaced, bind_eq_ok_iff] at h
  obtain ⟨bodyValue, -, written, hwritten, -, -, h⟩ := h
  cases h
  exact spec_of_readKeeping (ResourceUpdater.readKeeping_applyStatusUpdate (by decide) hwritten)

lemma checkShipUpdate_eq_ok (h : checkShipUpdate defaults current updated = .ok ship) :
    ship = updated ∧ validateShipTargetNodeNameUpdate current ship = .ok () := by
  simp only [checkShipUpdate, bind_eq_ok_iff] at h
  obtain ⟨⟨⟩, -, ⟨⟩, -, ⟨⟩, htarget, ⟨⟩, -, h⟩ := h
  cases h
  exact ⟨rfl, htarget⟩

/-- What every accepted PUT and PATCH of a Ship leaves behind: the old phase, and a target that
passed the check. -/
def AcceptedUpdate (current updated : Ship) : Prop :=
  updated.phase = current.phase ∧ validateShipTargetNodeNameUpdate current updated = .ok ()

lemma acceptedUpdate_of_shipReplaced {name : String} {replacement : Ship}
    (h : shipReplaced name replacement defaults current = .ok updated) :
    AcceptedUpdate current updated := by
  simp only [shipReplaced, bind_eq_ok_iff] at h
  obtain ⟨⟨⟩, -, replaced, hreplaced, hcheck⟩ := h
  obtain ⟨rfl, htarget⟩ := checkShipUpdate_eq_ok hcheck
  obtain ⟨currentObj, -, object, decoded, m, hvalue, -, hdecoded, -, hstatus, hm⟩ :=
    ResourceUpdater.exists_object_applyReplacement hreplaced
  exact ⟨phase_of_readKeeping ⟨currentObj, object, decoded, m, hvalue, hdecoded, hstatus rfl, hm⟩,
    htarget⟩

lemma acceptedUpdate_of_shipPatched {patch : Map}
    (h : shipPatched patch defaults current = .ok updated) : AcceptedUpdate current updated := by
  simp only [shipPatched, bind_eq_ok_iff] at h
  obtain ⟨patched, hpatched, hcheck⟩ := h
  obtain ⟨rfl, htarget⟩ := checkShipUpdate_eq_ok hcheck
  obtain ⟨currentObj, object, decoded, m, hvalue, hdecoded, -, hstatus, hm⟩ :=
    ResourceUpdater.exists_object_applyPatch hpatched
  exact ⟨phase_of_readKeeping ⟨currentObj, object, decoded, m, hvalue, hdecoded, hstatus rfl, hm⟩,
    htarget⟩

end Tugboat
