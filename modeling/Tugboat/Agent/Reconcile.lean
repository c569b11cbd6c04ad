import Tugboat.Agent.Migration
import Tugboat.Lib.Text

/-!
# Reconciling a Ship

`reconcile_modified` and `reconcile_added`: what an agent does with each Ship its watch delivers.
The state machine of `Agent/Migration.lean` is entered from here, and the target side of a migration
begins here: a Ship whose target is this node and that does not run here yet is added like a new
one, with a port to receive the guest on, and then reported to be ready.

A Ship is added with a status write that sends the *whole* status of the Ship the watch delivered,
however old that is, and the reports of the target do not look at what is stored.
-/

namespace Tugboat

open Agent

def requestedRestoreSnapshot (ship : Ship) : Option String :=
  ((ship.spec.bind (·.restoreFromSnapshot)).map Text.trim).filter (· ≠ "")

/-- Add a condition to a list: one of the same name is replaced unless its message is the
same. -/
def appendCondition : List ShipCondition → ShipCondition → List ShipCondition
  | [], condition => [condition]
  | existing :: rest, condition =>
    if existing.status = condition.status then
      if existing.message = condition.message then existing :: rest else condition :: rest
    else existing :: appendCondition rest condition

def appendStatus (ship : Ship) (condition : ShipCondition) : Ship :=
  match ship.status with
  | none => { ship with status := some { conditions := [condition] } }
  | some status =>
    { ship with
      status := some { status with conditions := appendCondition status.conditions condition } }

/-- What to do with a virtual machine that is there although the agent does not know it. -/
inductive RecoveredRuntimeAction
  | register
  | recreateTarget
  | cleanupFailedTarget
  deriving DecidableEq, Repr

def recoveredRuntimeAction (ship : Ship) (localNodeName : String) : RecoveredRuntimeAction :=
  if ship.targetNodeName ≠ some localNodeName then .register
  else
    match ship.phase with
    | some .failed => .cleanupFailedTarget
    | none | some .pending => .recreateTarget
    | some .ready | some .migrating | some .completed | some (.other _ _) => .register

section

variable (node : String)

/-! ## Reports of the target -/

/-- The fields of a Ship a report of the target names: its namespace and its name. -/
def reportKey (ship : Ship) : Except ReconcileError (String × String) :=
  match ship.name with
  | none => .error missingName
  | some name => .ok (ship.namespace.getD "default", name)

def markMigrationTargetReady (ship : Ship) (port : UInt16) : Agent Unit := do
  let (ns, name) ← orFail (reportKey ship)
  let targetAddress ← orFail (← ask node .localNodeAddress)
  let found ← orFail (← ask node (.getShip ns name))
  let now ← ask node .now
  let conditions := Agent.upsertShipCondition (conditionsOf found)
    { status := "VmMigrationTargetReady"
      message := "VM is listening for incoming migration on " ++ targetAddress ++ ":" ++
        toString port.toNat ++ " with deterministic NIC names and MAC addresses"
      timestamp := some now }
  let timestamp ← ask node .now
  orFail (← ask node (.patchStatus ns name
    { phase := .ready
      sourceNodeName := some ship.nodeName
      targetNodeName := some node
      targetAddress := some targetAddress
      targetPort := some port.toNat
      message := some
        "Target VM is ready to accept incoming migration with the same guest NIC identity"
      timestamp := some timestamp }
    conditions))

def markMigrationTargetFailed (ship : Ship) (message : String) : Agent Unit := do
  let (ns, name) ← orFail (reportKey ship)
  let found ← orFail (← ask node (.getShip ns name))
  let now ← ask node .now
  let conditions := Agent.upsertShipCondition (conditionsOf found)
    { status := "VmMigrationFailed", message, timestamp := some now }
  let timestamp ← ask node .now
  orFail (← ask node (.patchStatus ns name
    { phase := .failed
      sourceNodeName := some ship.nodeName
      targetNodeName := some node
      message := some message
      timestamp := some timestamp }
    conditions))

/-! ## Adding a Ship -/

/-- Send the whole status of the Ship with one more condition. -/
def replaceStatusWith (ship : Ship) (status message : String) : Agent Unit := do
  let now ← ask node .now
  orFail (← ask node
    (.replaceStatus (appendStatus ship { status, message, timestamp := some now })))

def resolveRestore (ship : Ship) (ns : String) : Agent Unit := do
  match requestedRestoreSnapshot ship with
  | none => return ()
  | some snapshot =>
    orFail (← ask node (.resolveRestoreSnapshot ns snapshot))
    replaceStatusWith node ship "SnapshotResolved"
      ("Resolved snapshot '" ++ snapshot ++ "' for restore")

/-- The port a new virtual machine receives its guest on, if it is the target of a migration. -/
def incomingPort (spec : ShipSpec) : Agent (Option UInt16) := do
  if spec.targetNodeName = some node then
    return some (← orFail (← ask node .findAvailablePort))
  else
    return none

/-- Make and start the virtual machine, and report it if it is a target. -/
def bringUp (ship : Ship) (shipId : String) (port : Option UInt16) : Agent Unit := do
  orFailRuntime (← ask node (.create shipId port))
  orFail (← ask node (.addNetworks shipId))
  orFailRuntime (← ask node (.start shipId))
  match port with
  | none => return ()
  | some port => markMigrationTargetReady node ship port

/-- What follows a failure to bring a virtual machine up: it is cleaned up, and a target also
reports the failure.  A failure of the report is only logged. -/
def bringUpFailed (ship : Ship) (shipId : String) (port : Option UInt16) (err : ReconcileError) :
    Agent Unit := do
  let _ ← ask node (.cleanup shipId)
  match port with
  | none => throw err
  | some _ =>
    let _ ← attempt (markMigrationTargetFailed node ship
      ("Failed to prepare migration target on node '" ++ node ++ "': " ++ err.text ++
        ". Source VM remains authoritative."))
    throw err

/-- Make a virtual machine for a Ship that has none on this node. -/
def createRuntime (ship : Ship) (shipId : String) (spec : ShipSpec) : Agent Unit := do
  orFail (← ask node (.planVolumes ship))
  replaceStatusWith node ship "VmCreating" "Creating new Virtual Machine"
  orFail (← ask node (.setupVolumes ship))
  let port ← incomingPort node spec
  match ← attempt (bringUp node ship shipId port) with
  | .ok () => return ()
  | .error err => bringUpFailed node ship shipId port err

/-- Take over the virtual machine that is there, or make one. -/
def registerOrCreate (ship : Ship) (shipId : String) (spec : ShipSpec) : Agent Unit := do
  if ← orFailRuntime (← ask node (.isPresent shipId)) then
    orFail (← ask node (.recoverVolumes ship))
    ask node (.registerExisting shipId)
  else
    createRuntime node ship shipId spec

/-- `reconcile_added`, after the checks of the metadata. -/
def addShip (ship : Ship) (shipId : String) (spec : ShipSpec) : Agent Unit := do
  orFail (← ask node (.resolveShipClass spec.shipClass))
  resolveRestore node ship (ship.namespace.getD "default")
  orFail (← ask node (.runtimeFingerprints spec))
  if ← orFailRuntime (← ask node (.isPresent shipId)) then
    match recoveredRuntimeAction ship node with
    | .cleanupFailedTarget => orFail (← ask node (.reconcileDeleted ship))
    | .recreateTarget =>
      orFail (← ask node (.reconcileDeleted ship))
      registerOrCreate node ship shipId spec
    | .register => registerOrCreate node ship shipId spec
  else
    registerOrCreate node ship shipId spec

def reconcileAdded (ship : Ship) : Agent Unit := do
  match ship.objectMeta with
  | none => throw (.fieldMissing "v1.Ship" "metadata")
  | some objectMeta =>
    match objectMeta.name, objectMeta.uid, ship.spec with
    | none, _, _ => throw missingName
    | some _, none, _ => throw (.fieldMissing "v1.Ship" "metadata.uid")
    | some _, some _, none => throw (.fieldMissing "v1.Ship" "spec")
    | some _, some shipId, some spec => addShip node ship shipId spec

/-! ## A Ship that has changed -/

/-- The Ship is being moved, and its status says how far. -/
def hasMigrationState (ship : Ship) : Bool :=
  ship.targetNodeName.isSome &&
    ship.phase.any fun p => p = .pending || p = .ready || p = .migrating || p = .completed

/-- This node has moved the Ship away, and only the cutover is left. -/
def awaitsCutover (ship : Ship) : Bool :=
  ship.nodeName = some node && ship.targetNodeName.isSome && ship.phase = some .completed

/-- The last step for a Ship that does not run here: a failed target is left alone, any other
Ship is added. -/
def addUnlessFailedTarget (ship : Ship) : Agent Unit := do
  if ship.targetNodeName = some node ∧ ship.phase = some .failed then
    return ()
  else
    reconcileAdded node ship

/-- The middle step: a cutover that is left to do is done. -/
def finishCutoverOrAdd (ship : Ship) (shipId : String) : Agent Unit := do
  if awaitsCutover node ship then
    if ← tryReconcile node ship shipId then
      return ()
    else
      addUnlessFailedTarget node ship
  else
    addUnlessFailedTarget node ship

/-- A Ship that does not run on this node, as far as the agent knows. -/
def reconcileAbsent (ship : Ship) (shipId : String) : Agent Unit := do
  if hasMigrationState ship then
    if ← tryReconcile node ship shipId then
      return ()
    else
      finishCutoverOrAdd node ship shipId
  else
    finishCutoverOrAdd node ship shipId

/-- Change the running virtual machine, or replace it by a new one. -/
def reconfigure (ship : Ship) : Agent Unit := do
  if ship.hasActiveMigration then
    return ()
  else if ← orFail (← ask node (.tryReconcileHotplug ship)) then
    return ()
  else
    orFail (← ask node (.reconcileDeleted ship))
    reconcileAdded node ship

def executeRuntimeReconfigurePlan (ship : Ship) (shipId : String) (specChanged : Bool) :
    Agent Unit := do
  if specChanged then
    if ← tryReconcile node ship shipId then
      return ()
    else
      reconfigure node ship
  else
    reconfigure node ship

/-- A Ship that runs on this node. -/
def reconcilePresent (ship : Ship) (shipId : String) : Agent Unit := do
  match ship.spec with
  | none => throw (.fieldMissing "v1.Ship" "spec")
  | some spec =>
    let (specSame, pvcSame, matSame) ← orFail (← ask node (.matchesFingerprints shipId spec))
    if !specSame || !pvcSame then
      executeRuntimeReconfigurePlan node ship shipId !specSame
    else if !matSame then
      orFail (← ask node (.refreshMaterializedVolumes ship))
    else
      ask node (.checkPendingVolumeExpansions ship)

def reconcileModified (ship : Ship) : Agent Unit := do
  match ship.objectMeta with
  | none => throw (.fieldMissing "v1.Ship" "metadata")
  | some objectMeta =>
    match objectMeta.uid with
    | none => throw (.fieldMissing "v1.Ship" "metadata.uid")
    | some shipId =>
      if ← ask node (.hasShip shipId) then
        reconcilePresent node ship shipId
      else
        reconcileAbsent node ship shipId

def reconcileNext : Agent Unit := do
  reconcileModified node (← ask node .nextShip)

end

end Tugboat
