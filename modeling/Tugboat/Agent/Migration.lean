import Tugboat.Agent.Context

/-!
# The migration state machine

`MigrationStateMachine` of `tugboat-agent`: what an agent does about a Ship that has a target. The
agent of the node the Ship runs on is the *source*; it dispatches on the phase in the status, and
drives the migration from the preflight to the cutover.  The agent of the target node only looks
after its own virtual machine: it removes it when the migration has failed, and takes the Ship over
when it finds that the guest already runs there.

The order of the calls matters, since other agents, the API server and the runtimes move between any
two of them.
-/

namespace Tugboat

open Agent

/-- How long the source waits for the target to publish its receiver, in seconds. -/
def migrationPendingTimeoutSecs : Int := 120

/-- How long a transfer may run before the source declares the migration failed, in seconds. -/
def migrationActiveTimeoutSecs : Int := 1800

/-- Replace the condition of the same name, or add the condition at the end. -/
def Agent.upsertShipCondition (conditions : List ShipCondition) (condition : ShipCondition) :
    List ShipCondition :=
  match conditions with
  | [] => [condition]
  | existing :: rest =>
    if existing.status = condition.status then condition :: rest
    else existing :: Agent.upsertShipCondition rest condition

def conditionsOf (found : Option Ship) : List ShipCondition :=
  ((found.bind (·.status)).map (·.conditions)).getD []

def missingName : ReconcileError := .fieldMissing "v1.Ship" "metadata.name"

section

variable (node : String)

/-- Whether a timestamp is older than the timeout.  Without a timestamp nothing times out. -/
def isMigrationTimedOut (timestamp : Option Time) (timeoutSecs : Int) : Agent Bool :=
  match timestamp with
  | none => return false
  | some ts => do
    let now ← ask node .now
    return ts.seconds ≤ now.seconds && timeoutSecs < now.seconds - ts.seconds

/-- Write the migration status and a condition with it: the conditions are read, changed and
written as a whole. -/
def updateMigrationStatus (ns name : String) (migration : ShipMigrationStatus)
    (conditionStatus conditionMessage : String) : Agent Unit := do
  let found ← orFail (← ask node (.getShip ns name))
  let now ← ask node .now
  let conditions := Agent.upsertShipCondition (conditionsOf found)
    { status := conditionStatus, message := conditionMessage, timestamp := some now }
  orFail (← ask node (.patchStatus ns name (.ofStatus migration) conditions))

def withStats (migration : ShipMigrationStatus) (runtimeStatus : VmMigrationStatusResponse) :
    ShipMigrationStatus :=
  { migration with
    bytesTransferred := runtimeStatus.bytesTransferred
    bytesRemaining := runtimeStatus.bytesRemaining }

def markSourceMigrationFailed (ns name targetNodeName : String) (targetAddress : Option String)
    (targetPort : Option ℕ) (message : String) : Agent Unit := do
  let now ← ask node .now
  updateMigrationStatus node ns name
    { phase := .failed
      sourceNodeName := some node
      targetNodeName := some targetNodeName
      targetAddress
      targetPort
      message
      timestamp := some now }
    "VmMigrationFailed" message

/-- The outcome of the cancel command is only logged. -/
def bestEffortCancel (shipId : String) : Agent Unit := do
  let _ ← ask node (.cancelMigration shipId)
  return ()

def cancelAndFail (shipId ns name targetNodeName : String) (targetAddress : Option String)
    (targetPort : Option ℕ) (message : String) : Agent Unit := do
  bestEffortCancel node shipId
  markSourceMigrationFailed node ns name targetNodeName targetAddress targetPort message

/-- Stop the virtual machine, if this agent still has it. -/
def finishIfPresent (shipId : String) : Agent Unit := do
  if ← ask node (.hasShip shipId) then
    orFailRuntime (← ask node (.finishSourceMigration shipId))
  else
    return ()

def finalizeCompletedSourceMigration (shipId ns name targetNodeName targetAddress : String)
    (targetPort : ℕ) : Agent Unit := do
  let now ← ask node .now
  updateMigrationStatus node ns name
    { phase := .completed
      sourceNodeName := some node
      targetNodeName := some targetNodeName
      targetAddress := some targetAddress
      targetPort := some targetPort
      message := "Live migration completed successfully with preserved guest NIC identity"
      timestamp := some now }
    "VmMigrated"
    ("VM migrated successfully to node '" ++ targetNodeName ++
      "' with deterministic bridge, interface, and MAC identity")
  finishIfPresent node shipId
  orFail (← ask node (.patchShip ns name targetNodeName))

def finalizeCompletedTargetMigration (ns name : String)
    (sourceNodeName targetAddress : Option String)
    (targetPort : Option ℕ) : Agent Unit := do
  let now ← ask node .now
  updateMigrationStatus node ns name
    { phase := .completed
      sourceNodeName
      targetNodeName := some node
      targetAddress
      targetPort
      message := "Target node recovered a completed live migration and finalized cutover"
      timestamp := some now }
    "VmMigrated"
    ("Recovered completed live migration on target node '" ++ node ++
      "' after the source stopped reporting progress")
  orFail (← ask node (.patchShip ns name node))

/-! ## The source side -/

def handleSourceInitialPhase (ship : Ship) (shipSpec : ShipSpec) (ns name targetNodeName : String) :
    Agent Bool := do
  match ← orFail (← ask node (.preflightMigration ship targetNodeName)) with
  | .reject reason =>
    let message := "Migration preflight failed: " ++ reason ++
      ". Source VM remains on the source node."
    let now ← ask node .now
    updateMigrationStatus node ns name
      { phase := .failed
        sourceNodeName := shipSpec.nodeName
        targetNodeName := some targetNodeName
        message
        timestamp := some now }
      "VmMigrationPreflightFailed" message
    return true
  | .ready =>
    let now ← ask node .now
    updateMigrationStatus node ns name
      { phase := .pending
        sourceNodeName := shipSpec.nodeName
        targetNodeName := some targetNodeName
        message := "Waiting for target node to prepare migration receiver"
        timestamp := some now }
      "VmMigrationPending" "Waiting for target node to prepare migration receiver"
    return true

def handleSourcePendingPhase (shipId ns name targetNodeName : String)
    (migrationStatus : ShipMigrationStatus) : Agent Bool := do
  if ← isMigrationTimedOut node migrationStatus.timestamp migrationPendingTimeoutSecs then
    cancelAndFail node shipId ns name targetNodeName none none
      ("Target node '" ++ targetNodeName ++ "' did not become ready within " ++
        toString migrationPendingTimeoutSecs ++ " seconds. Source VM remains authoritative.")
    return true
  else
    return true

/-- The receiver listens and nothing was sent yet: start the transfer. -/
def startTransfer (ship : Ship) (shipId ns name targetNodeName targetAddress : String)
    (targetPort : ℕ) : Agent Bool := do
  let migrationParams ← ask node (.resolveMigrationParams ship)
  match ← ask node
      (.migrate shipId targetAddress (UInt16.ofNat targetPort) migrationParams) with
  | .error err =>
    cancelAndFail node shipId ns name targetNodeName (some targetAddress) (some targetPort)
      ("Failed to start live migration: " ++ err.text)
    throw (.runtime err)
  | .ok () =>
    let now ← ask node .now
    updateMigrationStatus node ns name
      { phase := .migrating
        sourceNodeName := some node
        targetNodeName := some targetNodeName
        targetAddress := some targetAddress
        targetPort := some targetPort
        message := "Live migration in progress"
        timestamp := some now }
      "VmMigrating" "Live migration in progress"
    return true

/-- The message for a transfer that the runtime gave up. -/
def didNotComplete (phase : VmMigrationPhase) : String :=
  "Live migration did not complete (phase: " ++ phase.text ++
    "). Source VM remains authoritative; " ++
    "clean up the target and retry when ready."

def handleSourceReadyPhase (ship : Ship) (shipId ns name targetNodeName : String)
    (migrationStatus : ShipMigrationStatus) : Agent Bool := do
  match migrationStatus.targetAddress, migrationStatus.targetPort with
  | some targetAddress, some targetPort =>
    match ← ask node (.checkMigrationStatus shipId) with
    | .error _ => return true
    | .ok status =>
      match status.phase with
      | .none =>
        if ← isMigrationTimedOut node migrationStatus.timestamp
            migrationPendingTimeoutSecs then
          cancelAndFail node shipId ns name targetNodeName (some targetAddress)
            (some targetPort)
            ("Migration receiver on target node '" ++ targetNodeName ++
              "' became ready but source timed out before starting transfer. " ++
              "Source VM remains authoritative.")
          return true
        else
          startTransfer node ship shipId ns name targetNodeName targetAddress targetPort
      | .setup | .active =>
        let now ← ask node .now
        updateMigrationStatus node ns name
          (withStats
            { phase := .migrating
              sourceNodeName := some node
              targetNodeName := some targetNodeName
              targetAddress := some targetAddress
              targetPort := some targetPort
              message := "Live migration is already in progress"
              timestamp := some now }
            status)
          "VmMigrating" "Live migration is already in progress"
        return true
      | .completed =>
        finalizeCompletedSourceMigration node shipId ns name targetNodeName targetAddress
          targetPort
        return true
      | .failed | .cancelled =>
        cancelAndFail node shipId ns name targetNodeName (some targetAddress)
          (some targetPort) (didNotComplete status.phase)
        return true
  | _, _ => return true

def handleSourceMigratingPhase (shipId ns name targetNodeName : String)
    (migrationStatus : ShipMigrationStatus) : Agent Bool := do
  match migrationStatus.targetAddress, migrationStatus.targetPort with
  | some targetAddress, some targetPort =>
    let targetNodeName := migrationStatus.targetNodeName.getD targetNodeName
    match ← ask node (.checkMigrationStatus shipId) with
    | .error _ => return true
    | .ok runtimeStatus =>
      match runtimeStatus.phase with
      | .completed =>
        finalizeCompletedSourceMigration node shipId ns name targetNodeName targetAddress
          targetPort
        return true
      | .failed | .cancelled =>
        cancelAndFail node shipId ns name targetNodeName (some targetAddress)
          (some targetPort) (didNotComplete runtimeStatus.phase)
        throw (.runtime (.migrationFailed (didNotComplete runtimeStatus.phase)))
      | .none | .setup | .active =>
        updateMigrationStatus node ns name
          (withStats
            { phase := .migrating
              sourceNodeName := some node
              targetNodeName := some targetNodeName
              targetAddress := some targetAddress
              targetPort := some targetPort
              message := runtimeStatus.message
              timestamp := migrationStatus.timestamp }
            runtimeStatus)
          "VmMigrating" "Live migration in progress"
        if ← isMigrationTimedOut node migrationStatus.timestamp
            migrationActiveTimeoutSecs then
          let message := "Live migration exceeded the maximum allowed time (" ++
            toString migrationActiveTimeoutSecs ++
            " seconds). Cancelling and leaving source VM authoritative."
          cancelAndFail node shipId ns name targetNodeName (some targetAddress)
            (some targetPort) message
          throw (.runtime (.migrationFailed message))
        else
          return true
  | _, _ => return true

def handleSourceCompletedPhase (shipId : String) (shipSpec : ShipSpec)
    (ns name targetNodeName : String) (migrationStatus : ShipMigrationStatus) : Agent Bool := do
  match migrationStatus.targetAddress, migrationStatus.targetPort with
  | some targetAddress, some targetPort =>
    if shipSpec.nodeName = some node then
      finalizeCompletedSourceMigration node shipId ns name
        (migrationStatus.targetNodeName.getD targetNodeName) targetAddress targetPort
      return true
    else
      return true
  | _, _ => return true

def tryReconcileSourceSide (ship : Ship) (shipId : String) (shipSpec : ShipSpec)
    (targetNodeName : String) : Agent Bool := do
  match ship.name with
  | none => throw missingName
  | some name =>
    let ns := ship.namespace.getD "default"
    match ship.migration with
    | none => handleSourceInitialPhase node ship shipSpec ns name targetNodeName
    | some migrationStatus =>
      match migrationStatus.phase with
      | .pending =>
        handleSourcePendingPhase node shipId ns name targetNodeName migrationStatus
      | .ready =>
        handleSourceReadyPhase node ship shipId ns name targetNodeName migrationStatus
      | .migrating =>
        handleSourceMigratingPhase node shipId ns name targetNodeName migrationStatus
      | .completed =>
        handleSourceCompletedPhase node shipId shipSpec ns name targetNodeName
          migrationStatus
      | .failed | .other _ _ => return true

/-! ## The target side -/

/-- The guest runs on this node: take the Ship over. -/
def recoverTarget (ship : Ship) (shipSpec : ShipSpec) (migration : ShipMigrationStatus) :
    Agent Unit := do
  match ship.name with
  | none => throw missingName
  | some name =>
    finalizeCompletedTargetMigration node (ship.namespace.getD "default") name
      (migration.sourceNodeName.or shipSpec.nodeName) migration.targetAddress
      migration.targetPort

def tryReconcileTargetSide (ship : Ship) (shipId : String) (shipSpec : ShipSpec) :
    Agent Bool := do
  let hasLocalRuntime ← ask node (.hasShip shipId)
  match ship.migration with
  | none => return hasLocalRuntime
  | some migration =>
    match migration.phase with
    | .failed =>
      if hasLocalRuntime then
        -- a failure to clean up is only logged
        let _ ← ask node (.reconcileDeleted ship)
        return true
      else
        return true
    | .ready | .migrating | .completed =>
      if hasLocalRuntime then
        match ← orFailRuntime (← ask node (.localRuntimeStatus shipId)) with
        | some .running =>
          recoverTarget node ship shipSpec migration
          return hasLocalRuntime
        | _ => return hasLocalRuntime
      else
        return hasLocalRuntime
    | .pending | .other _ _ => return hasLocalRuntime

/-! ## The dispatch -/

/-- What the agent of `node` does about the target of a Ship; the result says whether there is
nothing more to do. -/
def tryReconcile (ship : Ship) (shipId : String) : Agent Bool := do
  match ship.spec with
  | none => throw (.fieldMissing "v1.Ship" "spec")
  | some shipSpec =>
    match shipSpec.targetNodeName with
    | none => return false
    | some targetNodeName =>
      if targetNodeName = node then
        tryReconcileTargetSide node ship shipId shipSpec
      else if shipSpec.nodeName ≠ some node then
        return false
      else
        tryReconcileSourceSide node ship shipId shipSpec targetNodeName

end

end Tugboat
