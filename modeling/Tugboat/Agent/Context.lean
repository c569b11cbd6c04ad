import Tugboat.Lib.Program
import Tugboat.Resources.Ship

/-!
# What an agent calls

An agent runs the Ships of its node.  `AgentOp` lists the calls its reconciler makes on the paths a
migration takes: the methods of the trait `MigrationContext`, the runtime, the status writes and the
preparation of a new virtual machine.  What those paths do with volumes, networks, images and
hotplug is behind single calls that succeed or fail.

A call is made by the agent of some node, so that agents can share one world.  A reconcile is a
program over these calls, `Agent α`; it fails with a `ReconcileError`.
-/

namespace Tugboat

/-! ## Errors -/

/-- The errors of the runtime; all but one are kept as their text. -/
inductive RuntimeError
  | migrationFailed (message : String)
  | other (text : String)
  deriving DecidableEq, Repr

def RuntimeError.text : RuntimeError → String
  | .migrationFailed message => "Migration failed: " ++ message
  | .other text => text

/-- The errors of a reconcile; those of the services around it are kept as their text. -/
inductive ReconcileError
  | fieldMissing (kind field : String)
  | runtime (error : RuntimeError)
  | other (text : String)
  deriving DecidableEq, Repr

def ReconcileError.text : ReconcileError → String
  | .fieldMissing kind field => "Field '" ++ field ++ "' in '" ++ kind ++ "' is missing"
  | .runtime error => "Runtime error: " ++ error.text
  | .other text => text

/-! ## Published volumes -/

inductive PublishedAccessType
  | block
  | filesystem
  deriving DecidableEq, Repr

/-- A volume that is published on the node; `claimName` holds the alias of the volume. -/
structure PublishedVolume where
  claimName : String
  driver : String := ""
  volumeId : String := ""
  targetPath : String
  accessType : PublishedAccessType := .block
  /-- The controller of the driver was told to attach the volume to the node. -/
  controllerPublished : Bool := false
  /-- The claim. -/
  pvcName : Option String := none
  deriving DecidableEq, Repr

def PublishedVolume.effectivePvcName (volume : PublishedVolume) : String :=
  volume.pvcName.getD volume.claimName

/-! ## The runtime -/

/-- How far the runtime is with sending a virtual machine. -/
inductive VmMigrationPhase
  | none
  | setup
  | active
  | completed
  | failed
  | cancelled
  deriving DecidableEq, Repr

/-- The name of the phase, as it is printed in messages. -/
def VmMigrationPhase.text : VmMigrationPhase → String
  | .none => "None"
  | .setup => "Setup"
  | .active => "Active"
  | .completed => "Completed"
  | .failed => "Failed"
  | .cancelled => "Cancelled"

structure VmMigrationStatusResponse where
  phase : VmMigrationPhase
  message : String := ""
  bytesTransferred : Option ℕ := none
  bytesRemaining : Option ℕ := none
  deriving DecidableEq, Repr

structure VmMigrationParams where
  maxBandwidthBytesPerSec : Option ℕ := none
  downtimeLimitMs : Option ℕ := none
  xbzrleCacheSizeBytes : Option ℕ := none
  postcopyEnabled : Bool := false
  deriving DecidableEq, Repr

inductive VmStatus
  | paused
  | running
  | shutdown
  | suspended
  | panicked
  | error
  | prelaunch
  deriving DecidableEq, Repr

inductive MigrationPreflight
  | ready
  | reject (reason : String)
  deriving DecidableEq, Repr

/-! ## Writes to the migration status -/

/-- A merge patch of `status.migration`: a field that is `none` is not mentioned and keeps its
value.  The source node may also be mentioned as `null`, which removes it. -/
structure MigrationPatch where
  phase : MigrationPhase
  sourceNodeName : Option (Option String) := none
  targetNodeName : Option String := none
  targetAddress : Option String := none
  targetPort : Option ℕ := none
  message : Option String := none
  timestamp : Option Time := none
  bytesTransferred : Option ℕ := none
  bytesRemaining : Option ℕ := none
  deriving DecidableEq, Repr

namespace MigrationPatch

/-- The patch a status is written as: fields with their default value are left out. -/
def ofStatus (m : ShipMigrationStatus) : MigrationPatch where
  phase := m.phase
  sourceNodeName := m.sourceNodeName.map some
  targetNodeName := m.targetNodeName
  targetAddress := m.targetAddress
  targetPort := m.targetPort
  message := if m.message = "" then none else some m.message
  timestamp := m.timestamp
  bytesTransferred := m.bytesTransferred
  bytesRemaining := m.bytesRemaining

def apply (p : MigrationPatch) (current : Option ShipMigrationStatus) : ShipMigrationStatus :=
  let m := current.getD {}
  { phase := p.phase
    sourceNodeName := p.sourceNodeName.getD m.sourceNodeName
    targetNodeName := p.targetNodeName.or m.targetNodeName
    targetAddress := p.targetAddress.or m.targetAddress
    targetPort := p.targetPort.or m.targetPort
    message := p.message.getD m.message
    timestamp := p.timestamp.or m.timestamp
    bytesTransferred := p.bytesTransferred.or m.bytesTransferred
    bytesRemaining := p.bytesRemaining.or m.bytesRemaining }

end MigrationPatch

/-! ## The calls -/

inductive AgentOp
  /-- The next Ship the watch delivers. -/
  | nextShip
  | now
  -- the API server
  | getShip (ns name : String)
  | patchStatus (ns name : String) (migration : MigrationPatch) (conditions : List ShipCondition)
  | replaceStatus (ship : Ship)
  /-- The patch that ends a migration: the Ship runs on `nodeName` and has no target. -/
  | patchShip (ns name nodeName : String)
  -- the runtime
  | hasShip (id : String)
  | isPresent (id : String)
  | registerExisting (id : String)
  | create (id : String) (incomingPort : Option UInt16)
  | start (id : String)
  | migrate (id address : String) (port : UInt16) (params : VmMigrationParams)
  | checkMigrationStatus (id : String)
  | cancelMigration (id : String)
  | finishSourceMigration (id : String)
  | localRuntimeStatus (id : String)
  /-- Whether the fingerprints of the spec, of its claims and of its mounted volumes are those
  the virtual machine was made with. -/
  | matchesFingerprints (id : String) (spec : ShipSpec)
  -- the rest of the reconciler
  | preflightMigration (ship : Ship) (targetNodeName : String)
  | resolveMigrationParams (ship : Ship)
  | reconcileDeleted (ship : Ship)
  | tryReconcileHotplug (ship : Ship)
  | checkPendingVolumeExpansions (ship : Ship)
  | refreshMaterializedVolumes (ship : Ship)
  | resolveShipClass (name : String)
  | resolveRestoreSnapshot (ns name : String)
  | runtimeFingerprints (spec : ShipSpec)
  /-- Volumes of a virtual machine that is there already. -/
  | recoverVolumes (ship : Ship)
  /-- Networks and volumes of a virtual machine to be made. -/
  | planVolumes (ship : Ship)
  | setupVolumes (ship : Ship)
  | addNetworks (id : String)
  /-- Undo the preparation of a virtual machine that could not be made. -/
  | cleanup (id : String)
  | findAvailablePort
  | localNodeAddress
  deriving DecidableEq, Repr

namespace AgentOp

abbrev Reply : AgentOp → Type
  | .nextShip => Ship
  | .now => Time
  | .getShip _ _ => Except ReconcileError (Option Ship)
  | .patchStatus .. | .replaceStatus _ | .patchShip .. => Except ReconcileError Unit
  | .hasShip _ => Bool
  | .isPresent _ => Except RuntimeError Bool
  | .registerExisting _ => Unit
  | .create .. | .start _ | .migrate .. | .cancelMigration _ | .finishSourceMigration _ =>
    Except RuntimeError Unit
  | .checkMigrationStatus _ => Except RuntimeError VmMigrationStatusResponse
  | .localRuntimeStatus _ => Except RuntimeError (Option VmStatus)
  | .matchesFingerprints _ _ => Except ReconcileError (Bool × Bool × Bool)
  | .preflightMigration _ _ => Except ReconcileError MigrationPreflight
  | .resolveMigrationParams _ => VmMigrationParams
  | .reconcileDeleted _ => Except ReconcileError Unit
  | .tryReconcileHotplug _ => Except ReconcileError Bool
  | .checkPendingVolumeExpansions _ => Unit
  | .refreshMaterializedVolumes _ | .resolveShipClass _ | .resolveRestoreSnapshot _ _
  | .runtimeFingerprints _ | .recoverVolumes _ | .planVolumes _ | .setupVolumes _
  | .addNetworks _ => Except ReconcileError Unit
  | .cleanup _ => Unit
  | .findAvailablePort => Except ReconcileError UInt16
  | .localNodeAddress => Except ReconcileError String

/-- Replies of a world where everything succeeds, seen from a node that has the virtual machine of
the Ship or has not. -/
def successReply (present : Bool) (ship : Ship) (now : Time) : (op : AgentOp) → op.Reply
  | .nextShip => ship
  | .now => now
  | .getShip _ _ => .ok (some ship)
  | .hasShip _ => present
  | .isPresent _ => .ok present
  | .matchesFingerprints _ _ => .ok (false, true, true)
  | .checkMigrationStatus _ => .ok { phase := .completed }
  | .localRuntimeStatus _ => .ok (some .running)
  | .preflightMigration _ _ => .ok .ready
  | .resolveMigrationParams _ => {}
  | .tryReconcileHotplug _ => .ok true
  | .findAvailablePort => .ok 49152
  | .localNodeAddress => .ok "10.0.0.2"
  | .registerExisting _ | .checkPendingVolumeExpansions _ | .cleanup _ => ()
  | .patchStatus .. | .replaceStatus _ | .patchShip .. | .create .. | .start _ | .migrate ..
  | .cancelMigration _ | .finishSourceMigration _ | .reconcileDeleted _
  | .refreshMaterializedVolumes _ | .resolveShipClass _ | .resolveRestoreSnapshot _ _
  | .runtimeFingerprints _ | .recoverVolumes _ | .planVolumes _ | .setupVolumes _
  | .addNetworks _ => .ok ()

end AgentOp

structure AgentCall where
  node : String
  op : AgentOp
  deriving DecidableEq, Repr

abbrev AgentCall.interface : Interface where
  Op := AgentCall
  Reply c := c.op.Reply

abbrev Agent (α : Type) : Type := ExceptT ReconcileError (Program AgentCall.interface) α

namespace Agent

variable {α : Type}

/-- Make a call; a failure it reports is part of the result. -/
def ask (node : String) (op : AgentOp) : Agent op.Reply :=
  ExceptT.mk (.call ⟨node, op⟩ fun r => .done (.ok r))

/-- Fail if a call of the API server or of a service has failed. -/
def orFail (x : Except ReconcileError α) : Agent α := ExceptT.mk (.done x)

def orFailRuntime (x : Except RuntimeError α) : Agent α :=
  ExceptT.mk (.done (x.mapError ReconcileError.runtime))

/-- Run a part of a reconcile; its failure is part of the result. -/
def attempt (x : Agent α) : Agent (Except ReconcileError α) :=
  ExceptT.mk (x.run >>= fun r => .done (.ok r))

section Wp

open Program

variable {γ : Type} {P : Protocol AgentCall.interface γ} {g : γ}

variable {Q : γ → Except ReconcileError α → Prop}

@[simp] lemma wp_orFail (x : Except ReconcileError α) : (orFail x).run.wp P g Q ↔ Q g x :=
  Iff.rfl

@[simp] lemma wp_orFailRuntime (x : Except RuntimeError α) :
    (orFailRuntime x).run.wp P g Q ↔ Q g (x.mapError ReconcileError.runtime) := Iff.rfl

@[simp] lemma wp_pure (a : α) : (pure a : Agent α).run.wp P g Q ↔ Q g (.ok a) := Iff.rfl

end Wp

end Agent

end Tugboat
