import Tugboat.Agent.Fingerprints
import Tugboat.Lib.Fallible

/-!
# What a hotplug calls, and what it finds on the node

The agent changes a running virtual machine in place: it publishes volumes and attaches networks
that are added, asks the runtime to change the machine, gives back what was removed and records the
new spec.  `HotplugOp` lists the calls of that path; what only reads is a call too, since it can
fail.

`ShipNode` is the node as far as the record of the Ship is concerned: what the agent has recorded
and, for the statements, the requests of the call under way, its failures since the machine was
changed, and the machines that were made.  `ShipNode.after` is what a call does to it.  A deletion
or creation of the machine that fails says what it leaves.
-/

namespace Tugboat.Hotplug

open Volume Network VmRuntime

/-! ## Published volumes -/

def accessTypeFromVolumeMode (mode : Option String) : Except String PublishedAccessType :=
  if mode.getD "Block" = "Block" then .ok .block
  else if mode.getD "Block" = "Filesystem" then .ok .filesystem
  else .error ("Unrecognized access type: " ++ mode.getD "Block")

def targetPath (publishDir shipId claimName : String) : PublishedAccessType → String
  | .block => publishDir ++ "/" ++ shipId ++ "/" ++ (claimName ++ ".block")
  | .filesystem => publishDir ++ "/" ++ shipId ++ "/" ++ (claimName ++ ".fs")

def plannedVolume (publishDir shipId : String) (info : PersistentVolumeClaimVolumeInfo)
    (controllerPublished : Bool) : PublishedVolume :=
  let accessType := (accessTypeFromVolumeMode info.volumeMode).toOption.getD .block
  { claimName := info.name
    driver := info.source.driver
    volumeId := info.source.volumeHandle
    targetPath := targetPath publishDir shipId info.name accessType
    accessType
    controllerPublished
    pvcName := some info.claimName }

/-! ## Calls -/

inductive PublishError
  /-- The volume is mounted, but its state could not be written. -/
  | partialState (reason : String) (controllerPublished : Bool)
  | failed (text : String)
  deriving DecidableEq, Repr

/-- What is found for a claim. -/
structure BoundVolume where
  volumeName : String := ""
  volumeMode : Option String := none
  source : CsiPersistentVolumeSource := {}
  deriving DecidableEq, Repr

/-- The calls that set up volumes. -/
inductive SetupOp
  | ensureMountNamespace
  /-- Whether the volume is read-only, by the access modes of claim and volume. -/
  | effectivePublishSettings (info : PersistentVolumeClaimVolumeInfo)
  | resolveCsiSecrets (info : PersistentVolumeClaimVolumeInfo)
  | publish (info : PersistentVolumeClaimVolumeInfo)
  | ensureNodeExpansion (info : PersistentVolumeClaimVolumeInfo) (published : PublishedVolume)
  | refreshVolumeStats (info : PersistentVolumeClaimVolumeInfo) (published : PublishedVolume)
  | markVolumeAttached (volumeName : String)
  | materializeVolume (name : String)
  deriving DecidableEq, Repr

abbrev SetupOp.Reply : SetupOp → Type
  | .effectivePublishSettings _ => Except ReconcileError Bool
  -- whether the controller of the driver was called
  | .publish _ => Except PublishError Bool
  -- the directory
  | .materializeVolume _ => Except ReconcileError String
  | _ => Except ReconcileError Unit

inductive HotplugOp
  -- what the agent has recorded
  | getHotplugLock
  | matchesFingerprints (fingerprints : ShipFingerprints)
  | currentShipSpec
  | currentPublishedVolumes
  | updateRuntimeState (spec : Workload.ShipSpec) (fingerprints : ShipFingerprints)
      (publishedVolumes : List PublishedVolume)
  -- the API server
  | getShipClass (name : String)
  /-- The capabilities of the runtime class of the node. -/
  | resolveLocalRuntimeClass (nodeName : Option String)
  | getNetworkClass (ns : String) (ref : Workload.ShipNetworkClassReference)
  | loadPersistentVolumeClaim (ns name claimName : String)
  | loadMaterializedVolume (ns : String) (volume : NormalizedVolume)
  | resolveCsiSecrets (info : PersistentVolumeClaimVolumeInfo)
  | markVolumeDetached (volumeName : String)
  | replaceStatus (name : String) (condition : ShipCondition)
  | patchStatus (name : String) (allocation : ShipActualAllocation) (condition : ShipCondition)
  | checkPendingVolumeExpansions
  -- volumes, networks and the machine
  | setup (op : SetupOp)
  | unpublish (volume : PublishedVolume)
  | cleanupMaterializedVolumes
  | cleanupMountNamespace
  | addSingle (plan : PlannedNetworkConfig)
  | delSingle (plan : PlannedNetworkConfig)
  | hotplug (req : VmHotplugRequest)
  -- the rest of the reconciler
  | reconcileDeleted
  | reconcileAdded
  | now
  deriving DecidableEq, Repr

namespace HotplugOp

abbrev Reply : HotplugOp → Type
  | .getHotplugLock => Bool
  | .matchesFingerprints _ => Bool × Bool
  | .currentShipSpec => Option Workload.ShipSpec
  | .currentPublishedVolumes => Option (List PublishedVolume)
  | .updateRuntimeState .. | .checkPendingVolumeExpansions => Unit
  | .getShipClass _ => Except ReconcileError (Option (ShipClass String))
  | .resolveLocalRuntimeClass _ => Except ReconcileError (Option (Option RuntimeHotplug))
  | .getNetworkClass .. => Except ReconcileError (Option (Option NetworkClassSpec))
  | .loadPersistentVolumeClaim .. => Except ReconcileError BoundVolume
  | .loadMaterializedVolume .. | .resolveCsiSecrets _ | .markVolumeDetached _ | .replaceStatus ..
  | .patchStatus .. => Except ReconcileError Unit
  | .setup op => op.Reply
  | .unpublish _ | .cleanupMaterializedVolumes | .cleanupMountNamespace | .addSingle _
  | .delSingle _ => Except String Unit
  | .hotplug _ => Except RuntimeError Unit
  -- a failure comes with whether the machine is still recorded
  | .reconcileDeleted => Except (ReconcileError × Bool) Unit
  -- what is recorded of the new machine; a failure comes with what its cleanup has left of it
  | .reconcileAdded => Except (ReconcileError × Option Runtime) Runtime
  | .now => Time

abbrev interface : Interface where
  Op := HotplugOp
  Reply := HotplugOp.Reply

/-- The call gives a volume back or is one to make the machine anew, and it has failed; a creation
has failed only if it leaves no machine. -/
def fails : (op : HotplugOp) → op.Reply → Bool
  | .resolveCsiSecrets _, r => !r.isOk
  | .unpublish _, r => !r.isOk
  | .replaceStatus .., r => !r.isOk
  | .reconcileDeleted, r => !r.isOk
  | .reconcileAdded, .error (_, none) => true
  | _, _ => false

end HotplugOp

/-! ## The node -/

structure ShipNode where
  record : Option Runtime := none
  /-- The requests the runtime was given in the call under way, and whether it carried them out. -/
  requests : List (VmHotplugRequest × Bool) := []
  /-- The calls of the call under way that have failed since the runtime changed the machine. -/
  failed : List HotplugOp := []
  /-- How many machines have been made. -/
  made : ℕ := 0
  deriving DecidableEq, Repr

namespace ShipNode

/-- The runtime has changed the machine in the call under way. -/
def changed (s : ShipNode) : Bool := s.requests.any (·.2)

def recordAfter (record : Option Runtime) : (op : HotplugOp) → op.Reply → Option Runtime
  | .updateRuntimeState shipSpec fingerprints publishedVolumes, _ =>
    record.map fun _ => { shipSpec, fingerprints, publishedVolumes }
  | .reconcileDeleted, .ok _ => none
  | .reconcileDeleted, .error (_, recorded) => if recorded then record else none
  | .reconcileAdded, .ok r => some r
  | .reconcileAdded, .error (_, left) => left
  | _, _ => record

def requestsAfter (requests : List (VmHotplugRequest × Bool)) :
    (op : HotplugOp) → op.Reply → List (VmHotplugRequest × Bool)
  | .hotplug req, .ok _ => requests ++ [(req, true)]
  | .hotplug req, .error _ => requests ++ [(req, false)]
  | _, _ => requests

def failedAfter (s : ShipNode) (op : HotplugOp) (r : op.Reply) : List HotplugOp :=
  if op.fails r && s.changed then s.failed ++ [op] else s.failed

def madeAfter (made : ℕ) : (op : HotplugOp) → op.Reply → ℕ
  | .reconcileAdded, .ok _ | .reconcileAdded, .error (_, some _) => made + 1
  | _, _ => made

def after (s : ShipNode) (op : HotplugOp) (r : op.Reply) : ShipNode where
  record := recordAfter s.record op r
  requests := requestsAfter s.requests op r
  failed := s.failedAfter op r
  made := madeAfter s.made op r

/-! ## Answers -/

/-- What the outside answers, before the runtime has changed the machine and afterwards. -/
structure Answers where
  early : (op : HotplugOp) → op.Reply
  late : (op : HotplugOp) → op.Reply

/-- What the agent has recorded is answered by the record. -/
def answer (s : ShipNode) (a : Answers) : (op : HotplugOp) → op.Reply
  | .getHotplugLock => s.record.isSome
  | .matchesFingerprints fingerprints =>
    (s.record.any (·.fingerprints.spec = fingerprints.spec),
      s.record.any (·.fingerprints.pvcVolume = fingerprints.pvcVolume))
  | .currentShipSpec => s.record.map (·.shipSpec)
  | .currentPublishedVolumes => s.record.map (·.publishedVolumes)
  | op => if s.changed then a.late op else a.early op

def exec : Program.Semantics HotplugOp.interface ShipNode Answers :=
  fun s a op => (s.after op (s.answer a op), s.answer a op)

end ShipNode

end Tugboat.Hotplug
