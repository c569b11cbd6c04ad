import Tugboat.Agent.HotplugCalls

/-!
# Changing a virtual machine in place

`tryReconcileHotplug` changes a running virtual machine without making it anew.  It loads what the
recorded and the new spec name and publishes the volumes that are added (`prepareHotplugState`),
plans the request, and gives up with `false` if a change is not supported.  Otherwise it attaches
the added networks, gives the request to the runtime, takes down what was removed and records the
new spec (`finishHotplug`).  Where attaching a network, the request or taking down a network fails,
the additions are undone as far as possible and the machine is made anew
(`handleHotplugRecreateFailure`).

The volumes are set up by the code that sets up those of a new machine (`setupVolumes`), whose
cleanup after an error is about the whole Ship.
-/

namespace Tugboat.Hotplug

open Volume Network VmRuntime Hex Fallible

/-- A part of the hotplug path. -/
abbrev Attempt (α : Type) : Type := ExceptT ReconcileError (Program HotplugOp.interface) α

/-- Make a call. -/
def ask {ε : Type} (op : HotplugOp) : ExceptT ε (Program HotplugOp.interface) op.Reply :=
  Fallible.ask (E := HotplugOp.interface) op

/-! ## Loading -/

def invalidNetworkClassRef (ref : Workload.ShipNetworkClassReference) : ReconcileError :=
  .other ("Invalid NetworkClassRef: " ++ ref.apiGroup ++ " " ++ ref.kind ++ " " ++ ref.name)

def networkClassNotFound (ref : Workload.ShipNetworkClassReference) : ReconcileError :=
  .other ("NetworkClass '" ++ ref.apiGroup ++ " " ++ ref.kind ++ " " ++ ref.name ++ "' not found")

def getNetworkClassSpec (ns : String) (ref : Workload.ShipNetworkClassReference) :
    Attempt NetworkClassInfo := do
  orFail (ensure (ref.apiGroup = "core" || ref.apiGroup = "") (invalidNetworkClassRef ref))
  orFail (ensure (ref.kind = "ClusterNetworkClass" || ref.kind = "NetworkClass")
    (invalidNetworkClassRef ref))
  let found ← orFail (← ask (.getNetworkClass ns ref))
  let found ← orFail (require found (networkClassNotFound ref))
  let spec ← orFail (require found (invalidNetworkClassRef ref))
  return .ofRef ns ref spec

def getRelatedNetworkClasses (ns : String) (spec : Workload.ShipSpec) :
    Attempt (List NetworkClassInfo) :=
  mapEach (getNetworkClassSpec ns) spec.networkClassRef

def loadPersistentVolumeClaim (ns name claimName : String) :
    Attempt PersistentVolumeClaimVolumeInfo := do
  let bound ← orFail (← ask (.loadPersistentVolumeClaim ns name claimName))
  return { name, claimName, volumeName := bound.volumeName, volumeMode := bound.volumeMode
           source := bound.source }

def loadVolume (ns : String) (volume : NormalizedVolume) : Attempt VolumeInfo :=
  match volume.source with
  | .persistentVolumeClaim claimName => do
    let info ← loadPersistentVolumeClaim ns volume.name claimName
    return .persistentVolumeClaim info
  | _ => do
    orFail (← ask (.loadMaterializedVolume ns volume))
    return .materialized volume.name

def getRelatedVolumes (ns : String) (spec : Workload.ShipSpec) : Attempt (List VolumeInfo) := do
  let volumes ← orFail ((normalizedShipVolumes spec).mapError VolumeError.toReconcileError)
  mapEach (loadVolume ns) volumes

/-! ## Giving volumes back -/

inductive CleanupSecretPolicy
  | bestEffort
  | requireControllerPublishSecrets
  deriving DecidableEq, Repr

/-- `secrets` are the aliases whose secrets were found. -/
def controllerPublishSecretsForCleanup (volume : PublishedVolume) (secrets : List String)
    (policy : CleanupSecretPolicy) : Except String Unit :=
  if volume.claimName ∈ secrets then .ok ()
  else if volume.controllerPublished = false then .ok ()
  else
    match policy with
    | .bestEffort => .ok ()
    | .requireControllerPublishSecrets =>
      .error ("missing controller publish secrets for claim alias '" ++ volume.claimName ++
        "' (driver='" ++ volume.driver ++ "', volume_id='" ++ volume.volumeId ++
        "', target_path='" ++ volume.targetPath ++ "')")

/-- One turn of the loop that gives volumes back; it goes on after a failure. -/
def unpublishNext {ε : Type} (secrets : List String) (policy : CleanupSecretPolicy)
    (errors : List String) (volume : PublishedVolume) :
    ExceptT ε (Program HotplugOp.interface) (List String) :=
  match controllerPublishSecretsForCleanup volume secrets policy with
  | .error text => return errors ++ [volume.targetPath ++ ": " ++ text]
  | .ok () => do
    match ← ask (.unpublish volume) with
    | .ok () => return errors
    | .error text => return errors ++ [volume.targetPath ++ ": " ++ text]

def cleanupPublishedVolumesWithPolicy (volumes : List PublishedVolume) (secrets : List String)
    (policy : CleanupSecretPolicy) : Attempt Unit := do
  let errors ← foldEach (unpublishNext secrets policy) [] volumes.reverse
  orFail (ensure errors.isEmpty (.other
    ("Failed to clean up one or more published CSI volumes: " ++ "; ".intercalate errors)))

def cleanupPublishedVolumes (volumes : List PublishedVolume) (secrets : List String) :
    Attempt Unit :=
  cleanupPublishedVolumesWithPolicy volumes secrets .requireControllerPublishSecrets

def cleanupPublishedVolumesBestEffort (volumes : List PublishedVolume) (secrets : List String) :
    Attempt Unit :=
  cleanupPublishedVolumesWithPolicy volumes secrets .bestEffort

def volumeSecrets (secrets : List String) (volume : VolumeInfo) : Attempt (List String) :=
  match volume.claim with
  | none => return secrets
  | some info => do
    orFail (← ask (.resolveCsiSecrets info))
    return secrets ++ [info.name]

/-- The claim of a volume may be gone; then there are no secrets for it. -/
def staleSecrets (ns : String) (secrets : List String) (published : PublishedVolume) :
    Attempt (List String) :=
  if published.claimName ∈ secrets then return secrets
  else do
    match ← attempt
        (loadPersistentVolumeClaim ns published.claimName published.effectivePvcName) with
    | .error _ => return secrets
    | .ok info => do
      match ← ask (.resolveCsiSecrets info) with
      | .error _ => return secrets
      | .ok () => return secrets ++ [published.claimName]

def controllerPublishSecretMap (ns : String) (volumes : List VolumeInfo)
    (staleVolumes : List PublishedVolume) : Attempt (List String) := do
  let secrets ← foldEach volumeSecrets [] volumes
  foldEach (staleSecrets ns) secrets staleVolumes

/-! ## Setting volumes up -/

section Setup

variable (publishDir shipId : String)

structure VolumeSetupGuard where
  publishedVolumes : List PublishedVolume := []
  /-- The aliases whose secrets were found. -/
  controllerPublishSecrets : List String := []
  deriving DecidableEq, Repr

/-- A part of the setup; a failure comes with what was published so far. -/
abbrev Setup (α : Type) : Type :=
  ExceptT (VolumeSetupGuard × ReconcileError) (Program HotplugOp.interface) α

def VolumeSetupGuard.orFail {α : Type} (guard : VolumeSetupGuard) (x : Except ReconcileError α) :
    Setup α :=
  Fallible.orFail (x.mapError (guard, ·))

def VolumeSetupGuard.push (guard : VolumeSetupGuard) (published : PublishedVolume) :
    VolumeSetupGuard where
  publishedVolumes := guard.publishedVolumes ++ [published]
  controllerPublishSecrets := guard.controllerPublishSecrets ++ [published.claimName]

def vmVolumeConfig (info : PersistentVolumeClaimVolumeInfo) (published : PublishedVolume)
    (readOnly : Bool) : VmVolumeConfig :=
  match published.accessType with
  | .block => { hostPath := published.targetPath, kind := .block, format := "raw", readOnly }
  | .filesystem =>
    { hostPath := published.targetPath, kind := .filesystem, format := "raw", readOnly
      mountTag := info.name }

/-- The steps after a volume is mounted. -/
def settleVolume (guard : VolumeSetupGuard) (info : PersistentVolumeClaimVolumeInfo)
    (published : PublishedVolume) : Setup Unit := do
  guard.orFail (← ask (.setup (.ensureNodeExpansion info published)))
  guard.orFail (← ask (.setup (.refreshVolumeStats info published)))
  guard.orFail (← ask (.setup (.markVolumeAttached info.volumeName)))

def setupClaim (guard : VolumeSetupGuard) (info : PersistentVolumeClaimVolumeInfo) :
    Setup (VolumeSetupGuard × VmVolumeConfig) := do
  let readOnly ← guard.orFail (← ask (.setup (.effectivePublishSettings info)))
  guard.orFail (← ask (.setup (.resolveCsiSecrets info)))
  match ← ask (.setup (.publish info)) with
  | .error (.partialState reason controllerPublished) =>
    throw (guard.push (plannedVolume publishDir shipId info controllerPublished),
      .other ("CSI volume '" ++ info.source.volumeHandle ++
        "' is mounted on node but state persistence failed (" ++ reason ++
        "); the next reconciliation can recover it"))
  | .error (.failed text) => throw (guard, .other text)
  | .ok controllerPublished => do
    let published := plannedVolume publishDir shipId info controllerPublished
    settleVolume (guard.push published) info published
    return (guard.push published, vmVolumeConfig info published readOnly)

def setupVolume (done : VolumeSetupGuard × List VmVolumeConfig) (volume : VolumeInfo) :
    Setup (VolumeSetupGuard × List VmVolumeConfig) :=
  match volume with
  | .persistentVolumeClaim info => do
    let (guard, config) ← setupClaim publishDir shipId done.1 info
    return (guard, done.2 ++ [config])
  | .materialized name => do
    let path ← done.1.orFail (← ask (.setup (.materializeVolume name)))
    return (done.1, done.2 ++ [{ hostPath := path, kind := .filesystem, format := "raw"
                                 readOnly := true, mountTag := name }])

def ensureMountNamespaceFor (volumes : List VolumeInfo) : Setup Unit :=
  if volumes.any (·.claim.isSome) then do
    VolumeSetupGuard.orFail {} (← ask (.setup .ensureMountNamespace))
  else return ()

def setupVolumesInner (volumes : List VolumeInfo) :
    Setup (VolumeSetupGuard × List VmVolumeConfig) := do
  ensureMountNamespaceFor volumes
  foldEach (setupVolume publishDir shipId) ({}, []) volumes

def cleanupError (what : String) : Except String Unit → List String
  | .ok () => []
  | .error text => [what ++ ": " ++ text]

/-- It gives back the volumes it is told, and the directories and the mount namespace of the
Ship. -/
def cleanupAfterVolumeSetupError (guard : VolumeSetupGuard) : Attempt (List String) := do
  let volumes ← attempt
    (cleanupPublishedVolumes guard.publishedVolumes guard.controllerPublishSecrets)
  let materialized ← ask .cleanupMaterializedVolumes
  let mountNamespace ← ask .cleanupMountNamespace
  return cleanupError "published volumes" (volumes.mapError ReconcileError.text) ++
    cleanupError "materialized volumes" materialized ++
    cleanupError "mount namespace" mountNamespace

def setupVolumes (volumes : List VolumeInfo) :
    Attempt (List PublishedVolume × List VmVolumeConfig) := do
  match ← attempt (setupVolumesInner publishDir shipId volumes) with
  | .ok (guard, vmVolumes) => return (guard.publishedVolumes, vmVolumes)
  | .error (guard, e) => do
    let cleanupErrors ← cleanupAfterVolumeSetupError guard
    if cleanupErrors = [] then throw e
    else
      throw (.other ("Failed to clean up CSI volumes after volume setup error (original error: " ++
        e.text ++ "): " ++ "; ".intercalate cleanupErrors))

end Setup

/-! ## Preparation -/

structure HotplugPreparedState where
  shipName : String
  oldSpec : Workload.ShipSpec
  oldClass : ShipClass String
  newClass : ShipClass String
  /-- The capabilities of the runtime class. -/
  hotplug : Option RuntimeHotplug
  oldNetworkClasses : List NetworkClassInfo
  oldVolumes : List VolumeInfo
  newVolumes : List VolumeInfo
  addedNetworkPlans : List PlannedNetworkConfig
  removedNetworkKeys : List String
  currentPublishedVolumes : List PublishedVolume
  addedPublishedVolumes : List PublishedVolume
  addedVmVolumes : List VmVolumeConfig
  removedVolumeAliases : List String

section Preparation

variable (sha256 : String → Digest) (publishDir shipId ns : String)

def isBlockVolume (volume : VolumeInfo) : Bool :=
  match volume.claim with
  | none => true
  | some info =>
    match accessTypeFromVolumeMode info.volumeMode with
    | .ok accessType => accessType = .block
    | .error _ => false

def setupAddedVolumes (added : List VolumeInfo) :
    Attempt (List PublishedVolume × List VmVolumeConfig) :=
  if added = [] then return ([], []) else setupVolumes publishDir shipId added

def prepareHotplugVolumeChanges (oldSpec newSpec : Workload.ShipSpec)
    (newVolumes : List VolumeInfo) :
    Attempt (Option (List PublishedVolume × List VmVolumeConfig × List String)) := do
  let oldAliases ← orFail ((pvcAliases oldSpec).mapError VolumeError.toReconcileError)
  let newAliases ← orFail ((pvcAliases newSpec).mapError VolumeError.toReconcileError)
  let added := addedVolumeInfos oldAliases newAliases newVolumes
  if added.all isBlockVolume then do
    let (published, vmVolumes) ← setupAddedVolumes publishDir shipId added
    return some (published, vmVolumes, oldAliases.filter (· ∉ newAliases))
  else return none

def shipName (ship : Workload.Ship) : Except ReconcileError String := do
  let metadata ← require ship.objectMeta (.fieldMissing "v1.Ship" "metadata")
  require metadata.name (.fieldMissing "v1.Ship" "metadata.name")

/-- The part after the classes have been found. -/
def prepareFromClasses (name : String) (oldSpec newSpec : Workload.ShipSpec)
    (oldClass newClass : ShipClass String) (hotplug : Option RuntimeHotplug) :
    Attempt (Option HotplugPreparedState) := do
  let oldNetworkClasses ← getRelatedNetworkClasses ns oldSpec
  let newNetworkClasses ← getRelatedNetworkClasses ns newSpec
  let networks := diffHotplugNetworks sha256 shipId oldSpec newSpec newNetworkClasses
  let oldVolumes ← getRelatedVolumes ns oldSpec
  let newVolumes ← getRelatedVolumes ns newSpec
  match ← prepareHotplugVolumeChanges publishDir shipId oldSpec newSpec newVolumes with
  | none => return none
  | some (addedPublishedVolumes, addedVmVolumes, removedVolumeAliases) => do
    let current ← ask .currentPublishedVolumes
    return some
      { shipName := name, oldSpec, oldClass, newClass, hotplug, oldNetworkClasses, oldVolumes
        newVolumes, addedNetworkPlans := networks.1, removedNetworkKeys := networks.2
        currentPublishedVolumes := current.getD [], addedPublishedVolumes, addedVmVolumes
        removedVolumeAliases }

def prepareHotplugState (ship : Workload.Ship) (newSpec : Workload.ShipSpec) :
    Attempt (Option HotplugPreparedState) := do
  match ← ask .currentShipSpec with
  | none => return none
  | some oldSpec => do
    let name ← orFail (shipName ship)
    match ← orFail (← ask (.getShipClass oldSpec.shipClass)) with
    | none => return none
    | some oldClass => do
      match ← orFail (← ask (.getShipClass newSpec.shipClass)) with
      | none => return none
      | some newClass => do
        match ← orFail (← ask (.resolveLocalRuntimeClass newSpec.nodeName)) with
        | none => return none
        | some hotplug =>
          prepareFromClasses sha256 publishDir shipId ns name oldSpec newSpec oldClass
            newClass hotplug

/-- The plan for what was prepared; `alloc` is the actual allocation in the status of the Ship. -/
def hotplugPlan (alloc : Option ShipActualAllocation) (newSpec : Workload.ShipSpec)
    (prepared : HotplugPreparedState) : Except ReconcileError HotplugPlan := do
  let oldCores ← shipClassCpuCores prepared.oldClass
  let oldBytes ← shipClassMemoryBytes prepared.oldClass
  let currentVolumeIds ← (currentVolumeIds sha256 alloc prepared.oldSpec
    prepared.currentPublishedVolumes).mapError VolumeError.toReconcileError
  let baseline : HotplugBaseline :=
    { currentCpuCores := cpuBaseline alloc oldCores
      currentMemoryBytes := memoryBaseline alloc oldBytes
      currentNicIds := currentNicIds sha256 alloc shipId prepared.oldSpec prepared.oldNetworkClasses
      currentVolumeIds }
  let desired ← hotplugDesired prepared.newClass (prepared.addedNetworkPlans.map (·.vm))
    prepared.addedVmVolumes
  let oldArchitecture ← shipClassArchitecture prepared.oldClass
  let newArchitecture ← shipClassArchitecture prepared.newClass
  return classifyHotplugChanges sha256 shipId prepared.oldSpec newSpec baseline desired
    prepared.hotplug
    (hasUnsupportedSpecChanges prepared.oldSpec newSpec oldArchitecture newArchitecture)

/-! ## Failures -/

def delAdded (plan : PlannedNetworkConfig) : Attempt Unit := do
  let _ ← ask (.delSingle plan)
  return ()

def unpublishAdded (published : List PublishedVolume) (volumes : List VolumeInfo) :
    Attempt Unit := do
  match ← attempt (controllerPublishSecretMap ns volumes published) with
  | .error _ => return ()
  | .ok secrets => do
    let _ ← attempt (cleanupPublishedVolumesBestEffort published secrets)
    return ()

/-- The planned networks are taken down, whether they were attached or not. -/
def bestEffortCleanupHotplugAdditions (prepared : HotplugPreparedState) : Attempt Unit := do
  forEach delAdded prepared.addedNetworkPlans.reverse
  if prepared.addedPublishedVolumes = [] then return ()
  else unpublishAdded ns prepared.addedPublishedVolumes prepared.newVolumes

def markHotplugFailed (ship : Workload.Ship) (message : String) : Attempt Unit := do
  let name ← orFail (shipName ship)
  let timestamp ← ask .now
  orFail (← ask (.replaceStatus name
    { status := "HotplugFailed", message, timestamp := some timestamp }))

def reconcileRecreate : Attempt Unit := do
  let deleted ← ask .reconcileDeleted
  orFail (deleted.mapError Prod.fst)
  let added ← ask .reconcileAdded
  let _ ← orFail (added.mapError Prod.fst)
  return ()

def handleHotplugRecreateFailure (ship : Workload.Ship) (prepared : HotplugPreparedState)
    (statusMessage : String) : Attempt Unit := do
  bestEffortCleanupHotplugAdditions ns prepared
  markHotplugFailed ship statusMessage
  reconcileRecreate

/-! ## The change -/

def removedClaim (oldVolumes : List VolumeInfo) (published : PublishedVolume) :
    Option PersistentVolumeClaimVolumeInfo :=
  oldVolumes.findSome? fun volume => volume.claim.filter (·.name = published.claimName)

def removedSecrets (oldVolumes : List VolumeInfo) (published : PublishedVolume) :
    Attempt String := do
  let info ← orFail (require (removedClaim oldVolumes published)
    (.other ("PersistentVolumeClaim '" ++ published.claimName ++ "' not found")))
  orFail (← ask (.resolveCsiSecrets info))
  return published.claimName

/-- A failure to clear the attachment is only logged. -/
def clearAttachment (removedAliases : List String) (volume : VolumeInfo) : Attempt Unit :=
  match volume.claim with
  | none => return ()
  | some info =>
    if info.name ∈ removedAliases then do
      let _ ← ask (.markVolumeDetached info.volumeName)
      return ()
    else return ()

def releaseRemovedVolumes (prepared : HotplugPreparedState) : Attempt Unit :=
  let removed := prepared.currentPublishedVolumes.filter
    (·.claimName ∈ prepared.removedVolumeAliases)
  if removed = [] then return ()
  else do
    let secrets ← mapEach (removedSecrets prepared.oldVolumes) removed
    cleanupPublishedVolumes removed secrets
    forEach (clearAttachment prepared.removedVolumeAliases) prepared.oldVolumes

def nextPublishedVolumes (prepared : HotplugPreparedState) : List PublishedVolume :=
  prepared.currentPublishedVolumes.filter (·.claimName ∉ prepared.removedVolumeAliases) ++
    prepared.addedPublishedVolumes

def patchHotplugSuccessStatus (name : String) (allocation : ShipActualAllocation) :
    Attempt Unit := do
  let timestamp ← ask .now
  orFail (← ask (.patchStatus name allocation
    { status := "Hotplugged"
      message := "Applied supported CPU/memory/network/storage changes in-place"
      timestamp := some timestamp }))

/-- Attach a network; the text of a failure is the message of the status. -/
def addNetwork (plan : PlannedNetworkConfig) :
    ExceptT String (Program HotplugOp.interface) Unit := do
  let added ← ask (.addSingle plan)
  orFail (added.mapError ("Failed to prepare hotplug network: " ++ ·))

def delNetwork (plan : PlannedNetworkConfig) :
    ExceptT String (Program HotplugOp.interface) Unit := do
  let deleted ← ask (.delSingle plan)
  orFail (deleted.mapError ("Failed to clean up removed hotplug network '" ++
    networkClassInfoKey plan.info ++ "' (" ++ plan.vm.ifaceName ++ "): " ++ ·))

/-- The machine has been changed. -/
def finishHotplug (ship : Workload.Ship) (newSpec : Workload.ShipSpec)
    (fingerprints : ShipFingerprints) (prepared : HotplugPreparedState) (plan : HotplugPlan) :
    Attempt Bool := do
  match ← attempt (forEach delNetwork
      (removedNetworkPlans sha256 shipId prepared.oldNetworkClasses
        prepared.removedNetworkKeys)) with
  | .error message => do
    handleHotplugRecreateFailure ns ship prepared message
    return true
  | .ok () => do
    releaseRemovedVolumes prepared
    ask (.updateRuntimeState newSpec fingerprints (nextPublishedVolumes prepared))
    patchHotplugSuccessStatus prepared.shipName plan.actualAllocation
    ask .checkPendingVolumeExpansions
    return true

def executeHotplug (ship : Workload.Ship) (newSpec : Workload.ShipSpec)
    (fingerprints : ShipFingerprints) (prepared : HotplugPreparedState) (plan : HotplugPlan)
    (req : VmHotplugRequest) : Attempt Bool := do
  match ← attempt (forEach addNetwork prepared.addedNetworkPlans) with
  | .error message => do
    handleHotplugRecreateFailure ns ship prepared message
    return true
  | .ok () => do
    match ← ask (.hotplug req) with
    | .error e => do
      handleHotplugRecreateFailure ns ship prepared
        ("Failed to hotplug VM resources: " ++ e.text)
      return true
    | .ok () => finishHotplug sha256 shipId ns ship newSpec fingerprints prepared plan

/-- Nothing is done to the machine. -/
def abandonHotplug (prepared : HotplugPreparedState) : Attempt Bool := do
  bestEffortCleanupHotplugAdditions ns prepared
  return false

def applyPrepared (ship : Workload.Ship) (alloc : Option ShipActualAllocation)
    (newSpec : Workload.ShipSpec) (fingerprints : ShipFingerprints)
    (prepared : HotplugPreparedState) : Attempt Bool := do
  let plan ← orFail (hotplugPlan sha256 shipId alloc newSpec prepared)
  if plan.hasUnsupportedChanges then abandonHotplug ns prepared
  else
    match plan.hotplugReq with
    | none => abandonHotplug ns prepared
    | some req => executeHotplug sha256 shipId ns ship newSpec fingerprints prepared plan req

/-- The part under the lock. -/
def reconcileLocked (ship : Workload.Ship) (alloc : Option ShipActualAllocation)
    (newSpec : Workload.ShipSpec) (fingerprints : ShipFingerprints) : Attempt Bool := do
  let (specMatches, pvcMatches) ← ask (.matchesFingerprints fingerprints)
  if specMatches && pvcMatches then return true
  else
    match ← prepareHotplugState sha256 publishDir shipId ns ship newSpec with
    | none => return false
    | some prepared => applyPrepared sha256 shipId ns ship alloc newSpec fingerprints prepared

def tryReconcileHotplug (ship : Workload.Ship) (alloc : Option ShipActualAllocation)
    (newSpec : Workload.ShipSpec) (fingerprints : ShipFingerprints) : Attempt Bool := do
  if ← ask .getHotplugLock then
    reconcileLocked sha256 publishDir shipId ns ship alloc newSpec fingerprints
  else return false

end Preparation

end Tugboat.Hotplug
