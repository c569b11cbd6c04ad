import Mathlib.Data.List.Sort
import Tugboat.ControllerManager.ChangeClassifier
import Tugboat.ControllerManager.Cluster
import Tugboat.Lib.Text
import Tugboat.Lib.Wrapping

/-!
# The Deployment controller

A reconcile lists the ReplicaSets, decides how the template has changed with respect to the newest
one and then makes its strategy's next move: `reconcileRecreate` or `reconcileRollingUpdate`.  The
ReplicaSet of the Deployment's template is found by the hash of the template, which is a label; the
newest ReplicaSet is found by its time of creation.  These need not be the same.

A move is decided on what was listed: the specs, which only this controller writes, and the status,
which the ReplicaSet controller reports at its own pace.

The hash of a template is a parameter.
-/

namespace Tugboat.Workload

open Controller Wrapping

def shipTemplateHashLabel : String := "ship-template-hash"

def replicasetUpdateStrategyAnnotation : String := "tugboat.cloud/update-strategy"

def replicasetUpdateStrategyAll : String := "all"

/-! ## The ReplicaSets of a Deployment -/

def isOwnedByDeployment (rs : ReplicaSet) (dep : Deployment) : Bool :=
  isControlledBy rs.objectMeta dep "Deployment"

def managedReplicasets (replicasets : List ReplicaSet) (dep : Deployment) : List ReplicaSet :=
  replicasets.filter (isOwnedByDeployment · dep)

/-- The newest ReplicaSet; the last one in case of a tie. -/
def activeReplicaset (replicasets : List ReplicaSet) : Option ReplicaSet :=
  replicasets.foldl (fun newest rs =>
    match newest with
    | none => some rs
    | some best =>
      if keyLe (creationSortKey best.objectMeta) (creationSortKey rs.objectMeta) then some rs
      else some best) none

def oldReplicasets (managed : List ReplicaSet) (activeRsName : Option String) : List ReplicaSet :=
  managed.filter (·.name ≠ activeRsName)

def replicasetSpecReplicas (rs : ReplicaSet) : Int := (rs.spec.bind (·.replicas)).getD 0

def replicasetStatusReplicas (rs : ReplicaSet) : Int :=
  (rs.status.map (·.replicas)).getD (replicasetSpecReplicas rs)

def replicasetReadyReplicas (rs : ReplicaSet) : Int := (rs.status.map (·.readyReplicas)).getD 0

def sumStatusReplicas (replicasets : List ReplicaSet) : Int :=
  (replicasets.map replicasetStatusReplicas).foldl add32 0

def sumReadyReplicas (replicasets : List ReplicaSet) : Int :=
  (replicasets.map replicasetReadyReplicas).foldl add32 0

def hasOldRunningReplicas (oldReplicasets : List ReplicaSet) : Bool :=
  oldReplicasets.any fun rs =>
    0 < ((rs.status.map (·.replicas)).or (rs.spec.bind (·.replicas))).getD 0

def revisionHistoryLimit (dep : Deployment) : ℕ :=
  ((dep.spec.bind (·.revisionHistoryLimit)).getD 0).toNat

/-- The oldest of the ReplicaSets that are scaled to zero and have no Ships left, as many as there
are beyond the limit. -/
def staleReplicasetsForCleanup (oldReplicasets : List ReplicaSet) (limit : ℕ) : List ReplicaSet :=
  let zeroed := oldReplicasets.filter fun rs =>
    rs.spec.bind (·.replicas) = some 0 && rs.status.all (·.replicas = 0)
  let sorted := zeroed.insertionSort fun a b =>
    keyLe (creationSortKey a.objectMeta) (creationSortKey b.objectMeta)
  sorted.take (zeroed.length - min limit zeroed.length)

def replicasetHasTemplateHash (rs : ReplicaSet) (hash : String) : Bool :=
  (rs.objectMeta.bind (·.labels.lookup shipTemplateHashLabel)) = some hash ||
    (rs.spec.bind (·.selector.lookup shipTemplateHashLabel)) = some hash

/-! ## What is written -/

def buildReplicasetWithReplicas (dep : Deployment) (hash : String) (replicas : Option Int) :
    ReplicaSet :=
  let depSpec := dep.spec.getD {}
  let selector := StringMap.insert shipTemplateHashLabel hash depSpec.selector
  { typeMeta := some (Resource.typeMeta ReplicaSet)
    objectMeta := some {
      name := some (dep.name.getD "" ++ "-" ++ hash)
      «namespace» := dep.namespace
      labels := StringMap.insert shipTemplateHashLabel hash selector
      ownerReferences := [ownerReferenceFor dep] }
    spec := some { replicas, selector, shipTemplate := depSpec.shipTemplate } }

def buildReplicaset (dep : Deployment) (hash : String) : ReplicaSet :=
  buildReplicasetWithReplicas dep hash (dep.spec.bind (·.replicas))

def updateReplicasetForInPlace (activeRs : ReplicaSet) (dep : Deployment) : ReplicaSet :=
  let depSpec := dep.spec.getD {}
  { activeRs with spec := some { activeRs.spec.getD {} with
      shipTemplate := depSpec.shipTemplate, replicas := depSpec.replicas } }

def withReplicas (rs : ReplicaSet) (replicas : Option Int) : ReplicaSet :=
  { rs with spec := some { rs.spec.getD {} with replicas } }

def updateReplicasetReplicas (activeRs : ReplicaSet) (replicas : Option Int) : Option ReplicaSet :=
  match activeRs.spec with
  | none => none
  | some spec => if spec.replicas = replicas then none else some (withReplicas activeRs replicas)

def setInPlaceUpdateStrategy (strategy : Option String) (rs : ReplicaSet) : ReplicaSet :=
  let m := rs.objectMeta.getD {}
  let annotations := match strategy with
    | some value => StringMap.insert replicasetUpdateStrategyAnnotation value m.annotations
    | none => StringMap.remove replicasetUpdateStrategyAnnotation m.annotations
  { rs with objectMeta := some { m with annotations } }

/-! ## The next move of a rolling update -/

/-- The largest numbers of surplus and of missing replicas. -/
def rollingUpdateLimits (dep : Deployment) : Int × Int :=
  let rolling := (dep.spec.bind (·.strategy)).bind (·.rollingUpdate)
  (max ((rolling.bind (·.maxSurge)).getD 1) 0, max ((rolling.bind (·.maxUnavailable)).getD 1) 0)

def desiredReplicas (dep : Deployment) : Int := max ((dep.spec.bind (·.replicas)).getD 1) 0

/-- The loop over the old ReplicaSets: take away replicas as long as some may go. -/
def removalTargets : List ReplicaSet → Int → List (String × Int)
  | [], _ => []
  | rs :: rest, canRemove =>
    if canRemove ≤ 0 then []
    else
      let current := replicasetSpecReplicas rs
      if current ≤ 0 then removalTargets rest canRemove
      else
        let decrement := min current canRemove
        let target := current - decrement
        if target ≠ current then
          (rs.name.getD "", target) :: removalTargets rest (canRemove - decrement)
        else removalTargets rest canRemove

structure RotationTargets where
  /-- The replicas the new ReplicaSet should have. -/
  targetNewSpec : Option Int
  /-- The replicas old ReplicaSets should have, by their names. -/
  oldTargets : List (String × Int)
  shouldRequeue : Bool
  deriving DecidableEq, Repr

def nextRollingUpdateRotationTargets (dep : Deployment) (activeRs : ReplicaSet)
    (oldReplicasets : List ReplicaSet) : RotationTargets :=
  let desired := desiredReplicas dep
  let (maxSurge, maxUnavailable) := rollingUpdateLimits dep
  let oldTotal := sumStatusReplicas oldReplicasets
  let oldReady := sumReadyReplicas oldReplicasets
  let newSpec := replicasetSpecReplicas activeRs
  let newTotal := replicasetStatusReplicas activeRs
  let newReady := replicasetReadyReplicas activeRs
  let canAdd := sub32 (add32 desired maxSurge) (add32 oldTotal newTotal)
  let targetNewSpec :=
    if 0 < canAdd ∧ newSpec < desired then some (min (add32 newSpec canAdd) desired) else none
  let minAvailable := max (sub32 desired maxUnavailable) 0
  let canRemove := if targetNewSpec.isSome then 0
    else max (sub32 (add32 oldReady newReady) minAvailable) 0
  let oldTargets := removalTargets oldReplicasets canRemove
  let progressed := targetNewSpec.isSome || !oldTargets.isEmpty
  let rolloutComplete := oldTotal = 0 && newSpec ≥ desired && newReady ≥ desired
  { targetNewSpec, oldTargets, shouldRequeue := progressed || !rolloutComplete }

/-! ## Requests -/

def createReplicasetIfAbsent (rs : ReplicaSet) : Controller Unit := do
  match ← attempt (.createReplicaSet rs) with
  | .ok _ => return ()
  | .error (.api 409) => return ()
  | .error e => throw (.client e)

/-- The latest version of a ReplicaSet with the spec and the metadata maps of another. -/
def ReplicaSet.takeOver (latest updated : ReplicaSet) : ReplicaSet :=
  { latest with
    spec := updated.spec
    typeMeta := updated.typeMeta
    objectMeta := match updated.objectMeta with
      | none => latest.objectMeta
      | some m => some { latest.objectMeta.getD {} with
          labels := m.labels, annotations := m.annotations, ownerReferences := m.ownerReferences } }

/-- What a PUT that was refused as outdated comes to: another one on the latest version. -/
def retryReplace (current updated : ReplicaSet) : Controller Bool := do
  match current.name with
  | none => return false
  | some name =>
    match ← request (.getReplicaSet name) with
    | none => return false
    | some latest =>
      if latest.spec = updated.spec ∧
          latest.objectMeta.map (·.annotations) = updated.objectMeta.map (·.annotations) then
        return false
      else
        request (.replaceReplicaSet name (latest.takeOver updated))
        return true

def replaceReplicasetIfChanged (current updated : ReplicaSet) : Controller Bool := do
  if updated = current then return false
  else
    match ← attempt (.replaceReplicaSet (current.name.getD "") updated) with
    | .ok _ => return true
    | .error (.api 409) => retryReplace current updated
    | .error e => throw (.client e)

/-- The loop that scales old ReplicaSets to zero; it says whether anything was written. -/
def scaleToZero : List ReplicaSet → Controller Bool
  | [] => return false
  | rs :: rest => do
    let updatedRs := setInPlaceUpdateStrategy none (withReplicas rs (some 0))
    let changed ← replaceReplicasetIfChanged rs updatedRs
    return changed || (← scaleToZero rest)

/-- Scale the old ReplicaSets to zero and come back, unless there was nothing to write. -/
def stopOld (oldReplicasets : List ReplicaSet) : Controller Action := do
  if ← scaleToZero oldReplicasets then return .requeue 2 else return .awaitChange

/-- Write the ReplicaSet and come back, unless there was nothing to write. -/
def replaceAndRequeue (current updated : ReplicaSet) : Controller Action := do
  if ← replaceReplicasetIfChanged current updated then return .requeue 2 else return .awaitChange

section Reconcile

variable (templateHash : ShipTemplateSpec → String)

def deploymentTemplate (dep : Deployment) : Except ControllerError ShipTemplateSpec := do
  let ns := dep.namespace.getD ""
  let name := dep.name.getD ""
  let spec ← require dep.spec (.missingDeploymentSpec ns name)
  require spec.shipTemplate (.missingDeploymentTemplate ns name)

def deploymentTemplateHash (dep : Deployment) : Except ControllerError String := do
  return templateHash (← deploymentTemplate dep)

/-- The ReplicaSet of the Deployment's template.  If there is none, one is created, and there is no
result. -/
def ensureRotationReplicaset (dep : Deployment) (managed : List ReplicaSet)
    (initialReplicas : Option Int) : Controller (Option ReplicaSet) := do
  let hash ← compute (deploymentTemplateHash templateHash dep)
  match managed.find? (replicasetHasTemplateHash · hash) with
  | some existingRs => return some existingRs
  | none =>
    createReplicasetIfAbsent (buildReplicasetWithReplicas dep hash initialReplicas)
    return none

/-- Create the ReplicaSet of the template, with all replicas. -/
def createForTemplate (dep : Deployment) : Controller Unit := do
  let hash ← compute (deploymentTemplateHash templateHash dep)
  createReplicasetIfAbsent (buildReplicaset dep hash)

/-! ## The strategies -/

def reconcileRecreate (dep : Deployment) (managed : List ReplicaSet)
    (changeKind : TemplateChangeKind) : Controller Action :=
  match changeKind with
  | .inPlace | .hotplug => do
    match activeReplicaset managed with
    | none =>
      createForTemplate templateHash dep
      return .awaitChange
    | some activeRs =>
      let updatedRs := setInPlaceUpdateStrategy (some replicasetUpdateStrategyAll)
        (updateReplicasetForInPlace activeRs dep)
      discard (replaceReplicasetIfChanged activeRs updatedRs)
      return .awaitChange
  | .noChange => do
    let active := activeReplicaset managed
    let old := oldReplicasets managed (active.bind (·.name))
    let desired := ((dep.spec.getD {}).replicas).getD 1
    if hasOldRunningReplicas old then stopOld old
    else
      match active with
      | none => return .awaitChange
      | some activeRs =>
        replaceAndRequeue activeRs
          (setInPlaceUpdateStrategy none (withReplicas activeRs (some desired)))
  | .requiresRotation => do
    match ← ensureRotationReplicaset templateHash dep managed (some 0) with
    | none => return .requeue 2
    | some activeRs =>
      let old := oldReplicasets managed activeRs.name
      let desired := (dep.spec.bind (·.replicas)).getD 1
      if hasOldRunningReplicas old then stopOld old
      else
        match updateReplicasetReplicas activeRs (some desired) with
        | none => return .awaitChange
        | some updatedRs =>
          replaceAndRequeue activeRs (setInPlaceUpdateStrategy none updatedRs)

/-- The loop over the old ReplicaSets of a rotation: the first one with another target is
written. -/
def lowerOld (targets : List (String × Int)) : List ReplicaSet → Controller Bool
  | [] => return false
  | oldRs :: rest =>
    match targets.find? (fun t => oldRs.name.getD "" = t.1) with
    | none => lowerOld targets rest
    | some (_, target) =>
      match updateReplicasetReplicas oldRs (some target) with
      | none => lowerOld targets rest
      | some updatedRs => do
        discard (replaceReplicasetIfChanged oldRs (setInPlaceUpdateStrategy none updatedRs))
        return true

/-- One move of a rotation towards `activeRs`. -/
def rotate (dep : Deployment) (activeRs : ReplicaSet) (old : List ReplicaSet) :
    Controller Action := do
  let targets := nextRollingUpdateRotationTargets dep activeRs old
  match targets.targetNewSpec.bind fun t => updateReplicasetReplicas activeRs (some t) with
  | some updatedRs =>
    discard (replaceReplicasetIfChanged activeRs (setInPlaceUpdateStrategy none updatedRs))
    return .requeue 2
  | none =>
    if ← lowerOld targets.oldTargets old then return .requeue 2
    else if targets.shouldRequeue then return .requeue 2
    else return .awaitChange

def reconcileRollingUpdate (dep : Deployment) (activeRs : Option ReplicaSet)
    (previous : List ReplicaSet) (changeKind : TemplateChangeKind) : Controller Action := do
  let depSpec ← compute
    (require dep.spec (.missingDeploymentSpec (dep.namespace.getD "") (dep.name.getD "")))
  match changeKind with
  | .noChange =>
    match activeRs with
    | some activeRs =>
      match updateReplicasetReplicas activeRs depSpec.replicas with
      | none => return .awaitChange
      | some updatedRs =>
        discard (replaceReplicasetIfChanged activeRs (setInPlaceUpdateStrategy none updatedRs))
        return .awaitChange
    | none =>
      createForTemplate templateHash dep
      return .requeue 2
  | .inPlace | .hotplug =>
    match activeRs with
    | some activeRs =>
      let updatedRs := setInPlaceUpdateStrategy none (updateReplicasetForInPlace activeRs dep)
      if ← replaceReplicasetIfChanged activeRs updatedRs then return .requeue 2
      else if replicasetReadyReplicas activeRs < desiredReplicas dep then return .requeue 5
      else return .awaitChange
    | none =>
      createForTemplate templateHash dep
      return .requeue 2
  | .requiresRotation =>
    let managed := activeRs.toList ++ previous
    -- a fresh Deployment starts with all replicas, a rotation with none
    let initialReplicas := if managed.isEmpty then depSpec.replicas else some 0
    match ← ensureRotationReplicaset templateHash dep managed initialReplicas with
    | none => return .requeue 2
    | some activeRs => rotate dep activeRs (oldReplicasets managed activeRs.name)

/-! ## The reconcile -/

def ShipTemplateSpec.runtimeClassName (template : ShipTemplateSpec) : Option String :=
  ((template.spec.bind (·.runtimeClass)).map Text.trim).filter (· ≠ "")

/-- The runtime class of the template, if there is one of its name. -/
def Cluster.runtimeClass (w : Cluster) (template : ShipTemplateSpec) : Option RuntimeClass :=
  template.runtimeClassName.bind fun name =>
    w.runtimeClasses.find? (·.objectMeta.bind (·.name) = some name)

def resolveRuntimeClass (template : ShipTemplateSpec) : Controller (Option RuntimeClass) :=
  match template.runtimeClassName with
  | none => return none
  | some name => request (.getRuntimeClass name)

def deleteAll : List ReplicaSet → Controller Unit
  | [] => return ()
  | rs :: rest => do
    request (.deleteReplicaSet (rs.name.getD ""))
    deleteAll rest

def buildDeploymentStatus (managed : List ReplicaSet) (active : Option ReplicaSet) :
    DeploymentStatus where
  replicas := sumStatusReplicas managed
  readyReplicas := sumReadyReplicas managed
  updatedReplicas := (active.map replicasetStatusReplicas).getD 0

def syncDeploymentStatus (dep : Deployment) (managed : List ReplicaSet) : Controller Unit := do
  let newStatus := buildDeploymentStatus managed (activeReplicaset managed)
  if dep.status = some newStatus then return ()
  else
    request (.patchDeploymentStatus (dep.name.getD "") newStatus)
    return ()

/-- How the template has changed with respect to the newest ReplicaSet.  As long as an old one has
replicas, a rotation is under way. -/
def changeKindOf (template : ShipTemplateSpec) (runtimeClass : Option RuntimeClass)
    (active : Option ReplicaSet) (old : List ReplicaSet) : TemplateChangeKind :=
  match active with
  | none => .requiresRotation
  | some activeRs =>
    let kind := classifyTemplateChange activeRs.template template runtimeClass
    if kind = .noChange ∧
        old.any (fun rs => 0 < replicasetSpecReplicas rs || 0 < replicasetStatusReplicas rs) then
      .requiresRotation
    else kind

/-- The strategy is rolling unless the Deployment says otherwise. -/
def isRecreate (dep : Deployment) : Bool :=
  (dep.spec.bind (·.strategy)).any (·.type = "Recreate")

def reconcileStrategy (dep : Deployment) (managed : List ReplicaSet)
    (changeKind : TemplateChangeKind) : Controller Action :=
  let active := activeReplicaset managed
  if isRecreate dep then reconcileRecreate templateHash dep managed changeKind
  else reconcileRollingUpdate templateHash dep active
    (oldReplicasets managed (active.bind (·.name))) changeKind

/-- What follows the move: stale ReplicaSets are deleted, and the status is reported. -/
def cleanUp (dep : Deployment) (managed : List ReplicaSet) : Controller Unit := do
  let active := activeReplicaset managed
  let old := oldReplicasets managed (active.bind (·.name))
  let stale := staleReplicasetsForCleanup old (revisionHistoryLimit dep)
  deleteAll stale
  let staleNames := stale.filterMap (·.name)
  syncDeploymentStatus dep (managed.filter fun rs => rs.name.all (· ∉ staleNames))

/-- `reconcile_applied`. -/
def reconcileDeployment (dep : Deployment) : Controller Action := do
  let ns ← compute (require dep.namespace (.missingNamespace "Deployment"))
  let _ ← compute (require dep.spec (.missingDeploymentSpec ns (dep.name.getD "")))
  let template ← compute (deploymentTemplate dep)
  let runtimeClass ← resolveRuntimeClass template
  let replicasets ← request .listReplicaSets
  let managed := managedReplicasets replicasets dep
  let active := activeReplicaset managed
  let old := oldReplicasets managed (active.bind (·.name))
  let action ← reconcileStrategy templateHash dep managed
    (changeKindOf template runtimeClass active old)
  cleanUp dep managed
  return action

end Reconcile

end Tugboat.Workload
