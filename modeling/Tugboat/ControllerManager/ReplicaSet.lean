import Tugboat.ControllerManager.Deployment

/-!
# The ReplicaSet controller

A reconcile lists the Ships of the namespace and takes those that the selector of the ReplicaSet
matches for its own.  It creates Ships or deletes some until there are as many as wanted, brings the
specs of Ships up to the template, and reports how many Ships there are.  When the ReplicaSet is
gone, the Ships that refer to it as an owner are deleted.

The reconcile works on the version of the ReplicaSet that its event carries.
-/

namespace Tugboat.Workload

open Controller

/-! ## The Ships of a ReplicaSet -/

def shipMatchesSelector (ship : Ship) (selector : List (String × String)) : Bool :=
  ship.objectMeta.any fun m => matchesSelector m.labels selector

/-- `owned_ships`: the selector decides, not the owner. -/
def ownedShips (ships : List Ship) (selector : List (String × String)) : List Ship :=
  ships.filter (shipMatchesSelector · selector)

def isOwnedByReplicaset (ship : Ship) (rs : ReplicaSet) : Bool :=
  match uidOf rs with
  | none => false
  | some rsUid => ship.objectMeta.any fun m => m.ownerReferences.any (·.uid = rsUid)

def sortByName (ships : List Ship) : List Ship :=
  ships.insertionSort fun a b => a.name.getD "" ≤ b.name.getD ""

/-- The newest Ships first, as many as there are too many, without those that are migrating. -/
def excessShipsToDelete (ownedShips : List Ship) (desired : ℕ) : List Ship :=
  if ownedShips.length ≤ desired then []
  else
    let idle := ownedShips.filter (!·.hasActiveMigration)
    let sorted := idle.insertionSort fun a b =>
      keyLe (creationSortKey b.objectMeta) (creationSortKey a.objectMeta)
    sorted.take (min (ownedShips.length - desired) sorted.length)

/-- Ships are deleted from the newest on, and those that are migrating are kept: of the others, as
many are deleted as there are too many, and none that is kept is newer than one that is deleted. -/
theorem excess_deletes_newest (ships : List Ship) (desired : ℕ) :
    ∃ kept, ships.Perm (excessShipsToDelete ships desired ++ kept) ∧
      (∀ ship ∈ excessShipsToDelete ships desired, ship.hasActiveMigration = false) ∧
      (excessShipsToDelete ships desired).length =
        min (ships.countP (!·.hasActiveMigration)) (ships.length - desired) ∧
      ∀ deleted ∈ excessShipsToDelete ships desired, ∀ ship ∈ kept,
        ship.hasActiveMigration = false →
        keyLe (creationSortKey ship.objectMeta) (creationSortKey deleted.objectMeta) := by
  unfold excessShipsToDelete
  split
  next hfew =>
    refine ⟨ships, .refl _, by simp, ?_, by simp⟩
    rw [Nat.sub_eq_zero_of_le hfew, Nat.min_zero, List.length_nil]
  next hmany =>
    set sorted := (ships.filter (!·.hasActiveMigration)).insertionSort fun a b =>
      keyLe (creationSortKey b.objectMeta) (creationSortKey a.objectMeta) with hsorted
    set n := min (ships.length - desired) sorted.length
    have hperm : sorted.Perm (ships.filter (!·.hasActiveMigration)) := List.perm_insertionSort _ _
    have hidle : ∀ ship ∈ sorted, ship.hasActiveMigration = false := by
      intro ship hship
      simpa using (List.mem_filter.1 (hperm.mem_iff.1 hship)).2
    have htotal : Std.Total fun a b : Ship =>
        (keyLe (creationSortKey b.objectMeta) (creationSortKey a.objectMeta) : Prop) :=
      ⟨fun a b => keyLe_total _ _⟩
    have htrans : IsTrans Ship fun a b =>
        (keyLe (creationSortKey b.objectMeta) (creationSortKey a.objectMeta) : Prop) :=
      ⟨fun a b c hab hbc => keyLe_trans hbc hab⟩
    have hpairs : (sorted.take n ++ sorted.drop n).Pairwise fun a b =>
        keyLe (creationSortKey b.objectMeta) (creationSortKey a.objectMeta) := by
      rw [List.take_append_drop]
      exact List.pairwise_insertionSort _ _
    rw [List.pairwise_append] at hpairs
    -- kept are the rest of the sorted Ships, and those that are migrating
    refine ⟨sorted.drop n ++ ships.filter (·.hasActiveMigration), ?_,
      fun ship hship => hidle ship (List.mem_of_mem_take hship), ?_, ?_⟩
    · rw [← List.append_assoc, List.take_append_drop]
      refine (List.filter_append_perm (!·.hasActiveMigration) ships).symm.trans ?_
      simpa using hperm.symm.append_right _
    · rw [List.length_take, hperm.length_eq, List.countP_eq_length_filter]
      omega
    · intro deleted hdeleted ship hship hnot
      obtain hrest | hmigrating := List.mem_append.1 hship
      · exact hpairs.2.2 deleted hdeleted ship hrest
      · simp [hnot] at hmigrating

def buildShip (rs : ReplicaSet) (template : ShipTemplateSpec) (suffix : String) : Ship :=
  let metadata := template.metadata.getD {}
  { typeMeta := some (Resource.typeMeta Ship)
    objectMeta := some { metadata with
      name := some (rs.name.getD "" ++ "-" ++ suffix)
      «namespace» := rs.namespace
      labels := StringMap.extend metadata.labels ((rs.spec.map (·.selector)).getD [])
      ownerReferences := metadata.ownerReferences ++ [ownerReferenceFor rs] }
    spec := some (template.spec.getD {}) }

/-! ## Status -/

def shipIsReady (ship : Ship) : Bool :=
  ship.status.any fun status => status.conditions.any (·.status = "Running")

def buildReplicasetStatus (ownedShips : List Ship) : ReplicaSetStatus where
  replicas := ownedShips.length
  readyReplicas := (ownedShips.filter shipIsReady).length

/-! ## Templates -/

/-- The placement of a Ship is not part of the comparison. -/
def needsSpecUpdate (templateSpec shipSpec : ShipSpec) : Bool :=
  normalizeServiceAccountDefaults templateSpec ≠
    normalizeServiceAccountDefaults { shipSpec with
      nodeName := templateSpec.nodeName
      schedulerName := templateSpec.schedulerName
      targetNodeName := templateSpec.targetNodeName }

def shipNeedsUpdate (ship : Ship) (templateSpec : ShipSpec) : Bool :=
  ship.spec.any (needsSpecUpdate templateSpec)

def applyTemplateSpec (ship : Ship) (templateSpec : ShipSpec) : Ship :=
  let currentSpec := ship.spec.getD {}
  { ship with spec := some { templateSpec with
      nodeName := currentSpec.nodeName
      schedulerName := currentSpec.schedulerName
      targetNodeName := currentSpec.targetNodeName } }

def updateStrategy (rs : ReplicaSet) : Option String :=
  rs.objectMeta.bind (·.annotations.lookup replicasetUpdateStrategyAnnotation)

/-- The template is changed without new Ships. -/
def TemplateChangeKind.keepsShips : TemplateChangeKind → Bool
  | .inPlace | .hotplug => true
  | .noChange | .requiresRotation => false

def migrationBlocksTemplateUpdate (matchingShips : List Ship) (templateSpec : ShipSpec)
    (changeKind : TemplateChangeKind) : Bool :=
  changeKind.keepsShips &&
    matchingShips.any fun ship => shipNeedsUpdate ship templateSpec && ship.hasActiveMigration

def shouldWaitForReadyBeforeUpdate (matchingShips : List Ship) (templateSpec : ShipSpec)
    (changeKind : TemplateChangeKind) : Bool :=
  changeKind.keepsShips && matchingShips.any fun ship =>
    shipNeedsUpdate ship templateSpec && !ship.hasActiveMigration && !shipIsReady ship

/-! ## Requests -/

def deleteShipIgnoreNotFound (name : String) : Controller Unit := do
  match ← attempt (.deleteShip name) with
  | .ok _ => return ()
  | .error (.api 404) => return ()
  | .error e => throw (.client e)

/-- The loop that deletes Ships; those without a name are passed over. -/
def deleteShips : List Ship → Controller Unit
  | [] => return ()
  | ship :: rest => do
    match ship.name with
    | none => deleteShips rest
    | some name =>
      deleteShipIgnoreNotFound name
      deleteShips rest

def createShips (rs : ReplicaSet) (template : ShipTemplateSpec) : ℕ → Controller Unit
  | 0 => return ()
  | n + 1 => do
    let suffix ← request .generateSuffix
    match ← attempt (.createShip (buildShip rs template suffix)) with
    | .ok _ => createShips rs template n
    | .error (.api 409) => createShips rs template n
    | .error e => throw (.client e)

def reconcileShipCount (rs : ReplicaSet) (rsSpec : ReplicaSetSpec) (matchingShips : List Ship)
    (desired : ℕ) : Controller (Option Action) := do
  createShips rs (rsSpec.shipTemplate.getD {}) (desired - matchingShips.length)
  if matchingShips.length ≤ desired then return none
  else
    let excess := matchingShips.length - desired
    let toDelete := excessShipsToDelete matchingShips desired
    deleteShips toDelete
    if toDelete.length < excess then return some (.requeue 5) else return none

/-- Write a Ship with its new spec, by PUT or by PATCH. -/
def writeShip (replace : Bool) (name : String) (updated : Ship) : Controller Unit := do
  if replace then
    request (.replaceShip name updated)
    return ()
  else
    request (.patchShip name updated)
    return ()

/-- The loop that brings Ships up to the template, one or all; it says whether any was written. -/
def updateShips (templateSpec : ShipSpec) (replace updateAll : Bool) :
    List Ship → Controller Bool
  | [] => return false
  | ship :: rest =>
    if ship.hasActiveMigration || !shipNeedsUpdate ship templateSpec then
      updateShips templateSpec replace updateAll rest
    else
      match ship.name with
      | none => updateShips templateSpec replace updateAll rest
      | some name => do
        writeShip replace name (applyTemplateSpec ship templateSpec)
        if updateAll then
          discard (updateShips templateSpec replace updateAll rest)
          return true
        else return true

def applyTemplateUpdates (matchingShips : List Ship) (templateSpec : ShipSpec)
    (replace updateAll : Bool) : Controller (Option Action) := do
  if ← updateShips templateSpec replace updateAll matchingShips then return some (.requeue 5)
  else return none

def reconcileTemplateUpdates (rs : ReplicaSet) (matchingShips : List Ship) (templateSpec : ShipSpec)
    (changeKind : TemplateChangeKind) (migrationBlocksUpdate : Bool) :
    Controller (Option Action) :=
  let all := updateStrategy rs = some replicasetUpdateStrategyAll
  match changeKind with
  | .noChange => return none
  | .requiresRotation => applyTemplateUpdates matchingShips templateSpec true all
  | .inPlace | .hotplug => do
    let action ← applyTemplateUpdates matchingShips templateSpec false
      (all || changeKind = .hotplug)
    if action.isNone && migrationBlocksUpdate then return some (.requeue 5) else return action

/-! ## The reconcile -/

/-- How the template differs from the spec of the first Ship that has one. -/
def shipChangeKind (matchingShips : List Ship) (template : ShipTemplateSpec)
    (runtimeClass : Option RuntimeClass) : TemplateChangeKind :=
  match matchingShips.findSome? (·.spec) with
  | none => .noChange
  | some currentSpec => classifyTemplateChange { spec := some currentSpec } template runtimeClass

/-- Write the status unless it is there already. -/
def reportStatus (rs : ReplicaSet) (newStatus : ReplicaSetStatus) : Controller Unit := do
  if rs.status = some newStatus then return ()
  else
    request (.replaceReplicaSetStatus (rs.name.getD "") { rs with status := some newStatus })
    return ()

/-- What follows once there are as many Ships as wanted: updates, and the report. -/
def reconcileShips (rs : ReplicaSet) (rsSpec : ReplicaSetSpec) (matchingShips : List Ship)
    (desired : ℕ) : Controller Action := do
  let template := rsSpec.shipTemplate.getD {}
  let templateSpec := template.spec.getD {}
  let runtimeClass ← resolveRuntimeClass template
  let changeKind := shipChangeKind matchingShips template runtimeClass
  let migrationBlocksUpdate := migrationBlocksTemplateUpdate matchingShips templateSpec changeKind
  if shouldWaitForReadyBeforeUpdate matchingShips templateSpec changeKind then return .requeue 5
  else
    match ← reconcileTemplateUpdates rs matchingShips templateSpec changeKind
        migrationBlocksUpdate with
    | some action => return action
    | none =>
      let newStatus := buildReplicasetStatus matchingShips
      reportStatus rs newStatus
      if newStatus.readyReplicas < desired then return .requeue 5 else return .awaitChange

/-- The number of Ships a spec asks for. -/
def ReplicaSetSpec.size (spec : ReplicaSetSpec) : Int := max (spec.replicas.getD 1) 0

/-- The number of Ships a ReplicaSet asks for.  Without a spec it has none. -/
def ReplicaSet.size (rs : ReplicaSet) : Int := (rs.spec.map (·.size)).getD 0

lemma ReplicaSetSpec.size_nonneg (spec : ReplicaSetSpec) : 0 ≤ spec.size := le_max_right _ _

lemma ReplicaSet.size_nonneg (rs : ReplicaSet) : 0 ≤ rs.size := by
  unfold ReplicaSet.size
  cases rs.spec with
  | none => exact le_rfl
  | some spec => exact spec.size_nonneg

/-- `reconcile_applied`. -/
def reconcileReplicaset (rs : ReplicaSet) : Controller Action := do
  let ns ← compute (require rs.namespace (.missingNamespace "ReplicaSet"))
  let rsSpec ← compute (require rs.spec (.missingReplicaSetSpec ns (rs.name.getD "")))
  let desired := rsSpec.size.toNat
  let ships ← request .listShips
  let matchingShips := sortByName (ownedShips ships rsSpec.selector)
  match ← reconcileShipCount rs rsSpec matchingShips desired with
  | some action => return action
  | none => reconcileShips rs rsSpec matchingShips desired

/-- `reconcile_deleted`. -/
def reconcileDeletedReplicaset (rs : ReplicaSet) : Controller Action := do
  let _ ← compute (require rs.namespace (.missingNamespace "ReplicaSet"))
  let ships ← request .listShips
  deleteShips (ships.filter (isOwnedByReplicaset · rs))
  return .awaitChange

/-- What the controller is told about a ReplicaSet. -/
inductive ReplicaSetEvent
  | applied (rs : ReplicaSet)
  | deleted (rs : ReplicaSet)
  deriving DecidableEq, Repr

namespace ReplicaSetEvent

def replicaset : ReplicaSetEvent → ReplicaSet
  | applied rs | deleted rs => rs

def reconcile : ReplicaSetEvent → Controller Action
  | applied rs => reconcileReplicaset rs
  | deleted rs => reconcileDeletedReplicaset rs

/-- The number of Ships that are wanted. -/
def wanted : ReplicaSetEvent → Int
  | applied rs => rs.size
  | deleted _ => 0

end ReplicaSetEvent

/-! ## What a reconcile writes -/

/-- The requests of a reconcile.  Ships are made from the template, and only if some are wanted. -/
def replicasetProtocol : Protocol ClusterOp.interface ReplicaSetEvent where
  allowed event op :=
    match op with
    | .getRuntimeClass _ | .generateSuffix | .replaceReplicaSetStatus _ _ | .listShips
    | .replaceShip _ _ | .patchShip _ _ | .deleteShip _ => True
    | .createShip ship => 0 < event.wanted ∧
        ∃ suffix, ship = buildShip event.replicaset event.replicaset.template suffix
    | .listReplicaSets | .getReplicaSet _ | .createReplicaSet _ | .replaceReplicaSet _ _
    | .deleteReplicaSet _ | .patchDeploymentStatus _ _ => False
  assumes _ _ _ := True
  observe event _ _ := event

section Wp

open Program

variable {event : ReplicaSetEvent} {ships : List Ship}

lemma wp_deleteShips :
    (deleteShips ships).run.wp replicasetProtocol event fun event' _ => event' = event := by
  induction ships with
  | nil => rfl
  | cons ship rest ih =>
    unfold deleteShips
    split
    · exact ih
    refine wp_controller_bind (I := fun event' _ => event' = event) ?_ (fun event' _ hg => ?_)
      fun _ _ hg => hg
    · refine wp_attempt_bind trivial fun r _ => ?_
      split <;> rfl
    · rw [hg]
      exact ih

variable {rs : ReplicaSet}

lemma wp_createShips {template : ShipTemplateSpec} {n : ℕ}
    (hmay : 0 < n → 0 < event.wanted ∧ rs = event.replicaset ∧
      template = event.replicaset.template) :
    (createShips rs template n).run.wp replicasetProtocol event fun event' _ => event' = event := by
  induction n with
  | zero => rfl
  | succ n ih =>
    obtain ⟨hwanted, rfl, rfl⟩ := hmay (Nat.succ_pos n)
    have hrest := ih fun _ => ⟨hwanted, rfl, rfl⟩
    refine wp_request_bind trivial (fun suffix _ => ?_) fun e _ => rfl
    refine wp_attempt_bind ⟨hwanted, suffix, rfl⟩ fun r _ => ?_
    split
    · exact hrest
    · exact hrest
    · rfl

variable {desired : ℕ}

lemma wp_reconcileShipCount {rsSpec : ReplicaSetSpec}
    (hmay : 0 < desired → 0 < event.wanted ∧ rs = event.replicaset ∧
      rsSpec.shipTemplate.getD {} = event.replicaset.template) :
    (reconcileShipCount rs rsSpec ships desired).run.wp replicasetProtocol event
      fun event' _ => event' = event := by
  refine wp_controller_bind (wp_createShips fun hpos => hmay (by omega)) (fun event' _ hg => ?_)
    fun _ _ hg => hg
  subst hg
  split
  · rfl
  refine wp_controller_bind wp_deleteShips (fun event' _ hg => ?_) fun _ _ hg => hg
  split <;> exact hg

variable {templateSpec : ShipSpec} {replace updateAll : Bool}

lemma wp_updateShips : (updateShips templateSpec replace updateAll ships).run.wp replicasetProtocol
    event fun event' _ => event' = event := by
  induction ships with
  | nil => rfl
  | cons ship rest ih =>
    unfold updateShips
    split
    · exact ih
    split
    · exact ih
    refine wp_controller_bind (I := fun event' _ => event' = event) ?_ (fun event' _ hg => ?_)
      fun _ _ hg => hg
    · unfold writeShip
      split <;> exact wp_request_bind trivial (fun _ _ => rfl) fun _ _ => rfl
    subst hg
    split
    · exact wp_controller_bind (wp_discard (I := fun event'' => event'' = event') ih)
        (fun _ _ hg => hg) fun _ _ hg => hg
    · rfl

lemma wp_applyTemplateUpdates : (applyTemplateUpdates ships templateSpec replace updateAll).run.wp
    replicasetProtocol event fun event' _ => event' = event := by
  refine wp_controller_bind wp_updateShips (fun event' _ hg => ?_) fun _ _ hg => hg
  split <;> exact hg

lemma wp_reconcileTemplateUpdates {kind : TemplateChangeKind} {blocks : Bool} :
    (reconcileTemplateUpdates rs ships templateSpec kind blocks).run.wp replicasetProtocol event
      fun event' _ => event' = event := by
  cases kind with
  | noChange => rfl
  | requiresRotation => exact wp_applyTemplateUpdates
  | inPlace | hotplug =>
    refine wp_controller_bind wp_applyTemplateUpdates (fun event' _ hg => ?_) fun _ _ hg => hg
    split <;> exact hg

lemma wp_reconcileShips {rsSpec : ReplicaSetSpec} :
    (reconcileShips rs rsSpec ships desired).run.wp replicasetProtocol event fun _ _ => True := by
  have hclass : (resolveRuntimeClass (rsSpec.shipTemplate.getD {})).run.wp replicasetProtocol event
      fun event' _ => event' = event := by
    unfold resolveRuntimeClass
    split
    · rfl
    refine wp_request.2 ⟨trivial, fun r _ => ?_⟩
    cases r with
    | ok _ | error _ => rfl
  refine wp_controller_bind hclass (fun event' runtimeClass hg => ?_) fun _ _ _ => trivial
  subst hg
  dsimp only
  split
  · trivial
  refine wp_controller_bind wp_reconcileTemplateUpdates (fun event' action hg => ?_)
    fun _ _ _ => trivial
  split
  · trivial
  refine wp_controller_bind (I := fun _ _ => True) ?_ (fun _ _ _ => ?_) fun _ _ _ => trivial
  · unfold reportStatus
    split
    · trivial
    · exact wp_request_bind trivial (fun _ _ => trivial) fun _ _ => trivial
  · split
    · trivial
    · trivial

/-- **What a reconcile writes.**  It writes no ReplicaSet, and it creates Ships only if some are
wanted. -/
theorem wp_reconcile (event : ReplicaSetEvent) :
    event.reconcile.run.wp replicasetProtocol event fun _ _ => True := by
  cases event with
  | deleted rs =>
    refine wp_compute_bind (fun _ _ => ?_) fun _ _ => trivial
    refine wp_request_bind trivial (fun ships _ => ?_) fun _ _ => trivial
    exact wp_controller_bind wp_deleteShips (fun _ _ _ => trivial) fun _ _ _ => trivial
  | applied rs =>
    refine wp_compute_bind (fun ns _ => ?_) fun _ _ => trivial
    refine wp_compute_bind (fun rsSpec hspec => ?_) fun _ _ => trivial
    rw [require_eq_ok_iff] at hspec
    refine wp_request_bind trivial (fun ships _ => ?_) fun _ _ => trivial
    refine wp_controller_bind (wp_reconcileShipCount fun hpos => ⟨?_, rfl, ?_⟩)
      (fun event' action hg => ?_) fun _ _ _ => trivial
    · have hsize : rs.size = rsSpec.size := by rw [ReplicaSet.size, hspec]; rfl
      show 0 < rs.size
      omega
    · show _ = rs.template
      rw [ReplicaSet.template, hspec]
      rfl
    · rw [hg]
      split
      · trivial
      · exact wp_reconcileShips

end Wp

end Tugboat.Workload
