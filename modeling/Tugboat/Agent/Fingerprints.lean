import Mathlib.Logic.Function.Basic
import Tugboat.Agent.HotplugPlan
import Tugboat.Lib.Run

/-!
# The spec and the fingerprints an agent records

For every virtual machine the agent keeps the spec it was made from and three fingerprints: of the
fields that need a new machine, of the claims, and of the volumes that are written to directories.
A change of a Ship is noticed by the fingerprints and planned from the recorded spec, so the two
should say the same.

`NodeEvent` are the events that write them.  Two paths write only half: a machine that is made or
found while the node is the target of a migration is recorded with the spec as it is and with the
fingerprints of after the cutover; and a refresh of the mounted volumes writes a fingerprint and not
the spec.  Where neither happens, spec and fingerprints agree in every state
(`recorded_fingerprints_agree`).  After a migration the recorded spec still names the target, so
that the next change of the Ship is unsupported (`migrated_spec_keeps_target`).
-/

namespace Tugboat.Hotplug

open Volume

/-! ## Fingerprints -/

/-- The fields that need a new machine. -/
structure SpecFields where
  image : String
  shipClass : String
  networkClassRef : List Workload.ShipNetworkClassReference
  uefi : Option Bool
  targetNodeName : Option String
  deriving DecidableEq, Repr

structure MaterializedVolumeFields where
  serviceAccountName : Option String
  automountServiceAccountToken : Option Bool
  volumes : List NormalizedVolume
  deriving DecidableEq, Repr

/-- SHA-256 of the JSON form of the records. -/
structure Fingerprinting where
  spec : SpecFields → String
  pvcVolume : List NormalizedVolume → String
  materializedVolume : MaterializedVolumeFields → String

structure ShipFingerprints where
  spec : String
  pvcVolume : String
  materializedVolume : String
  deriving DecidableEq, Repr

def specFields (spec : Workload.ShipSpec) : SpecFields where
  image := spec.image
  shipClass := spec.shipClass
  networkClassRef := spec.networkClassRef
  uefi := spec.uefi
  targetNodeName := spec.targetNodeName

def isPvcVolume (volume : NormalizedVolume) : Bool := volume.pvcClaim.isSome

def materializedVolumeFields (spec : Workload.ShipSpec) (volumes : List NormalizedVolume) :
    MaterializedVolumeFields where
  serviceAccountName := spec.serviceAccountName
  automountServiceAccountToken := spec.automountServiceAccountToken
  volumes := volumes.filter fun volume => !isPvcVolume volume

section Fingerprints

variable (f : Fingerprinting)

def ShipFingerprints.new (spec : Workload.ShipSpec) : Except VolumeError ShipFingerprints := do
  let volumes ← normalizedShipVolumes spec
  return { spec := f.spec (specFields spec)
           pvcVolume := f.pvcVolume (volumes.filter isPvcVolume)
           materializedVolume := f.materializedVolume (materializedVolumeFields spec volumes) }

/-- The fingerprints a machine is recorded with: those of the Ship after the cutover, if the node is
the target of a migration. -/
def runtimeFingerprintsForShip (spec : Workload.ShipSpec) (localNodeName : String) :
    Except VolumeError ShipFingerprints :=
  if spec.targetNodeName = some localNodeName then
    ShipFingerprints.new f { spec with nodeName := some localNodeName, targetNodeName := none }
  else ShipFingerprints.new f spec

end Fingerprints

inductive ModifyPlan
  | unchanged
  | runtimeReconfigure (specChanged pvcChanged : Bool)
  | refreshMaterializedVolumes (materializedVolumeFingerprint : String)
  deriving DecidableEq, Repr

def planModifyAction (specChanged pvcChanged materializedVolumeChanged : Bool)
    (fingerprints : ShipFingerprints) : ModifyPlan :=
  if specChanged || pvcChanged then .runtimeReconfigure specChanged pvcChanged
  else if materializedVolumeChanged then
    .refreshMaterializedVolumes fingerprints.materializedVolume
  else .unchanged

/-- Changes of a spec that a hotplug does not support: the flag `try_reconcile_hotplug` hands to the
classifier. -/
def hasUnsupportedSpecChanges (oldSpec newSpec : Workload.ShipSpec)
    (oldArchitecture newArchitecture : String) : Bool :=
  oldSpec.image ≠ newSpec.image || oldSpec.uefi ≠ newSpec.uefi ||
    oldSpec.targetNodeName ≠ newSpec.targetNodeName || oldArchitecture ≠ newArchitecture

/-! ## What the agent knows of its machines -/

/-- What is recorded of a machine. -/
structure Runtime where
  shipSpec : Workload.ShipSpec
  fingerprints : ShipFingerprints
  publishedVolumes : List PublishedVolume := []
  deriving DecidableEq, Repr

/-- The machines by the identifiers of their Ships. -/
abbrev Children := String → Option Runtime

/-- What the reconcile of an applied Ship came to. -/
inductive Outcome
  /-- Nothing was written: nothing to do, an error, or a migration that is under way. -/
  | nothing
  /-- A machine was made, made anew, or found. -/
  | registered (publishedVolumes : List PublishedVolume)
  | hotplugged (publishedVolumes : List PublishedVolume)
  | refreshed
  /-- The machine was switched off: a migration away from the node was finished, or a machine was
  deleted to be made anew and that failed. -/
  | removed
  deriving DecidableEq, Repr

inductive NodeEvent
  | applied (id : String) (spec : Workload.ShipSpec) (outcome : Outcome)
  | deleted (id : String)
  | restarted

namespace Children

variable (f : Fingerprinting) (node : String)

/-- `create` and `register_existing`, as `reconcile_added` calls them. -/
def register (s : Children) (id : String) (spec : Workload.ShipSpec)
    (publishedVolumes : List PublishedVolume) : Children :=
  match runtimeFingerprintsForShip f spec node with
  | .ok fingerprints =>
    Function.update s id (some { shipSpec := spec, fingerprints, publishedVolumes })
  | .error _ => s

/-- What `reconcile_modified` plans for a machine. -/
def planFor (r : Runtime) (fingerprints : ShipFingerprints) : ModifyPlan :=
  planModifyAction (r.fingerprints.spec ≠ fingerprints.spec)
    (r.fingerprints.pvcVolume ≠ fingerprints.pvcVolume)
    (r.fingerprints.materializedVolume ≠ fingerprints.materializedVolume) fingerprints

/-- An applied Ship whose machine is recorded. -/
def modify (s : Children) (id : String) (r : Runtime) (spec : Workload.ShipSpec)
    (fingerprints : ShipFingerprints) (outcome : Outcome) : Children :=
  match planFor r fingerprints, outcome with
  | .runtimeReconfigure _ _, .hotplugged publishedVolumes =>
    Function.update s id (some { shipSpec := spec, fingerprints, publishedVolumes })
  | .runtimeReconfigure _ _, .registered publishedVolumes =>
    register f node (Function.update s id none) id spec publishedVolumes
  | .runtimeReconfigure _ _, .removed => Function.update s id none
  | .refreshMaterializedVolumes fingerprint, .refreshed =>
    Function.update s id (some { r with fingerprints :=
      { r.fingerprints with materializedVolume := fingerprint } })
  | _, _ => s

def step (s : Children) : NodeEvent → Children
  | .applied id spec outcome =>
    match s id with
    | none =>
      match outcome with
      | .registered publishedVolumes => register f node s id spec publishedVolumes
      | _ => s
    | some r =>
      match ShipFingerprints.new f spec with
      | .ok fingerprints => modify f node s id r spec fingerprints outcome
      | .error _ => s
  | .deleted id => Function.update s id none
  | .restarted => fun _ => none

end Children

/-! ## Agreement -/

def Agrees (f : Fingerprinting) (r : Runtime) : Prop :=
  ShipFingerprints.new f r.shipSpec = .ok r.fingerprints

/-- The event writes no spec that has the node as its target, and does not refresh mounted
volumes. -/
def NodeEvent.WritesWhole (node : String) : NodeEvent → Prop
  | .applied _ spec (.registered _) | .applied _ spec (.hotplugged _) =>
    spec.targetNodeName ≠ some node
  | .applied _ _ .refreshed => False
  | _ => True

instance (node : String) : (e : NodeEvent) → Decidable (e.WritesWhole node) := by
  intro e
  unfold NodeEvent.WritesWhole
  split <;> infer_instance

/-- What is recorded of every machine agrees, and is not the spec of a migration to the node. -/
def AllAgree (f : Fingerprinting) (node : String) (s : Children) : Prop :=
  ∀ id r, s id = some r → Agrees f r ∧ r.shipSpec.targetNodeName ≠ some node

section Steps

variable {f : Fingerprinting} {node : String} {s : Children} {id : String}
  {spec : Workload.ShipSpec}

lemma AllAgree.update_none (h : AllAgree f node s) :
    AllAgree f node (Function.update s id none) := by
  intro other r hr
  by_cases hid : other = id
  · subst hid
    simp [Function.update_self] at hr
  · rw [Function.update_of_ne hid] at hr
    exact h other r hr

lemma AllAgree.update_some (h : AllAgree f node s) {r : Runtime} (hr : Agrees f r)
    (htarget : r.shipSpec.targetNodeName ≠ some node) :
    AllAgree f node (Function.update s id (some r)) := by
  intro other r' hr'
  by_cases hid : other = id
  · subst hid
    rw [Function.update_self] at hr'
    cases hr'
    exact ⟨hr, htarget⟩
  · rw [Function.update_of_ne hid] at hr'
    exact h other r' hr'

/-- A machine that is recorded while the node is not the target is recorded with the fingerprints
of its spec. -/
lemma AllAgree.register (h : AllAgree f node s) (htarget : spec.targetNodeName ≠ some node)
    (publishedVolumes : List PublishedVolume) :
    AllAgree f node (s.register f node id spec publishedVolumes) := by
  unfold Children.register
  split
  next fingerprints hfingerprints =>
    rw [runtimeFingerprintsForShip, if_neg htarget] at hfingerprints
    exact h.update_some hfingerprints htarget
  · exact h

lemma AllAgree.modify (h : AllAgree f node s) {r : Runtime} {fingerprints : ShipFingerprints}
    (hnew : ShipFingerprints.new f spec = .ok fingerprints) {outcome : Outcome}
    (hwhole : (NodeEvent.applied id spec outcome).WritesWhole node) :
    AllAgree f node (s.modify f node id r spec fingerprints outcome) := by
  unfold Children.modify
  split
  · exact h.update_some hnew hwhole
  · exact h.update_none.register hwhole _
  · exact h.update_none
  · exact hwhole.elim
  · exact h

lemma AllAgree.step (h : AllAgree f node s) {e : NodeEvent} (hwhole : e.WritesWhole node) :
    AllAgree f node (s.step f node e) := by
  cases e with
  | deleted id => exact h.update_none
  | restarted => exact fun id r hr => absurd hr (by simp [Children.step])
  | applied id spec outcome =>
    cases hid : s id with
    | none =>
      simp only [Children.step, hid]
      split
      · exact h.register hwhole _
      · exact h
    | some r =>
      simp only [Children.step, hid]
      split
      next fingerprints hnew =>
        exact h.modify hnew hwhole
      · exact h

end Steps

/-- If no machine is recorded while the node is the target of its migration and no mounted volumes
are refreshed, then the recorded fingerprints are always those of the recorded specs; and if the
recorded spec has no other target than the node, a change to a spec without a target is unsupported
only if the image, the firmware or the architecture changes. -/
theorem recorded_fingerprints_agree (f : Fingerprinting) (node : String) (events : List NodeEvent)
    (h : Run.AllSteps (Children.step f node) (fun _ e => e.WritesWhole node) (fun _ => none)
      events) :
    Run.AllStates (Children.step f node) (fun s => ∀ id r, s id = some r →
      Agrees f r ∧
      ∀ newSpec oldArchitecture newArchitecture, newSpec.targetNodeName = none →
        (r.shipSpec.targetNodeName = none ∨ r.shipSpec.targetNodeName = some node) →
        (hasUnsupportedSpecChanges r.shipSpec newSpec oldArchitecture newArchitecture = true ↔
          r.shipSpec.image ≠ newSpec.image ∨ r.shipSpec.uefi ≠ newSpec.uefi ∨
            oldArchitecture ≠ newArchitecture)) (fun _ => none) events := by
  refine Run.AllStates.of_invariant (I := AllAgree f node) (fun s e hs hwhole => hs.step hwhole) ?_
    _ events (fun id r hr => absurd hr (by simp)) h
  intro s hs id r hr
  obtain ⟨hagrees, htarget⟩ := hs id r hr
  refine ⟨hagrees, fun newSpec oldArchitecture newArchitecture hnew hold => ?_⟩
  have hnone : r.shipSpec.targetNodeName = newSpec.targetNodeName := by
    rw [hnew]
    exact hold.resolve_right htarget
  simp [hasUnsupportedSpecChanges, hnone, or_assoc]

/-! ## A Ship that moves to the node

The Ship runs on `node-a` and migrates to `node-b`; after the cutover it is given a larger class.
Seen from `node-b`, the first event makes the receiving machine and the second changes nothing,
since the fingerprints were those of the Ship after the cutover all along. -/

/-- Fingerprints that tell the specs of this section apart. -/
def joinedFields : Fingerprinting where
  spec fields := fields.image ++ "/" ++ fields.shipClass ++ "/" ++ fields.targetNodeName.getD ""
  pvcVolume _ := ""
  materializedVolume _ := ""

def residentSpec (shipClass : String) : Workload.ShipSpec :=
  { image := "web", shipClass, nodeName := some "node-b" }

def arrivingSpec : Workload.ShipSpec :=
  { image := "web", shipClass := "small", nodeName := some "node-a"
    targetNodeName := some "node-b" }

def residentRuntime (shipClass : String) : Runtime :=
  { shipSpec := residentSpec shipClass
    fingerprints := ⟨"web/" ++ shipClass ++ "/", "", ""⟩ }

/-- A Ship that was made on the node, and then hotplugged. -/
theorem recorded_fingerprints_agree_resident :
    Run.exec (Children.step joinedFields "node-b") (fun _ => none)
        [.applied "ship" (residentSpec "small") (.registered []),
          .applied "ship" (residentSpec "large") (.hotplugged [])] "ship" =
      some (residentRuntime "large") ∧
    Agrees joinedFields (residentRuntime "large") :=
  ⟨by decide +kernel,
    ((recorded_fingerprints_agree joinedFields "node-b"
      [.applied "ship" (residentSpec "small") (.registered []),
        .applied "ship" (residentSpec "large") (.hotplugged [])]
      ⟨by decide, by decide, trivial⟩).exec "ship" _ (by decide +kernel)).1⟩

def arrivedRuntime : Runtime :=
  { shipSpec := arrivingSpec, fingerprints := ⟨"web/small/", "", ""⟩ }

/-- The plan for the larger class, from the spec that is recorded. -/
def arrivedPlan (recorded : Workload.ShipSpec) : HotplugPlan :=
  classifyHotplugChanges (fun _ => Hex.Digest.ofBytes []) "ship" recorded (residentSpec "large")
    { currentCpuCores := 2, currentMemoryBytes := 2147483648, currentNicIds := []
      currentVolumeIds := [] }
    { desiredCpuCores := 4, desiredMemoryBytes := 2147483648, memorySize := "2Gi" }
    (some { cpu := some ⟨true, true⟩ })
    (hasUnsupportedSpecChanges recorded (residentSpec "large") "x86_64" "x86_64")

/-- After the cutover the record still has the spec of the migration under the fingerprints of the
Ship as it is.  A larger class, which could be hotplugged, is then unsupported. -/
theorem migrated_spec_keeps_target :
    Run.exec (Children.step joinedFields "node-b") (fun _ => none)
        [.applied "ship" arrivingSpec (.registered []),
          .applied "ship" (residentSpec "small") .nothing] "ship" = some arrivedRuntime ∧
    ShipFingerprints.new joinedFields (residentSpec "small") = .ok arrivedRuntime.fingerprints ∧
    ¬ Agrees joinedFields arrivedRuntime ∧
    (arrivedPlan arrivedRuntime.shipSpec).hasUnsupportedChanges = true ∧
    (arrivedPlan (residentSpec "small")).hasUnsupportedChanges = false ∧
    (arrivedPlan (residentSpec "small")).hotplugReq ≠ none := by
  refine ⟨by decide +kernel, by rfl, ?_, by decide +kernel, by decide +kernel, by decide +kernel⟩
  intro hagrees
  have hspec : ShipFingerprints.new joinedFields arrivingSpec =
      .ok ⟨"web/small/node-b", "", ""⟩ := by rfl
  rw [Agrees, arrivedRuntime, hspec] at hagrees
  exact absurd hagrees (by decide)

end Tugboat.Hotplug
