import Tugboat.Resources.Workload

/-!
# What kind of change a template makes

`classify_template_change` compares two templates and says how the step from one to the other can be
made: by new Ships (`requiresRotation`), by updating the Ships there are (`inPlace`), or by adding
and removing parts of them while they run (`hotplug`).  The comparison leaves out the default
service account and its token volume, which the API server fills in by itself.

The one fact controllers rely on is that `noChange` is the answer for equal templates and for no
others.
-/

namespace Tugboat.Workload

inductive TemplateChangeKind
  | noChange
  | inPlace
  | hotplug
  | requiresRotation
  deriving DecidableEq, Repr

/-! ## Lists of references -/

inductive ChangeDirection
  | noChange
  | add
  | remove
  | mixed
  | reordered
  deriving DecidableEq, Repr

def diffDirection {α : Type} [DecidableEq α] (old new : List α) : ChangeDirection :=
  match new.any (· ∉ old), old.any (· ∉ new) with
  | false, false => if old = new then .noChange else .reordered
  | true, false => .add
  | false, true => .remove
  | true, true => .mixed

/-- What a change of references needs from the runtime: nothing, hotplug, or (`none`) new Ships.
The source has this twice, for networks and for volumes. -/
def hotplugFor {α : Type} [DecidableEq α] (capabilities : Option HotplugCapabilities)
    (old new : List α) : Option Bool :=
  let addAllowed := (capabilities.map (·.add)).getD false
  let removeAllowed := (capabilities.map (·.remove)).getD false
  match diffDirection old new with
  | .add => if addAllowed then some true else none
  | .remove => if removeAllowed then some true else none
  | .mixed => if addAllowed && removeAllowed then some true else none
  | .reordered => none
  | .noChange => some false

/-! ## The rest of the spec -/

def isDefaultServiceAccountTokenVolume (volume : ShipVolume) : Bool :=
  if volume.name ≠ "serviceaccount-token" ∨ volume.persistentVolumeClaim.isSome ∨
      volume.configMap.isSome ∨ volume.secret.isSome then false
  else
    match volume.projected with
    | some { sources := [source], .. } => source.serviceAccountToken.any (·.path = "token")
    | _ => false

def normalizeServiceAccountDefaults (spec : ShipSpec) : ShipSpec :=
  { spec with
    serviceAccountName :=
      if spec.serviceAccountName = some "default" then none else spec.serviceAccountName
    automountServiceAccountToken :=
      if spec.automountServiceAccountToken = some true then none
      else spec.automountServiceAccountToken
    volumes := spec.volumes.filter fun volume => !isDefaultServiceAccountTokenVolume volume }

/-- The spec without the fields that are compared one by one. -/
def otherFields (spec : Option ShipSpec) : ShipSpec :=
  normalizeServiceAccountDefaults { spec.getD {} with
    image := "", uefi := none, networkClassRef := [], volumeClaimRef := [] }

def hasOtherChanges (oldSpec newSpec : Option ShipSpec) : Bool :=
  otherFields oldSpec ≠ otherFields newSpec

def supportsGenericHotplug (runtimeClass : RuntimeClass) : Bool :=
  let hotplug := runtimeClass.spec.bind (·.hotplug)
  (hotplug.bind (·.cpu)).any (fun cap => cap.add || cap.remove) ||
    (hotplug.bind (·.memory)).any (fun cap => cap.add || cap.remove)

/-! ## The classification -/

/-- What the changes of a spec need when the runtime class is known. -/
def hotplugForSpec (oldSpec newSpec : Option ShipSpec) (runtimeClass : RuntimeClass) :
    Option Bool := do
  let hotplug := runtimeClass.spec.bind (·.hotplug)
  let networkChanged := oldSpec.map (·.networkClassRef) ≠ newSpec.map (·.networkClassRef)
  let volumeChanged := oldSpec.map (·.volumeClaimRef) ≠ newSpec.map (·.volumeClaimRef)
  let forNetworks ← if networkChanged then
      hotplugFor (hotplug.bind (·.nic)) ((oldSpec.map (·.networkClassRef)).getD [])
        ((newSpec.map (·.networkClassRef)).getD [])
    else some false
  let forVolumes ← if volumeChanged then
      hotplugFor (hotplug.bind (·.storage)) ((oldSpec.map (·.volumeClaimRef)).getD [])
        ((newSpec.map (·.volumeClaimRef)).getD [])
    else some false
  let forOthers ← if hasOtherChanges oldSpec newSpec then
      if supportsGenericHotplug runtimeClass then some true else none
    else some false
  return forNetworks || forVolumes || forOthers

def classifyTemplateChange (old new : ShipTemplateSpec) (runtimeClass : Option RuntimeClass) :
    TemplateChangeKind :=
  if old = new then .noChange
  else if old.spec.map (·.image) ≠ new.spec.map (·.image) ∨
      old.spec.map (·.uefi) ≠ new.spec.map (·.uefi) then .requiresRotation
  else
    match runtimeClass with
    | none =>
      if old.spec.map (·.networkClassRef) ≠ new.spec.map (·.networkClassRef) ∨
          old.spec.map (·.volumeClaimRef) ≠ new.spec.map (·.volumeClaimRef) then
        .requiresRotation
      else .inPlace
    | some runtimeClass =>
      match hotplugForSpec old.spec new.spec runtimeClass with
      | none => .requiresRotation
      | some true => .hotplug
      | some false => .inPlace

lemma classifyTemplateChange_eq_noChange_iff {old new : ShipTemplateSpec}
    {runtimeClass : Option RuntimeClass} :
    classifyTemplateChange old new runtimeClass = .noChange ↔ old = new := by
  constructor
  · intro h
    by_contra hne
    unfold classifyTemplateChange at h
    rw [if_neg hne] at h
    split at h
    · cases h
    split at h
    · split at h
      · cases h
      · cases h
    · split at h
      · cases h
      · cases h
      · cases h
  · intro h
    unfold classifyTemplateChange
    rw [if_pos h]

end Tugboat.Workload
