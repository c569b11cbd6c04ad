import Tugboat.Agent.Networks
import Tugboat.Agent.ShipVolumes
import Tugboat.Resources.SizedString

/-!
# Planning a hotplug

When the spec of a running Ship changes, the agent plans a request that brings the virtual machine
from the old spec to the new one (`classifyHotplugChanges`).  CPUs and memory are compared by their
amounts, networks and volumes by their keys.  The identifiers of the devices are found by position:
the i-th identifier of the baseline belongs to the i-th network, or alias, of the old spec.  What is
left of them, with those of the added devices behind, is recorded and is the next baseline.  A
change that the runtime class does not allow, or that cannot be told from the keys, is unsupported,
and the virtual machine is made anew.

`classifyDevices_spec` says what a supported change does to the devices of one kind.  What is
recorded of a memory that is not changed is a number without a suffix, which is not a size, so that
the next baseline is the memory of the old class (`memoryBaseline_of_unplanned`).
-/

namespace Tugboat.Hotplug

open VmRuntime Network Volume Hex KeyDiff

/-! ## Baseline, aim and plan -/

structure ShipActualAllocation where
  cpuCores : Option ℕ := none
  memorySize : Option String := none
  nicIds : List String := []
  volumeIds : List String := []
  deriving DecidableEq, Repr

structure HotplugBaseline where
  currentCpuCores : ℕ
  currentMemoryBytes : ℕ
  currentNicIds : List String := []
  currentVolumeIds : List String := []
  deriving DecidableEq, Repr

structure HotplugDesired where
  desiredCpuCores : ℕ
  desiredMemoryBytes : ℕ
  memorySize : String
  nicsAdded : List VmNetworkConfig := []
  volumesAdded : List VmVolumeConfig := []
  deriving DecidableEq, Repr

structure HotplugPlan where
  hotplugReq : Option VmHotplugRequest
  hasUnsupportedChanges : Bool
  actualAllocation : ShipActualAllocation
  deriving DecidableEq, Repr

def parseMemorySize (value : String) : Option ℕ := SizedString.asByteLength value

def byteSizeString (size : ℕ) : String := toString size

/-! ## CPUs and memory

The classifications carry the flag that the source sets through a reference. -/

/-- Whether the capabilities allow to go from one amount to another one. -/
def allowsChange (capabilities : Option HotplugCapabilities) (current desired : ℕ) : Bool :=
  if desired > current then (capabilities.map (·.add)).getD false
  else (capabilities.map (·.remove)).getD false

structure CpuClassification where
  config : Option VmCpuHotplugConfig
  actualCores : ℕ
  unsupported : Bool := false
  deriving DecidableEq, Repr

def classifyCpu (baseline : HotplugBaseline) (desired : HotplugDesired) (hotplug : RuntimeHotplug) :
    CpuClassification :=
  if desired.desiredCpuCores = baseline.currentCpuCores then
    { config := none, actualCores := baseline.currentCpuCores }
  else if allowsChange hotplug.cpu baseline.currentCpuCores desired.desiredCpuCores then
    { config := some ⟨desired.desiredCpuCores⟩, actualCores := desired.desiredCpuCores }
  else { config := none, actualCores := baseline.currentCpuCores, unsupported := true }

structure MemoryClassification where
  config : Option VmMemoryHotplugConfig
  actualSize : String
  unsupported : Bool := false
  deriving DecidableEq, Repr

def classifyMemory (baseline : HotplugBaseline) (desired : HotplugDesired)
    (hotplug : RuntimeHotplug) : MemoryClassification :=
  if desired.desiredMemoryBytes = baseline.currentMemoryBytes then
    { config := none, actualSize := byteSizeString baseline.currentMemoryBytes }
  else if allowsChange hotplug.memory baseline.currentMemoryBytes desired.desiredMemoryBytes then
    { config := some ⟨desired.desiredMemoryBytes⟩, actualSize := desired.memorySize }
  else
    { config := none, actualSize := byteSizeString baseline.currentMemoryBytes
      unsupported := true }

/-! ## Devices -/

def addedIndexes (old new : List String) : List ℕ := KeyDiff.absentFrom old new 0

def removedIndexes (old new : List String) : List ℕ := KeyDiff.absentFrom new old 0

def retainedOrder (base other : List String) : List String := base.filter (· ∈ other)

structure DeviceClassification (γ : Type) where
  added : List γ := []
  removed : List String := []
  currentIds : List String
  unsupported : Bool := false

/-- One turn of the loop over the positions of removed devices. -/
def removeIndex {γ : Type} (allowed : Bool) (c : DeviceClassification γ) (index : ℕ) :
    DeviceClassification γ :=
  match c.currentIds[index]?, allowed with
  | some id, true =>
    { c with currentIds := c.currentIds.eraseIdx index, removed := c.removed ++ [id] }
  | _, _ => { c with unsupported := true }

/-- The removals: positions from the last to the first, identifiers from the first to the last. -/
def classifyRemoved {γ : Type} (oldKeys newKeys ids : List String)
    (capabilities : Option HotplugCapabilities) : DeviceClassification γ :=
  if retainedOrder oldKeys newKeys ≠ retainedOrder newKeys oldKeys then
    { currentIds := ids, unsupported := true }
  else
    let c := (removedIndexes oldKeys newKeys).reverse.foldl
      (removeIndex ((capabilities.map (·.remove)).getD false)) { currentIds := ids }
    { c with removed := c.removed.reverse }

/-- The body that `classify_networks` and `classify_volumes` share: what is to be added is
described by `desired`, and `addable` says whether it can be plugged into a running machine. -/
def classifyDevices {γ : Type} (oldKeys newKeys ids : List String)
    (capabilities : Option HotplugCapabilities) (desired : List γ) (deviceId : γ → String)
    (addable : Bool) : DeviceClassification γ :=
  let c := classifyRemoved oldKeys newKeys ids capabilities
  if addedIndexes oldKeys newKeys = [] then c
  else if (capabilities.map (·.add)).getD false = false ∨
      (addedIndexes oldKeys newKeys).length ≠ desired.length ∨ addable = false then
    { c with unsupported := true }
  else { c with added := desired, currentIds := c.currentIds ++ desired.map deviceId }

section Classifier

variable (sha256 : String → Digest)

def classifyNetworks (oldSpec newSpec : Workload.ShipSpec) (baseline : HotplugBaseline)
    (desired : HotplugDesired) (hotplug : RuntimeHotplug) : DeviceClassification VmNetworkConfig :=
  classifyDevices (networkKeys oldSpec) (networkKeys newSpec) baseline.currentNicIds hotplug.nic
    desired.nicsAdded (fun nic => nicDeviceId sha256 nic.macAddress) true

def classifyVolumes (oldSpec newSpec : Workload.ShipSpec) (baseline : HotplugBaseline)
    (desired : HotplugDesired) (hotplug : RuntimeHotplug) : DeviceClassification VmVolumeConfig :=
  classifyDevices (pvcVolumeAliases oldSpec) (pvcVolumeAliases newSpec) baseline.currentVolumeIds
    hotplug.storage desired.volumesAdded (fun volume => volumeDeviceId sha256 volume.hostPath)
    (desired.volumesAdded.all (·.kind = .block))

def classifyHotplugChanges (shipId : String) (oldSpec newSpec : Workload.ShipSpec)
    (baseline : HotplugBaseline) (desired : HotplugDesired) (hotplug : Option RuntimeHotplug)
    (hasUnsupportedSpecChanges : Bool) : HotplugPlan :=
  let hotplug := hotplug.getD {}
  let cpu := classifyCpu baseline desired hotplug
  let memory := classifyMemory baseline desired hotplug
  let networks := classifyNetworks sha256 oldSpec newSpec baseline desired hotplug
  let volumes := classifyVolumes sha256 oldSpec newSpec baseline desired hotplug
  { hotplugReq :=
      if cpu.config.isSome ∨ memory.config.isSome ∨ networks.added ≠ [] ∨ networks.removed ≠ [] ∨
          volumes.added ≠ [] ∨ volumes.removed ≠ [] then
        some { id := shipId, cpu := cpu.config, memory := memory.config,
               nicsAdded := networks.added, nicsRemoved := networks.removed,
               volumesAdded := volumes.added, volumesRemoved := volumes.removed }
      else none
    hasUnsupportedChanges := hasUnsupportedSpecChanges || cpu.unsupported || memory.unsupported ||
      networks.unsupported || volumes.unsupported
    actualAllocation :=
      { cpuCores := some cpu.actualCores, memorySize := some memory.actualSize,
        nicIds := networks.currentIds, volumeIds := volumes.currentIds } }

/-! ## The baseline

It is read from the actual allocation, and where that says nothing from the old class, the old
networks and the volumes that are published. -/

def cpuBaseline (alloc : Option ShipActualAllocation) (oldClassCores : ℕ) : ℕ :=
  (alloc.bind (·.cpuCores)).getD oldClassCores

def memoryBaseline (alloc : Option ShipActualAllocation) (oldClassBytes : ℕ) : ℕ :=
  ((alloc.bind (·.memorySize)).bind parseMemorySize).getD oldClassBytes

def currentNicIds (alloc : Option ShipActualAllocation) (shipId : String)
    (oldSpec : Workload.ShipSpec) (oldClasses : List NetworkClassInfo) : List String :=
  let statusIds := (alloc.map (·.nicIds)).getD []
  if statusIds.length = oldSpec.networkClassRef.length then statusIds
  else oldClasses.map fun info =>
    nicDeviceId sha256 (macAddress sha256 info.namespace info.name shipId)

def currentVolumeIds (alloc : Option ShipActualAllocation) (oldSpec : Workload.ShipSpec)
    (published : List PublishedVolume) : Except VolumeError (List String) := do
  let statusIds := (alloc.map (·.volumeIds)).getD []
  let oldAliases ← pvcAliases oldSpec
  return if statusIds.length = oldAliases.length then statusIds
    else oldAliases.filterMap fun name =>
      (published.find? (·.claimName = name)).map fun volume =>
        volumeDeviceId sha256 volume.targetPath

end Classifier

/-! ## Classes of Ships

A class gives the cores and the memory of a virtual machine; the memory is written with a suffix. -/

def shipClassSpec (shipClass : ShipClass String) : Except ReconcileError (ShipClassSpec String) :=
  match shipClass.spec with
  | some spec => .ok spec
  | none => .error (.fieldMissing "v1.ShipClass" "spec")

def shipClassCpu (shipClass : ShipClass String) : Except ReconcileError CpuSpec := do
  match (← shipClassSpec shipClass).cpu with
  | some cpu => .ok cpu
  | none => .error (.fieldMissing "v1.ShipClass" "spec.cpu")

def shipClassCpuCores (shipClass : ShipClass String) : Except ReconcileError ℕ :=
  (shipClassCpu shipClass).map (·.cores)

def shipClassArchitecture (shipClass : ShipClass String) : Except ReconcileError String :=
  (shipClassCpu shipClass).map (·.architecture)

def shipClassMemorySizeString (shipClass : ShipClass String) : Except ReconcileError String := do
  match (← shipClassSpec shipClass).memory with
  | some memory => .ok memory
  | none => .error (.fieldMissing "v1.ShipClass" "spec.memory")

def shipClassMemoryBytes (shipClass : ShipClass String) : Except ReconcileError ℕ := do
  let size ← shipClassMemorySizeString shipClass
  match parseMemorySize size with
  | some bytes => .ok bytes
  | none => .error (.runtime (.other ("Invalid memory size: " ++ size)))

/-- What a new class and the prepared additions ask for. -/
def hotplugDesired (newClass : ShipClass String) (nicsAdded : List VmNetworkConfig)
    (volumesAdded : List VmVolumeConfig) : Except ReconcileError HotplugDesired := do
  let desiredCpuCores ← shipClassCpuCores newClass
  let desiredMemoryBytes ← shipClassMemoryBytes newClass
  let memorySize ← shipClassMemorySizeString newClass
  return { desiredCpuCores, desiredMemoryBytes, memorySize, nicsAdded, volumesAdded }

variable {desired : HotplugDesired}

lemma parseMemorySize_of_hotplugDesired {newClass : ShipClass String}
    {nicsAdded : List VmNetworkConfig}
    {volumesAdded : List VmVolumeConfig}
    (h : hotplugDesired newClass nicsAdded volumesAdded = .ok desired) :
    parseMemorySize desired.memorySize = some desired.desiredMemoryBytes ∧
      desired.nicsAdded = nicsAdded ∧ desired.volumesAdded = volumesAdded := by
  obtain ⟨cores, -, h⟩ := bind_eq_ok_iff.1 h
  obtain ⟨bytes, hbytes, h⟩ := bind_eq_ok_iff.1 h
  obtain ⟨size, hsize, h⟩ := bind_eq_ok_iff.1 h
  cases h
  refine ⟨?_, rfl, rfl⟩
  obtain ⟨size', hsize', hbytes⟩ := bind_eq_ok_iff.1 hbytes
  cases hsize.symm.trans hsize'
  split at hbytes
  next found hfound =>
    cases hbytes
    exact hfound
  · cases hbytes

/-! ## Memory that reads back -/

variable {baseline : HotplugBaseline}

lemma actualSize_of_planned {hotplug : RuntimeHotplug} {config : VmMemoryHotplugConfig}
    (h : (classifyMemory baseline desired hotplug).config = some config) :
    (classifyMemory baseline desired hotplug).actualSize = desired.memorySize ∧
      config.size = desired.desiredMemoryBytes := by
  unfold classifyMemory at h ⊢
  split at h
  · cases h
  split at h
  next hne hallowed =>
    cases h
    rw [if_neg hne, if_pos hallowed]
    exact ⟨rfl, rfl⟩
  · cases h

/-- What is recorded for a memory that is not changed is not a size. -/
lemma parseMemorySize_actualSize_of_unplanned {hotplug : RuntimeHotplug}
    (h : (classifyMemory baseline desired hotplug).config = none) :
    parseMemorySize (classifyMemory baseline desired hotplug).actualSize = none := by
  have hplain : parseMemorySize (byteSizeString baseline.currentMemoryBytes) = none :=
    SizedString.asByteLength_toString _
  unfold classifyMemory at h ⊢
  split at h
  next heq =>
    rw [if_pos heq]
    exact hplain
  · split at h
    · cases h
    rename_i hne hnot
    rw [if_neg hne, if_neg hnot]
    exact hplain

/-- **A memory that is not changed is not remembered.**  Unless a hotplug changes the memory, the
next baseline is the memory of the old class, whatever the machine has. -/
theorem memoryBaseline_of_unplanned (sha256 : String → Digest) (shipId : String)
    (oldSpec newSpec : Workload.ShipSpec) (baseline : HotplugBaseline) (desired : HotplugDesired)
    (hotplug : Option RuntimeHotplug) (flag : Bool) (oldClassBytes : ℕ) :
    let plan := classifyHotplugChanges sha256 shipId oldSpec newSpec baseline desired hotplug flag
    (plan.hotplugReq.bind (·.memory)).isSome = true ∨
      memoryBaseline (some plan.actualAllocation) oldClassBytes = oldClassBytes := by
  cases hconfig : (classifyMemory baseline desired (hotplug.getD {})).config with
  | none =>
    right
    change ((some (classifyMemory baseline desired (hotplug.getD {})).actualSize).bind
      parseMemorySize).getD oldClassBytes = oldClassBytes
    rw [Option.bind_some, parseMemorySize_actualSize_of_unplanned hconfig]
    rfl
  | some config =>
    left
    simp [classifyHotplugChanges, hconfig]

/-! ## Volumes to add -/

structure CsiPersistentVolumeSource where
  driver : String := ""
  volumeHandle : String := ""
  deriving DecidableEq, Repr

structure PersistentVolumeClaimVolumeInfo where
  name : String
  claimName : String
  volumeName : String := ""
  volumeMode : Option String := none
  source : CsiPersistentVolumeSource := {}
  deriving DecidableEq, Repr

inductive VolumeInfo
  | persistentVolumeClaim (info : PersistentVolumeClaimVolumeInfo)
  | materialized (name : String)
  deriving DecidableEq, Repr

def VolumeInfo.claim : VolumeInfo → Option PersistentVolumeClaimVolumeInfo
  | .persistentVolumeClaim info => some info
  | .materialized _ => none

/-- What was found for a volume of a spec. -/
def LoadedVolume (volume : NormalizedVolume) (info : VolumeInfo) : Prop :=
  match volume.source with
  | .persistentVolumeClaim claimName => ∃ volumeName volumeMode source,
      info = .persistentVolumeClaim
        { name := volume.name, claimName, volumeName, volumeMode, source }
  | _ => info = .materialized volume.name

/-- The volumes were found; `get_related_volumes` returns this if it does not fail. -/
def LoadedVolumes : List NormalizedVolume → List VolumeInfo → Prop := List.Forall₂ LoadedVolume

def addedVolumeInfos (oldAliases newAliases : List String) (newVolumes : List VolumeInfo) :
    List VolumeInfo :=
  newVolumes.filter fun volume =>
    (volume.claim.map fun info =>
      decide (info.name ∈ newAliases.filter (· ∉ oldAliases))).getD false

def claimsOf (volumes : List VolumeInfo) : List (String × String) :=
  volumes.filterMap fun volume => volume.claim.map fun info => (info.name, info.claimName)

lemma claimsOf_loaded {volumes : List NormalizedVolume} {infos : List VolumeInfo}
    (h : LoadedVolumes volumes infos) : claimsOf infos = pvcClaims volumes := by
  induction h with
  | nil => rfl
  | @cons volume info volumes infos hhead _ ih =>
    obtain ⟨name, source⟩ := volume
    cases source with
    | persistentVolumeClaim claimName =>
      obtain ⟨volumeName, volumeMode, source, rfl⟩ := hhead
      exact congrArg ((name, claimName) :: ·) ih
    | configMap _ _ _ _ | secret _ _ _ _ | projected _ _ => cases hhead; exact ih

lemma claimsOf_addedVolumeInfos (oldAliases newAliases : List String) (infos : List VolumeInfo) :
    claimsOf (addedVolumeInfos oldAliases newAliases infos) =
      (claimsOf infos).filter (·.1 ∈ newAliases.filter (· ∉ oldAliases)) := by
  induction infos with
  | nil => rfl
  | cons info infos ih =>
    cases info with
    | materialized name => exact ih
    | persistentVolumeClaim info =>
      by_cases hadded : info.name ∈ newAliases.filter (· ∉ oldAliases)
      · have hhead : addedVolumeInfos oldAliases newAliases
            (.persistentVolumeClaim info :: infos) = .persistentVolumeClaim info ::
              addedVolumeInfos oldAliases newAliases infos :=
          List.filter_cons_of_pos (by simpa [VolumeInfo.claim] using hadded)
        have hclaims : claimsOf (.persistentVolumeClaim info :: infos) =
            (info.name, info.claimName) :: claimsOf infos := rfl
        rw [hhead, hclaims, List.filter_cons_of_pos (by simpa using hadded), ← ih]
        rfl
      · have hhead : addedVolumeInfos oldAliases newAliases
            (.persistentVolumeClaim info :: infos) =
              addedVolumeInfos oldAliases newAliases infos :=
          List.filter_cons_of_neg (by simpa [VolumeInfo.claim] using hadded)
        have hclaims : claimsOf (.persistentVolumeClaim info :: infos) =
            (info.name, info.claimName) :: claimsOf infos := rfl
        rw [hhead, hclaims, List.filter_cons_of_neg (by simpa using hadded), ← ih]

/-! ## What a supported change does to devices -/

section Devices

variable {γ : Type} {oldKeys newKeys ids : List String} {capabilities : Option HotplugCapabilities}

/-- The loop without the flag. -/
def DeviceClassification.toTaken (c : DeviceClassification γ) : KeyDiff.Taken String :=
  ⟨c.currentIds, c.removed⟩

lemma takeAt_of_supported {allowed : Bool} {c : DeviceClassification γ} {index : ℕ}
    (h : (removeIndex allowed c index).unsupported = false) : c.unsupported = false ∧
      takeAt c.toTaken index = some (removeIndex allowed c index).toTaken := by
  unfold removeIndex at h ⊢
  split at h
  next id hid =>
    refine ⟨h, ?_⟩
    rw [takeAt]
    simp [DeviceClassification.toTaken, hid]
  · cases h

lemma foldlM_takeAt_of_supported {allowed : Bool} {indexes : List ℕ} {c : DeviceClassification γ}
    (h : (indexes.foldl (removeIndex allowed) c).unsupported = false) :
    c.unsupported = false ∧ indexes.foldlM takeAt c.toTaken =
      some (indexes.foldl (removeIndex allowed) c).toTaken := by
  induction indexes generalizing c with
  | nil => exact ⟨h, rfl⟩
  | cons index indexes ih =>
    obtain ⟨hhead, htail⟩ := ih h
    obtain ⟨hc, hstep⟩ := takeAt_of_supported hhead
    refine ⟨hc, ?_⟩
    rw [List.foldlM_cons, hstep]
    exact htail

lemma added_foldl_removeIndex (allowed : Bool) (indexes : List ℕ) (c : DeviceClassification γ) :
    (indexes.foldl (removeIndex allowed) c).added = c.added := by
  induction indexes generalizing c with
  | nil => rfl
  | cons index indexes ih =>
    rw [List.foldl_cons, ih]
    unfold removeIndex
    split <;> rfl

/-- The removals of a supported change: the identifiers of the removed keys are taken out. -/
lemma classifyRemoved_spec
    (h : (classifyRemoved (γ := γ) oldKeys newKeys ids capabilities).unsupported = false) :
    retainedOrder oldKeys newKeys = retainedOrder newKeys oldKeys ∧
      classifyRemoved (γ := γ) oldKeys newKeys ids capabilities =
        { removed := dropped newKeys oldKeys ids
          currentIds := kept newKeys oldKeys ids ++ ids.drop oldKeys.length } := by
  unfold classifyRemoved at h ⊢
  split at h
  · cases h
  rename_i horder
  rw [ne_eq, not_not] at horder
  refine ⟨horder, ?_⟩
  rw [if_neg (not_not.mpr horder)]
  generalize hallowed : (capabilities.map (·.remove)).getD false = allowed at h ⊢
  obtain ⟨-, hfold⟩ := foldlM_takeAt_of_supported h
  have hadded := added_foldl_removeIndex allowed (removedIndexes oldKeys newKeys).reverse
    ({ currentIds := ids } : DeviceClassification γ)
  generalize hc : (removedIndexes oldKeys newKeys).reverse.foldl (removeIndex allowed)
    ({ currentIds := ids } : DeviceClassification γ) = c at h hfold hadded ⊢
  have htaken := taken_of_foldlM_takeAt [] [] hfold
  obtain ⟨added, removed, currentIds, unsupported⟩ := c
  simp only [DeviceClassification.toTaken, Taken.mk.injEq] at htaken
  obtain ⟨rfl, rfl⟩ := htaken
  simp only at h hadded
  subst h hadded
  simp

/-- What a supported change does to the devices of one kind: those of the removed keys go, the
others stay in their order, and one is added for every added key. -/
theorem classifyDevices_spec {desired : List γ} {deviceId : γ → String} {addable : Bool}
    (h : (classifyDevices oldKeys newKeys ids capabilities desired deviceId addable).unsupported =
      false) :
    retainedOrder oldKeys newKeys = retainedOrder newKeys oldKeys ∧
    ∃ added : List γ,
      classifyDevices oldKeys newKeys ids capabilities desired deviceId addable =
        { added
          removed := dropped newKeys oldKeys ids
          currentIds := kept newKeys oldKeys ids ++ ids.drop oldKeys.length ++
            added.map deviceId } ∧
      added.length = (newKeys.filter (· ∉ oldKeys)).length ∧
      (newKeys.filter (· ∉ oldKeys) = [] ∧ added = [] ∨
        newKeys.filter (· ∉ oldKeys) ≠ [] ∧ added = desired ∧ addable = true) := by
  simp only [classifyDevices] at h ⊢
  split at h
  · -- nothing is added
    rename_i hnone
    obtain ⟨horder, hremoved⟩ := classifyRemoved_spec h
    have hkeys : newKeys.filter (· ∉ oldKeys) = [] := absentFrom_eq_nil_iff.mp hnone
    refine ⟨horder, [], ?_, ?_, .inl ⟨hkeys, rfl⟩⟩
    · rw [if_pos hnone, hremoved]
      simp
    · rw [hkeys]
      rfl
  next hsome =>
    split at h
    · cases h
    rename_i hallowed
    obtain ⟨horder, hremoved⟩ := classifyRemoved_spec h
    have hkeys : newKeys.filter (· ∉ oldKeys) ≠ [] :=
      fun hnil => hsome (absentFrom_eq_nil_iff.mpr hnil)
    simp only [not_or, ne_eq, not_not, Bool.not_eq_false] at hallowed
    obtain ⟨hadd, hlength, haddable⟩ := hallowed
    refine ⟨horder, desired, ?_, ?_, .inr ⟨hkeys, rfl, haddable⟩⟩
    · rw [if_neg hsome, if_neg (by simp [hadd, hlength, haddable]), hremoved]
    · rw [← hlength, addedIndexes, length_absentFrom]

end Devices

end Tugboat.Hotplug
