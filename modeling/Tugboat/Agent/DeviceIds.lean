import Tugboat.Agent.HotplugRealizes

/-!
# Identifiers of devices over many hotplugs

After a hotplug the agent records the identifiers of the NICs and the volumes, and the next hotplug
finds in them, by position, what it has to remove.  `Tracked` follows a Ship over any number of
hotplugs: its recorded spec and allocation, and what every device was attached for.

The identifiers of added devices are recorded behind the others.  If the added networks and aliases
stand behind the others in the new spec as well (`AddsBehind`), identifiers and spec stay in step,
and every removal names the right devices (`recorded_ids_in_step`).  If a network is added in front
of another one, removing the one takes the NIC of the other (`recorded_ids_out_of_step`).
-/

namespace Tugboat.Hotplug

open VmRuntime Network Volume Hex KeyDiff

/-! ## A Ship over many hotplugs -/

structure Tracked where
  spec : Workload.ShipSpec
  alloc : Option ShipActualAllocation := none
  published : List PublishedVolume := []
  /-- The NICs: the class of the network and the identifier. -/
  nics : List (String × String) := []
  /-- The volumes: the alias and the identifier. -/
  volumes : List (String × String) := []
  deriving DecidableEq, Repr

section Run

variable (sha256 : String → Digest) (ns shipId : String)

/-- A Ship that was just started: a NIC for every network and a volume for every alias. -/
def Tracked.start (spec : Workload.ShipSpec) (classes : List NetworkClassInfo)
    (published : List PublishedVolume) : Tracked where
  spec := spec
  published := published
  nics := (createNetworkConfigs sha256 shipId classes).map fun plan =>
    (networkClassInfoKey plan.info, nicDeviceId sha256 plan.vm.macAddress)
  volumes := published.map fun volume =>
    (volume.claimName, volumeDeviceId sha256 volume.targetPath)

/-- A change of the spec that was prepared.  The amounts of the baseline and of the aim are
arbitrary. -/
structure Change (s : Tracked) where
  newSpec : Workload.ShipSpec
  prep : Preparation ns s.spec newSpec
  volumeIds : List String
  volumeIds_eq : currentVolumeIds sha256 s.alloc s.spec s.published = .ok volumeIds
  addedPublished : List PublishedVolume := []
  currentCpuCores : ℕ := 0
  currentMemoryBytes : ℕ := 0
  desiredCpuCores : ℕ := 0
  desiredMemoryBytes : ℕ := 0
  memorySize : String := ""
  hotplug : Option RuntimeHotplug := none
  hasUnsupportedSpecChanges : Bool := false

namespace Change

variable {sha256 ns} {s : Tracked} (c : Change sha256 ns s)

def baseline : HotplugBaseline where
  currentCpuCores := c.currentCpuCores
  currentMemoryBytes := c.currentMemoryBytes
  currentNicIds := currentNicIds sha256 s.alloc shipId s.spec c.prep.oldClasses
  currentVolumeIds := c.volumeIds

def desired : HotplugDesired where
  desiredCpuCores := c.desiredCpuCores
  desiredMemoryBytes := c.desiredMemoryBytes
  memorySize := c.memorySize
  nicsAdded := (c.prep.addedNetworkPlans sha256 shipId).map (·.vm)
  volumesAdded := c.prep.addedVmVolumes

def plan : HotplugPlan :=
  classifyHotplugChanges sha256 shipId s.spec c.newSpec (c.baseline shipId) (c.desired shipId)
    c.hotplug c.hasUnsupportedSpecChanges

/-- The change is supported, and there is something to do. -/
def Supported : Prop :=
  (c.plan shipId).hasUnsupportedChanges = false ∧ (c.plan shipId).hotplugReq.isSome
  deriving Decidable

/-- The Ship after the hotplug succeeded: the devices of the networks and aliases that the new spec
does not have are gone, and the prepared ones are attached. -/
def after : Tracked where
  spec := c.newSpec
  alloc := some (c.plan shipId).actualAllocation
  published := s.published.filter (fun volume => volume.claimName ∉
    (pvcVolumeAliases s.spec).filter (· ∉ pvcVolumeAliases c.newSpec)) ++ c.addedPublished
  nics := s.nics.filter (·.1 ∈ c.newSpec.networkClassRef.map classKey) ++
    (c.prep.addedNetworkPlans sha256 shipId).map fun plan =>
      (networkClassInfoKey plan.info, nicDeviceId sha256 plan.vm.macAddress)
  volumes := s.volumes.filter (·.1 ∈ pvcVolumeAliases c.newSpec) ++
    (c.prep.addedClaims.map Prod.fst).zip
      (c.prep.addedVmVolumes.map fun volume => volumeDeviceId sha256 volume.hostPath)

end Change

/-- A Ship that was started and then hotplugged any number of times, where every change of the spec
is as `guard` says. -/
inductive Reached (guard : Workload.ShipSpec → Workload.ShipSpec → Prop) : Tracked → Prop
  | start {spec : Workload.ShipSpec} {volumes : List NormalizedVolume}
      {classes : List NetworkClassInfo} {published : List PublishedVolume}
      (hclasses : Found ns spec.networkClassRef classes)
      (hvolumes : normalizedShipVolumes spec = .ok volumes)
      (hpublished : published.map (·.claimName) = (pvcClaims volumes).map Prod.fst) :
      Reached guard (Tracked.start sha256 shipId spec classes published)
  | hotplug {s : Tracked} (hs : Reached guard s) (c : Change sha256 ns s)
      (hguard : guard s.spec c.newSpec) (hsupported : c.Supported shipId) :
      Reached guard (c.after shipId)

end Run

/-! ## In step -/

/-- The i-th identifier is that of the device that was attached for the i-th key. -/
def InStep (keys ids : List String) (devices : List (String × String)) : Prop :=
  keys.length = ids.length ∧ keys.zip ids = devices
  deriving Decidable

/-- What is added stands behind what was there before, and classes are spelled as they were. -/
structure AddsBehind (oldSpec newSpec : Workload.ShipSpec) : Prop where
  networks : newSpec.networkClassRef.filter (networkRefKey · ∈ networkKeys oldSpec) ++
    newSpec.networkClassRef.filter (networkRefKey · ∉ networkKeys oldSpec) = newSpec.networkClassRef
  aliases : (pvcVolumeAliases newSpec).filter (· ∈ pvcVolumeAliases oldSpec) ++
    (pvcVolumeAliases newSpec).filter (· ∉ pvcVolumeAliases oldSpec) = pvcVolumeAliases newSpec
  spelled : SpelledAlike (oldSpec.networkClassRef ++ newSpec.networkClassRef)

section Edit

variable {ι δ : Type} {key label : ι → String} {old new : List ι} {ids addedIds : List String}
  {devices : List (String × String)}

lemma zip_map_eq (f : ι → String) :
    (old.map f).zip ids = (old.zip ids).map fun x => (f x.1, x.2) := by
  rw [List.zip_map_left]
  rfl

lemma mem_map_key_iff (hlabel : ∀ x ∈ old, ∀ y ∈ new, key x = key y ↔ label x = label y) {x : ι}
    (hx : x ∈ old) : key x ∈ new.map key ↔ label x ∈ new.map label := by
  simp only [List.mem_map]
  constructor
  · rintro ⟨y, hy, hkey⟩
    exact ⟨y, hy, ((hlabel x hx y hy).mp hkey.symm).symm⟩
  · rintro ⟨y, hy, hname⟩
    exact ⟨y, hy, ((hlabel x hx y hy).mpr hname.symm).symm⟩

/-- A change that adds behind keeps identifiers and items in step. -/
lemma InStep.edit (h : InStep (old.map label) ids devices)
    (horder : retainedOrder (old.map key) (new.map key) = retainedOrder (new.map key) (old.map key))
    (hbehind : new.filter (key · ∈ old.map key) ++ new.filter (key · ∉ old.map key) = new)
    (hlabel : ∀ x ∈ old, ∀ y ∈ new, key x = key y ↔ label x = label y)
    (hadded : addedIds.length = (new.filter (key · ∉ old.map key)).length) :
    InStep (new.map label) (kept (new.map key) (old.map key) ids ++ addedIds)
      (devices.filter (·.1 ∈ new.map label) ++
        ((new.filter (key · ∉ old.map key)).map label).zip addedIds) := by
  obtain ⟨hlen, rfl⟩ := h
  have holdLen : old.length = ids.length := by rwa [List.length_map] at hlen
  -- the items that stay are the same from both sides
  have hkeys : (old.filter (key · ∈ new.map key)).map key =
      (new.filter (key · ∈ old.map key)).map key := by
    rw [retainedOrder, retainedOrder, List.filter_map, List.filter_map] at horder
    exact horder
  have hretained : (old.filter (key · ∈ new.map key)).map label =
      (new.filter (key · ∈ old.map key)).map label :=
    map_eq_map_of_map_eq hkeys fun x hx y hy hkey =>
      (hlabel x (List.mem_of_mem_filter hx) y (List.mem_of_mem_filter hy)).mp hkey
  have hkept : kept (new.map key) (old.map key) ids =
      ((old.zip ids).filter fun x => decide (key x.1 ∈ new.map key)).map Prod.snd := by
    rw [kept, zip_map_eq, List.filter_map, List.map_map]
    rfl
  have hlabels : (old.filter (key · ∈ new.map key)).map label =
      ((old.zip ids).filter fun x => decide (key x.1 ∈ new.map key)).map fun x => label x.1 := by
    rw [← map_fst_filter_zip (fun x => decide (key x ∈ new.map key)) holdLen, List.map_map]
    rfl
  have hdevices : ((old.map label).zip ids).filter (·.1 ∈ new.map label) =
      ((old.zip ids).filter fun x => decide (key x.1 ∈ new.map key)).map
        fun x => (label x.1, x.2) := by
    rw [zip_map_eq, List.filter_map]
    refine congrArg _ (List.filter_congr fun x hx => ?_)
    rw [Function.comp_apply, decide_eq_decide]
    exact (mem_map_key_iff hlabel (List.of_mem_zip hx).1).symm
  have hsplit : new.map label = (old.filter (key · ∈ new.map key)).map label ++
      (new.filter (key · ∉ old.map key)).map label := by
    rw [hretained, ← List.map_append, hbehind]
  have hfirst : ((old.filter (key · ∈ new.map key)).map label).length =
      (kept (new.map key) (old.map key) ids).length := by
    rw [hlabels, hkept, List.length_map, List.length_map]
  constructor
  · rw [hsplit, List.length_append, List.length_append, hfirst, List.length_map, hadded]
  · conv_lhs => rw [hsplit]
    rw [List.zip_append hfirst, hlabels, hkept, hdevices, List.zip_map']

lemma InStep.dropped_eq (h : InStep (old.map label) ids devices)
    (hlabel : ∀ x ∈ old, ∀ y ∈ new, key x = key y ↔ label x = label y) :
    dropped (new.map key) (old.map key) ids =
      (devices.filter (·.1 ∉ new.map label)).map Prod.snd := by
  obtain ⟨-, rfl⟩ := h
  rw [dropped, zip_map_eq, zip_map_eq, List.filter_map, List.filter_map, List.map_map,
    List.map_map]
  refine congrArg _ (List.filter_congr fun x hx => ?_)
  simp only [Function.comp_apply, decide_eq_decide, not_iff_not]
  exact mem_map_key_iff hlabel (List.of_mem_zip hx).1

end Edit

section EditKeys

variable {old new ids addedIds : List String} {devices : List (String × String)}

lemma InStep.edit_keys (h : InStep old ids devices)
    (horder : retainedOrder old new = retainedOrder new old)
    (hbehind : new.filter (· ∈ old) ++ new.filter (· ∉ old) = new)
    (hadded : addedIds.length = (new.filter (· ∉ old)).length) :
    InStep new (kept new old ids ++ addedIds)
      (devices.filter (·.1 ∈ new) ++ (new.filter (· ∉ old)).zip addedIds) := by
  have hedit := @InStep.edit String id id old new ids addedIds devices (by simpa using h)
    (by simpa using horder) (by simpa using hbehind) (fun _ _ _ _ => Iff.rfl)
    (by simpa using hadded)
  simpa using hedit

lemma InStep.dropped_keys_eq (h : InStep old ids devices) :
    dropped new old ids = (devices.filter (·.1 ∉ new)).map Prod.snd := by
  have hdropped := @InStep.dropped_eq String id id old new ids devices (by simpa using h)
    fun _ _ _ _ => Iff.rfl
  simpa using hdropped

end EditKeys

/-! ## The start -/

section Invariant

variable {sha256 : String → Digest} {ns shipId : String} {s : Tracked}

def refNicId (sha256 : String → Digest) (ns shipId : String)
    (ref : Workload.ShipNetworkClassReference) : String :=
  nicDeviceId sha256 (macAddress sha256 (if ref.kind = "ClusterNetworkClass" then none else some ns)
    ref.name shipId)

variable {classes : List NetworkClassInfo}

lemma map_nicDeviceId_of_found {refs : List Workload.ShipNetworkClassReference}
    (h : Found ns refs classes) :
    (classes.map fun info =>
        nicDeviceId sha256 (macAddress sha256 info.namespace info.name shipId)) =
      refs.map (refNicId sha256 ns shipId) := by
  induction h with
  | nil => rfl
  | cons hhead _ ih =>
    obtain ⟨-, spec, rfl⟩ := hhead
    rw [List.map_cons, List.map_cons, ih]
    rfl

variable {spec : Workload.ShipSpec}

lemma currentNicIds_none (h : Found ns spec.networkClassRef classes) :
    currentNicIds sha256 none shipId spec classes =
      spec.networkClassRef.map (refNicId sha256 ns shipId) := by
  simp only [currentNicIds]
  split
  next hempty =>
    rw [List.length_eq_zero_iff.mp hempty.symm]
    rfl
  · exact map_nicDeviceId_of_found h

variable {alloc : ShipActualAllocation}

lemma currentNicIds_some (classes : List NetworkClassInfo)
    (h : alloc.nicIds.length = spec.networkClassRef.length) :
    currentNicIds sha256 (some alloc) shipId spec classes = alloc.nicIds := if_pos h

variable {volumes : List NormalizedVolume}

variable {published : List PublishedVolume}

lemma filterMap_find_published (g : PublishedVolume → String)
    (h : (published.map (·.claimName)).Nodup) : (published.map (·.claimName)).filterMap
        (fun name => (published.find? (·.claimName = name)).map g) = published.map g := by
  have hfind : ∀ volume ∈ published,
      published.find? (fun other => decide (other.claimName = volume.claimName)) = some volume := by
    intro volume hvolume
    cases hcase : published.find? (fun other => decide (other.claimName = volume.claimName)) with
    | none => exact absurd (List.find?_eq_none.mp hcase volume hvolume) (by simp)
    | some other =>
      have hname : other.claimName = volume.claimName := by
        simpa using List.find?_some hcase
      rw [List.inj_on_of_nodup_map h (List.mem_of_find?_eq_some hcase) hvolume hname]
  rw [List.filterMap_map, ← List.filterMap_eq_map]
  refine List.filterMap_congr fun volume hvolume => ?_
  rw [Function.comp_apply, hfind volume hvolume]
  rfl

lemma currentVolumeIds_none {ids : List String}
    (hvolumes : normalizedShipVolumes spec = .ok volumes)
    (hpublished : published.map (·.claimName) = (pvcClaims volumes).map Prod.fst)
    (h : currentVolumeIds sha256 none spec published = .ok ids) :
    ids = published.map fun volume => volumeDeviceId sha256 volume.targetPath := by
  obtain ⟨aliases, haliases, h⟩ := bind_eq_ok_iff.1 h
  cases (pvcAliases_eq hvolumes).symm.trans haliases
  cases h
  rw [← hpublished]
  split
  next hempty =>
    rw [List.length_map] at hempty
    rw [List.length_eq_zero_iff.mp hempty.symm]
    rfl
  · refine filterMap_find_published _ ?_
    rw [hpublished]
    exact nodup_aliases hvolumes

/-! ## Every hotplug -/

/-- The identifiers that the next baseline is going to have are in step with the spec. -/
structure Sound (sha256 : String → Digest) (ns shipId : String) (s : Tracked) : Prop where
  nics : ∀ classes, Found ns s.spec.networkClassRef classes →
    InStep (s.spec.networkClassRef.map classKey)
      (currentNicIds sha256 s.alloc shipId s.spec classes) s.nics
  volumes : ∀ ids, currentVolumeIds sha256 s.alloc s.spec s.published = .ok ids →
    InStep (pvcVolumeAliases s.spec) ids s.volumes

lemma sound_start (hclasses : Found ns spec.networkClassRef classes)
    (hvolumes : normalizedShipVolumes spec = .ok volumes)
    (hpublished : published.map (·.claimName) = (pvcClaims volumes).map Prod.fst) :
    Sound sha256 ns shipId (Tracked.start sha256 shipId spec classes published) where
  nics := by
    intro classes' hclasses'
    have hfound : Found ns spec.networkClassRef classes' := hclasses'
    change InStep (spec.networkClassRef.map classKey)
      (currentNicIds sha256 none shipId spec classes') _
    rw [currentNicIds_none hfound]
    have hnics : (Tracked.start sha256 shipId spec classes published).nics =
        (classes.map networkClassInfoKey).zip (classes.map fun info =>
          nicDeviceId sha256 (macAddress sha256 info.namespace info.name shipId)) := by
      rw [List.zip_map']
      exact map_createNetworkConfigsFromIndex sha256
        (fun info mac => (networkClassInfoKey info, nicDeviceId sha256 mac)) shipId 0 classes
    rw [hnics, hclasses.map_networkClassInfoKey, map_nicDeviceId_of_found hclasses]
    exact ⟨by rw [List.length_map, List.length_map], rfl⟩
  volumes := by
    intro ids hids
    have hids' := currentVolumeIds_none hvolumes hpublished hids
    change InStep (pvcVolumeAliases spec) ids _
    rw [pvcVolumeAliases_eq hvolumes, ← hpublished, hids']
    refine ⟨by rw [List.length_map, List.length_map], ?_⟩
    rw [List.zip_map']
    rfl

lemma classifyDevices_of_supported {γ : Type} {oldKeys newKeys ids : List String}
    {capabilities : Option HotplugCapabilities} {desired : List γ} {deviceId : γ → String}
    {addable : Bool} (hlen : oldKeys.length = ids.length)
    (h : (classifyDevices oldKeys newKeys ids capabilities desired deviceId addable).unsupported =
      false) (hnone : newKeys.filter (· ∉ oldKeys) = [] → desired = []) :
    retainedOrder oldKeys newKeys = retainedOrder newKeys oldKeys ∧
      classifyDevices oldKeys newKeys ids capabilities desired deviceId addable =
        { added := desired
          removed := dropped newKeys oldKeys ids
          currentIds := kept newKeys oldKeys ids ++ desired.map deviceId } ∧
      desired.length = (newKeys.filter (· ∉ oldKeys)).length := by
  obtain ⟨horder, added, hclass, hlength, hadded⟩ := classifyDevices_spec h
  rw [List.drop_eq_nil_of_le hlen.ge, List.append_nil] at hclass
  rcases hadded with ⟨hempty, rfl⟩ | ⟨-, rfl, -⟩
  · rw [hnone hempty] at hclass ⊢
    exact ⟨horder, hclass, hlength⟩
  · exact ⟨horder, hclass, hlength⟩

variable (c : Change sha256 ns s)

lemma addedNetworkPlans_eq_nil (h : (networkKeys c.newSpec).filter (· ∉ networkKeys s.spec) = []) :
    c.prep.addedNetworkPlans sha256 shipId = [] := by
  have hclasses : c.prep.newClasses.filter (networkClassInfoKey · ∈
      (networkKeys c.newSpec).filter (· ∉ networkKeys s.spec)) = [] := by
    rw [h]
    exact List.filter_eq_nil_iff.mpr (by simp)
  simp only [Preparation.addedNetworkPlans, diffHotplugNetworks]
  rw [hclasses]
  rfl

lemma addedVmVolumes_eq_nil
    (h : (pvcVolumeAliases c.newSpec).filter (· ∉ pvcVolumeAliases s.spec) = []) :
    c.prep.addedVmVolumes = [] := by
  have hclaims : c.prep.addedClaims = [] := by
    rw [Preparation.addedClaims, claimsOf_addedVolumeInfos, h]
    simp
  rw [← List.length_eq_zero_iff, c.prep.length_addedClaims, hclaims]
  rfl

lemma nics_of_supported (hs : Sound sha256 ns shipId s) (hsupported : c.Supported shipId) :
    retainedOrder (networkKeys s.spec) (networkKeys c.newSpec) =
        retainedOrder (networkKeys c.newSpec) (networkKeys s.spec) ∧
      (classifyNetworks sha256 s.spec c.newSpec (c.baseline shipId) (c.desired shipId)
          (c.hotplug.getD {})).removed =
        dropped (networkKeys c.newSpec) (networkKeys s.spec) (c.baseline shipId).currentNicIds ∧
      (c.plan shipId).actualAllocation.nicIds =
        kept (networkKeys c.newSpec) (networkKeys s.spec) (c.baseline shipId).currentNicIds ++
          (c.prep.addedNetworkPlans sha256 shipId).map (nicDeviceId sha256 ·.vm.macAddress) ∧
      (c.prep.addedNetworkPlans sha256 shipId).length =
        ((networkKeys c.newSpec).filter (· ∉ networkKeys s.spec)).length := by
  have hlen : (networkKeys s.spec).length = (c.baseline shipId).currentNicIds.length := by
    have hstep := (hs.nics c.prep.oldClasses c.prep.oldClasses_found).1
    rw [List.length_map] at hstep
    rw [networkKeys, List.length_map, hstep]
    rfl
  obtain ⟨-, -, hnics, -⟩ := supported_parts hsupported.1
  obtain ⟨horder, hclass, hlength⟩ := classifyDevices_of_supported hlen hnics fun hnone => by
    rw [Change.desired, addedNetworkPlans_eq_nil c hnone]
    rfl
  refine ⟨horder, congrArg (·.removed) hclass, (congrArg (·.currentIds) hclass).trans ?_, ?_⟩
  · rw [Change.desired, List.map_map]
    rfl
  · rw [← hlength, Change.desired, List.length_map]

lemma volumes_of_supported (hs : Sound sha256 ns shipId s) (hsupported : c.Supported shipId) :
    retainedOrder (pvcVolumeAliases s.spec) (pvcVolumeAliases c.newSpec) =
        retainedOrder (pvcVolumeAliases c.newSpec) (pvcVolumeAliases s.spec) ∧
      (classifyVolumes sha256 s.spec c.newSpec (c.baseline shipId) (c.desired shipId)
          (c.hotplug.getD {})).removed =
        dropped (pvcVolumeAliases c.newSpec) (pvcVolumeAliases s.spec) c.volumeIds ∧
      (c.plan shipId).actualAllocation.volumeIds =
        kept (pvcVolumeAliases c.newSpec) (pvcVolumeAliases s.spec) c.volumeIds ++
          c.prep.addedVmVolumes.map (volumeDeviceId sha256 ·.hostPath) ∧
      c.prep.addedVmVolumes.length =
        ((pvcVolumeAliases c.newSpec).filter (· ∉ pvcVolumeAliases s.spec)).length := by
  have hlen : (pvcVolumeAliases s.spec).length = (c.baseline shipId).currentVolumeIds.length :=
    (hs.volumes c.volumeIds c.volumeIds_eq).1
  obtain ⟨-, -, -, hvolumes⟩ := supported_parts hsupported.1
  obtain ⟨horder, hclass, hlength⟩ :=
    classifyDevices_of_supported hlen hvolumes (addedVmVolumes_eq_nil c)
  exact ⟨horder, congrArg (·.removed) hclass, congrArg (·.currentIds) hclass, hlength⟩

lemma networkRefKey_eq_iff_of_spelled
    (h : SpelledAlike (s.spec.networkClassRef ++ c.newSpec.networkClassRef)) :
    ∀ ref ∈ s.spec.networkClassRef, ∀ ref' ∈ c.newSpec.networkClassRef,
      networkRefKey ref = networkRefKey ref' ↔ classKey ref = classKey ref' := by
  intro ref href ref' href'
  have hvalid := c.prep.oldClasses_found.validRef ref href
  have hvalid' := c.prep.newClasses_found.validRef ref' href'
  constructor
  · intro heq
    obtain ⟨-, hkind, hname⟩ := networkRefKey_inj hvalid hvalid' heq
    rw [classKey, classKey, hkind, hname]
  · intro heq
    obtain ⟨-, hkind, hname⟩ := @key_inj "core" "core" _ _ _ _ (by decide) (by decide)
      hvalid.notMem_kind hvalid'.notMem_kind heq
    have hgroup := h ref (List.mem_append_left _ href) ref' (List.mem_append_right _ href') hkind
      hname
    rw [networkRefKey, networkRefKey, hgroup, hkind, hname]

lemma sound_after (hs : Sound sha256 ns shipId s) (hsupported : c.Supported shipId)
    (hbehind : AddsBehind s.spec c.newSpec) : Sound sha256 ns shipId (c.after shipId) where
  nics := by
    intro classes hclasses
    obtain ⟨horder, -, hrecorded, hlength⟩ := nics_of_supported c hs hsupported
    have hspelled : SpelledAlike c.newSpec.networkClassRef := fun ref href ref' href' =>
      hbehind.spelled ref (List.mem_append_right _ href) ref' (List.mem_append_right _ href')
    -- the prepared NICs are on the networks of the added references
    have hnew : (c.prep.addedNetworkPlans sha256 shipId).map (fun plan =>
        (networkClassInfoKey plan.info, nicDeviceId sha256 plan.vm.macAddress)) =
        ((c.newSpec.networkClassRef.filter (networkRefKey · ∉ networkKeys s.spec)).map
          classKey).zip ((c.prep.addedNetworkPlans sha256 shipId).map fun plan =>
            nicDeviceId sha256 plan.vm.macAddress) := by
      rw [← c.prep.addedNetworks_eq sha256 shipId hspelled hlength, Preparation.addedNetworks,
        List.zip_map']
    have hcount : ((c.prep.addedNetworkPlans sha256 shipId).map fun plan =>
        nicDeviceId sha256 plan.vm.macAddress).length =
        (c.newSpec.networkClassRef.filter (networkRefKey · ∉ networkKeys s.spec)).length := by
      rw [List.length_map, hlength]
      simp only [networkKeys, List.filter_map, List.length_map]
      rfl
    have hstep := (hs.nics c.prep.oldClasses c.prep.oldClasses_found).edit horder hbehind.networks
      (networkRefKey_eq_iff_of_spelled c hbehind.spelled) hcount
    -- the recorded identifiers are as many as the networks, so the next baseline uses them
    have hids : currentNicIds sha256 (c.after shipId).alloc shipId (c.after shipId).spec classes =
        (c.plan shipId).actualAllocation.nicIds := by
      refine currentNicIds_some classes ?_
      have hlen := hstep.1
      rw [List.length_map] at hlen
      rw [hrecorded]
      exact hlen.symm
    rw [hids, hrecorded]
    simp only [Change.after]
    rw [hnew]
    exact hstep
  volumes := by
    intro ids hids
    obtain ⟨horder, -, hrecorded, hlength⟩ := volumes_of_supported c hs hsupported
    have hclaims : c.prep.addedClaims.map Prod.fst =
        (pvcVolumeAliases c.newSpec).filter (· ∉ pvcVolumeAliases s.spec) := by
      rw [c.prep.addedClaims_eq, c.prep.newAliases_eq, c.prep.oldAliases_eq, List.filter_map]
      rfl
    have hcount : (c.prep.addedVmVolumes.map fun volume =>
        volumeDeviceId sha256 volume.hostPath).length =
        ((pvcVolumeAliases c.newSpec).filter (· ∉ pvcVolumeAliases s.spec)).length := by
      rw [List.length_map, hlength]
    have hstep := (hs.volumes c.volumeIds c.volumeIds_eq).edit_keys horder hbehind.aliases hcount
    have hids' : ids = (c.plan shipId).actualAllocation.volumeIds := by
      have hsome : currentVolumeIds sha256 (c.after shipId).alloc (c.after shipId).spec
          (c.after shipId).published = .ok (c.plan shipId).actualAllocation.volumeIds := by
        change currentVolumeIds sha256 (some (c.plan shipId).actualAllocation) c.newSpec _ = _
        rw [currentVolumeIds, pvcAliases_eq c.prep.newVolumes_eq]
        refine congrArg Except.ok (if_pos ?_)
        rw [← pvcVolumeAliases_eq c.prep.newVolumes_eq]
        exact (congrArg List.length hrecorded).trans hstep.1.symm
      exact Except.ok.inj (hids.symm.trans hsome)
    rw [hids', hrecorded]
    simp only [Change.after]
    rw [hclaims]
    exact hstep

lemma sound_of_reached (h : Reached sha256 ns shipId AddsBehind s) : Sound sha256 ns shipId s := by
  induction h with
  | start hclasses hvolumes hpublished => exact sound_start hclasses hvolumes hpublished
  | hotplug _ c hguard hsupported ih => exact sound_after c ih hsupported hguard

/-- If every change so far added networks and aliases behind the others, then in the baseline of the
next change the i-th identifier is that of the device of the i-th network, or alias; and a supported
change removes exactly the devices of the removed networks and aliases. -/
theorem recorded_ids_in_step (h : Reached sha256 ns shipId AddsBehind s)
    (c : Change sha256 ns s) :
    InStep (s.spec.networkClassRef.map classKey) (c.baseline shipId).currentNicIds s.nics ∧
      InStep (pvcVolumeAliases s.spec) (c.baseline shipId).currentVolumeIds s.volumes ∧
      (SpelledAlike (s.spec.networkClassRef ++ c.newSpec.networkClassRef) →
        (c.plan shipId).hasUnsupportedChanges = false →
        ∀ req, (c.plan shipId).hotplugReq = some req →
          req.nicsRemoved =
            (s.nics.filter (·.1 ∉ c.newSpec.networkClassRef.map classKey)).map Prod.snd ∧
          req.volumesRemoved =
            (s.volumes.filter (·.1 ∉ pvcVolumeAliases c.newSpec)).map Prod.snd) := by
  have hs := sound_of_reached h
  have hnics := hs.nics c.prep.oldClasses c.prep.oldClasses_found
  have hvolumes := hs.volumes c.volumeIds c.volumeIds_eq
  refine ⟨hnics, hvolumes, ?_⟩
  intro hspelled hok req hreq
  have hsupported : c.Supported shipId := ⟨hok, by rw [hreq]; rfl⟩
  obtain ⟨-, -, -, hnicsRemoved, -, hvolumesRemoved⟩ := request_eq hreq
  obtain ⟨-, hnicsClass, -⟩ := nics_of_supported c hs hsupported
  obtain ⟨-, hvolumesClass, -⟩ := volumes_of_supported c hs hsupported
  constructor
  · rw [hnicsRemoved, hnicsClass]
    exact hnics.dropped_eq (networkRefKey_eq_iff_of_spelled c hspelled)
  · rw [hvolumesRemoved, hvolumesClass]
    exact hvolumes.dropped_keys_eq

end Invariant

/-! ## A network in front of another one

The Ship starts with the network `a`.  The network `b` is added, behind it or in front of it, and
then `a` is removed. -/

/-- A digest that tells the two networks apart: the sum of the characters. -/
def nameDigest (ident : String) : Digest :=
  Digest.ofBytes [(ident.toList.foldl (fun n (c : Char) => n + c.toNat) 0).toUInt8]

def netSpec (names : List String) : Workload.ShipSpec := { networkClassRef := names.map coreRef }

def netClasses (names : List String) : List NetworkClassInfo :=
  names.map fun name => .ofRef "ns" (coreRef name) {}

lemma found_netClasses (names : List String) :
    Found "ns" (netSpec names).networkClassRef (netClasses names) := by
  induction names with
  | nil => exact .nil
  | cons name names ih => exact .cons ⟨⟨.inl rfl, .inr rfl⟩, {}, rfl⟩ ih

lemma normalizedShipVolumes_netSpec (names : List String) :
    normalizedShipVolumes (netSpec names) = .ok [] := rfl

lemma length_addedVolumeInfos_nil (oldAliases newAliases : List String) :
    ([] : List VmVolumeConfig).length = (addedVolumeInfos oldAliases newAliases []).length := rfl

def netPreparation (old new : List String) : Preparation "ns" (netSpec old) (netSpec new) where
  oldVolumes := []
  newVolumes := []
  oldClasses := netClasses old
  newClasses := netClasses new
  newVolumeInfos := []
  addedVmVolumes := []
  oldVolumes_eq := normalizedShipVolumes_netSpec old
  newVolumes_eq := normalizedShipVolumes_netSpec new
  oldClasses_found := found_netClasses old
  newClasses_found := found_netClasses new
  newVolumeInfos_loaded := .nil
  length_addedVmVolumes := length_addedVolumeInfos_nil _ _

def netStart : Tracked := Tracked.start nameDigest "ship" (netSpec ["a"]) (netClasses ["a"]) []

/-- The first change: `b` is added, so that the networks are `names`. -/
def addB (names : List String) : Change nameDigest "ns" netStart where
  newSpec := netSpec names
  prep := netPreparation ["a"] names
  volumeIds := []
  volumeIds_eq := rfl
  hotplug := some allCapabilities

def removeA (names : List String) : Change nameDigest "ns" ((addB names).after "ship") where
  newSpec := netSpec ["b"]
  prep := netPreparation names ["b"]
  volumeIds := []
  volumeIds_eq := rfl
  hotplug := some allCapabilities

lemma reached_netStart (guard : Workload.ShipSpec → Workload.ShipSpec → Prop) :
    Reached nameDigest "ns" "ship" guard netStart :=
  Reached.start (found_netClasses ["a"]) rfl rfl

def nicIdOf (name : String) : String := refNicId nameDigest "ns" "ship" (coreRef name)

theorem recorded_ids_in_step_behind :
    ((removeA ["a", "b"]).plan "ship").hasUnsupportedChanges = false ∧
      InStep ["core|NetworkClass|a", "core|NetworkClass|b"]
        ((removeA ["a", "b"]).baseline "ship").currentNicIds
        ((addB ["a", "b"]).after "ship").nics :=
  ⟨by decide +kernel,
    (recorded_ids_in_step
      (Reached.hotplug (reached_netStart AddsBehind) (addB ["a", "b"])
        ⟨by decide +kernel, by decide +kernel, by decide +kernel⟩ (by decide +kernel))
      (removeA ["a", "b"])).1⟩

/-- In front: the recorded identifiers are exchanged, and removing `a` names the NIC of `b`. -/
theorem recorded_ids_out_of_step :
    Reached nameDigest "ns" "ship" (fun _ _ => True) ((addB ["b", "a"]).after "ship") ∧
      ((addB ["b", "a"]).after "ship").nics =
        [("core|NetworkClass|a", nicIdOf "a"), ("core|NetworkClass|b", nicIdOf "b")] ∧
      nicIdOf "a" ≠ nicIdOf "b" ∧
      ((removeA ["b", "a"]).baseline "ship").currentNicIds = [nicIdOf "a", nicIdOf "b"] ∧
      ¬ InStep (((addB ["b", "a"]).after "ship").spec.networkClassRef.map classKey)
        ((removeA ["b", "a"]).baseline "ship").currentNicIds
        ((addB ["b", "a"]).after "ship").nics ∧
      ((removeA ["b", "a"]).plan "ship").hasUnsupportedChanges = false ∧
      ((removeA ["b", "a"]).plan "ship").hotplugReq =
        some { id := "ship", nicsRemoved := [nicIdOf "b"] } :=
  ⟨Reached.hotplug (reached_netStart _) (addB ["b", "a"]) trivial (by decide +kernel),
    by decide +kernel, by decide +kernel, by decide +kernel, by decide +kernel, by decide +kernel,
    by decide +kernel⟩

end Tugboat.Hotplug
