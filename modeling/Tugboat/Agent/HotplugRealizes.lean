import Tugboat.Agent.HotplugPlan

/-!
# What a hotplug makes of a virtual machine

A `Machine` is a virtual machine as far as a hotplug changes it, and `Machine.hotplug` what a
request makes of it.  A machine *realizes* a spec if its NICs are on the networks of the spec, each
as often as it is listed, and its volumes are the claims of the spec under their aliases.

Planning compares networks and aliases, not claims, and finds the devices to remove by the positions
of their identifiers.  What is added is what the new spec asks for, so the machine realizes the new
spec exactly if the devices that stay are those the new spec has for them (`hotplug_realizes_iff`).
An alias whose claim changes together with anything else is overlooked: the new spec is recorded,
and the machine keeps the old claim (`hotplug_keeps_old_claim`).
-/

namespace Tugboat.Hotplug

open VmRuntime Network Volume Hex

/-! ## Machines -/

/-- A device that can be removed by its identifier, and what it is there for. -/
structure Device (γ : Type) where
  id : String
  purpose : γ
  deriving DecidableEq, Repr

def plug {γ : Type} (devices : List (Device γ)) (removed : List String)
    (added : List (Device γ)) : List (Device γ) :=
  devices.filter (·.id ∉ removed) ++ added

structure Machine where
  cpuCores : ℕ
  memoryBytes : ℕ
  /-- The NICs; the purpose is the class of the network. -/
  nics : List (Device String) := []
  /-- The volumes; the purpose is the alias and the claim. -/
  volumes : List (Device (String × String)) := []
  deriving DecidableEq, Repr

/-- The machine after a request.  The added NICs are attached to the networks, and the added volumes
stand for the claims, that they were prepared for. -/
def Machine.hotplug (sha256 : String → Digest) (m : Machine) (req : VmHotplugRequest)
    (networks : List String) (claims : List (String × String)) : Machine where
  cpuCores := (req.cpu.map (·.cores)).getD m.cpuCores
  memoryBytes := (req.memory.map (·.size)).getD m.memoryBytes
  nics := plug m.nics req.nicsRemoved
    (req.nicsAdded.zipWith (fun nic network => ⟨nicDeviceId sha256 nic.macAddress, network⟩)
      networks)
  volumes := plug m.volumes req.volumesRemoved
    (req.volumesAdded.zipWith (fun volume claim => ⟨volumeDeviceId sha256 volume.hostPath, claim⟩)
      claims)

/-- The NICs are on the networks of the spec, and the volumes are its claims under their aliases. -/
def Realizes (m : Machine) (spec : Workload.ShipSpec) : Prop :=
  (m.nics.map (·.purpose)).Perm (spec.networkClassRef.map classKey) ∧
    ∃ volumes, normalizedShipVolumes spec = .ok volumes ∧
      (m.volumes.map (·.purpose)).Perm (pvcClaims volumes)

/-! ## Preparation -/

/-- A prepared hotplug: what was found for the two specs, and the volumes that were set up for the
added aliases. -/
structure Preparation (ns : String) (oldSpec newSpec : Workload.ShipSpec) where
  oldVolumes : List NormalizedVolume
  newVolumes : List NormalizedVolume
  oldClasses : List NetworkClassInfo
  newClasses : List NetworkClassInfo
  newVolumeInfos : List VolumeInfo
  addedVmVolumes : List VmVolumeConfig
  oldVolumes_eq : normalizedShipVolumes oldSpec = .ok oldVolumes
  newVolumes_eq : normalizedShipVolumes newSpec = .ok newVolumes
  oldClasses_found : Found ns oldSpec.networkClassRef oldClasses
  newClasses_found : Found ns newSpec.networkClassRef newClasses
  newVolumeInfos_loaded : LoadedVolumes newVolumes newVolumeInfos
  /-- One volume is set up for every claim. -/
  length_addedVmVolumes : addedVmVolumes.length =
    (addedVolumeInfos (pvcVolumeAliases oldSpec) (pvcVolumeAliases newSpec) newVolumeInfos).length

namespace Preparation

variable {ns : String} {oldSpec newSpec : Workload.ShipSpec} (prep : Preparation ns oldSpec newSpec)

def addedNetworkPlans (sha256 : String → Digest) (shipId : String) : List PlannedNetworkConfig :=
  (diffHotplugNetworks sha256 shipId oldSpec newSpec prep.newClasses).1

def addedNetworks (sha256 : String → Digest) (shipId : String) : List String :=
  (prep.addedNetworkPlans sha256 shipId).map fun plan => networkClassInfoKey plan.info

def addedClaims : List (String × String) :=
  claimsOf (addedVolumeInfos (pvcVolumeAliases oldSpec) (pvcVolumeAliases newSpec)
    prep.newVolumeInfos)

lemma oldAliases_eq : pvcVolumeAliases oldSpec = (pvcClaims prep.oldVolumes).map Prod.fst :=
  pvcVolumeAliases_eq prep.oldVolumes_eq

lemma newAliases_eq : pvcVolumeAliases newSpec = (pvcClaims prep.newVolumes).map Prod.fst :=
  pvcVolumeAliases_eq prep.newVolumes_eq

lemma addedClaims_eq : prep.addedClaims =
    (pvcClaims prep.newVolumes).filter (·.1 ∉ (pvcClaims prep.oldVolumes).map Prod.fst) := by
  rw [addedClaims, claimsOf_addedVolumeInfos, claimsOf_loaded prep.newVolumeInfos_loaded,
    prep.oldAliases_eq, prep.newAliases_eq]
  refine List.filter_congr fun claim hclaim => ?_
  have hmem : claim.1 ∈ (pvcClaims prep.newVolumes).map Prod.fst := List.mem_map_of_mem hclaim
  simp only [List.mem_filter, hmem, true_and, decide_eq_true_eq]

lemma length_addedClaims : prep.addedVmVolumes.length = prep.addedClaims.length := by
  rw [prep.length_addedVmVolumes, addedClaims, claimsOf, List.length_filterMap_eq_countP]
  symm
  rw [List.countP_eq_length]
  intro info hinfo
  obtain ⟨-, hclaim⟩ := List.mem_filter.mp hinfo
  cases hcase : info.claim with
  | none => rw [hcase] at hclaim; cases hclaim
  | some claim => rfl

/-- What is planned of the references: the added NICs are on the networks of those whose class,
spelled with its API group, has an added key. -/
lemma addedNetworks_eq_planned (sha256 : String → Digest) (shipId : String) :
    prep.addedNetworks sha256 shipId = (newSpec.networkClassRef.map classKey).filter
      (· ∈ (networkKeys newSpec).filter (· ∉ networkKeys oldSpec)) := by
  have hplans := map_createNetworkConfigsFromIndex sha256 (fun info _ => networkClassInfoKey info)
    shipId oldSpec.networkClassRef.length (prep.newClasses.filter
      (networkClassInfoKey · ∈ (networkKeys newSpec).filter (· ∉ networkKeys oldSpec)))
  rw [← prep.newClasses_found.map_networkClassInfoKey, List.filter_map]
  exact hplans

/-- If a plan is made for as many classes as there are added references, the added NICs are on the
networks of those references. -/
lemma addedNetworks_eq (sha256 : String → Digest) (shipId : String)
    (hspelled : SpelledAlike newSpec.networkClassRef)
    (hlen : (prep.addedNetworkPlans sha256 shipId).length =
      ((networkKeys newSpec).filter (· ∉ networkKeys oldSpec)).length) :
    prep.addedNetworks sha256 shipId =
      (newSpec.networkClassRef.filter (networkRefKey · ∉ networkKeys oldSpec)).map classKey := by
  have hcount : (prep.addedNetworks sha256 shipId).length =
      ((networkKeys newSpec).filter (· ∉ networkKeys oldSpec)).length := by
    rw [addedNetworks, List.length_map, hlen]
  rw [addedNetworks_eq_planned] at hcount ⊢
  exact filter_map_classKey prep.newClasses_found.validRef hspelled hcount

/-- The devices that stay are those of the new spec: the NICs are on the networks of its references,
except those for which one is added, and the volumes are its claims under the aliases that both
specs have.  Removed are the devices whose identifiers the baseline has at the positions of the
removed networks and aliases. -/
structure StaysFit (baseline : HotplugBaseline) (m : Machine) : Prop where
  nics : ((m.nics.filter (·.id ∉ KeyDiff.dropped (networkKeys newSpec) (networkKeys oldSpec)
      baseline.currentNicIds)).map (·.purpose)).Perm
    ((newSpec.networkClassRef.map classKey).filter
      (· ∉ (networkKeys newSpec).filter (· ∉ networkKeys oldSpec)))
  volumes : ((m.volumes.filter (·.id ∉ KeyDiff.dropped (pvcVolumeAliases newSpec)
      (pvcVolumeAliases oldSpec) baseline.currentVolumeIds)).map (·.purpose)).Perm
    ((pvcClaims prep.newVolumes).filter (·.1 ∈ (pvcClaims prep.oldVolumes).map Prod.fst))

end Preparation

/-! ## One kind of devices -/

section Devices

variable {γ δ ι : Type}

lemma map_purpose_zipWith (deviceId : δ → String) {desired : List δ} {purposes : List γ}
    (h : desired.length = purposes.length) :
    (desired.zipWith (fun d p => (⟨deviceId d, p⟩ : Device γ)) purposes).map (·.purpose) =
      purposes := by
  induction desired generalizing purposes with
  | nil => exact (List.length_eq_zero_iff.mp h.symm).symm
  | cons d desired ih =>
    cases purposes with
    | nil => cases h
    | cons p purposes =>
      rw [List.zipWith_cons_cons, List.map_cons, ih (Nat.succ.inj h)]

/-- After a supported change of the devices of one kind there are those that `new` lists, of which
it plans some, exactly if those that stay are the others. -/
lemma perm_plug_iff {oldKeys newKeys ids : List String}
    {devices : List (Device γ)} {capabilities : Option HotplugCapabilities} {desired : List δ}
    {deviceId : δ → String} {addable : Bool} {new : List γ} {planned rest : γ → Bool}
    (hrest : ∀ x, rest x = !planned x)
    (hsupported : (classifyDevices oldKeys newKeys ids capabilities desired deviceId
      addable).unsupported = false)
    (hlength : desired.length = (new.filter planned).length)
    (hnone : newKeys.filter (· ∉ oldKeys) = [] → new.filter planned = []) :
    ((plug devices
        (classifyDevices oldKeys newKeys ids capabilities desired deviceId addable).removed
        ((classifyDevices oldKeys newKeys ids capabilities desired deviceId addable).added.zipWith
          (fun d p => ⟨deviceId d, p⟩) (new.filter planned))).map (·.purpose)).Perm new ↔
      ((devices.filter (·.id ∉ KeyDiff.dropped newKeys oldKeys ids)).map (·.purpose)).Perm
        (new.filter rest) := by
  obtain ⟨-, added, hclass, -, hadded⟩ := classifyDevices_spec hsupported
  have hnew : (added.zipWith (fun d p => (⟨deviceId d, p⟩ : Device γ)) (new.filter planned)).map
      (·.purpose) = new.filter planned := by
    rcases hadded with ⟨hkeys, rfl⟩ | ⟨-, rfl, -⟩
    · rw [hnone hkeys]
      rfl
    · exact map_purpose_zipWith deviceId hlength
  rw [hclass, plug, List.map_append, hnew]
  rw [funext hrest]
  have hsplit := List.filter_append_perm planned new
  -- the planned ones are on both sides
  constructor
  · intro h
    exact (List.perm_append_left_iff _).1 ((List.perm_append_comm.trans h).trans hsplit.symm)
  · intro h
    exact ((h.append_right _).trans List.perm_append_comm).trans hsplit

end Devices

/-! ## The whole request -/

section Request

variable {sha256 : String → Digest} {shipId : String} {oldSpec newSpec : Workload.ShipSpec}
  {baseline : HotplugBaseline} {desired : HotplugDesired} {hotplug : Option RuntimeHotplug}
  {flag : Bool} {req : VmHotplugRequest}

lemma request_eq (h : (classifyHotplugChanges sha256 shipId oldSpec newSpec baseline desired hotplug
      flag).hotplugReq = some req) :
    req.cpu = (classifyCpu baseline desired (hotplug.getD {})).config ∧
    req.memory = (classifyMemory baseline desired (hotplug.getD {})).config ∧ req.nicsAdded =
      (classifyNetworks sha256 oldSpec newSpec baseline desired (hotplug.getD {})).added ∧
    req.nicsRemoved =
      (classifyNetworks sha256 oldSpec newSpec baseline desired (hotplug.getD {})).removed ∧
    req.volumesAdded =
      (classifyVolumes sha256 oldSpec newSpec baseline desired (hotplug.getD {})).added ∧
    req.volumesRemoved =
      (classifyVolumes sha256 oldSpec newSpec baseline desired (hotplug.getD {})).removed := by
  simp only [classifyHotplugChanges] at h
  split at h
  · cases h
    exact ⟨rfl, rfl, rfl, rfl, rfl, rfl⟩
  · cases h

lemma supported_parts (h : (classifyHotplugChanges sha256 shipId oldSpec newSpec baseline desired
      hotplug flag).hasUnsupportedChanges = false) :
    (classifyCpu baseline desired (hotplug.getD {})).unsupported = false ∧
    (classifyMemory baseline desired (hotplug.getD {})).unsupported = false ∧
    (classifyNetworks sha256 oldSpec newSpec baseline desired (hotplug.getD {})).unsupported =
      false ∧
    (classifyVolumes sha256 oldSpec newSpec baseline desired (hotplug.getD {})).unsupported =
      false := by
  simp only [classifyHotplugChanges, Bool.or_eq_false_iff] at h
  exact ⟨h.1.1.1.2, h.1.1.2, h.1.2, h.2⟩

lemma cores_iff {cores : ℕ}
    (h : (classifyCpu baseline desired (hotplug.getD {})).unsupported = false) :
    (((classifyCpu baseline desired (hotplug.getD {})).config).map (·.cores)).getD cores =
        desired.desiredCpuCores ↔
      (desired.desiredCpuCores = baseline.currentCpuCores → cores = desired.desiredCpuCores) := by
  unfold classifyCpu at h ⊢
  split at h
  next heq => simp [heq]
  next hne =>
    split at h
    next hallowed => simp [hne, hallowed]
    · cases h

lemma bytes_iff {bytes : ℕ}
    (h : (classifyMemory baseline desired (hotplug.getD {})).unsupported = false) :
    (((classifyMemory baseline desired (hotplug.getD {})).config).map (·.size)).getD bytes =
        desired.desiredMemoryBytes ↔
      (desired.desiredMemoryBytes = baseline.currentMemoryBytes →
        bytes = desired.desiredMemoryBytes) := by
  unfold classifyMemory at h ⊢
  split at h
  next heq => simp [heq]
  next hne =>
    split at h
    next hallowed => simp [hne, hallowed]
    · cases h

section Prepared

variable {ns : String} (prep : Preparation ns oldSpec newSpec) {newClass : ShipClass String}
  (hdesired : hotplugDesired newClass ((prep.addedNetworkPlans sha256 shipId).map (·.vm))
    prep.addedVmVolumes = .ok desired)

include hdesired

lemma nics_iff (nics : List (Device String))
    (h : (classifyNetworks sha256 oldSpec newSpec baseline desired (hotplug.getD {})).unsupported =
      false) :
    ((plug nics
        (classifyNetworks sha256 oldSpec newSpec baseline desired (hotplug.getD {})).removed
        ((classifyNetworks sha256 oldSpec newSpec baseline desired (hotplug.getD {})).added.zipWith
          (fun nic network => ⟨nicDeviceId sha256 nic.macAddress, network⟩)
          (prep.addedNetworks sha256 shipId))).map (·.purpose)).Perm
        (newSpec.networkClassRef.map classKey) ↔
      ((nics.filter (·.id ∉ KeyDiff.dropped (networkKeys newSpec) (networkKeys oldSpec)
        baseline.currentNicIds)).map (·.purpose)).Perm
        ((newSpec.networkClassRef.map classKey).filter
          (· ∉ (networkKeys newSpec).filter (· ∉ networkKeys oldSpec))) := by
  obtain ⟨-, hnics, -⟩ := parseMemorySize_of_hotplugDesired hdesired
  have hplanned := prep.addedNetworks_eq_planned sha256 shipId
  rw [hplanned]
  refine perm_plug_iff (fun _ => decide_not) h ?_ fun hnone => ?_
  · rw [← hplanned, hnics, Preparation.addedNetworks, List.length_map, List.length_map]
  · rw [hnone]
    exact List.filter_eq_nil_iff.2 fun _ _ => by simp

lemma volumes_iff (volumes : List (Device (String × String)))
    (h : (classifyVolumes sha256 oldSpec newSpec baseline desired (hotplug.getD {})).unsupported =
      false) :
    ((plug volumes
        (classifyVolumes sha256 oldSpec newSpec baseline desired (hotplug.getD {})).removed
        ((classifyVolumes sha256 oldSpec newSpec baseline desired (hotplug.getD {})).added.zipWith
          (fun volume claim => ⟨volumeDeviceId sha256 volume.hostPath, claim⟩)
          prep.addedClaims)).map (·.purpose)).Perm (pvcClaims prep.newVolumes) ↔
      ((volumes.filter (·.id ∉ KeyDiff.dropped (pvcVolumeAliases newSpec)
        (pvcVolumeAliases oldSpec) baseline.currentVolumeIds)).map (·.purpose)).Perm
        ((pvcClaims prep.newVolumes).filter
          (·.1 ∈ (pvcClaims prep.oldVolumes).map Prod.fst)) := by
  obtain ⟨-, -, hvolumes⟩ := parseMemorySize_of_hotplugDesired hdesired
  have hclaims := prep.addedClaims_eq
  rw [hclaims]
  refine perm_plug_iff (fun claim => ?_) h ?_ fun hnone => ?_
  · rw [decide_not, Bool.not_not]
  · rw [← hclaims, hvolumes, prep.length_addedClaims]
  · rw [prep.newAliases_eq, prep.oldAliases_eq, List.filter_map, List.map_eq_nil_iff] at hnone
    exact hnone

/-- A supported request makes a machine that realizes the new spec exactly if the devices that stay
are those of the new spec; and one with the cores and the memory of the new class exactly if the
machine has them already where the baseline says so. -/
theorem hotplug_realizes_iff {m : Machine}
    (hsupported : (classifyHotplugChanges sha256 shipId oldSpec newSpec baseline desired hotplug
      flag).hasUnsupportedChanges = false)
    (hreq : (classifyHotplugChanges sha256 shipId oldSpec newSpec baseline desired hotplug
      flag).hotplugReq = some req) :
    let after := m.hotplug sha256 req (prep.addedNetworks sha256 shipId) prep.addedClaims
    (Realizes after newSpec ↔ prep.StaysFit baseline m) ∧
      (after.cpuCores = desired.desiredCpuCores ↔
        (desired.desiredCpuCores = baseline.currentCpuCores →
          m.cpuCores = desired.desiredCpuCores)) ∧
      (after.memoryBytes = desired.desiredMemoryBytes ↔
        (desired.desiredMemoryBytes = baseline.currentMemoryBytes →
          m.memoryBytes = desired.desiredMemoryBytes)) := by
  obtain ⟨hcpu, hmemory, hnicsAdded, hnicsRemoved, hvolumesAdded, hvolumesRemoved⟩ :=
    request_eq hreq
  obtain ⟨hcpuOk, hmemoryOk, hnicsOk, hvolumesOk⟩ := supported_parts hsupported
  intro after
  refine ⟨?_, ?_, ?_⟩
  · have hnics := nics_iff prep hdesired m.nics hnicsOk
    have hvolumes := volumes_iff prep hdesired m.volumes hvolumesOk
    rw [← hnicsAdded, ← hnicsRemoved] at hnics
    rw [← hvolumesAdded, ← hvolumesRemoved] at hvolumes
    constructor
    · rintro ⟨hnicsAfter, volumes, hnormalized, hvolumesAfter⟩
      cases hnormalized.symm.trans prep.newVolumes_eq
      exact ⟨hnics.1 hnicsAfter, hvolumes.1 hvolumesAfter⟩
    · intro hfit
      exact ⟨hnics.2 hfit.nics, prep.newVolumes, prep.newVolumes_eq, hvolumes.2 hfit.volumes⟩
  · show (req.cpu.map (·.cores)).getD m.cpuCores = _ ↔ _
    rw [hcpu]
    exact cores_iff hcpuOk
  · show (req.memory.map (·.size)).getD m.memoryBytes = _ ↔ _
    rw [hmemory]
    exact bytes_iff hmemoryOk

end Prepared

end Request

/-! ## A Ship whose spec changes

The Ship has one network and one volume, and moves to a larger class.  If it also gets a second
network and loses its volume, the machine follows.  If its alias is bound to another claim instead,
the request is about the class only. -/

/-- A digest that tells nothing apart; here no kind has more than one device to remove. -/
def constantDigest (_ : String) : Digest := Digest.ofBytes []

def coreRef (name : String) : Workload.ShipNetworkClassReference :=
  { apiGroup := "core", kind := "NetworkClass", name }

def claimVolume (name claim : String) : Workload.ShipVolume :=
  { name, persistentVolumeClaim := some claim }

def webSpec : Workload.ShipSpec :=
  { shipClass := "small", networkClassRef := [coreRef "a"]
    volumes := [claimVolume "data" "claim-a"] }

def webVolumes : List NormalizedVolume := [⟨"data", .persistentVolumeClaim "claim-a"⟩]

def webMachine : Machine :=
  { cpuCores := 2, memoryBytes := 2147483648
    nics := [⟨"nic-a", "core|NetworkClass|a"⟩], volumes := [⟨"dev-data", ("data", "claim-a")⟩] }

def webBaseline : HotplugBaseline :=
  { currentCpuCores := 2, currentMemoryBytes := 2147483648
    currentNicIds := ["nic-a"], currentVolumeIds := ["dev-data"] }

lemma realizes_webMachine : Realizes webMachine webSpec :=
  ⟨by decide, webVolumes, by rfl, by decide⟩

def largeClass : ShipClass String where
  spec := some { cpu := some { cores := 4 }, memory := some "4Gi" }

/-- What the larger class asks for. -/
def largeDesired (nicsAdded : List VmNetworkConfig) : HotplugDesired :=
  { desiredCpuCores := 4, desiredMemoryBytes := 4294967296, memorySize := "4Gi", nicsAdded }

def allCapabilities : RuntimeHotplug :=
  { cpu := some ⟨true, true⟩, memory := some ⟨true, true⟩, nic := some ⟨true, true⟩
    storage := some ⟨true, true⟩ }

def webPlan (newSpec : Workload.ShipSpec) (nicsAdded : List VmNetworkConfig) : HotplugPlan :=
  classifyHotplugChanges constantDigest "ship" webSpec newSpec webBaseline (largeDesired nicsAdded)
    (some allCapabilities) false

def grownSpec : Workload.ShipSpec :=
  { webSpec with
    shipClass := "large", networkClassRef := [coreRef "a", coreRef "b"], volumes := [] }

def growing : Preparation "ns" webSpec grownSpec where
  oldVolumes := webVolumes
  newVolumes := []
  oldClasses := [.ofRef "ns" (coreRef "a") {}]
  newClasses := [.ofRef "ns" (coreRef "a") {}, .ofRef "ns" (coreRef "b") {}]
  newVolumeInfos := []
  addedVmVolumes := []
  oldVolumes_eq := by rfl
  newVolumes_eq := by rfl
  oldClasses_found := .cons ⟨by decide, {}, rfl⟩ .nil
  newClasses_found := .cons ⟨by decide, {}, rfl⟩ (.cons ⟨by decide, {}, rfl⟩ .nil)
  newVolumeInfos_loaded := .nil
  length_addedVmVolumes := by rfl

def grownNic : VmNetworkConfig := { ifaceName := "eth1", macAddress := "52:54:00:00:00:00" }

def grownRequest : VmHotplugRequest :=
  { id := "ship", cpu := some ⟨4⟩, memory := some ⟨4294967296⟩, nicsAdded := [grownNic]
    volumesRemoved := ["dev-data"] }

theorem hotplug_realizes_iff_grown :
    growing.addedNetworkPlans constantDigest "ship" ≠ [] ∧
      Realizes (webMachine.hotplug constantDigest grownRequest
        (growing.addedNetworks constantDigest "ship") growing.addedClaims) grownSpec :=
  ⟨by decide +kernel,
    (hotplug_realizes_iff growing
      (by rfl : hotplugDesired largeClass
        ((growing.addedNetworkPlans constantDigest "ship").map (·.vm)) growing.addedVmVolumes =
          .ok (largeDesired [grownNic]))
      (by decide +kernel : (webPlan grownSpec [grownNic]).hasUnsupportedChanges = false)
      (by decide +kernel : (webPlan grownSpec [grownNic]).hotplugReq = some grownRequest)).1.2
      ⟨by decide +kernel, by decide +kernel⟩⟩

/-- The alias is bound to another claim. -/
def reboundSpec : Workload.ShipSpec :=
  { webSpec with shipClass := "large", volumes := [claimVolume "data" "claim-b"] }

def reboundRequest : VmHotplugRequest :=
  { id := "ship", cpu := some ⟨4⟩, memory := some ⟨4294967296⟩ }

def rebinding : Preparation "ns" webSpec reboundSpec where
  oldVolumes := webVolumes
  newVolumes := [⟨"data", .persistentVolumeClaim "claim-b"⟩]
  oldClasses := [.ofRef "ns" (coreRef "a") {}]
  newClasses := [.ofRef "ns" (coreRef "a") {}]
  newVolumeInfos := [.persistentVolumeClaim { name := "data", claimName := "claim-b" }]
  addedVmVolumes := []
  oldVolumes_eq := by rfl
  newVolumes_eq := by rfl
  oldClasses_found := .cons ⟨by decide, {}, rfl⟩ .nil
  newClasses_found := .cons ⟨by decide, {}, rfl⟩ .nil
  newVolumeInfos_loaded := .cons ⟨"", none, {}, rfl⟩ .nil
  length_addedVmVolumes := by rfl

/-- A request is made and nothing is called unsupported, and the machine keeps the old claim. -/
theorem hotplug_keeps_old_claim :
    Realizes webMachine webSpec ∧
      hotplugDesired largeClass ((rebinding.addedNetworkPlans constantDigest "ship").map (·.vm))
        rebinding.addedVmVolumes = .ok (largeDesired []) ∧
      (webPlan reboundSpec []).hasUnsupportedChanges = false ∧
      (webPlan reboundSpec []).hotplugReq = some reboundRequest ∧
      ¬ Realizes (webMachine.hotplug constantDigest reboundRequest
        (rebinding.addedNetworks constantDigest "ship") rebinding.addedClaims) reboundSpec := by
  refine ⟨realizes_webMachine, by rfl, by decide +kernel, by decide +kernel, ?_⟩
  rintro ⟨-, volumes, hvolumes, hperm⟩
  cases hvolumes.symm.trans rebinding.newVolumes_eq
  have hold : ("data", "claim-a") ∈ pvcClaims rebinding.newVolumes :=
    hperm.subset (by decide)
  exact absurd hold (by decide)

/-! ## Memory -/

section Memory

variable {sha256 : String → Digest} {shipId : String} {oldSpec newSpec : Workload.ShipSpec}
  {baseline : HotplugBaseline} {desired : HotplugDesired} {hotplug : Option RuntimeHotplug}
  {flag : Bool} {req : VmHotplugRequest}

/-- If the memory is changed, what is recorded of it is read as the memory the machine has after the
request, and the next baseline is that memory, whatever the old class says. -/
theorem planned_memory_reads_back {newClass : ShipClass String} {nicsAdded : List VmNetworkConfig}
    {volumesAdded : List VmVolumeConfig} {config : VmMemoryHotplugConfig} (m : Machine)
    (networks : List String) (claims : List (String × String)) (oldClassBytes : ℕ)
    (hdesired : hotplugDesired newClass nicsAdded volumesAdded = .ok desired)
    (hplanned : (classifyMemory baseline desired (hotplug.getD {})).config = some config)
    (hreq : (classifyHotplugChanges sha256 shipId oldSpec newSpec baseline desired hotplug
      flag).hotplugReq = some req) :
    ((classifyHotplugChanges sha256 shipId oldSpec newSpec baseline desired hotplug
        flag).actualAllocation.memorySize.bind parseMemorySize) =
        some (m.hotplug sha256 req networks claims).memoryBytes ∧
      memoryBaseline (some (classifyHotplugChanges sha256 shipId oldSpec newSpec baseline desired
          hotplug flag).actualAllocation) oldClassBytes =
        (m.hotplug sha256 req networks claims).memoryBytes := by
  obtain ⟨-, hmemory, -⟩ := request_eq hreq
  obtain ⟨hsize, hconfig⟩ := actualSize_of_planned hplanned
  obtain ⟨hparse, -⟩ := parseMemorySize_of_hotplugDesired hdesired
  have hafter :
      (m.hotplug sha256 req networks claims).memoryBytes = desired.desiredMemoryBytes := by
    rw [Machine.hotplug, hmemory, hplanned, ← hconfig]
    rfl
  have hrecorded : (classifyHotplugChanges sha256 shipId oldSpec newSpec baseline desired hotplug
      flag).actualAllocation.memorySize = some desired.memorySize := congrArg some hsize
  have hread : ((classifyHotplugChanges sha256 shipId oldSpec newSpec baseline desired hotplug
      flag).actualAllocation.memorySize.bind parseMemorySize) =
      some (m.hotplug sha256 req networks claims).memoryBytes := by
    rw [hrecorded, Option.bind_some, hparse, hafter]
  refine ⟨hread, ?_⟩
  rw [memoryBaseline, Option.bind_some, hread]
  rfl

end Memory

theorem planned_memory_reads_back_rebound :
    (classifyMemory webBaseline (largeDesired []) allCapabilities).config = some ⟨4294967296⟩ ∧
      memoryBaseline (some (webPlan reboundSpec []).actualAllocation) 2147483648 = 4294967296 :=
  ⟨by decide,
    (planned_memory_reads_back webMachine [] [] 2147483648
      (by rfl : hotplugDesired largeClass [] [] = .ok (largeDesired []))
      (by decide : (classifyMemory webBaseline (largeDesired []) ((some allCapabilities).getD
        {})).config = some ⟨4294967296⟩)
      (by decide +kernel : (webPlan reboundSpec []).hotplugReq = some reboundRequest)).2⟩

end Tugboat.Hotplug
