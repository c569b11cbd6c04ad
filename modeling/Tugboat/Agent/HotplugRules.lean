import Tugboat.Agent.HotplugRun

/-!
# Rules for the hotplug path

What the parts of `tryReconcileHotplug` keep and return, for use with any property of the node.
Most calls keep every property, since they are about neither the record nor the machine
(`keepsOp_elsewhere`); the calls that read secrets and give volumes back leave at most a failure
behind, and before the machine is changed not even that (`KeptAside`).

`yields_prepareHotplugState` says what a preparation consists of (`PreparedFor`): it is about the
spec that is recorded, everything it names was found, and the volumes it has published are those of
the added aliases.
-/

namespace Tugboat.Hotplug

open Volume Network VmRuntime Hex Fallible

/-! ## The protocol -/

namespace ShipNode

/-- The agent is told what is recorded. -/
def Says (s : ShipNode) : (op : HotplugOp) → op.Reply → Prop
  | .getHotplugLock, known => known = s.record.isSome
  | .matchesFingerprints fingerprints, matching =>
    matching = (s.record.any (·.fingerprints.spec = fingerprints.spec),
      s.record.any (·.fingerprints.pvcVolume = fingerprints.pvcVolume))
  | .currentShipSpec, spec => spec = s.record.map (·.shipSpec)
  | .currentPublishedVolumes, volumes => volumes = s.record.map (·.publishedVolumes)
  | _, _ => True

/-- A call, seen from the program. -/
def protocol : Protocol HotplugOp.interface ShipNode where
  allowed _ _ := True
  assumes := Says
  observe := after

lemma says_answer (s : ShipNode) (a : Answers) (op : HotplugOp) : s.Says op (s.answer a op) := by
  unfold Says
  split
  · rfl
  · rfl
  · rfl
  · rfl
  · trivial

lemma run_of_spec {ε α : Type} {A : ShipNode → Prop}
    {x : ExceptT ε (Program HotplugOp.interface) α} {B : α → ShipNode → Prop}
    {F : ε → ShipNode → Prop} (h : Spec protocol A x B F) (choice : ℕ → Answers) {s : ShipNode}
    (hs : A s) :
    Fallible.Outcome B F (Program.run exec x.run choice s).1 (Program.run exec x.run choice s).2 :=
  Spec.run (C := fun _ => True) (fun s a op _ => ⟨s.says_answer a op, rfl⟩) h (fun _ => trivial) hs

end ShipNode

open ShipNode

/-! ## Calls that are not about the machine -/

/-- The call is not about the record, the machine or its number. -/
def HotplugOp.aside : HotplugOp → Bool
  | .updateRuntimeState .. | .hotplug _ | .reconcileDeleted | .reconcileAdded => false
  | _ => true

/-- Nor is its failure of any consequence. -/
def HotplugOp.elsewhere : HotplugOp → Bool
  | .resolveCsiSecrets _ | .unpublish _ | .replaceStatus .. => false
  | op => op.aside

lemma after_of_aside {op : HotplugOp} (h : op.aside = true) (s : ShipNode) (r : op.Reply) :
    s.after op r = { s with failed := s.failedAfter op r } := by
  cases op <;> first | rfl | cases h

lemma after_of_elsewhere {op : HotplugOp} (h : op.elsewhere = true) (s : ShipNode) (r : op.Reply) :
    s.after op r = s := by
  cases op <;> first | rfl | cases h

lemma failedAfter_of_unchanged {s : ShipNode} (h : s.changed = false) (op : HotplugOp)
    (r : op.Reply) : s.failedAfter op r = s.failed := by
  rw [failedAfter, h, Bool.and_false]
  rfl

/-- All calls keep `I` that are not about the machine. -/
def KeptAside (I : ShipNode → Prop) : Prop :=
  ∀ op : HotplugOp, op.aside = true → KeepsOp protocol I op

section Rules

variable {ns : String} {I : ShipNode → Prop} {ε : Type}

lemma keepsOp_elsewhere {op : HotplugOp} (h : op.elsewhere = true) : KeepsOp protocol I op := by
  refine fun s hs => ⟨trivial, fun r _ => ?_⟩
  rw [show protocol.observe s op r = s from after_of_elsewhere h s r]
  exact hs

lemma keptAside_of_unchanged (h : ∀ s, I s → s.changed = false) : KeptAside I := by
  refine fun op hop s hs => ⟨trivial, fun r _ => ?_⟩
  have hafter : s.after op r = s := by
    rw [after_of_aside hop, failedAfter_of_unchanged (h s hs)]
  rw [show protocol.observe s op r = s from hafter]
  exact hs

lemma yields_read {op : HotplugOp} (h : op.elsewhere = true) :
    Yields protocol I (ask op : ExceptT ε (Program HotplugOp.interface) _) fun _ => True :=
  Yields.askAny (keepsOp_elsewhere h)

/-! ## Loading -/

lemma yields_getRelatedNetworkClasses (spec : Workload.ShipSpec) :
    Yields protocol I (getRelatedNetworkClasses ns spec) fun _ => True := by
  refine (Yields.mapEach (R := fun _ _ => True) fun ref _ => ?_).weaken fun _ _ => trivial
  exact Yields.bind Yields.check fun _ _ => Yields.bind Yields.check fun _ _ =>
    Yields.bind (yields_read rfl) fun _ _ => Yields.bind Yields.check fun _ _ =>
    Yields.bind Yields.check fun _ _ => Yields.bind Yields.check fun _ _ => Yields.pure trivial

lemma yields_loadPersistentVolumeClaim (name claimName : String) :
    Yields protocol I (loadPersistentVolumeClaim ns name claimName) fun info =>
      info.name = name ∧ info.claimName = claimName :=
  Yields.bind (yields_read rfl) fun _ _ =>
    Yields.bind Yields.check fun _ _ => Yields.pure ⟨rfl, rfl⟩

lemma yields_loadVolume (volume : NormalizedVolume) :
    Yields protocol I (loadVolume ns volume) (LoadedVolume volume) := by
  obtain ⟨name, source⟩ := volume
  cases source with
  | persistentVolumeClaim claimName =>
    refine Yields.bind (yields_loadPersistentVolumeClaim name claimName) fun info hinfo => ?_
    obtain ⟨rfl, rfl⟩ := hinfo
    exact Yields.pure ⟨info.volumeName, info.volumeMode, info.source, rfl⟩
  | configMap _ _ _ _ | secret _ _ _ _ | projected _ _ =>
    exact Yields.bind (yields_read rfl) fun _ _ => Yields.bind Yields.check fun _ _ =>
      Yields.pure rfl

lemma yields_getRelatedVolumes (spec : Workload.ShipSpec) :
    Yields protocol I (getRelatedVolumes ns spec)
      fun infos => ∃ volumes, normalizedShipVolumes spec = .ok volumes ∧
        LoadedVolumes volumes infos := by
  refine Yields.bind (Yields.orFail fun _ => eq_ok_of_mapError) fun volumes hvolumes => ?_
  exact (Yields.mapEach fun volume _ => yields_loadVolume volume).weaken
    fun infos hinfos => ⟨volumes, hvolumes, hinfos⟩

/-! ## Giving volumes back -/

section Secrets

variable {p : String → Prop} (hsecrets : ∀ info : PersistentVolumeClaimVolumeInfo,
  p info.name → KeepsOp protocol I (.resolveCsiSecrets info))

include hsecrets

lemma yields_volumeSecrets (secrets : List String) {volume : VolumeInfo}
    (hvolume : ∀ info, volume.claim = some info → p info.name) :
    Yields protocol I (volumeSecrets secrets volume) fun _ => True := by
  unfold volumeSecrets
  split
  · exact Yields.pure trivial
  next info hinfo =>
    exact Yields.bind (Yields.askAny (hsecrets info (hvolume info hinfo))) fun _ _ =>
      Yields.bind Yields.check fun _ _ => Yields.pure trivial

lemma yields_staleSecrets (secrets : List String) {published : PublishedVolume}
    (hpublished : p published.claimName) :
    Yields protocol I (staleSecrets ns secrets published) fun _ => True := by
  unfold staleSecrets
  split
  · exact Yields.pure trivial
  refine Yields.bind (Yields.attempt (yields_loadPersistentVolumeClaim _ _)) fun found hfound => ?_
  cases found with
  | error e => exact Yields.pure trivial
  | ok info =>
    have hname : p info.name := (hfound info rfl).1 ▸ hpublished
    refine Yields.bind (Yields.askAny (hsecrets info hname)) fun resolved _ => ?_
    cases resolved with
    | error e | ok _ => exact Yields.pure trivial

lemma yields_controllerPublishSecretMap {volumes : List VolumeInfo}
    {staleVolumes : List PublishedVolume}
    (hvolumes : ∀ volume ∈ volumes, ∀ info, volume.claim = some info → p info.name)
    (hstale : ∀ v ∈ staleVolumes, p v.claimName) :
    Yields protocol I (controllerPublishSecretMap ns volumes staleVolumes) fun _ => True :=
  Yields.bind (Yields.foldEach (fun secrets volume hvolume _ =>
      yields_volumeSecrets hsecrets secrets (hvolumes volume hvolume)) trivial) fun _ _ =>
    Yields.foldEach (fun secrets published hpublished _ =>
      yields_staleSecrets hsecrets secrets (hstale published hpublished)) trivial

end Secrets

lemma yields_cleanupPublishedVolumesWithPolicy {volumes : List PublishedVolume}
    {secrets : List String} {policy : CleanupSecretPolicy}
    (hunpublish : ∀ v ∈ volumes, KeepsOp protocol I (.unpublish v)) :
    Yields protocol I (cleanupPublishedVolumesWithPolicy volumes secrets policy) fun _ => True := by
  refine Yields.bind (Yields.foldEach (J := fun _ => True) (fun errors v hv _ => ?_) trivial)
    fun _ _ => Yields.check
  unfold unpublishNext
  split
  · exact Yields.pure trivial
  refine Yields.bind (Yields.askAny (hunpublish v (List.mem_reverse.mp hv))) fun r _ => ?_
  cases r with
  | ok _ | error e => exact Yields.pure trivial

/-- `p` is what is known of the aliases of the additions. -/
lemma spec_bestEffortCleanupHotplugAdditions {prepared : HotplugPreparedState} {p : String → Prop}
    (hvolumes : ∀ volume ∈ prepared.newVolumes, ∀ info, volume.claim = some info → p info.name)
    (hadded : ∀ v ∈ prepared.addedPublishedVolumes, p v.claimName)
    (hsecrets : ∀ info : PersistentVolumeClaimVolumeInfo, p info.name →
      KeepsOp protocol I (.resolveCsiSecrets info))
    (hunpublish : ∀ v : PublishedVolume, p v.claimName → KeepsOp protocol I (.unpublish v)) :
    Completes protocol I (bestEffortCleanupHotplugAdditions ns prepared) := by
  refine Spec.bind (B := fun _ => I) (Spec.forEach fun plan _ => ?_) fun _ => ?_
  · exact Spec.bind (Spec.ask (B := fun _ => I) (fun _ _ => trivial)
      fun s r hs hr => (keepsOp_elsewhere rfl s hs).2 r hr) fun _ => Spec.pure fun s hs => hs
  split
  · exact Spec.pure fun s hs => hs
  refine (Spec.attempt (yields_controllerPublishSecretMap hsecrets hvolumes hadded)).bind
    fun secrets => ?_
  cases secrets with
  | error e => exact Spec.pure fun s hs => hs
  | ok secrets =>
    have hcleanup : Yields protocol I
        (cleanupPublishedVolumesBestEffort prepared.addedPublishedVolumes secrets) fun _ => True :=
      yields_cleanupPublishedVolumesWithPolicy fun v hv => hunpublish v (hadded v hv)
    refine ((Spec.attempt hcleanup).strengthenPre fun s hs => hs.2).bind fun r =>
      Spec.pure fun s hs => ?_
    cases r with
    | ok _ => exact hs.2
    | error _ => exact hs

end Rules

/-! ## Setting volumes up -/

def claimInfos (volumes : List VolumeInfo) : List PersistentVolumeClaimVolumeInfo :=
  volumes.filterMap VolumeInfo.claim

/-- What was published for volumes, and what of it goes to the machine. -/
structure SetUp (publishDir shipId : String) (volumes : List VolumeInfo)
    (published : List PublishedVolume) (vmVolumes : List VmVolumeConfig) : Prop where
  planned : List.Forall₂ (fun info v => ∃ controllerPublished,
    v = plannedVolume publishDir shipId info controllerPublished) (claimInfos volumes) published
  paths : (∀ volume ∈ volumes, volume.claim.isSome) →
    published.map (·.targetPath) = vmVolumes.map (·.hostPath)

section Setup

variable {publishDir shipId : String} {I : ShipNode → Prop} {vmVolumes : List VmVolumeConfig}
  {volumes : List VolumeInfo} {guard : VolumeSetupGuard}

lemma SetUp.nil : SetUp publishDir shipId [] [] [] := ⟨.nil, fun _ => rfl⟩

lemma SetUp.map_claimName {published : List PublishedVolume}
    (h : SetUp publishDir shipId volumes published vmVolumes) :
    published.map (·.claimName) = (claimInfos volumes).map (·.name) := by
  have hnames : List.Forall₂ (fun name v => name = v.claimName) ((claimInfos volumes).map (·.name))
      published := by
    rw [List.forall₂_map_left_iff]
    refine h.planned.imp fun info v hv => ?_
    obtain ⟨controllerPublished, rfl⟩ := hv
    rfl
  rw [← List.forall₂_map_right_iff, List.forall₂_eq_eq_eq] at hnames
  exact hnames.symm

lemma SetUp.push (h : SetUp publishDir shipId volumes guard.publishedVolumes vmVolumes)
    (info : PersistentVolumeClaimVolumeInfo) (controllerPublished : Bool) {config : VmVolumeConfig}
    (hconfig : config.hostPath =
      (plannedVolume publishDir shipId info controllerPublished).targetPath) :
    SetUp publishDir shipId (volumes ++ [.persistentVolumeClaim info])
      (guard.push (plannedVolume publishDir shipId info controllerPublished)).publishedVolumes
      (vmVolumes ++ [config]) where
  planned := by
    rw [claimInfos, List.filterMap_append]
    exact List.rel_append h.planned (.cons ⟨controllerPublished, rfl⟩ .nil)
  paths hclaims := by
    rw [VolumeSetupGuard.push, List.map_append, List.map_append,
      h.paths fun volume hvolume => hclaims volume (List.mem_append_left _ hvolume)]
    exact congrArg (_ ++ [·]) hconfig.symm

lemma yields_setupClaim {info : PersistentVolumeClaimVolumeInfo} :
    Yields protocol I (setupClaim publishDir shipId guard info) fun r => ∃ controllerPublished,
      r.1 = guard.push (plannedVolume publishDir shipId info controllerPublished) ∧
      r.2.hostPath = (plannedVolume publishDir shipId info controllerPublished).targetPath := by
  refine Yields.bind (yields_read rfl) fun settings _ => ?_
  refine Yields.bind Yields.check fun readOnly _ => ?_
  refine Yields.bind (yields_read rfl) fun _ _ => Yields.bind Yields.check fun _ _ => ?_
  refine Yields.bind (yields_read rfl) fun r _ => ?_
  cases r with
  | error e =>
    cases e with
    | partialState reason controllerPublished | failed text => exact Spec.throw fun s hs => hs
  | ok controllerPublished =>
    refine Yields.bind (R := fun _ => True) ?_ fun _ _ => Yields.pure
      ⟨controllerPublished, rfl, by unfold vmVolumeConfig; split <;> rfl⟩
    exact Yields.bind (yields_read rfl) fun _ _ => Yields.bind Yields.check fun _ _ =>
      Yields.bind (yields_read rfl) fun _ _ => Yields.bind Yields.check fun _ _ =>
      Yields.bind (yields_read rfl) fun _ _ => Yields.check

lemma yields_setupVolume {before : List VolumeInfo}
    {done : VolumeSetupGuard × List VmVolumeConfig} (volume : VolumeInfo)
    (hdone : SetUp publishDir shipId before done.1.publishedVolumes done.2) :
    Yields protocol I (setupVolume publishDir shipId done volume) fun r =>
      SetUp publishDir shipId (before ++ [volume]) r.1.publishedVolumes r.2 := by
  cases volume with
  | persistentVolumeClaim info =>
    refine Yields.bind yields_setupClaim fun r hr => Yields.pure ?_
    obtain ⟨controllerPublished, hguard, hconfig⟩ := hr
    rw [hguard]
    exact hdone.push info controllerPublished hconfig
  | materialized name =>
    refine Yields.bind (yields_read rfl) fun r _ => Yields.bind Yields.check fun path _ =>
      Yields.pure ⟨?_, ?_⟩
    · rw [claimInfos, List.filterMap_append]
      exact (List.append_nil _).symm ▸ hdone.planned
    · intro hclaims
      exact absurd (hclaims _ (List.mem_append_right _ (List.mem_singleton.mpr rfl)))
        (by simp [VolumeInfo.claim])

/-- The loop over the volumes. -/
lemma yields_setupVolumesInner (volumes : List VolumeInfo) :
    Yields protocol I (setupVolumesInner publishDir shipId volumes) fun r =>
      SetUp publishDir shipId volumes r.1.publishedVolumes r.2 := by
  have hnamespace : Yields protocol I (ensureMountNamespaceFor volumes) fun _ => True := by
    unfold ensureMountNamespaceFor
    split
    · exact Yields.bind (yields_read rfl) fun _ _ => Yields.check
    · exact Yields.pure trivial
  refine Yields.bind hnamespace fun _ _ => ?_
  refine (Spec.foldEachDone (J := fun before (done : VolumeSetupGuard × List VmVolumeConfig) s =>
    SetUp publishDir shipId before done.1.publishedVolumes done.2 ∧ I s)
    (fun before volume rest done _ => Spec.intro fun hdone => yields_setupVolume volume hdone)
    ({}, [])).strengthenPre fun s hs => ⟨SetUp.nil, hs⟩

variable (hI : KeptAside I)

include hI

lemma yields_setupVolumes (volumes : List VolumeInfo) :
    Yields protocol I (setupVolumes publishDir shipId volumes) fun p =>
      SetUp publishDir shipId volumes p.1 p.2 := by
  refine Yields.bind (Yields.attempt (yields_setupVolumesInner volumes)) fun r hr => ?_
  cases r with
  | ok done => exact Yields.pure (hr done rfl)
  | error e =>
    have hcleanup : Yields protocol I (cleanupAfterVolumeSetupError e.1) fun _ => True := by
      refine Yields.bind (Yields.attempt (yields_cleanupPublishedVolumesWithPolicy
        fun v _ => hI (.unpublish v) rfl)) fun _ _ => ?_
      exact Yields.bind (yields_read rfl) fun _ _ => Yields.bind (yields_read rfl) fun _ _ =>
        Yields.pure trivial
    refine Yields.bind hcleanup fun errors _ => ?_
    split <;> exact Spec.throw fun s hs => hs

end Setup

/-! ## Preparation -/

def HotplugPreparedState.added (prepared : HotplugPreparedState) (newSpec : Workload.ShipSpec) :
    List VolumeInfo :=
  addedVolumeInfos (pvcVolumeAliases prepared.oldSpec) (pvcVolumeAliases newSpec)
    prepared.newVolumes

/-- What was prepared for a change of the spec, on a node that has recorded `r`. -/
structure PreparedFor (publishDir shipId : String) (ship : Workload.Ship) (r : Runtime)
    (newSpec : Workload.ShipSpec) (prepared : HotplugPreparedState) : Prop where
  name : shipName ship = .ok prepared.shipName
  oldSpec : prepared.oldSpec = r.shipSpec
  current : prepared.currentPublishedVolumes = r.publishedVolumes
  oldVolumes : ∃ volumes, normalizedShipVolumes r.shipSpec = .ok volumes ∧
    LoadedVolumes volumes prepared.oldVolumes
  newVolumes : ∃ volumes, normalizedShipVolumes newSpec = .ok volumes ∧
    LoadedVolumes volumes prepared.newVolumes
  removed : prepared.removedVolumeAliases =
    (pvcVolumeAliases r.shipSpec).filter (· ∉ pvcVolumeAliases newSpec)
  volumes : SetUp publishDir shipId (prepared.added newSpec) prepared.addedPublishedVolumes
    prepared.addedVmVolumes

section Preparation

variable {sha256 : String → Digest} {publishDir shipId ns : String} {I : ShipNode → Prop}
  {ship : Workload.Ship} {r : Runtime} {newSpec : Workload.ShipSpec}

lemma pvcVolumeAliases_of_pvcAliases {spec : Workload.ShipSpec} {names : List String}
    (h : pvcAliases spec = .ok names) : pvcVolumeAliases spec = names := by
  revert h
  unfold pvcAliases pvcVolumeAliases
  cases normalizedShipVolumes spec with
  | ok volumes => exact Except.ok.inj
  | error e => exact fun h => nomatch h

lemma mem_pvcVolumeAliases_iff {spec : Workload.ShipSpec} {volumes : List NormalizedVolume}
    {infos : List VolumeInfo} (hvolumes : normalizedShipVolumes spec = .ok volumes)
    (hloaded : LoadedVolumes volumes infos) {name : String} :
    name ∈ pvcVolumeAliases spec ↔
      ∃ volume ∈ infos, ∃ info, volume.claim = some info ∧ info.name = name := by
  rw [pvcVolumeAliases_eq hvolumes, ← claimsOf_loaded hloaded, claimsOf]
  simp

section PreparedFor

variable {prepared : HotplugPreparedState}
  (h : PreparedFor publishDir shipId ship r newSpec prepared)

include h

lemma PreparedFor.addedVmVolumes_eq_nil (hnone : prepared.added newSpec = []) :
    prepared.addedVmVolumes = [] := by
  have hvolumes := h.volumes
  rw [hnone] at hvolumes
  have hpublished : prepared.addedPublishedVolumes = [] :=
    List.forall₂_nil_left_iff.mp hvolumes.planned
  have hpaths := hvolumes.paths (by simp)
  rw [hpublished] at hpaths
  exact List.map_eq_nil_iff.mp hpaths.symm

lemma PreparedFor.mem_of_newVolumes {volume : VolumeInfo} (hvolume : volume ∈ prepared.newVolumes)
    {info : PersistentVolumeClaimVolumeInfo} (hinfo : volume.claim = some info) :
    info.name ∈ pvcVolumeAliases newSpec := by
  obtain ⟨volumes, hvolumes, hloaded⟩ := h.newVolumes
  exact (mem_pvcVolumeAliases_iff hvolumes hloaded).mpr ⟨volume, hvolume, info, hinfo, rfl⟩

lemma PreparedFor.mem_of_added {v : PublishedVolume} (hv : v ∈ prepared.addedPublishedVolumes) :
    v.claimName ∈ pvcVolumeAliases newSpec := by
  have hname := List.mem_map_of_mem (f := PublishedVolume.claimName) hv
  rw [h.volumes.map_claimName, List.mem_map] at hname
  obtain ⟨info, hinfo, hname⟩ := hname
  obtain ⟨volume, hvolume, hclaim⟩ := List.mem_filterMap.mp hinfo
  rw [← hname]
  exact h.mem_of_newVolumes (List.mem_filter.mp hvolume).1 hclaim

lemma PreparedFor.mem_removed_iff {name : String} : name ∈ prepared.removedVolumeAliases ↔
    name ∈ pvcVolumeAliases r.shipSpec ∧ name ∉ pvcVolumeAliases newSpec := by
  rw [h.removed, List.mem_filter, decide_eq_true_eq]

end PreparedFor

variable (hI : KeptAside I)

include hI

lemma yields_prepareHotplugVolumeChanges {oldSpec : Workload.ShipSpec}
    {newVolumes : List VolumeInfo} :
    Yields protocol I
      (prepareHotplugVolumeChanges publishDir shipId oldSpec newSpec newVolumes) fun p =>
      ∀ q, p = some q →
        q.2.2 = (pvcVolumeAliases oldSpec).filter (· ∉ pvcVolumeAliases newSpec) ∧
        SetUp publishDir shipId (addedVolumeInfos (pvcVolumeAliases oldSpec)
          (pvcVolumeAliases newSpec) newVolumes) q.1 q.2.1 := by
  have haliases : ∀ spec, Yields protocol I
      (orFail ((pvcAliases spec).mapError VolumeError.toReconcileError) : Attempt (List String))
      fun names => pvcVolumeAliases spec = names := fun spec =>
    Yields.orFail fun _ h => pvcVolumeAliases_of_pvcAliases (eq_ok_of_mapError h)
  refine Yields.bind (haliases oldSpec) fun oldAliases hold => ?_
  refine Yields.bind (haliases newSpec) fun newAliases hnew => ?_
  subst hold
  subst hnew
  dsimp only
  split
  · refine Yields.bind (R := fun p => SetUp publishDir shipId (addedVolumeInfos
      (pvcVolumeAliases oldSpec) (pvcVolumeAliases newSpec) newVolumes) p.1 p.2) ?_
      fun p hp => Yields.pure fun q hq => Option.some.inj hq ▸ ⟨rfl, hp⟩
    unfold setupAddedVolumes
    split
    next hnone =>
      exact Yields.pure (hnone ▸ SetUp.nil)
    · exact yields_setupVolumes hI _
  · exact Yields.pure fun _ h => absurd h.symm (Option.some_ne_none _)

variable {alloc : Option ShipActualAllocation} {fingerprints : ShipFingerprints}
  {G : ShipNode → Prop} {prepared : HotplugPreparedState}

omit hI in
/-- What was prepared is given back, or the plan is carried out. -/
lemma ends_applyPrepared (hG : ∀ s, I s → G s)
    (hcleanup : Completes protocol I (bestEffortCleanupHotplugAdditions ns prepared))
    (hexecute : ∀ plan req, hotplugPlan sha256 shipId alloc newSpec prepared = .ok plan →
      plan.hasUnsupportedChanges = false → plan.hotplugReq = some req →
      Ends protocol I
        (executeHotplug sha256 shipId ns ship newSpec fingerprints prepared plan req) G) :
    Ends protocol I (applyPrepared sha256 shipId ns ship alloc newSpec fingerprints prepared)
      G := by
  have habandon : Ends protocol I (abandonHotplug ns prepared) G :=
    hcleanup.ofTotal.bind fun _ => Spec.pure hG
  refine Spec.bind (B := fun plan s => hotplugPlan sha256 shipId alloc newSpec prepared = .ok plan ∧
    I s) (Spec.orFail (fun plan s hplan hs => ⟨hplan, hs⟩) fun _ s _ => hG s)
    fun plan => Spec.intro fun hplan => ?_
  split
  · exact habandon
  rename_i hsupported
  split
  · exact habandon
  next req hreq =>
    exact hexecute plan req hplan (by simpa using hsupported) hreq

variable (hrecord : ∀ s, I s → s.record = some r)

include hrecord

lemma yields_prepareFromClasses {name : String} {oldClass newClass : ShipClass String}
    {hotplug : Option RuntimeHotplug} (hname : shipName ship = .ok name) :
    Yields protocol I (prepareFromClasses sha256 publishDir shipId ns name r.shipSpec newSpec
        oldClass newClass hotplug) fun p =>
      ∀ prepared, p = some prepared → PreparedFor publishDir shipId ship r newSpec prepared := by
  refine Yields.bind (yields_getRelatedNetworkClasses r.shipSpec) fun oldClasses _ => ?_
  refine Yields.bind (yields_getRelatedNetworkClasses newSpec) fun newClasses _ => ?_
  refine Yields.bind (yields_getRelatedVolumes r.shipSpec) fun oldVolumes hold => ?_
  refine Yields.bind (yields_getRelatedVolumes newSpec) fun newVolumes hnew => ?_
  refine Yields.bind (yields_prepareHotplugVolumeChanges hI) fun p hp => ?_
  cases p with
  | none => exact Yields.pure fun _ h => absurd h.symm (Option.some_ne_none _)
  | some p =>
    obtain ⟨hremoved, hvolumes⟩ := hp p rfl
    refine Yields.bind (R := fun current => current = some r.publishedVolumes)
      (Yields.ask (keepsOp_elsewhere rfl) fun s current hs hr => ?_) fun current hcurrent => ?_
    · rw [show current = s.record.map (·.publishedVolumes) from hr, hrecord s hs]
      rfl
    · subst hcurrent
      refine Yields.pure fun prepared hprepared => Option.some.inj hprepared ▸ ?_
      exact
        { name := hname
          oldSpec := rfl
          current := rfl
          oldVolumes := hold
          newVolumes := hnew
          removed := hremoved
          volumes := hvolumes }

lemma yields_prepareHotplugState :
    Yields protocol I (prepareHotplugState sha256 publishDir shipId ns ship newSpec) fun p =>
      ∀ prepared, p = some prepared → PreparedFor publishDir shipId ship r newSpec prepared := by
  refine Yields.bind (R := fun spec => spec = some r.shipSpec)
    (Yields.ask (keepsOp_elsewhere rfl) fun s spec hs hr => ?_) fun spec hspec => ?_
  · rw [show spec = s.record.map (·.shipSpec) from hr, hrecord s hs]
    rfl
  subst hspec
  refine Yields.bind (R := fun name => shipName ship = .ok name) (Yields.orFail fun _ h => h)
    fun name hname => ?_
  refine Yields.bind (yields_read rfl) fun _ _ => Yields.bind Yields.check fun oldClass _ => ?_
  cases oldClass with
  | none => exact Yields.pure fun _ h => absurd h.symm (Option.some_ne_none _)
  | some oldClass =>
    refine Yields.bind (yields_read rfl) fun _ _ => Yields.bind Yields.check fun newClass _ => ?_
    cases newClass with
    | none => exact Yields.pure fun _ h => absurd h.symm (Option.some_ne_none _)
    | some newClass =>
      refine Yields.bind (yields_read rfl) fun _ _ => Yields.bind Yields.check fun hotplug _ => ?_
      cases hotplug with
      | none => exact Yields.pure fun _ h => absurd h.symm (Option.some_ne_none _)
      | some hotplug => exact yields_prepareFromClasses hI hrecord hname

/-! ## The path -/

/-- The path ends with what holds before the change, or with what its application ends with. -/
lemma ends_tryReconcileHotplug (hG : ∀ s, I s → G s)
    (happly : ∀ prepared, PreparedFor publishDir shipId ship r newSpec prepared →
      Ends protocol I
        (applyPrepared sha256 shipId ns ship alloc newSpec fingerprints prepared) G) :
    Ends protocol I
      (tryReconcileHotplug sha256 publishDir shipId ns ship alloc newSpec fingerprints) G := by
  have hstays : ∀ {b : Bool}, Ends protocol I (pure b : Attempt Bool) G := Spec.pure hG
  refine Spec.bind ((yields_read rfl).weakenFail fun _ => hG) fun locked => Spec.intro fun _ => ?_
  split
  · refine Spec.bind ((yields_read rfl).weakenFail fun _ => hG) fun matching =>
      Spec.intro fun _ => ?_
    dsimp only
    split
    · exact hstays
    refine Spec.bind ((yields_prepareHotplugState hI hrecord).weakenFail fun _ => hG)
      fun prepared => Spec.intro fun hprepared => ?_
    cases prepared with
    | none => exact hstays
    | some prepared => exact happly prepared (hprepared prepared rfl)
  · exact hstays

end Preparation

end Tugboat.Hotplug
