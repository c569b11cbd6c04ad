import Tugboat.Agent.HotplugRealizes
import Tugboat.Agent.HotplugRules

/-!
# A hotplug is recorded

Once the runtime has changed the machine, the agent should record the spec it was changed to: the
next reconcile plans from the record.  In between the path still takes down networks and gives back
volumes.  If a network cannot be taken down the machine is made anew; but if the secrets of a
removed volume cannot be read, if the volume cannot be given back, or if making the machine anew
fails, the path ends with an error and the record is what it was.

These are the only failures that matter: whatever else fails, the record describes the machine after
the change, and another run of the path does nothing, or the machine was made anew; and after one of
them neither is the case (`hotplug_recorded_iff`).  In `hotplug_repeated` a removed volume cannot be
given back, and the next reconcile asks the runtime to remove it again.
-/

namespace Tugboat.Hotplug

open Volume Network VmRuntime Hex Fallible ShipNode

/-! ## What is recorded -/

def removedAliases (oldSpec newSpec : Workload.ShipSpec) : List String :=
  (pvcVolumeAliases oldSpec).filter (· ∉ pvcVolumeAliases newSpec)

/-- The runtime has carried out one request, and the record describes the machine after it: it has
the new spec with its fingerprints, and the volumes of `r` without the removed and with the added
ones. -/
def Recorded (r : Runtime) (newSpec : Workload.ShipSpec) (fingerprints : ShipFingerprints)
    (s : ShipNode) : Prop :=
  ∃ req added, s.requests = [(req, true)] ∧
    added.map PublishedVolume.targetPath = req.volumesAdded.map VmVolumeConfig.hostPath ∧
    s.record = some
      { shipSpec := newSpec
        fingerprints
        publishedVolumes := r.publishedVolumes.filter
          (·.claimName ∉ removedAliases r.shipSpec newSpec) ++ added }

/-- A failure of the call matters: it is to give a removed volume back, or to make the machine
anew. -/
def HotplugOp.unsettles (removed : List String) : HotplugOp → Bool
  | .resolveCsiSecrets info => info.name ∈ removed
  | .unpublish v => v.claimName ∈ removed
  | .replaceStatus .. | .reconcileDeleted | .reconcileAdded => true
  | _ => false

/-- No call has failed, since the machine was changed, whose failure matters. -/
def ShipNode.Settled (removed : List String) (s : ShipNode) : Prop :=
  ∀ op ∈ s.failed, op.unsettles removed = false

/-! ## What calls keep -/

/-- What is recorded, what the runtime was asked for, and how many machines have been made, if
nothing that matters has failed. -/
structure Stands (removed : List String) (record : Option Runtime)
    (requests : List (VmHotplugRequest × Bool)) (made : ℕ) (s : ShipNode) : Prop where
  record : s.record = record
  requests : s.requests = requests
  made : s.made = made
  settled : s.Settled removed

/-- The machine is changed as `req` says, and `r` is still recorded. -/
abbrev Carried (removed : List String) (r : Runtime) (req : VmHotplugRequest) (made : ℕ) :
    ShipNode → Prop :=
  Stands removed (some r) [(req, true)] made

/-- Something that matters has failed: the machine was not made anew, and what is recorded is what
was, if anything. -/
structure Unsettled (removed : List String) (r : Runtime) (made : ℕ) (s : ShipNode) : Prop where
  failed : ¬ s.Settled removed
  made : s.made = made
  record : s.record = some r ∨ s.record = none

section Calls

variable {ns : String} {removed : List String} {record : Option Runtime} {r : Runtime}
  {requests : List (VmHotplugRequest × Bool)} {req : VmHotplugRequest} {made : ℕ} {s : ShipNode}
  {op : HotplugOp}

lemma subset_failedAfter (s : ShipNode) (x : op.Reply) : s.failed ⊆ s.failedAfter op x := by
  unfold failedAfter
  split
  · exact List.subset_append_left _ _
  · exact List.Subset.refl _

lemma settled_failedAfter (hs : s.Settled removed) {x : op.Reply}
    (hfine : op.fails x = true → s.changed = true → op.unsettles removed = false) :
    ∀ o ∈ s.failedAfter op x, o.unsettles removed = false := by
  unfold failedAfter
  split
  next hfailed =>
    obtain ⟨hfails, hchanged⟩ := Bool.and_eq_true_iff.mp hfailed
    intro o ho
    rcases List.mem_append.mp ho with ho | ho
    · exact hs o ho
    · rw [List.mem_singleton.mp ho]
      exact hfine hfails hchanged
  · exact hs

variable (op) in
lemma Stands.after (hop : op.aside = true) (hs : Stands removed record requests made s)
    {x : op.Reply} (hfine : op.fails x = true → s.changed = true → op.unsettles removed = false) :
    Stands removed record requests made (s.after op x) := by
  rw [after_of_aside hop]
  exact ⟨hs.record, hs.requests, hs.made, settled_failedAfter hs.settled hfine⟩

variable (op) in
lemma Unsettled.after (hop : op.aside = true) (hs : Unsettled removed r made s) (x : op.Reply) :
    Unsettled removed r made (s.after op x) := by
  rw [after_of_aside hop]
  exact ⟨fun h => hs.failed fun o ho => h o (subset_failedAfter s x ho), hs.made, hs.record⟩

lemma keepsOp_stands (hop : op.aside = true) (hfine : op.unsettles removed = false) :
    KeepsOp protocol (Stands removed record requests made) op :=
  fun _ hs => ⟨trivial, fun _ _ => hs.after _ hop fun _ _ => hfine⟩

lemma keepsOp_requests (hop : ∀ req, op ≠ .hotplug req) :
    KeepsOp protocol (fun s => s.requests = requests) op := by
  refine fun s hs => ⟨trivial, fun r _ => ?_⟩
  cases op <;> first | exact hs | exact absurd rfl (hop _)

lemma changed_of_stands (hs : Stands removed record [(req, true)] made s) : s.changed = true := by
  rw [changed, hs.requests]
  rfl

variable (op) in
/-- The failure is found among those of the call. -/
lemma not_settled_of_fails (hs : Stands removed record [(req, true)] made s) {x : op.Reply}
    (hfails : op.fails x = true) (hop : op.unsettles removed = true) :
    ¬ (s.after op x).Settled removed := by
  intro h
  have hmem : op ∈ s.failedAfter op x := by
    rw [failedAfter, hfails, changed_of_stands hs]
    exact List.mem_append_right _ (List.mem_singleton.mpr rfl)
  exact absurd (h op hmem) (by simp [hop])

/-- While the machine is not changed, everything of the preparation keeps what stands. -/
lemma keptAside_stands (hnone : requests.any (·.2) = false) :
    KeptAside (Stands removed record requests made) :=
  keptAside_of_unchanged fun s hs => by rw [changed, hs.requests, hnone]

lemma yields_handleHotplugRecreateFailure {ship : Workload.Ship} {prepared : HotplugPreparedState}
    {message : String} :
    Yields protocol (fun s => s.requests = requests)
      (handleHotplugRecreateFailure ns ship prepared message) fun _ => True := by
  have hcall : ∀ op : HotplugOp, (∀ req, op ≠ .hotplug req) →
      Yields protocol (fun s => s.requests = requests) (ask op : Attempt _) fun _ => True :=
    fun op hop => Yields.askAny (keepsOp_requests hop)
  refine Yields.bind (R := fun _ => True) ?_ fun _ _ => Yields.bind (R := fun _ => True) ?_
    fun _ _ => ?_
  · exact (spec_bestEffortCleanupHotplugAdditions (p := fun _ => True) (fun _ _ _ _ => trivial)
      (fun _ _ => trivial) (fun _ _ => keepsOp_requests (by simp))
      fun _ _ => keepsOp_requests (by simp)).weaken (fun _ hs => hs) (fun _ _ hs => ⟨trivial, hs⟩)
      fun _ _ hs => hs.elim
  · exact Yields.bind Yields.check fun _ _ =>
      Yields.bind (hcall .now (by simp)) fun _ _ =>
      Yields.bind (hcall (.replaceStatus _ _) (by simp)) fun _ _ => Yields.check
  · exact Yields.bind (hcall .reconcileDeleted (by simp)) fun _ _ =>
      Yields.bind Yields.check fun _ _ =>
      Yields.bind (hcall .reconcileAdded (by simp)) fun _ _ =>
      Yields.bind Yields.check fun _ _ =>
      Yields.pure trivial

end Calls

/-! ## After the change -/

section Late

variable {sha256 : String → Digest} {publishDir shipId ns : String} {removed : List String}
  {r : Runtime} {req : VmHotplugRequest} {made : ℕ} {ship : Workload.Ship}
  {prepared : HotplugPreparedState} {ε : Type}

/-- A call whose failure matters. -/
lemma spec_settling {op : HotplugOp} (hop : op.aside = true)
    (hmatters : op.unsettles removed = true)
    {F : ε → ShipNode → Prop} :
    Spec protocol (Carried removed r req made)
      (ask op : ExceptT ε (Program HotplugOp.interface) _)
      (fun x s => (op.fails x = false → Carried removed r req made s) ∧
        (op.fails x = true → Unsettled removed r made s)) F := by
  refine Spec.ask (fun _ _ => trivial) fun s x hs _ => ⟨fun hfine => ?_, fun hfails => ?_⟩
  · exact hs.after _ hop fun hfails => by simp [hfine] at hfails
  · have hnot := not_settled_of_fails op hs hfails hmatters
    rw [after_of_aside hop] at hnot
    rw [show protocol.observe s op x = _ from after_of_aside hop s x]
    exact ⟨hnot, hs.made, .inl hs.record⟩

lemma spec_orFail_settled {α : Type} {x : Except ε α} {A U : ShipNode → Prop} :
    Spec protocol (fun s => ((!x.isOk) = false → A s) ∧ ((!x.isOk) = true → U s))
      (orFail x : ExceptT ε (Program HotplugOp.interface) α) (fun _ => A) fun _ => U := by
  refine Spec.orFail (fun a s hx hs => ?_) fun e s hx hs => ?_
  · rw [hx] at hs
    exact hs.1 rfl
  · rw [hx] at hs
    exact hs.2 rfl

lemma spec_markHotplugFailed {name message : String} (hname : shipName ship = .ok name) :
    Spec protocol (Carried removed r req made) (markHotplugFailed ship message)
      (fun _ => Carried removed r req made) fun _ => Unsettled removed r made := by
  refine Spec.bind (B := fun _ => Carried removed r req made)
    (Spec.orFail (fun _ _ _ hs => hs) fun e s he _ => ?_) fun _ => ?_
  · cases hname.symm.trans he
  refine Spec.bind (B := fun _ => Carried removed r req made)
    (Spec.ask (fun _ _ => trivial) fun s x hs hx => (keepsOp_elsewhere rfl s hs).2 x hx)
    fun now => ?_
  exact Spec.bind (spec_settling rfl rfl) fun _ => spec_orFail_settled

/-- The machine is made anew, or the failure that has prevented it is seen. -/
lemma ends_reconcileRecreate :
    Ends protocol (Carried removed r req made) reconcileRecreate fun s =>
      s.Settled removed ∧ s.made = made + 1 ∨ Unsettled removed r made s := by
  let deleted : Except (ReconcileError × Bool) Unit → ShipNode → Prop := fun x s =>
    (x.isOk = true → Stands removed none [(req, true)] made s) ∧
      (x.isOk = false → Unsettled removed r made s)
  refine Spec.bind (B := deleted) (Spec.ask (fun _ _ => trivial) fun s x hs _ => ?_) fun x => ?_
  · cases x with
    | ok _ => exact ⟨fun _ => ⟨rfl, hs.requests, hs.made, hs.settled⟩, nofun⟩
    | error e =>
      refine ⟨nofun, fun _ => ?_⟩
      refine ⟨not_settled_of_fails .reconcileDeleted hs rfl rfl, hs.made, ?_⟩
      obtain ⟨e, recorded⟩ := e
      cases recorded with
      | false => exact .inr rfl
      | true => exact .inl hs.record
  cases x with
  | error e => exact Spec.throw fun s hs => .inr (hs.2 rfl)
  | ok _ =>
    let added : Except (ReconcileError × Option Runtime) Runtime → ShipNode → Prop := fun _ s =>
      s.Settled removed ∧ s.made = made + 1 ∨ Unsettled removed r made s
    refine Spec.bind (B := fun _ => Stands removed none [(req, true)] made)
      (Spec.pure fun s hs => hs.1 rfl) fun _ => ?_
    refine Spec.bind (B := added) (Spec.ask (fun _ _ => trivial) fun s x hs _ => ?_) fun x => ?_
    · have hmade : s.made + 1 = made + 1 := congrArg (· + 1) hs.made
      cases x with
      | ok _ => exact .inl ⟨hs.settled, hmade⟩
      | error e =>
        obtain ⟨e, left⟩ := e
        cases left with
        | some left => exact .inl ⟨hs.settled, hmade⟩
        | none =>
          exact .inr ⟨not_settled_of_fails .reconcileAdded hs rfl rfl, hs.made, .inr rfl⟩
    · cases x with
      | ok _ => exact Spec.pure fun s hs => hs
      | error e => exact Spec.throw fun s hs => hs

/-- A volume after the other is given back; the loop goes on after a failure. -/
lemma spec_cleanupPublishedVolumes {volumes : List PublishedVolume} {secrets : List String}
    (hsecrets : ∀ v ∈ volumes, v.claimName ∈ secrets)
    (hremoved : ∀ v ∈ volumes, v.claimName ∈ removed) :
    Spec protocol (Carried removed r req made)
      (cleanupPublishedVolumes volumes secrets)
      (fun _ => Carried removed r req made) fun _ => Unsettled removed r made := by
  let done : List String → ShipNode → Prop := fun errors s =>
    (errors.isEmpty = true → Carried removed r req made s) ∧
      (errors.isEmpty = false → Unsettled removed r made s)
  refine Spec.bind ((Spec.foldEach (J := done) (fun errors v hv => ?_) []).strengthenPre
    fun _ hs => ⟨fun _ => hs, nofun⟩) fun errors => ?_
  · have hfound : controllerPublishSecretsForCleanup v secrets .requireControllerPublishSecrets =
        .ok () := if_pos (hsecrets v (List.mem_reverse.mp hv))
    have hmatters : (HotplugOp.unpublish v).unsettles removed = true :=
      decide_eq_true (hremoved v (List.mem_reverse.mp hv))
    unfold unpublishNext
    rw [hfound]
    let asked : Except String Unit → ShipNode → Prop := fun x s =>
      (x.isOk = true → done errors s) ∧ (x.isOk = false → Unsettled removed r made s)
    refine Spec.bind (B := asked) (Spec.ask (fun _ _ => trivial) fun s x hs _ => ?_) fun x => ?_
    · cases hnone : errors.isEmpty with
      | false =>
        have hafter := (hs.2 hnone).after (.unpublish v) rfl x
        exact ⟨fun _ => ⟨fun h => by simp [hnone] at h, fun _ => hafter⟩, fun _ => hafter⟩
      | true =>
        have hstands := hs.1 hnone
        cases x with
        | ok _ =>
          have hafter := hstands.after (.unpublish v) rfl (x := .ok ()) nofun
          exact ⟨fun _ => ⟨fun _ => hafter, fun h => by simp [hnone] at h⟩, nofun⟩
        | error e =>
          refine ⟨nofun, fun _ => ?_⟩
          exact ⟨not_settled_of_fails (.unpublish v) hstands rfl hmatters, hstands.made,
            .inl hstands.record⟩
    · cases x with
      | ok _ => exact Spec.pure fun s hs => hs.1 rfl
      | error text => exact Spec.pure fun s hs => ⟨fun h => by simp at h, fun _ => hs.2 rfl⟩
  · refine Spec.orFail (fun _ s hx hs => hs.1 (ensure_eq_ok_iff.mp hx)) fun e s hx hs => hs.2 ?_
    cases hempty : errors.isEmpty with
    | false => rfl
    | true =>
      rw [hempty] at hx
      cases hx

lemma spec_clearAttachment {names : List String} {volume : VolumeInfo} {I : ShipNode → Prop}
    {F : ReconcileError → ShipNode → Prop} :
    Spec protocol I (clearAttachment names volume) (fun _ => I) F := by
  unfold clearAttachment
  split
  · exact Spec.pure fun _ hs => hs
  split
  · exact Spec.bind (B := fun _ => I) (Spec.ask (fun _ _ => trivial)
      fun s x hs hx => (keepsOp_elsewhere rfl s hs).2 x hx) fun _ => Spec.pure fun _ hs => hs
  · exact Spec.pure fun _ hs => hs

variable {newSpec : Workload.ShipSpec}
  (hprepared : PreparedFor publishDir shipId ship r newSpec prepared)

include hprepared

lemma exists_removedClaim {published : PublishedVolume}
    (hremoved : published.claimName ∈ prepared.removedVolumeAliases) :
    ∃ info, removedClaim prepared.oldVolumes published = some info ∧
      info.name = published.claimName := by
  obtain ⟨volumes, hvolumes, hloaded⟩ := hprepared.oldVolumes
  obtain ⟨volume, hvolume, info, hinfo, hname⟩ :=
    (mem_pvcVolumeAliases_iff hvolumes hloaded).mp (hprepared.mem_removed_iff.mp hremoved).1
  have hsome : (removedClaim prepared.oldVolumes published).isSome := by
    rw [removedClaim, List.findSome?_isSome_iff]
    exact ⟨volume, hvolume, by simp [hinfo, hname]⟩
  obtain ⟨found, hfound⟩ := Option.isSome_iff_exists.mp hsome
  obtain ⟨_, -, hfilter⟩ := List.exists_of_findSome?_eq_some hfound
  exact ⟨found, hfound, by simpa using (Option.filter_eq_some_iff.mp hfilter).2⟩

lemma removedAliases_eq : prepared.removedVolumeAliases = removedAliases r.shipSpec newSpec :=
  hprepared.removed

lemma cleanup_keeps_stands {record : Option Runtime} {requests : List (VmHotplugRequest × Bool)} :
    Completes protocol (Stands (removedAliases r.shipSpec newSpec) record requests made)
      (bestEffortCleanupHotplugAdditions ns prepared) := by
  have hkept : ∀ name ∈ pvcVolumeAliases newSpec, name ∉ removedAliases r.shipSpec newSpec := by
    intro name hname hremoved
    rw [← removedAliases_eq hprepared] at hremoved
    exact (hprepared.mem_removed_iff.mp hremoved).2 hname
  refine spec_bestEffortCleanupHotplugAdditions (p := (· ∈ pvcVolumeAliases newSpec))
    (fun _ hvolume _ hinfo => hprepared.mem_of_newVolumes hvolume hinfo)
    (fun _ hv => hprepared.mem_of_added hv) ?_ ?_
  · exact fun info hinfo => keepsOp_stands rfl (decide_eq_false (hkept _ hinfo))
  · exact fun v hv => keepsOp_stands rfl (decide_eq_false (hkept _ hv))

lemma ends_handleHotplugRecreateFailure {message : String} :
    Ends protocol (Carried (removedAliases r.shipSpec newSpec) r req made)
      (handleHotplugRecreateFailure ns ship prepared message) fun s =>
        s.Settled (removedAliases r.shipSpec newSpec) ∧ s.made = made + 1 ∨
          Unsettled (removedAliases r.shipSpec newSpec) r made s :=
  Spec.bind (cleanup_keeps_stands hprepared).ofTotal fun _ =>
    Spec.bind ((spec_markHotplugFailed hprepared.name).weakenFail fun _ _ hs => .inr hs) fun _ =>
      ends_reconcileRecreate

lemma spec_releaseRemovedVolumes :
    Spec protocol (Carried (removedAliases r.shipSpec newSpec) r req made)
      (releaseRemovedVolumes prepared)
      (fun _ => Carried (removedAliases r.shipSpec newSpec) r req made)
      fun _ => Unsettled (removedAliases r.shipSpec newSpec) r made := by
  have hremoved : ∀ v ∈ prepared.currentPublishedVolumes.filter
      (·.claimName ∈ prepared.removedVolumeAliases),
      v.claimName ∈ prepared.removedVolumeAliases := fun v hv =>
    of_decide_eq_true (List.mem_filter.mp hv).2
  simp only [releaseRemovedVolumes]
  split
  · exact Spec.pure fun _ hs => hs
  refine Spec.bind (Spec.mapEach (R := fun published name => published.claimName = name)
    fun published hpublished => ?_) fun secrets => Spec.intro fun hsecrets => ?_
  · obtain ⟨info, hinfo, hname⟩ := exists_removedClaim hprepared (hremoved _ hpublished)
    have hmatters : (HotplugOp.resolveCsiSecrets info).unsettles
        (removedAliases r.shipSpec newSpec) = true := by
      rw [← removedAliases_eq hprepared]
      exact decide_eq_true (hname ▸ hremoved _ hpublished)
    unfold removedSecrets
    rw [hinfo]
    refine Spec.bind (Spec.pure (B := fun found s => found = info ∧ Carried
      (removedAliases r.shipSpec newSpec) r req made s) fun _ hs => ⟨rfl, hs⟩)
      fun found => Spec.intro fun hfound => ?_
    subst hfound
    exact Spec.bind (spec_settling rfl hmatters) fun _ => Spec.bind spec_orFail_settled fun _ =>
      Spec.pure fun _ hs => ⟨rfl, hs⟩
  refine Spec.bind (spec_cleanupPublishedVolumes (fun v hv => ?_) fun v hv => ?_) fun _ =>
    Spec.forEach fun volume _ => spec_clearAttachment
  · have hnames := List.forall₂_map_left_iff.mpr hsecrets
    rw [List.forall₂_eq_eq_eq] at hnames
    rw [← hnames]
    exact List.mem_map_of_mem hv
  · rw [← removedAliases_eq hprepared]
    exact hremoved v hv

/-- Once the machine is changed, the record describes it or it is made anew, or a failure that
matters is seen. -/
lemma ends_finishHotplug {fingerprints : ShipFingerprints} {plan : HotplugPlan}
    (hadded : prepared.addedPublishedVolumes.map PublishedVolume.targetPath =
      req.volumesAdded.map VmVolumeConfig.hostPath) :
    Ends protocol (Carried (removedAliases r.shipSpec newSpec) r req made)
      (finishHotplug sha256 shipId ns ship newSpec fingerprints prepared plan) fun s =>
        s.Settled (removedAliases r.shipSpec newSpec) ∧
          (Recorded r newSpec fingerprints s ∨ s.made = made + 1) ∨
        Unsettled (removedAliases r.shipSpec newSpec) r made s := by
  let after : Runtime := ⟨newSpec, fingerprints, nextPublishedVolumes prepared⟩
  have hrecorded : ∀ s,
      Carried (removedAliases r.shipSpec newSpec) after req made s →
      Recorded r newSpec fingerprints s := by
    intro s hs
    refine ⟨req, prepared.addedPublishedVolumes, hs.requests, hadded, ?_⟩
    rw [hs.record, ← removedAliases_eq hprepared, ← hprepared.current]
    rfl
  have hdel : Yields protocol
      (Carried (removedAliases r.shipSpec newSpec) r req made) (forEach delNetwork
        (removedNetworkPlans sha256 shipId prepared.oldNetworkClasses prepared.removedNetworkKeys))
      fun _ => True :=
    Yields.forEach fun plan _ => Yields.bind (yields_read rfl) fun _ _ => Yields.check
  refine Spec.bind (Spec.attempt hdel) fun deleted => ?_
  cases deleted with
  | error message =>
    refine Spec.bind ((ends_handleHotplugRecreateFailure hprepared).weaken (fun _ hs => hs)
      (fun _ _ hs => hs) fun _ _ hs => hs.imp_left (And.imp_right .inr)) fun _ => ?_
    exact Spec.pure fun _ hs => hs.imp_left (And.imp_right .inr)
  | ok _ =>
    refine Spec.bind ((spec_releaseRemovedVolumes hprepared).weaken (fun _ hs => hs.2)
      (fun _ _ hs => hs) fun _ _ hs => .inr hs) fun _ => ?_
    refine Spec.bind
      (B := fun _ => Carried (removedAliases r.shipSpec newSpec) after req made)
      (Spec.ask (fun _ _ => trivial) fun s _ hs _ => ?_) fun _ => ?_
    · exact ⟨congrArg (Option.map fun _ => after) hs.record, hs.requests, hs.made, hs.settled⟩
    have hrest : Yields protocol
        (Carried (removedAliases r.shipSpec newSpec) after req made)
        (do patchHotplugSuccessStatus prepared.shipName plan.actualAllocation
            ask .checkPendingVolumeExpansions
            return true : Attempt Bool) fun _ => True :=
      Yields.bind (R := fun _ => True) (Yields.bind (yields_read rfl) fun _ _ =>
        Yields.bind (yields_read rfl) fun _ _ => Yields.check) fun _ _ =>
        Yields.bind (yields_read rfl) fun _ _ => Yields.pure trivial
    exact Spec.weaken hrest (fun _ hs => hs)
      (fun _ s hs => .inl ⟨hs.2.settled, .inl (hrecorded s hs.2)⟩)
      fun _ s hs => .inl ⟨hs.settled, .inl (hrecorded s hs)⟩

end Late

/-! ## The path -/

section Path

variable {sha256 : String → Digest} {publishDir shipId ns : String} {r : Runtime}
  {made : ℕ} {ship : Workload.Ship} {alloc : Option ShipActualAllocation}
  {newSpec : Workload.ShipSpec} {fingerprints : ShipFingerprints}
  {prepared : HotplugPreparedState} {plan : HotplugPlan} {req : VmHotplugRequest}

section

variable (hprepared : PreparedFor publishDir shipId ship r newSpec prepared)
  (hplan : hotplugPlan sha256 shipId alloc newSpec prepared = .ok plan)
  (hsupported : plan.hasUnsupportedChanges = false) (hreq : plan.hotplugReq = some req)

include hprepared hplan hsupported hreq

lemma volumesAdded_of_plan : req.volumesAdded = prepared.addedVmVolumes := by
  simp only [hotplugPlan, bind_eq_ok_iff] at hplan
  obtain ⟨_, -, _, -, _, -, desired, hdesired, _, -, _, -, hplan⟩ := hplan
  cases hplan
  obtain ⟨-, -, -, -, hadded, -⟩ := request_eq hreq
  obtain ⟨-, -, -, hvolumes⟩ := supported_parts hsupported
  obtain ⟨-, -, hdesired⟩ := parseMemorySize_of_hotplugDesired hdesired
  obtain ⟨-, added, hclass, -, hcases⟩ := classifyDevices_spec hvolumes
  rw [hadded, classifyVolumes, hclass]
  rcases hcases with ⟨hnone, rfl⟩ | ⟨-, hall, -⟩
  · rw [hprepared.addedVmVolumes_eq_nil]
    rw [HotplugPreparedState.added, addedVolumeInfos, List.filter_eq_nil_iff, hnone]
    intro volume _
    cases volume.claim with
    | none | some info => simp
  · rw [hall, hdesired]

lemma targetPaths_of_plan : prepared.addedPublishedVolumes.map PublishedVolume.targetPath =
      req.volumesAdded.map VmVolumeConfig.hostPath := by
  rw [volumesAdded_of_plan hprepared hplan hsupported hreq]
  refine hprepared.volumes.paths fun volume hvolume => ?_
  have hclaim := (List.mem_filter.mp hvolume).2
  cases hvolume : volume.claim with
  | none => simp [hvolume] at hclaim
  | some info => rfl

end

/-- The call ends without a change of the machine; or with one that is recorded, or with another
machine; or a failure that matters is seen. -/
def SettledFrom (r : Runtime) (newSpec : Workload.ShipSpec) (fingerprints : ShipFingerprints)
    (made : ℕ) (s : ShipNode) : Prop :=
  s.changed = false ∨
    s.Settled (removedAliases r.shipSpec newSpec) ∧
      (Recorded r newSpec fingerprints s ∨ s.made = made + 1) ∨
    Unsettled (removedAliases r.shipSpec newSpec) r made s

variable {requests : List (VmHotplugRequest × Bool)} {s : ShipNode}

lemma settledFrom_of_requests (hnone : requests.any (·.2) = false) (h : s.requests = requests) :
    SettledFrom r newSpec fingerprints made s :=
  .inl (by rw [changed, h, hnone])

/-- Where the runtime has changed nothing, making the machine anew changes nothing about that. -/
lemma ends_recreate_unchanged (hnone : requests.any (·.2) = false) {message : String} :
    Ends protocol (fun s => s.requests = requests)
      (do handleHotplugRecreateFailure ns ship prepared message
          return true : Attempt Bool) (SettledFrom r newSpec fingerprints made) :=
  Spec.bind (Spec.weaken yields_handleHotplugRecreateFailure (fun _ hs => hs)
    (fun _ _ hs => settledFrom_of_requests hnone hs.2)
    fun _ _ hs => settledFrom_of_requests hnone hs) fun _ => Spec.pure fun _ hs => hs

lemma ends_executeHotplug (hprepared : PreparedFor publishDir shipId ship r newSpec prepared)
    (hadded : prepared.addedPublishedVolumes.map PublishedVolume.targetPath =
      req.volumesAdded.map VmVolumeConfig.hostPath) :
    Ends protocol (Stands (removedAliases r.shipSpec newSpec) (some r) [] made)
      (executeHotplug sha256 shipId ns ship newSpec fingerprints prepared plan req)
      (SettledFrom r newSpec fingerprints made) := by
  have hadd : Yields protocol (Stands (removedAliases r.shipSpec newSpec) (some r) [] made)
      (forEach addNetwork prepared.addedNetworkPlans) fun _ => True :=
    Yields.forEach fun plan _ => Yields.bind (yields_read rfl) fun _ _ => Yields.check
  refine Spec.bind (Spec.attempt hadd) fun added => ?_
  cases added with
  | error message =>
    exact (ends_recreate_unchanged (by rfl)).strengthenPre fun _ hs => hs.requests
  | ok _ =>
    let ran : Except RuntimeError Unit → Bool := fun x => x.isOk
    have hhotplug : Spec protocol (Stands (removedAliases r.shipSpec newSpec) (some r) [] made)
        (ask (.hotplug req) : Attempt _)
        (fun x s => Stands (removedAliases r.shipSpec newSpec) (some r) [(req, ran x)] made s)
        fun _ => SettledFrom r newSpec fingerprints made := by
      refine Spec.ask (fun _ _ => trivial) fun s x hs _ => ?_
      cases x with
      | ok _ => exact ⟨hs.record, congrArg (· ++ [(req, true)]) hs.requests, hs.made, hs.settled⟩
      | error e =>
        exact ⟨hs.record, congrArg (· ++ [(req, false)]) hs.requests, hs.made, hs.settled⟩
    refine Spec.bind (hhotplug.strengthenPre fun _ hs => hs.2) fun x => ?_
    cases x with
    | error e =>
      exact (ends_recreate_unchanged (by rfl)).strengthenPre fun _ hs => hs.requests
    | ok _ =>
      exact (ends_finishHotplug hprepared hadded).weaken (fun _ hs => hs)
        (fun _ _ hs => .inr hs) fun _ _ hs => .inr hs

lemma settledFrom_tryReconcileHotplug :
    Ends protocol (Stands (removedAliases r.shipSpec newSpec) (some r) [] made)
      (tryReconcileHotplug sha256 publishDir shipId ns ship alloc newSpec fingerprints)
      (SettledFrom r newSpec fingerprints made) := by
  have hstart : ∀ s, Stands (removedAliases r.shipSpec newSpec) (some r) [] made s →
      SettledFrom r newSpec fingerprints made s :=
    fun s hs => settledFrom_of_requests rfl hs.requests
  refine ends_tryReconcileHotplug (keptAside_stands rfl) (fun _ hs => hs.record) hstart
    fun prepared hprepared => ?_
  refine ends_applyPrepared hstart (cleanup_keeps_stands hprepared) ?_
  intro plan req hplan hsupported hreq
  exact ends_executeHotplug hprepared (targetPaths_of_plan hprepared hplan hsupported hreq)

/-- Where the record has the fingerprints already, nothing is done. -/
lemma run_tryReconcileHotplug_of_recorded (hrecord : s.record = some r)
    (hfingerprints : r.fingerprints = fingerprints) (choice : ℕ → Answers) :
    (Program.run exec (tryReconcileHotplug sha256 publishDir shipId ns
      ship alloc newSpec fingerprints).run choice s).1 = s := by
  have hlocked : Yields protocol (· = s)
      (reconcileLocked sha256 publishDir shipId ns ship alloc newSpec fingerprints)
      fun _ => True := by
    refine Yields.bind (R := fun matching => matching = (true, true))
      (Yields.ask (keepsOp_elsewhere rfl) ?_) fun matching hmatching => ?_
    · rintro _ matching rfl hr
      rw [show matching = _ from hr, hrecord]
      simp [hfingerprints]
    · subst hmatching
      exact Yields.pure trivial
  have htry : Yields protocol (· = s)
      (tryReconcileHotplug sha256 publishDir shipId ns ship alloc newSpec fingerprints)
      fun _ => True := by
    refine Yields.bind (yields_read rfl) fun locked _ => ?_
    split
    · exact hlocked
    · exact Yields.pure trivial
  exact (run_of_spec htry choice rfl).either (fun _ h => h.2) fun _ h => h

end Path

/-- A call of the path begins. -/
def ShipNode.begin (s : ShipNode) : ShipNode := { s with requests := [], failed := [] }

def dataVolume : PublishedVolume :=
  { claimName := "data", volumeId := "vol-a", targetPath := "/publish/ship/data.block" }

def storedSpec : Workload.ShipSpec :=
  { shipClass := "small", volumes := [claimVolume "data" "claim-a"] }

def storedRuntime : Runtime :=
  { shipSpec := storedSpec
    fingerprints := ⟨"small", "data", ""⟩
    publishedVolumes := [dataVolume] }

def bareSpec : Workload.ShipSpec := { shipClass := "small" }

def bareFingerprints : ShipFingerprints := ⟨"small", "", ""⟩

def storedNode : ShipNode := { record := some storedRuntime, made := 1 }

def allSucceed : (op : HotplugOp) → op.Reply
  | .getHotplugLock => true
  | .matchesFingerprints _ => (false, false)
  | .currentShipSpec => none
  | .currentPublishedVolumes => none
  | .updateRuntimeState .. | .checkPendingVolumeExpansions => ()
  | .getShipClass _ => .ok (some largeClass)
  | .resolveLocalRuntimeClass _ => .ok (some (some allCapabilities))
  | .getNetworkClass .. => .ok (some (some {}))
  | .loadPersistentVolumeClaim .. =>
    .ok { volumeName := "pv-a", source := { volumeHandle := "vol-a" } }
  | .loadMaterializedVolume .. | .resolveCsiSecrets _ | .markVolumeDetached _ | .replaceStatus ..
  | .patchStatus .. => .ok ()
  | .setup op =>
    match op with
    | .effectivePublishSettings _ => .ok false
    | .publish _ => .ok false
    | .materializeVolume _ => .ok ""
    | .ensureMountNamespace | .resolveCsiSecrets _ | .ensureNodeExpansion ..
    | .refreshVolumeStats .. | .markVolumeAttached _ => .ok ()
  | .unpublish _ | .cleanupMaterializedVolumes | .cleanupMountNamespace | .addSingle _
  | .delSingle _ => .ok ()
  | .hotplug _ => .ok ()
  | .reconcileDeleted => .ok ()
  | .reconcileAdded => .ok storedRuntime
  | .now => ⟨0, 0⟩

def namedShip : Workload.Ship := { objectMeta := some { name := some "web" } }

/-- The path for the spec without the volume. -/
def dropData : Attempt Bool :=
  tryReconcileHotplug constantDigest "/publish" "ship" "ns" namedShip none bareSpec bareFingerprints

def runDropData (late : (op : HotplugOp) → op.Reply) (s : ShipNode) :
    ShipNode × Except ReconcileError Bool :=
  Program.run ShipNode.exec dropData.run (fun _ => ⟨allSucceed, late⟩) s

def dropRequest : VmHotplugRequest :=
  { id := "ship", volumesRemoved := [volumeDeviceId constantDigest dataVolume.targetPath] }

/-- The driver of the volume cannot be reached. -/
def unpublishFails : (op : HotplugOp) → op.Reply
  | .unpublish _ => .error "driver is unavailable"
  | op => allSucceed op

end Tugboat.Hotplug
