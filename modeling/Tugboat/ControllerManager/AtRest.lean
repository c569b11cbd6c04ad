import Tugboat.ControllerManager.SurgeLimit

/-!
# A Deployment at rest

A Deployment is at rest when all its ReplicaSets are as they should be (`Settled`) and a reconcile
neither writes a ReplicaSet nor asks to come back.  It should then run its template.

The controller looks for the ReplicaSet of the template by a hash, which is a label, and an update
in place changes the template but not the label.  So after an update in place a return to the
template before brings back a ReplicaSet that runs another one.  A rotation does not scale the
ReplicaSet it finds down either.  At rest the template runs exactly if neither is the case of the
ReplicaSet a rotation finds (`Trusted`); where the newest ReplicaSet has the template, no hash is
looked at and nothing can go wrong.

Under `quietProtocol` a program is asked for its result only where it makes no write, so every
branch says what must hold for it not to write.
-/

namespace Tugboat.Workload

open Controller Program Wrapping Keyed ReplicaSet

/-! ## Quiet runs -/

/-- The protocol of a run without writes to ReplicaSets: what is read is from `w`, and after a write
nothing is asked for. -/
def quietProtocol (w : Cluster) : Protocol ClusterOp.interface Unit where
  allowed _ op :=
    match op with
    | .getRuntimeClass _ | .listReplicaSets | .getReplicaSet _ | .createReplicaSet _
    | .replaceReplicaSet _ _ | .deleteReplicaSet _ | .patchDeploymentStatus _ _ => True
    | .replaceReplicaSetStatus _ _ | .listShips | .generateSuffix | .createShip _
    | .replaceShip _ _ | .patchShip _ _ | .deleteShip _ => False
  assumes _ op r :=
    match op, r with
    | .listReplicaSets, .ok listed => listed = w.replicaSets
    | .getRuntimeClass name, .ok found =>
      found = w.runtimeClasses.find? (·.objectMeta.bind (·.name) = some name)
    | .createReplicaSet _, _ | .replaceReplicaSet _ _, _ | .deleteReplicaSet _, _ => False
    | _, _ => True
  observe _ _ _ := ()

lemma quiet_step {rules : ShipRules} {w : Cluster} :
    Complies (quietProtocol w) (Cluster.exec rules) (fun _ op => op.writesReplicaSets = false)
      fun w' _ => w'.replicaSets = w.replicaSets ∧ w'.runtimeClasses = w.runtimeClasses := by
  rintro w' _ ⟨fate, uid, now, suffix⟩ op hquiet hw hallowed
  cases op with
  | getReplicaSet | patchDeploymentStatus =>
    cases fate with
    | served | refused | lost => exact ⟨trivial, hw⟩
  | getRuntimeClass name =>
    cases fate with
    | served => exact ⟨congrArg (List.find? _) hw.2, hw⟩
    | refused | lost => exact ⟨trivial, hw⟩
  | listReplicaSets =>
    cases fate with
    | served => exact ⟨hw.1, hw⟩
    | refused | lost => exact ⟨trivial, hw⟩
  | createReplicaSet | replaceReplicaSet | deleteReplicaSet => exact Bool.noConfusion hquiet
  | replaceReplicaSetStatus | listShips | generateSuffix | createShip | replaceShip | patchShip
  | deleteShip => exact hallowed.elim

section Wp

variable {w : Cluster} {rs : ReplicaSet}

lemma quiet_replace {updated : ReplicaSet} {Q : Unit → Except ControllerError Bool → Prop}
    (h : updated = rs → Q () (.ok false)) :
    (replaceReplicasetIfChanged rs updated).run.wp (quietProtocol w) () Q := by
  unfold replaceReplicasetIfChanged
  split
  · exact h ‹_›
  · exact wp_attempt_bind trivial fun r hr => hr.elim

lemma quiet_replaceAndRequeue {updated : ReplicaSet}
    {Q : Unit → Except ControllerError Action → Prop} (h : updated = rs → Q () (.ok .awaitChange)) :
    (replaceAndRequeue rs updated).run.wp (quietProtocol w) () Q := by
  refine (wp_run_bind _ _ _ _).2 (quiet_replace fun heq => ?_)
  exact h heq

lemma replicas_of_withReplicas {strategy : Option String} {replicas : Option Int}
    (h : setInPlaceUpdateStrategy strategy (withReplicas rs replicas) = rs) :
    rs.spec = some (specWith replicas rs) :=
  (congrArg spec h).symm

/-- Old ReplicaSets that are not written ask for nothing. -/
lemma quiet_scaleToZero (old : List ReplicaSet) :
    (scaleToZero old).run.wp (quietProtocol w) () fun _ _ => ∀ rs ∈ old, rs.size = 0 := by
  induction old with
  | nil => exact fun rs hrs => absurd hrs List.not_mem_nil
  | cons rs rest ih =>
    refine (wp_run_bind _ _ _ _).2 (quiet_replace fun heq => ?_)
    have hsize : rs.size = 0 := by
      rw [size, replicas_of_withReplicas heq]
      rfl
    refine wp_controller_bind ih (fun g b hrest => ?_) fun g e hrest => ?_
    · exact List.forall_mem_cons.2 ⟨hsize, hrest⟩
    · exact List.forall_mem_cons.2 ⟨hsize, hrest⟩

variable {Q : Unit → Except ControllerError Unit → Prop}

lemma quiet_deleteAll (rss : List ReplicaSet) (h : Q () (.ok ())) :
    (deleteAll rss).run.wp (quietProtocol w) () Q := by
  cases rss with
  | nil => exact h
  | cons rs rest => exact wp_request_bind trivial (fun _ hr => hr.elim) fun _ hr => hr.elim

end Wp

/-! ## At rest -/

/-- One ReplicaSet runs the template with all replicas, and the others ask for none. -/
def RunsTemplate (dep : Deployment) (managed : List ReplicaSet) : Prop :=
  ∃ rs ∈ managed, rs.size = desiredReplicas dep ∧ rs.template = dep.template ∧
    ∀ rs' ∈ managed, rs' ≠ rs → rs'.size = 0
  deriving Decidable

/-- The status is what the spec asks for, and all replicas are ready. -/
def Settled (rs : ReplicaSet) : Prop := rs.spec.isSome ∧ rs.status = some ⟨rs.size, rs.size⟩
  deriving Decidable

/-- If the reconcile is a rotation, the ReplicaSet it finds by the hash has the template (or none
are wanted, and any has it); in a rolling update it also asks for no more replicas than are wanted,
and the replicas of the others are told from none when they are added up in 32 bits. -/
def Trusted (templateHash : ShipTemplateSpec → String) (dep : Deployment)
    (rc : Option RuntimeClass) (managed : List ReplicaSet) : Prop :=
  kindOf dep rc managed = .requiresRotation →
    ∀ rs ∈ rotationReplicaset templateHash dep (candidates dep managed),
      (∃ current ∈ managed, current.template = dep.template ∧
        (0 < desiredReplicas dep → current = rs)) ∧
      (isRecreate dep = false → rs.size ≤ desiredReplicas dep ∧
        ((oldReplicasets managed rs.name).map (·.size)).sum < 4294967296)
  deriving Decidable

section Strategy

variable {templateHash : ShipTemplateSpec → String} {dep : Deployment} {w : Cluster}
  {managed : List ReplicaSet} {rc : Option RuntimeClass} {rs : ReplicaSet}

lemma statusReplicas_of_settled (h : Settled rs) : replicasetStatusReplicas rs = rs.size := by
  rw [replicasetStatusReplicas, h.2]
  rfl

lemma old_iff (hdistinct : Distinct name managed) (hmem : rs ∈ managed) {p : ReplicaSet → Prop} :
    (∀ rs' ∈ oldReplicasets managed rs.name, p rs') ↔ ∀ rs' ∈ managed, rs' ≠ rs → p rs' := by
  refine forall_congr' fun rs' => ⟨fun h hrs' hne => h (mem_others.2 ⟨hrs', fun hname => ?_⟩),
    fun h hrs' => ?_⟩
  · exact hne (hdistinct.eq_of_key_eq hrs' hmem hname)
  · obtain ⟨hrs', hname⟩ := mem_others.1 hrs'
    exact h hrs' fun heq => hname (congrArg name heq)

/-- Where one ReplicaSet has all replicas, the template runs if that one has it. -/
lemma runsTemplate_iff (hdistinct : Distinct name managed) (hmem : rs ∈ managed)
    (hsize : rs.size = desiredReplicas dep)
    (hold : ∀ rs' ∈ oldReplicasets managed rs.name, rs'.size = 0) :
    RunsTemplate dep managed ↔ ∃ current ∈ managed, current.template = dep.template ∧
      (0 < desiredReplicas dep → current = rs) := by
  rw [old_iff hdistinct hmem] at hold
  constructor
  · rintro ⟨current, hcurrent, hfull, htemplate, -⟩
    refine ⟨current, hcurrent, htemplate, fun hpos => ?_⟩
    by_contra hne
    have hzero := hold current hcurrent hne
    omega
  · rintro ⟨current, hcurrent, htemplate, hsame⟩
    by_cases heq : current = rs
    · exact ⟨current, hcurrent, heq ▸ hsize, htemplate, heq ▸ hold⟩
    -- no replicas are wanted, and none are asked for
    have hnone : desiredReplicas dep = 0 :=
      le_antisymm (not_lt.1 fun hpos => heq (hsame hpos)) (desiredReplicas_nonneg dep)
    refine ⟨current, hcurrent, (hold current hcurrent heq).trans hnone.symm, htemplate, ?_⟩
    intro rs' hrs' _
    by_cases hrs : rs' = rs
    · rw [hrs, hsize, hnone]
    · exact hold rs' hrs' hrs

lemma runsTemplate_of (hdistinct : Distinct name managed) (hmem : rs ∈ managed)
    (hsize : rs.size = desiredReplicas dep) (htemplate : rs.template = dep.template)
    (hold : ∀ rs' ∈ oldReplicasets managed rs.name, rs'.size = 0) : RunsTemplate dep managed :=
  (runsTemplate_iff hdistinct hmem hsize hold).2 ⟨rs, hmem, htemplate, fun _ => rfl⟩

/-- Without a rotation there is nothing to trust. -/
lemma iff_trusted_of_ne (hkind : kindOf dep rc managed ≠ .requiresRotation)
    (h : RunsTemplate dep managed) :
    RunsTemplate dep managed ↔ Trusted templateHash dep rc managed :=
  ⟨fun _ hrotation => absurd hrotation hkind, fun _ => h⟩

/-- In a rotation the ReplicaSet that is found decides. -/
lemma iff_trusted_of_found (hkind : kindOf dep rc managed = .requiresRotation)
    (hrs : rotationReplicaset templateHash dep (candidates dep managed) = some rs) {p : Prop}
    (h : p ↔ (∃ current ∈ managed, current.template = dep.template ∧
        (0 < desiredReplicas dep → current = rs)) ∧
      (isRecreate dep = false → rs.size ≤ desiredReplicas dep ∧
        ((oldReplicasets managed rs.name).map (·.size)).sum < 4294967296)) :
    p ↔ Trusted templateHash dep rc managed := by
  rw [h]
  refine ⟨fun htrusted _ rs' hrs' => ?_, fun htrusted => htrusted hkind rs hrs⟩
  obtain rfl := Option.some.inj (hrs.symm.trans hrs')
  exact htrusted

/-- The kind of change says whether the newest ReplicaSet runs the template. -/
lemma exists_active_template {kind : TemplateChangeKind} (hkind : kindOf dep rc managed = kind)
    (hrotation : kind ≠ .requiresRotation) : ∃ rs, activeReplicaset managed = some rs ∧
      (kind = .noChange ↔ rs.template = dep.template) := by
  obtain ⟨rs, hactive⟩ := exists_active hkind hrotation
  refine ⟨rs, hactive, ?_⟩
  simp only [kindOf, hactive, changeKindOf] at hkind
  split at hkind
  · exact absurd hkind.symm hrotation
  · exact hkind ▸ classifyTemplateChange_eq_noChange_iff

lemma template_of_inPlace {strategy : Option String}
    (h : setInPlaceUpdateStrategy strategy (updateReplicasetForInPlace rs dep) = rs) :
    rs.template = dep.template := by
  have hspec : rs.spec = some (inPlaceSpec dep rs) := (congrArg spec h).symm
  rw [template, hspec, Deployment.template, Option.bind_some, inPlaceSpec]
  cases dep.spec with
  | none | some spec => rfl

variable {old : List ReplicaSet}

lemma quiet_stopOld {scale : Controller Action} {P : Prop} (hsettled : ∀ rs ∈ old, Settled rs)
    (hscale : (∀ rs ∈ old, rs.size = 0) →
      scale.run.wp (quietProtocol w) () fun _ r => r = .ok .awaitChange → P) :
    wp (quietProtocol w) () (if hasOldRunningReplicas old then stopOld old else scale).run
      fun _ r => r = .ok .awaitChange → P := by
  split
  next hrunning =>
    refine wp_controller_bind (quiet_scaleToZero old) (fun g b hzero => ?_) fun g e hzero => ?_
    · obtain ⟨rs, hrs, hpos⟩ := List.any_eq_true.1 hrunning
      rw [(hsettled rs hrs).2] at hpos
      simp [hzero rs hrs] at hpos
    · exact fun h => nomatch h
  next hstopped =>
    refine hscale fun rs hrs => ?_
    have hnot := List.any_eq_false.1 (Bool.eq_false_iff.2 hstopped) rs hrs
    rw [(hsettled rs hrs).2] at hnot
    have hle : ¬ 0 < rs.size := fun hpos => hnot (decide_eq_true hpos)
    exact le_antisymm (not_lt.1 hle) rs.size_nonneg

lemma quiet_ensureRotationReplicaset (managed : List ReplicaSet) (initial : Option Int) :
    (ensureRotationReplicaset templateHash dep managed initial).run.wp (quietProtocol w) ()
      fun _ r => ∀ found, r = .ok found →
        ∃ rs, found = some rs ∧ rotationReplicaset templateHash dep managed = some rs := by
  refine wp_compute_bind (fun hash hhash => ?_) fun e _ found h => nomatch h
  obtain rfl := hash_of_deploymentTemplateHash hhash
  split
  next rs hrs =>
    exact fun found h => ⟨rs, (Except.ok.inj h).symm, hrs⟩
  · exact wp_controller_bind (I := fun _ _ => False) (wp_attempt_bind trivial fun _ hr => hr.elim)
      (fun _ _ h => h.elim) fun _ _ h => h.elim

lemma size_of_updateReplicasetReplicas {replicas : Option Int} (hsettled : Settled rs)
    (h : updateReplicasetReplicas rs replicas = none) : rs.size = max (replicas.getD 1) 0 := by
  obtain ⟨spec, hspec⟩ := Option.isSome_iff_exists.1 hsettled.1
  simp only [updateReplicasetReplicas, hspec] at h
  split at h
  next heq =>
    rw [size, hspec, ← heq]
    rfl
  · cases h

lemma size_of_updated {replicas : Option Int} {updated : ReplicaSet}
    (h : updateReplicasetReplicas rs replicas = some updated)
    (hsame : setInPlaceUpdateStrategy none updated = rs) : rs.size = max (replicas.getD 1) 0 := by
  unfold updateReplicasetReplicas at h
  split at h
  · cases h
  obtain ⟨-, h⟩ := Option.ite_none_left_eq_some.1 h
  rw [size, replicas_of_withReplicas (Option.some.inj h ▸ hsame)]
  rfl

lemma quiet_lowerOld (targets : List (String × Int)) (old : List ReplicaSet) :
    (lowerOld targets old).run.wp (quietProtocol w) () fun _ _ => True := by
  induction old with
  | nil => trivial
  | cons rs rest ih =>
    unfold lowerOld
    split
    · exact ih
    split
    · exact ih
    · exact wp_controller_bind (wp_discard (I := fun _ => True) (quiet_replace fun _ => trivial))
        (fun _ _ _ => trivial) fun _ _ _ => trivial

lemma quiet_rotate {P : Prop}
    (h : (nextRollingUpdateRotationTargets dep rs old).shouldRequeue = false → P) :
    (rotate dep rs old).run.wp (quietProtocol w) () fun _ r => r = .ok .awaitChange → P := by
  unfold rotate
  generalize nextRollingUpdateRotationTargets dep rs old = targets at h ⊢
  dsimp only
  split
  · exact wp_controller_bind (wp_discard (I := fun _ => True) (quiet_replace fun _ => trivial))
      (fun _ _ _ hr => nomatch hr) fun _ _ _ hr => nomatch hr
  · refine wp_controller_bind (quiet_lowerOld _ _) (fun _ lowered _ => ?_)
      fun _ _ _ hr => nomatch hr
    split
    · exact fun hr => nomatch hr
    split
    · exact fun hr => nomatch hr
    next hdone =>
      exact fun _ => h (by simpa using hdone)

section

variable (hdistinct : Distinct name managed) (hsettled : ∀ rs ∈ managed, Settled rs)

include hdistinct hsettled

lemma quiet_reconcileRecreate (hrecreate : isRecreate dep = true) :
    (reconcileRecreate templateHash dep managed (kindOf dep rc managed)).run.wp (quietProtocol w) ()
      fun _ r => r = .ok .awaitChange →
        (RunsTemplate dep managed ↔ Trusted templateHash dep rc managed) := by
  have hold : ∀ name, ∀ rs ∈ oldReplicasets managed name, Settled rs :=
    fun name rs hrs => hsettled rs (mem_of_mem_oldReplicasets hrs)
  cases hkind : kindOf dep rc managed with
  | inPlace | hotplug =>
    obtain ⟨rs, hactive, htemplate⟩ := exists_active_template hkind (by decide)
    have hchanged := mt htemplate.2 (by decide)
    simp only [reconcileRecreate, hactive]
    refine wp_controller_bind (wp_discard (quiet_replace fun heq => ?_))
      (fun _ _ hsame _ => absurd hsame hchanged) fun _ _ hsame => absurd hsame hchanged
    exact template_of_inPlace heq
  | noChange =>
    obtain ⟨rs, hactive, htemplate⟩ := exists_active_template hkind (by decide)
    simp only [reconcileRecreate, hactive, spec_replicas_eq]
    refine quiet_stopOld (hold _) fun hzero => quiet_replaceAndRequeue fun heq _ => ?_
    refine iff_trusted_of_ne (by rw [hkind]; decide) ?_
    refine runsTemplate_of hdistinct (mem_of_activeReplicaset hactive) ?_ (htemplate.1 rfl) hzero
    rw [size, replicas_of_withReplicas heq]
    rfl
  | requiresRotation =>
    refine wp_controller_bind (quiet_ensureRotationReplicaset managed (some 0))
      (fun _ found hfound => ?_) fun _ _ _ h => by cases h
    obtain ⟨rs, rfl, hrs⟩ := hfound found rfl
    have hmem := List.mem_of_find?_eq_some hrs
    have hdecides : (∀ rs' ∈ oldReplicasets managed rs.name, rs'.size = 0) →
        rs.size = desiredReplicas dep →
        (RunsTemplate dep managed ↔ Trusted templateHash dep rc managed) := by
      intro hzero hsize
      refine iff_trusted_of_found hkind (by rw [candidates, if_pos hrecreate]; exact hrs) ?_
      rw [runsTemplate_iff hdistinct hmem hsize hzero, hrecreate]
      simp
    refine quiet_stopOld (hold _) fun hzero => ?_
    split
    next hnone =>
      have hsize := size_of_updateReplicasetReplicas (hsettled rs hmem) hnone
      exact fun _ => hdecides hzero hsize
    next updated hupdated =>
      refine quiet_replaceAndRequeue fun heq _ => ?_
      have hsize := size_of_updated hupdated heq
      exact hdecides hzero hsize

/-- If nothing old is reported, nothing old is asked for, unless there is so much that it wraps. -/
lemma old_iff_sum_lt (hin : rs ∈ newestFirst managed)
    (hzero : sumStatusReplicas (oldReplicasets (newestFirst managed) rs.name) = 0) :
    (∀ rs' ∈ oldReplicasets managed rs.name, rs'.size = 0) ↔
      ((oldReplicasets managed rs.name).map (·.size)).sum < 4294967296 := by
  have hstatus : (oldReplicasets (newestFirst managed) rs.name).map replicasetStatusReplicas =
      (oldReplicasets (newestFirst managed) rs.name).map (·.size) :=
    List.map_congr_left fun r hr => statusReplicas_of_settled
      (hsettled r (mem_of_mem_newestFirst (mem_of_mem_oldReplicasets hr)))
  rw [sumStatusReplicas, foldl_add32_zero, hstatus] at hzero
  -- both orders have the same total, so the old ones have the same total in both
  have htotal := sum_newestFirst hdistinct (·.size)
  rw [sum_eq_add_sum_others _ (distinct_newestFirst hdistinct) hin,
    ← oldReplicasets_eq_others] at htotal
  have hsplit := sum_eq_add_sum_others (·.size) hdistinct (mem_of_mem_newestFirst hin)
  rw [← oldReplicasets_eq_others] at hsplit
  have hnonneg : ∀ n ∈ (oldReplicasets managed rs.name).map (·.size), 0 ≤ n := by
    intro n hn
    obtain ⟨r, -, rfl⟩ := List.mem_map.1 hn
    exact r.size_nonneg
  have hsum := List.sum_nonneg hnonneg
  constructor
  · intro hnone
    have hzeros : ∀ n ∈ (oldReplicasets managed rs.name).map (·.size), n = 0 := by
      intro n hn
      obtain ⟨r, hr, rfl⟩ := List.mem_map.1 hn
      exact hnone r hr
    rw [List.sum_eq_zero hzeros]
    decide
  · intro hlt rs' hrs'
    have hle := List.single_le_sum hnonneg _ (List.mem_map.2 ⟨rs', hrs', rfl⟩)
    have hpos := rs'.size_nonneg
    have hwrapped := eq_zero_of_wrap32_eq_zero hzero (by omega) (by omega)
    omega

lemma quiet_reconcileRollingUpdate (hrolling : isRecreate dep = false) :
    (reconcileRollingUpdate templateHash dep (activeReplicaset managed)
      (oldReplicasets managed ((activeReplicaset managed).bind (·.name)))
      (kindOf dep rc managed)).run.wp (quietProtocol w) ()
      fun _ r => r = .ok .awaitChange →
        (RunsTemplate dep managed ↔ Trusted templateHash dep rc managed) := by
  refine wp_compute_bind (fun spec hspec => ?_) fun e _ h => nomatch h
  rw [require_eq_ok_iff] at hspec
  have hreplicas : dep.spec.bind (·.replicas) = spec.replicas := by rw [hspec]; rfl
  cases hkind : kindOf dep rc managed with
  | noChange =>
    obtain ⟨rs, hactive, htemplate⟩ := exists_active_template hkind (by decide)
    have hmem := mem_of_activeReplicaset hactive
    have hzero : ∀ rs' ∈ oldReplicasets managed rs.name, rs'.size = 0 := by
      intro rs' hrs'
      have hle := old_of_noChange hkind hactive rs' hrs'
      rw [statusReplicas_of_settled (hsettled rs' (mem_of_mem_oldReplicasets hrs'))] at hle
      exact le_antisymm hle rs'.size_nonneg
    have hruns : rs.size = desiredReplicas dep →
        (RunsTemplate dep managed ↔ Trusted templateHash dep rc managed) := fun hsize =>
      iff_trusted_of_ne (by rw [hkind]; decide)
        (runsTemplate_of hdistinct hmem hsize (htemplate.1 rfl) hzero)
    simp only [hactive, ← hreplicas]
    split
    next hnone =>
      exact fun _ => hruns (size_of_updateReplicasetReplicas (hsettled rs hmem) hnone)
    next updated hupdated =>
      refine wp_controller_bind
        (wp_discard (I := fun _ => setInPlaceUpdateStrategy none updated = rs)
          (quiet_replace fun heq => heq)) (fun _ _ heq _ => ?_) fun _ _ _ h => nomatch h
      exact hruns (size_of_updated hupdated heq)
  | inPlace | hotplug =>
    obtain ⟨rs, hactive, htemplate⟩ := exists_active_template hkind (by decide)
    simp only [hactive]
    refine (wp_run_bind _ _ _ _).2 (quiet_replace fun heq => ?_)
    cases htemplate.2 (template_of_inPlace heq)
  | requiresRotation =>
    refine wp_controller_bind (quiet_ensureRotationReplicaset _ _)
      (fun _ found hfound => ?_) fun _ _ _ h => nomatch h
    obtain ⟨rs, rfl, hrs⟩ := hfound found rfl
    have hin := List.mem_of_find?_eq_some hrs
    have hmem : rs ∈ managed := mem_of_mem_newestFirst hin
    refine quiet_rotate fun hcomplete => ?_
    refine iff_trusted_of_found hkind (by rw [candidates, hrolling]; exact hrs) ?_
    -- nothing old is reported and the new ReplicaSet has its replicas, or more
    simp only [nextRollingUpdateRotationTargets, Bool.or_eq_false_iff, Bool.not_eq_false',
      Bool.and_eq_true, decide_eq_true_eq] at hcomplete
    obtain ⟨-, ⟨hold, hnew⟩, -⟩ := hcomplete
    have hlarge : desiredReplicas dep ≤ rs.size := hnew.trans (replicasetSpecReplicas_le_size rs)
    have hzero := old_iff_sum_lt hdistinct hsettled hin hold
    constructor
    · rintro ⟨current, hcurrent, hfull, htemplate, hothers⟩
      have hnonneg := desiredReplicas_nonneg dep
      have hsize : rs.size = desiredReplicas dep := by
        by_cases heq : rs = current
        · rw [heq, hfull]
        · have hnone := hothers rs hmem heq
          omega
      have hnone : ∀ rs' ∈ oldReplicasets managed rs.name, rs'.size = 0 := by
        refine (old_iff hdistinct hmem).2 fun rs' hrs' hne => ?_
        by_cases heq : rs' = current
        · have hother := hothers rs hmem fun h => hne (heq.trans h.symm)
          rw [heq, hfull, ← hsize, hother]
        · exact hothers rs' hrs' heq
      exact ⟨(runsTemplate_iff hdistinct hmem hsize hnone).1
        ⟨current, hcurrent, hfull, htemplate, hothers⟩, fun _ => ⟨hsize.le, hzero.1 hnone⟩⟩
    · rintro ⟨hcurrent, hfits⟩
      obtain ⟨hsmall, hsum⟩ := hfits hrolling
      exact (runsTemplate_iff hdistinct hmem (le_antisymm hsmall hlarge) (hzero.2 hsum)).2 hcurrent

end

lemma quiet_resolveRuntimeClass (template : ShipTemplateSpec) :
    (resolveRuntimeClass template).run.wp (quietProtocol w) () fun _ r =>
      ∀ rc, r = .ok rc → rc = w.runtimeClass template := by
  unfold resolveRuntimeClass Cluster.runtimeClass
  split
  next hname =>
    rw [hname]
    exact fun rc hrc => (Except.ok.inj hrc).symm
  next name hname =>
    rw [hname]
    refine wp_request.2 ⟨trivial, fun r hr => ?_⟩
    cases r with
    | ok found => exact fun rc hrc => (Except.ok.inj hrc).symm.trans hr
    | error e => exact fun rc hrc => nomatch hrc

lemma quiet_cleanUp (managed : List ReplicaSet) :
    (cleanUp dep managed).run.wp (quietProtocol w) () fun _ _ => True := by
  refine (wp_run_bind _ _ _ _).2 (quiet_deleteAll _ ?_)
  unfold syncDeploymentStatus
  dsimp only
  split
  · trivial
  · exact wp_request_bind trivial (fun _ _ => trivial) fun _ _ => trivial

/-- What a quiet reconcile that awaits the next change finds. -/
lemma quiet_reconcileDeployment
    (hdistinct : Distinct name (managedReplicasets w.replicaSets dep))
    (hsettled : ∀ rs ∈ managedReplicasets w.replicaSets dep, Settled rs) :
    (reconcileDeployment templateHash dep).run.wp (quietProtocol w) () fun _ r =>
      r = .ok .awaitChange → (RunsTemplate dep (managedReplicasets w.replicaSets dep) ↔
        Trusted templateHash dep (w.runtimeClass dep.template)
          (managedReplicasets w.replicaSets dep)) := by
  refine wp_compute_bind (fun ns _ => ?_) fun e _ hr => nomatch hr
  refine wp_compute_bind (fun _ _ => ?_) fun e _ hr => nomatch hr
  refine wp_compute_bind (fun template htemplate => ?_) fun e _ hr => nomatch hr
  obtain rfl := template_of_deploymentTemplate htemplate
  refine wp_controller_bind (quiet_resolveRuntimeClass _) (fun _ rc hrc => ?_)
    fun _ _ _ hr => nomatch hr
  obtain rfl := hrc rc rfl
  refine wp_request_bind trivial (fun listed hlisted => ?_) fun e _ hr => nomatch hr
  obtain rfl : listed = w.replicaSets := hlisted
  have hstrategy : (reconcileStrategy templateHash dep (managedReplicasets w.replicaSets dep)
      (kindOf dep (w.runtimeClass dep.template) (managedReplicasets w.replicaSets dep))).run.wp
      (quietProtocol w) () fun _ r => r = .ok .awaitChange →
        (RunsTemplate dep (managedReplicasets w.replicaSets dep) ↔
          Trusted templateHash dep (w.runtimeClass dep.template)
            (managedReplicasets w.replicaSets dep)) := by
    unfold reconcileStrategy
    split
    next hrecreate => exact quiet_reconcileRecreate hdistinct hsettled hrecreate
    next hrolling =>
      exact quiet_reconcileRollingUpdate hdistinct hsettled (by simpa using hrolling)
  refine wp_controller_bind hstrategy (fun _ action haction => ?_) fun _ _ _ hr => nomatch hr
  refine wp_controller_bind (quiet_cleanUp _) (fun _ _ _ hr => haction ?_)
    fun _ _ _ hr => nomatch hr
  exact hr

end Strategy

/-! ## Every reconcile -/

/-- **A Deployment at rest runs its template** (one ReplicaSet has it and the replicas that are
wanted, and the others ask for none) exactly if what a rotation finds by its hash can be trusted. -/
theorem runsTemplate_iff_trusted_at_rest (templateHash : ShipTemplateSpec → String)
    (rules : ShipRules) {dep : Deployment} (w : Cluster) (choice : ℕ → Choice)
    (hdistinct : Distinct ReplicaSet.name (managedReplicasets w.replicaSets dep))
    (hsettled : ∀ rs ∈ managedReplicasets w.replicaSets dep, Settled rs)
    (hquiet : ∀ c ∈ (reconcileDeployment templateHash dep).run.calls (Cluster.exec rules) choice w,
      c.2.writesReplicaSets = false)
    (hrest : ((reconcileDeployment templateHash dep).run.run (Cluster.exec rules) choice w).2 =
      .ok .awaitChange) :
    RunsTemplate dep (managedReplicasets w.replicaSets dep) ↔
      Trusted templateHash dep (w.runtimeClass dep.template)
        (managedReplicasets w.replicaSets dep) := by
  obtain ⟨-, -, h⟩ := run_of_wp_of_calls quiet_step (reconcileDeployment templateHash dep).run ()
    choice w hquiet ⟨rfl, rfl⟩ (quiet_reconcileDeployment hdistinct hsettled)
  exact h hrest

/-! ## Histories -/

def reportAll (w : Cluster) : Cluster :=
  { w with
    replicaSets := w.replicaSets.map fun rs => { rs with status := some ⟨rs.size, rs.size⟩ } }

/-- A number of reconciles of the Deployment, each followed by reports. -/
def reconcileRounds (templateHash : ShipTemplateSpec → String) (rules : ShipRules)
    (dep : Deployment)
    (choice : Choice) : ℕ → Cluster → Cluster
  | 0, w => w
  | n + 1, w =>
    reconcileRounds templateHash rules dep choice n (reportAll
      ((reconcileDeployment templateHash dep).run.run (Cluster.exec rules) (fun _ => choice) w).1)

/-- The Deployment is changed again and again, with time for the controllers in between. -/
def afterChanges (templateHash : ShipTemplateSpec → String) (rules : ShipRules) (rounds : ℕ)
    (deps : List Deployment) : Cluster :=
  (deps.zipIdx.foldl (fun w (dep, i) =>
    reconcileRounds templateHash rules dep { now := ⟨i, 0⟩, uid := toString i } rounds w) {})

def RestsElsewhere (templateHash : ShipTemplateSpec → String) (rules : ShipRules) (dep : Deployment)
    (w : Cluster) : Prop :=
  (∀ rs ∈ managedReplicasets w.replicaSets dep, Settled rs) ∧
    (∀ c ∈ (reconcileDeployment templateHash dep).run.calls (Cluster.exec rules) (fun _ => {}) w,
      c.2.writesReplicaSets = false) ∧
    ((reconcileDeployment templateHash dep).run.run (Cluster.exec rules) (fun _ => {}) w).2 =
      .ok .awaitChange ∧
    ¬ RunsTemplate dep (managedReplicasets w.replicaSets dep)
  deriving Decidable

def classHash (template : ShipTemplateSpec) : String :=
  (template.spec.map fun spec => spec.image ++ "-" ++ spec.shipClass).getD ""

def classDeployment (replicas : Int) (image shipClass : String) : Deployment where
  objectMeta := some { name := some "web", «namespace» := some "ns", uid := some "1" }
  spec := some {
    replicas := some replicas
    shipTemplate := some { spec := some { image, shipClass } }
    revisionHistoryLimit := some 2 }

/-- After a rotation from `a` to `b` the Deployment rests with `b`. -/
theorem runsTemplate_iff_trusted_at_rest_rotation :
    RunsTemplate (classDeployment 2 "b" "small") (managedReplicasets
      (afterChanges classHash plainRules 6
        [classDeployment 2 "a" "small", classDeployment 2 "b" "small"]).replicaSets
      (classDeployment 2 "b" "small")) :=
  (runsTemplate_iff_trusted_at_rest classHash plainRules (afterChanges classHash plainRules 6
      [classDeployment 2 "a" "small", classDeployment 2 "b" "small"]) (fun _ => {})
    (by decide +kernel) (by decide +kernel) (by decide +kernel) (by decide +kernel)).2
    (by decide +kernel)

/-- An update in place, a new image and the way back: the ReplicaSet of the old label runs the
template of the update.  A new image, the way back and fewer replicas: there are as many as
before. -/
theorem restsElsewhere_after_return :
    RestsElsewhere classHash plainRules (classDeployment 2 "a" "small")
      (afterChanges classHash plainRules 6 [classDeployment 2 "a" "small",
        classDeployment 2 "a" "large", classDeployment 2 "b" "small",
        classDeployment 2 "a" "small"]) ∧
    RestsElsewhere classHash plainRules (classDeployment 1 "a" "small")
      (afterChanges classHash plainRules 6 [classDeployment 2 "a" "small",
        classDeployment 2 "b" "small", classDeployment 2 "a" "small",
        classDeployment 1 "a" "small"]) := by
  decide +kernel

end Tugboat.Workload
