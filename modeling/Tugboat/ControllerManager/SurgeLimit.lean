import Tugboat.ControllerManager.ReplicaSetWrites
import Tugboat.Lib.Concurrent

/-!
# The surge limit of a rolling update

A rolling update may ask for more Ships than the Deployment wants, but not for more than `maxSurge`
more.  The controller computes how many replicas it can add from what the ReplicaSets *report*, and
adds them to what the new ReplicaSet *asks for*.  So the limit is kept as long as no ReplicaSet
reports less than it asks for at the moment the controller lists them to scale up (`InStep`).
Otherwise two reconciles in a row add the same replicas twice.

`Rollout.step` runs reconciles of one Deployment, one request at a time, against reports that come
in at any time.  `Pending` is what the list of ReplicaSets still promises about the cluster when a
write of the plan is made.
-/

namespace Tugboat.Workload

open Program Wrapping Keyed

/-! ## Sizes -/

def totalSize (dep : Deployment) (replicasets : List ReplicaSet) : Int :=
  ((managedReplicasets replicasets dep).map (·.size)).sum

def sizeFor (dep : Deployment) (rs : ReplicaSet) : Int :=
  if isOwnedByDeployment rs dep then rs.size else 0

lemma totalSize_eq (dep : Deployment) (replicasets : List ReplicaSet) :
    totalSize dep replicasets = (replicasets.map (sizeFor dep)).sum := by
  induction replicasets with
  | nil => rfl
  | cons rs rest ih =>
    rw [totalSize, managedReplicasets] at ih ⊢
    rw [List.map_cons, List.sum_cons, ← ih, sizeFor, List.filter_cons]
    split
    · rw [List.map_cons, List.sum_cons]
    · rw [zero_add]

lemma sizeFor_nonneg (dep : Deployment) (rs : ReplicaSet) : 0 ≤ sizeFor dep rs := by
  unfold sizeFor
  split
  · exact rs.size_nonneg
  · exact le_rfl

/-- The Deployment controller takes a missing number for none, the ReplicaSet controller for
one. -/
lemma replicasetSpecReplicas_le_size (rs : ReplicaSet) : replicasetSpecReplicas rs ≤ rs.size := by
  unfold replicasetSpecReplicas ReplicaSet.size
  cases rs.spec with
  | none => exact le_rfl
  | some spec =>
    simp only [Option.bind_some, Option.map_some, Option.getD_some, ReplicaSetSpec.size]
    cases spec.replicas with
    | none => decide
    | some n => exact le_max_left _ _

/-! ## The system -/

/-- What a status says of the number of replicas. -/
def Between (old spec new : Int) : Prop := min old spec ≤ new ∧ new ≤ max old spec
  deriving Decidable

/-- A report brings the counts nearer to the spec. -/
def ReplicaSet.report (status : ReplicaSetStatus) (rs : ReplicaSet) : ReplicaSet :=
  if Between ((rs.status.map (·.replicas)).getD 0) rs.size status.replicas ∧
      Between ((rs.status.map (·.readyReplicas)).getD 0) rs.size status.readyReplicas then
    { rs with status := some status }
  else rs

def Cluster.report (w : Cluster) (name : String) (status : ReplicaSetStatus) : Cluster :=
  { w with replicaSets := modify (·.name) (some name) (·.report status) w.replicaSets }

/-- A cluster, and a reconcile of the Deployment that may be under way. -/
abbrev Rollout : Type :=
  Config ClusterOp.interface Unit Cluster Seen (Except ControllerError Action)

namespace Rollout

/-- What happens: a reconcile begins, it makes its next request, or a ReplicaSet reports. -/
inductive Event
  | start (status : Option DeploymentStatus)
  | request (choice : Choice)
  | report (name : String) (status : ReplicaSetStatus)
  deriving DecidableEq, Repr

/-- No reconcile is under way. -/
def idle (w : Cluster) : Rollout where
  world := w
  thread _ := .done (.ok .awaitChange)
  seen _ := {}

variable (templateHash : ShipTemplateSpec → String) (rules : ShipRules) (dep : Deployment)

/-- The step function.  A reconcile begins when the one before is done; all see the same Deployment,
apart from its status. -/
def step (c : Rollout) : Event → Rollout
  | .start status => c.start () (reconcileDeployment templateHash { dep with status }).run {}
  | .request choice =>
    Config.step (Cluster.exec rules) (fun w (_ : Empty) => w) (deploymentProtocol templateHash dep)
      c (.call () choice)
  | .report name status =>
    { c with world := c.world.report name status }

/-- The next request is for the list of ReplicaSets. -/
def lists (c : Rollout) : Bool :=
  match c.thread () with
  | .call .listReplicaSets _ => true
  | _ => false

def plan (c : Rollout) : List (ReplicaSet × ReplicaSetSpec) :=
  Plan templateHash dep (c.seen ()).runtimeClass c.world.replicaSets

def kind (c : Rollout) : TemplateChangeKind :=
  kindOf dep (c.seen ()).runtimeClass (managedReplicasets c.world.replicaSets dep)

/-- All ReplicaSets report at least what they ask for, and the numbers can be added up. -/
def CaughtUp (replicasets : List ReplicaSet) : Prop :=
  (∀ rs ∈ managedReplicasets replicasets dep, rs.size ≤ replicasetStatusReplicas rs) ∧
    ((managedReplicasets replicasets dep).map replicasetStatusReplicas).sum ≤ 2147483648
  deriving Decidable

/-- When the ReplicaSets are listed, the template is not changed in place, and if one is to be
scaled up, then all have caught up. -/
def InStep (c : Rollout) : Event → Prop
  | .request choice => c.lists = true → choice.fate = .served →
      c.kind dep ≠ .inPlace ∧ c.kind dep ≠ .hotplug ∧
      ((∃ p ∈ c.plan templateHash dep, p.1.size < p.2.size) → CaughtUp dep c.world.replicaSets)
  | .start _ | .report _ _ => True

instance (c : Rollout) : (e : Event) → Decidable (InStep templateHash dep c e) := by
  intro e
  unfold InStep
  split <;> infer_instance

end Rollout

/-! ## What a list promises -/

/-- ReplicaSets have names, which are distinct, and their numbers have 32 bits. -/
structure WellFormed (replicasets : List ReplicaSet) : Prop where
  named : ∀ rs ∈ replicasets, rs.name.isSome
  distinct : Distinct ReplicaSet.name replicasets
  bounded : ∀ rs ∈ replicasets, InRange (replicasetSpecReplicas rs)

section Plan

variable {dep : Deployment} {managed : List ReplicaSet} {templateHash : ShipTemplateSpec → String}
  {kind : TemplateChangeKind} {p q : ReplicaSet × ReplicaSetSpec}

/-- The numbers a reconcile writes have 32 bits. -/
def Deployment.Bounded (dep : Deployment) : Prop :=
  InRange ((dep.spec.bind (·.replicas)).getD 0)

lemma inRange_wrap32 (n : Int) : InRange (wrap32 n) :=
  ⟨Int.le_bmod (by decide), Int.bmod_lt (by decide)⟩

lemma desiredReplicas_nonneg (dep : Deployment) : 0 ≤ desiredReplicas dep := le_max_right _ _

lemma inRange_desiredReplicas (h : dep.Bounded) : InRange (desiredReplicas dep) := by
  unfold Deployment.Bounded InRange at h
  unfold desiredReplicas InRange
  cases hreplicas : dep.spec.bind (·.replicas) with
  | none => decide
  | some n =>
    rw [hreplicas, Option.getD_some] at h
    rw [Option.getD_some]
    omega

variable {old : List ReplicaSet}

lemma of_mem_removalTargets {canRemove : Int} {t : String × Int}
    (h : t ∈ removalTargets old canRemove) :
    ∃ rs ∈ old, rs.name.getD "" = t.1 ∧ 0 ≤ t.2 ∧ t.2 ≤ replicasetSpecReplicas rs := by
  induction old generalizing canRemove with
  | nil => cases h
  | cons rs rest ih =>
    have hrest : ∀ c, t ∈ removalTargets rest c →
        ∃ rs' ∈ rs :: rest, rs'.name.getD "" = t.1 ∧ 0 ≤ t.2 ∧
          t.2 ≤ replicasetSpecReplicas rs' := by
      intro c hc
      obtain ⟨rs', hmem, hrs'⟩ := ih hc
      exact ⟨rs', List.mem_cons_of_mem _ hmem, hrs'⟩
    unfold removalTargets at h
    split at h
    · cases h
    rename_i hpos
    dsimp only at h
    split at h
    · exact hrest _ h
    rename_i hcurrent
    split at h
    · rcases List.mem_cons.1 h with rfl | h
      · exact ⟨rs, List.mem_cons_self, rfl, by dsimp only; omega, by dsimp only; omega⟩
      · exact hrest _ h
    · exact hrest _ h

lemma of_mem_lowered {canRemove : Int} (hold : WellFormed old)
    (h : p ∈ lowered (removalTargets old canRemove) old) :
    ∃ n, p.2 = specWith (some n) p.1 ∧ 0 ≤ n ∧ n ≤ replicasetSpecReplicas p.1 := by
  obtain ⟨hmem, t, ht, hspec⟩ := mem_of_mem_lowered h
  obtain ⟨rs, hrs, hname, hlow, hhigh⟩ := of_mem_removalTargets (List.mem_of_find?_eq_some ht)
  have hkey : p.1.name.getD "" = t.1 := by simpa using List.find?_some ht
  obtain ⟨n, hn⟩ := Option.isSome_iff_exists.1 (hold.named _ hmem)
  obtain ⟨m, hm⟩ := Option.isSome_iff_exists.1 (hold.named _ hrs)
  have hsame : p.1 = rs := by
    refine hold.distinct.eq_of_key_eq hmem hrs ?_
    rw [hn, Option.getD_some] at hkey
    rw [hm, Option.getD_some] at hname
    rw [hn, hm, hkey, hname]
  rw [hsame] at hspec ⊢
  exact ⟨t.2, hspec, hlow, hhigh⟩

lemma oldReplicasets_eq_others (l : List ReplicaSet) (name : Option String) :
    oldReplicasets l name = others ReplicaSet.name name l := rfl

variable {rs : ReplicaSet}

lemma newestFirst_eq (hactive : activeReplicaset managed = some rs) :
    newestFirst managed = rs :: others ReplicaSet.name rs.name managed := by
  rw [newestFirst, hactive]
  rfl

lemma distinct_newestFirst (h : Distinct ReplicaSet.name managed) :
    Distinct ReplicaSet.name (newestFirst managed) := by
  cases hactive : activeReplicaset managed with
  | none =>
    simp only [newestFirst, hactive]
    exact h.sublist List.filter_sublist
  | some rs =>
    rw [newestFirst_eq hactive]
    refine List.nodup_cons.2 ⟨fun hmem => ?_, h.sublist List.filter_sublist⟩
    obtain ⟨rs', hrs', hname⟩ := List.mem_map.1 hmem
    exact (mem_others.1 hrs').2 hname

lemma sum_newestFirst (h : Distinct ReplicaSet.name managed) (v : ReplicaSet → Int) :
    ((newestFirst managed).map v).sum = (managed.map v).sum := by
  by_cases hempty : managed = []
  · subst hempty
    rfl
  · obtain ⟨rs, hmem, hactive⟩ := exists_activeReplicaset hempty
    rw [newestFirst_eq hactive, List.map_cons, List.sum_cons, sum_eq_add_sum_others v h hmem]

lemma canAdd_eq (dep : Deployment) (rs : ReplicaSet) (old : List ReplicaSet) :
    sub32 (add32 (desiredReplicas dep) (rollingUpdateLimits dep).1)
      (add32 (sumStatusReplicas old) (replicasetStatusReplicas rs)) =
      wrap32 (desiredReplicas dep + (rollingUpdateLimits dep).1 -
        (replicasetStatusReplicas rs + (old.map replicasetStatusReplicas).sum)) := by
  rw [sumStatusReplicas, foldl_add32_zero, add32, add32, wrap32_add_wrap32, sub32_wrap32,
    add_comm (List.sum _)]

/-- The new ReplicaSet gets what is left to the limit on top of what it asks for. -/
lemma target_le {target : Int}
    (htarget : (nextRollingUpdateRotationTargets dep rs old).targetNewSpec = some target)
    (hrange : InRange (replicasetSpecReplicas rs))
    (hsum : replicasetStatusReplicas rs + (old.map replicasetStatusReplicas).sum ≤ 2147483648) :
    target ≤ replicasetSpecReplicas rs + (desiredReplicas dep + (rollingUpdateLimits dep).1 -
      (replicasetStatusReplicas rs + (old.map replicasetStatusReplicas).sum)) := by
  have hadd := canAdd_eq dep rs old
  generalize hroom : desiredReplicas dep + (rollingUpdateLimits dep).1 -
    (replicasetStatusReplicas rs + (old.map replicasetStatusReplicas).sum) = room at hadd ⊢
  have hdesired := desiredReplicas_nonneg dep
  have hsurge : 0 ≤ (rollingUpdateLimits dep).1 := le_max_right _ _
  have hle := wrap32_le (n := room) (by omega)
  simp only [nextRollingUpdateRotationTargets, hadd] at htarget
  split at htarget
  next hcan =>
    cases htarget
    have hnew := wrap32_le (n := replicasetSpecReplicas rs + wrap32 room)
      (by have := hrange.1; omega)
    rw [← add32] at hnew
    have hmin := min_le_left (add32 (replicasetSpecReplicas rs) (wrap32 room)) (desiredReplicas dep)
    omega
  · cases htarget

/-- The writes of a plan fit: all make a ReplicaSet smaller, or there is one, and the total stays
within `B` when it is made. -/
def Fits (dep : Deployment) (B : Int) (replicasets : List ReplicaSet)
    (plan : List (ReplicaSet × ReplicaSetSpec)) : Prop :=
  (∀ p ∈ plan, ∀ rs ∈ replicasets, rs.name = p.1.name → p.2.size ≤ rs.size) ∨
    ∃ p, plan = [p] ∧ ∀ rs ∈ replicasets, rs.name = p.1.name →
      totalSize dep replicasets - rs.size + p.2.size ≤ B

variable {l : List ReplicaSet}

lemma WellFormed.of_subset (hl : WellFormed l) {l' : List ReplicaSet}
    (hdistinct : Distinct ReplicaSet.name l') (hsub : ∀ rs ∈ l', rs ∈ l) : WellFormed l' :=
  ⟨fun rs hrs => hl.named rs (hsub rs hrs), hdistinct, fun rs hrs => hl.bounded rs (hsub rs hrs)⟩

lemma WellFormed.ofManaged (hl : WellFormed l) (dep : Deployment) :
    WellFormed (managedReplicasets l dep) :=
  hl.of_subset (hl.distinct.sublist List.filter_sublist) fun _ => List.mem_of_mem_filter

lemma WellFormed.ofOld (hm : WellFormed managed) (name : Option String) :
    WellFormed (oldReplicasets (newestFirst managed) name) :=
  hm.of_subset ((distinct_newestFirst hm.distinct).sublist List.filter_sublist) fun _ h =>
    mem_of_mem_newestFirst (mem_of_mem_oldReplicasets h)

lemma fits_singleton (hl : WellFormed l) {B : Int} {spec : ReplicaSetSpec}
    (hrs : rs ∈ managedReplicasets l dep) (hB : totalSize dep l ≤ B)
    (hup : rs.size < spec.size → totalSize dep l - rs.size + spec.size ≤ B) :
    Fits dep B l [(rs, spec)] := by
  refine .inr ⟨(rs, spec), rfl, fun rs' hmem hname => ?_⟩
  obtain rfl := hl.distinct.eq_of_key_eq hmem (List.mem_of_mem_filter hrs) hname
  by_cases hlt : rs'.size < spec.size
  · exact hup hlt
  · dsimp only
    omega

/-- If the template has not changed, old ReplicaSets neither ask for replicas nor report any. -/
lemma old_of_noChange {rc : Option RuntimeClass} (hkind : kindOf dep rc managed = .noChange)
    (hactive : activeReplicaset managed = some rs) :
    ∀ rs' ∈ others ReplicaSet.name rs.name managed, replicasetStatusReplicas rs' ≤ 0 := by
  intro rs' hrs'
  simp only [kindOf, hactive, changeKindOf] at hkind
  split at hkind
  · exact absurd hkind (by decide)
  rename_i hnot
  by_contra hpos
  refine hnot ⟨hkind, List.any_eq_true.2 ⟨rs', hrs', ?_⟩⟩
  simp only [Bool.or_eq_true, decide_eq_true_eq]
  omega

/-- The ReplicaSets may be listed when they are as `Rollout.InStep` asks. -/
def MayList (templateHash : ShipTemplateSpec → String) (dep : Deployment) (rc : Option RuntimeClass)
    (l : List ReplicaSet) : Prop :=
  kindOf dep rc (managedReplicasets l dep) ≠ .inPlace ∧
    kindOf dep rc (managedReplicasets l dep) ≠ .hotplug ∧
    ((∃ p ∈ Plan templateHash dep rc l, p.1.size < p.2.size) → Rollout.CaughtUp dep l)

/-- What a reconcile plans when it lists the ReplicaSets fits. -/
lemma fits_plan (hl : WellFormed l) {B : Int} {rc : Option RuntimeClass}
    (hrolling : isRecreate dep = false) (hB : totalSize dep l ≤ B)
    (hlimit : desiredReplicas dep + (rollingUpdateLimits dep).1 ≤ B)
    (hlist : MayList templateHash dep rc l) : Fits dep B l (Plan templateHash dep rc l) := by
  obtain ⟨hinPlace, hhotplug, hcaught⟩ := hlist
  have hdistinct := (hl.ofManaged dep).distinct
  have hplan : Plan templateHash dep rc l = _ := if_neg (by simp [hrolling])
  rw [hplan] at hcaught ⊢
  have htotal : totalSize dep l =
    ((managedReplicasets l dep).map (·.size)).sum := rfl
  have hsurge : 0 ≤ (rollingUpdateLimits dep).1 := le_max_right _ _
  cases hkind : kindOf dep rc (managedReplicasets l dep) with
  | inPlace => exact absurd hkind hinPlace
  | hotplug => exact absurd hkind hhotplug
  | noChange =>
    obtain ⟨rs, hactive⟩ := exists_active hkind (by decide)
    have hmem := mem_of_activeReplicaset hactive
    simp only [hkind, plannedRolling, hactive] at hcaught ⊢
    refine fits_singleton hl hmem hB fun hup => ?_
    have hstatus := (hcaught ⟨_, List.mem_singleton_self _, hup⟩).1
    -- the old ReplicaSets ask for nothing, because they report nothing
    have hothers : ((others ReplicaSet.name rs.name
        (managedReplicasets l dep)).map (·.size)).sum ≤ 0 := by
      refine (List.sum_le_card_nsmul _ 0 fun n hn => ?_).trans_eq (nsmul_zero _)
      obtain ⟨rs', hrs', rfl⟩ := List.mem_map.1 hn
      exact (hstatus rs' (mem_others.1 hrs').1).trans (old_of_noChange hkind hactive rs' hrs')
    have hsize : (specWith (dep.spec.bind (·.replicas)) rs).size = desiredReplicas dep := rfl
    rw [hsize, htotal, sum_eq_add_sum_others _ hdistinct hmem]
    omega
  | requiresRotation =>
    simp only [hkind, plannedRolling] at hcaught ⊢
    split
    · exact .inl fun p hp => absurd hp List.not_mem_nil
    rename_i rs hrs
    have hfirst := distinct_newestFirst hdistinct
    have hin := List.mem_of_find?_eq_some hrs
    have hmem := mem_of_mem_newestFirst hin
    simp only [hrs] at hcaught
    obtain ⟨target, htarget, heq⟩ | ⟨-, heq⟩ := plannedRotation_cases dep rs
      (oldReplicasets (newestFirst (managedReplicasets l dep)) rs.name)
    · rw [heq] at hcaught ⊢
      refine fits_singleton hl hmem hB fun hup => ?_
      obtain ⟨hstatus, hsum⟩ := hcaught ⟨_, List.mem_singleton_self _, hup⟩
      have hreport := sum_eq_add_sum_others replicasetStatusReplicas hfirst hin
      rw [sum_newestFirst hdistinct] at hreport
      have hle := target_le htarget (hl.bounded rs (List.mem_of_mem_filter hmem))
        (by rw [oldReplicasets_eq_others, ← hreport]; exact hsum)
      rw [oldReplicasets_eq_others, ← hreport] at hle
      -- as much is reported as is asked for
      have hcover : totalSize dep l ≤
          ((managedReplicasets l dep).map replicasetStatusReplicas).sum :=
        List.sum_le_sum hstatus
      have hsize := replicasetSpecReplicas_le_size rs
      have hnonneg := rs.size_nonneg
      have htargetSize : (specWith (some target) rs).size = max target 0 := rfl
      rw [htargetSize]
      omega
    · rw [heq]
      refine .inl fun p hp rs' hrs' hname => ?_
      have hold := mem_of_mem_oldReplicasets (mem_of_mem_lowered hp).1
      obtain ⟨n, hspec, hlow, hhigh⟩ := of_mem_lowered ((hl.ofManaged dep).ofOld rs.name) hp
      obtain rfl := hl.distinct.eq_of_key_eq hrs'
        (List.mem_of_mem_filter (mem_of_mem_newestFirst hold)) hname
      have hsize := replicasetSpecReplicas_le_size p.1
      have hnew : p.2.size = max n 0 := by rw [hspec]; rfl
      omega

lemma snd_eq_of_mem_plannedRolling (hp : p ∈ plannedRolling templateHash dep managed kind)
    (hq : q ∈ plannedRolling templateHash dep managed kind) (hsame : p.1 = q.1) : p.2 = q.2 := by
  have hassign : ∀ {spec : ReplicaSet → ReplicaSetSpec} {l : List ReplicaSet},
      p ∈ assign spec l → q ∈ assign spec l → p.2 = q.2 := by
    intro spec l hp hq
    rw [(fst_mem_of_mem_assign hp).2, (fst_mem_of_mem_assign hq).2, hsame]
  cases kind with
  | inPlace | hotplug | noChange => exact hassign hp hq
  | requiresRotation =>
    simp only [plannedRolling] at hp hq
    split at hp
    · cases hp
    rename_i rs hrs
    simp only [hrs] at hq
    obtain ⟨target, -, heq⟩ | ⟨-, heq⟩ := plannedRotation_cases dep rs
      (oldReplicasets (newestFirst managed) rs.name)
    · rw [heq, List.mem_singleton] at hp hq
      rw [hp, hq]
    · rw [heq] at hp hq
      obtain ⟨-, t, ht, hspec⟩ := mem_of_mem_lowered hp
      obtain ⟨-, t', ht', hspec'⟩ := mem_of_mem_lowered hq
      rw [hsame, ht'] at ht
      rw [hspec, hspec', hsame, Option.some.inj ht]

lemma inRange_of_mem_plannedRolling (hdep : dep.Bounded) (hm : WellFormed managed)
    (hp : p ∈ plannedRolling templateHash dep managed kind) : InRange (p.2.replicas.getD 0) := by
  have hdesired := inRange_desiredReplicas hdep
  cases kind with
  | inPlace | hotplug =>
    rw [(fst_mem_of_mem_assign hp).2, inPlaceSpec, spec_replicas_eq]
    exact hdep
  | noChange =>
    rw [(fst_mem_of_mem_assign hp).2]
    exact hdep
  | requiresRotation =>
    simp only [plannedRolling] at hp
    split at hp
    · cases hp
    rename_i rs hrs
    obtain ⟨target, htarget, heq⟩ | ⟨-, heq⟩ := plannedRotation_cases dep rs
      (oldReplicasets (newestFirst managed) rs.name)
    · rw [heq, List.mem_singleton] at hp
      subst hp
      simp only [nextRollingUpdateRotationTargets] at htarget
      split at htarget
      · cases htarget
        have hwrap := inRange_wrap32 (replicasetSpecReplicas rs + sub32
          (add32 (desiredReplicas dep) (rollingUpdateLimits dep).1)
          (add32 (sumStatusReplicas (oldReplicasets (newestFirst managed) rs.name))
            (replicasetStatusReplicas rs)))
        rw [← add32] at hwrap
        simp only [specWith, Option.getD_some]
        unfold InRange at hwrap hdesired ⊢
        omega
      · cases htarget
    · rw [heq] at hp
      have hold := (hm.ofOld rs.name).bounded _ (mem_of_mem_lowered hp).1
      obtain ⟨n, hspec, hlow, hhigh⟩ := of_mem_lowered (hm.ofOld rs.name) hp
      rw [hspec]
      simp only [specWith, Option.getD_some]
      unfold InRange at hold ⊢
      omega

end Plan

/-! ## What a write does -/

section Write

variable {dep : Deployment} {templateHash : ShipTemplateSpec → String} {B : Int}
  {l l' : List ReplicaSet} {plan : List (ReplicaSet × ReplicaSetSpec)}

lemma Fits.of_smaller (h : Fits dep B l plan) (htotal : totalSize dep l' ≤ totalSize dep l)
    (hfrom : ∀ rs' ∈ l', ∃ rs ∈ l, rs.name = rs'.name ∧ rs.size = rs'.size) :
    Fits dep B l' plan := by
  rcases h with hlower | ⟨p, hplan, hp⟩
  · refine .inl fun p hp rs' hrs' hname => ?_
    obtain ⟨rs, hrs, hname', hsize⟩ := hfrom rs' hrs'
    rw [← hsize]
    exact hlower p hp rs hrs (hname'.trans hname)
  · refine .inr ⟨p, hplan, fun rs' hrs' hname => ?_⟩
    obtain ⟨rs, hrs, hname', hsize⟩ := hfrom rs' hrs'
    have := hp rs hrs (hname'.trans hname)
    omega

/-- A write of the plan keeps the total within the limit, and the rest of the plan fits. -/
lemma Fits.write (h : Fits dep B l plan) (hdistinct : Distinct ReplicaSet.name l)
    (hB : totalSize dep l ≤ B) {p : ReplicaSet × ReplicaSetSpec} (hp : p ∈ plan)
    (hone : ∀ q ∈ plan, q.1.name = p.1.name → q.2 = p.2) {rs : ReplicaSet} (hrs : rs ∈ l)
    (hname : rs.name = p.1.name) {f : ReplicaSet → ReplicaSet} (hf : ∀ r, (f r).name = r.name)
    (hsize : (f rs).size = p.2.size) (howned : isOwnedByDeployment rs dep = true)
    (howned' : isOwnedByDeployment (f rs) dep = true) :
    totalSize dep (modify ReplicaSet.name rs.name f l) ≤ B ∧
      Fits dep B (modify ReplicaSet.name rs.name f l) plan := by
  have htotal : totalSize dep (modify ReplicaSet.name rs.name f l) =
      totalSize dep l - rs.size + p.2.size := by
    rw [totalSize_eq, totalSize_eq, sum_modify _ hdistinct hrs f]
    simp only [sizeFor, howned, howned', if_true, hsize]
  -- a ReplicaSet of the name after the write is the one that was written
  have hwritten : ∀ r ∈ modify ReplicaSet.name rs.name f l, r.name = rs.name →
      r.size = p.2.size := by
    intro r hr hr'
    obtain ⟨x, hx, ⟨hkey, rfl⟩ | ⟨hkey, rfl⟩⟩ := mem_modify hr
    · rw [hdistinct.eq_of_key_eq hx hrs hkey, hsize]
    · exact absurd hr' hkey
  rcases h with hlower | ⟨q, hplan, hq⟩
  · have hle := hlower p hp rs hrs hname
    refine ⟨by omega, .inl fun q hq r hr hrname => ?_⟩
    by_cases hsame : r.name = rs.name
    · rw [hwritten r hr hsame, hone q hq (by rw [← hrname, hsame, hname])]
    obtain ⟨x, hx, ⟨hkey, rfl⟩ | ⟨-, rfl⟩⟩ := mem_modify hr
    · exact absurd ((hf x).trans hkey) hsame
    · exact hlower q hq r hx hrname
  · obtain rfl : p = q := List.mem_singleton.1 (hplan ▸ hp)
    have hle := hq rs hrs hname
    refine ⟨by omega, .inr ⟨p, hplan, fun r hr hrname => ?_⟩⟩
    rw [hwritten r hr (hrname.trans hname.symm)]
    omega

end Write

/-! ## The invariant -/

section Invariant

variable (templateHash : ShipTemplateSpec → String) (dep : Deployment) (B : Int)

/-- What a list of the ReplicaSets still promises. -/
structure Pending (l : List ReplicaSet) (g : Seen) (w : Cluster) : Prop where
  listed : WellFormed l
  owned : ∀ rs ∈ managedReplicasets l dep, ∀ rs' ∈ w.replicaSets, rs'.name = rs.name →
    isOwnedByDeployment rs' dep = true
  fits : Fits dep B w.replicaSets (Plan templateHash dep g.runtimeClass l)
  /-- A ReplicaSet that is created with all replicas is the only one. -/
  fresh : Plan templateHash dep g.runtimeClass l = [] → g.created = false →
    totalSize dep w.replicaSets +
      max ((initialReplicas dep (managedReplicasets l dep)).getD 1) 0 ≤ B

/-- What is known of the cluster, given what the reconcile has seen. -/
structure Knows (w : Cluster) (g : Seen) : Prop where
  wellFormed : WellFormed w.replicaSets
  total_le : totalSize dep w.replicaSets ≤ B
  pending : ∀ l, g.listed = some l → Pending templateHash dep B l g w

end Invariant

section Step

variable {templateHash : ShipTemplateSpec → String} {dep : Deployment} {B : Int} {rules : ShipRules}
  {w : Cluster} {g : Seen} {l : List ReplicaSet}

lemma SameSpec.sizeFor_eq {rs' rs : ReplicaSet} (h : SameSpec rs' rs) :
    sizeFor dep rs' = sizeFor dep rs := by
  rw [sizeFor, sizeFor, isOwnedByDeployment_congr h.owners_eq, ReplicaSet.size, ReplicaSet.size,
    h.spec_eq]

variable (h : Knows templateHash dep B w g)

include h

/-- A change that leaves names, owners and specs. -/
lemma Knows.of_smaller {l' : List ReplicaSet}
    (hdistinct : Distinct ReplicaSet.name l')
    (htotal : totalSize dep l' ≤ totalSize dep w.replicaSets)
    (hfrom : ∀ rs' ∈ l', ∃ rs ∈ w.replicaSets, SameSpec rs' rs) :
    Knows templateHash dep B { w with replicaSets := l' } g := by
  refine ⟨⟨fun rs' hrs' => ?_, hdistinct, fun rs' hrs' => ?_⟩, htotal.trans h.total_le,
    fun l hl => ?_⟩
  · obtain ⟨rs, hrs, hsame⟩ := hfrom rs' hrs'
    rw [hsame.name_eq]
    exact h.wellFormed.named rs hrs
  · obtain ⟨rs, hrs, hsame⟩ := hfrom rs' hrs'
    rw [replicasetSpecReplicas, hsame.spec_eq]
    exact h.wellFormed.bounded rs hrs
  · have hpending := h.pending l hl
    refine ⟨hpending.listed, fun r hr rs' hrs' hname' => ?_, ?_, fun hplan hnew => ?_⟩
    · obtain ⟨rs, hrs, hsame⟩ := hfrom rs' hrs'
      rw [isOwnedByDeployment_congr hsame.owners_eq]
      exact hpending.owned r hr rs hrs (hsame.name_eq.symm.trans hname')
    · refine hpending.fits.of_smaller htotal fun rs' hrs' => ?_
      obtain ⟨rs, hrs, hsame⟩ := hfrom rs' hrs'
      exact ⟨rs, hrs, hsame.name_eq.symm, by rw [ReplicaSet.size, ReplicaSet.size, hsame.spec_eq]⟩
    · have := hpending.fresh hplan hnew
      dsimp only
      omega

lemma Knows.delete (now : Time) (name : String) :
    Knows templateHash dep B { w with replicaSets := deleteNamed now name w.replicaSets } g := by
  refine h.of_smaller ?_ ?_ fun rs' hrs' => ?_
  · exact h.wellFormed.distinct.filterMap fun rs rs' hrs => (of_deleteNamed hrs).name_eq
  · rw [totalSize_eq, totalSize_eq]
    exact sum_filterMap_le _ (fun rs rs' hrs => (of_deleteNamed hrs).sizeFor_eq)
      (sizeFor_nonneg dep) _
  · obtain ⟨rs, hrs, hfrom⟩ := List.mem_filterMap.1 hrs'
    exact ⟨rs, hrs, of_deleteNamed hfrom⟩

lemma Knows.report (name : String) (status : ReplicaSetStatus) :
    Knows templateHash dep B (w.report name status) g := by
  have hreport : ∀ rs : ReplicaSet, SameSpec (rs.report status) rs := by
    intro rs
    unfold ReplicaSet.report
    split <;> exact ⟨rfl, rfl, rfl, rfl⟩
  refine h.of_smaller (h.wellFormed.distinct.modify _ fun rs => (hreport rs).name_eq) ?_
    (forall_mem_modify (fun rs hrs => ⟨rs, hrs, .refl rs⟩) fun rs hrs => ⟨rs, hrs, hreport rs⟩)
  rw [totalSize_eq, totalSize_eq, map_modify fun rs => (hreport rs).sizeFor_eq]

lemma Knows.replace (hrolling : isRecreate dep = false)
    (hdep : dep.Bounded) (hl : g.listed = some l) {rs updated : ReplicaSet} {spec : ReplicaSetSpec}
    (hplan : (rs, spec) ∈ Plan templateHash dep g.runtimeClass l)
    (hspec : updated.spec = some spec) (howners : updated.owners = rs.owners) {w' : Cluster}
    (hw' : w.updateReplicaSet (rs.name.getD "") (·.replacedBy updated) = .ok w') :
    Knows templateHash dep B w' g := by
  have hpending := h.pending l hl
  have hmanaged := mem_of_mem_planned hplan
  have hrolled : Plan templateHash dep g.runtimeClass l = _ := if_neg (by simp [hrolling])
  obtain ⟨target, htarget, hsame, rfl⟩ := of_updateReplicaSet
    (hpending.listed.named rs (List.mem_of_mem_filter hmanaged)) hw'
  -- the ReplicaSet that is found belongs to the Deployment, before and after
  have howned := hpending.owned rs hmanaged target htarget hsame
  have howned' : ∀ r : ReplicaSet, isOwnedByDeployment (r.replacedBy updated) dep = true := by
    intro r
    rw [isOwnedByDeployment_congr ((owners_replacedBy r updated).trans howners)]
    exact (List.mem_filter.1 hmanaged).2
  have hone : ∀ q ∈ Plan templateHash dep g.runtimeClass l, q.1.name = rs.name → q.2 = spec := by
    intro q hq hqname
    refine snd_eq_of_mem_plannedRolling (hrolled ▸ hq) (hrolled ▸ hplan) ?_
    exact hpending.listed.distinct.eq_of_key_eq
      (List.mem_of_mem_filter (mem_of_mem_planned hq)) (List.mem_of_mem_filter hmanaged) hqname
  obtain ⟨htotal, hfits⟩ := hpending.fits.write h.wellFormed.distinct h.total_le hplan hone
    htarget hsame (fun r => name_replacedBy r updated) (size_replacedBy target hspec) howned
    (howned' target)
  refine ⟨⟨forall_mem_modify h.wellFormed.named fun x hx => ?_, ?_,
    forall_mem_modify h.wellFormed.bounded fun x _ => ?_⟩, htotal, fun l' hl' => ?_⟩
  · rw [name_replacedBy]
    exact h.wellFormed.named x hx
  · exact h.wellFormed.distinct.modify _ fun r => name_replacedBy r updated
  · rw [replicasetSpecReplicas, ReplicaSet.replacedBy, hspec]
    exact inRange_of_mem_plannedRolling hdep (hpending.listed.ofManaged dep) (hrolled ▸ hplan)
  · obtain rfl : l = l' := Option.some.inj (hl.symm.trans hl')
    refine ⟨hpending.listed, fun r hr x' hx' hxname => ?_, hfits, fun hempty => ?_⟩
    · obtain ⟨x, hx, ⟨-, rfl⟩ | ⟨-, rfl⟩⟩ := mem_modify hx'
      · exact howned' x
      · exact hpending.owned r hr x' hx hxname
    · simp [hempty] at hplan

lemma Knows.create (hdep : dep.Bounded) (hl : g.listed = some l) (hnew : g.created = false)
    (hplan : Plan templateHash dep g.runtimeClass l = []) {c : Choice} {w' : Cluster}
    {hash : String} (hw' : w.createReplicaSet c (buildReplicasetWithReplicas dep hash
      (initialReplicas dep (managedReplicasets l dep))) = .ok w') :
    Knows templateHash dep B w' { g with created := true } := by
  have hpending := h.pending l hl
  obtain ⟨hfresh, rfl⟩ := of_createReplicaSet hw'
  generalize hbuilt : buildReplicasetWithReplicas dep hash
    (initialReplicas dep (managedReplicasets l dep)) = built at hfresh
  have howned : isOwnedByDeployment (built.created c) dep = true := by
    rw [isOwnedByDeployment_congr (owners_created c built), ← hbuilt]
    exact isOwnedByDeployment_build dep hash _
  have hsize : (built.created c).size =
      max ((initialReplicas dep (managedReplicasets l dep)).getD 1) 0 := by
    rw [← hbuilt]
    rfl
  have htotal : totalSize dep (w.replicaSets ++ [built.created c]) ≤ B := by
    have hle := hpending.fresh hplan hnew
    rw [totalSize_eq] at hle ⊢
    rw [List.map_append, List.sum_append, List.map_singleton, List.sum_singleton, sizeFor,
      if_pos howned, hsize]
    exact hle
  refine ⟨⟨List.forall_mem_append.2 ⟨h.wellFormed.named, List.forall_mem_singleton.2 ?_⟩,
    h.wellFormed.distinct.append_singleton hfresh,
    List.forall_mem_append.2 ⟨h.wellFormed.bounded, List.forall_mem_singleton.2 ?_⟩⟩,
    htotal, fun l' hl' => ?_⟩
  · rw [ReplicaSet.name_created, ← hbuilt]
    rfl
  · have hspec : replicasetSpecReplicas (built.created c) =
        (initialReplicas dep (managedReplicasets l dep)).getD 0 := by
      rw [← hbuilt]
      rfl
    rw [hspec, initialReplicas]
    split
    · exact hdep
    · decide
  · obtain rfl : l = l' := Option.some.inj (hl.symm.trans hl')
    refine ⟨hpending.listed, fun r hr x hx hxname => ?_, .inl ?_, fun _ hcreated => ?_⟩
    · rcases List.mem_append.1 hx with hx | hx
      · exact hpending.owned r hr x hx hxname
      · rw [List.mem_singleton.1 hx]
        exact howned
    · intro p hp
      simp [hplan] at hp
    · cases hcreated

lemma Knows.setCreated :
    Knows templateHash dep B w { g with created := true } := by
  refine ⟨h.wellFormed, h.total_le, fun l hl => ?_⟩
  have hpending := h.pending l hl
  exact ⟨hpending.listed, hpending.owned, hpending.fits, fun _ hnew => absurd hnew (by simp)⟩

lemma Knows.list (hrolling : isRecreate dep = false)
    (hlimit : desiredReplicas dep + (rollingUpdateLimits dep).1 ≤ B)
    (hlist : MayList templateHash dep g.runtimeClass w.replicaSets) :
    Knows templateHash dep B w { g with listed := some w.replicaSets } := by
  refine ⟨h.wellFormed, h.total_le, fun l hl => ?_⟩
  cases hl
  refine ⟨h.wellFormed, fun r hr rs hrs hname => ?_,
    fits_plan h.wellFormed hrolling h.total_le hlimit hlist, fun _ _ => ?_⟩
  · rw [h.wellFormed.distinct.eq_of_key_eq hrs (List.mem_of_mem_filter hr) hname]
    exact (List.mem_filter.1 hr).2
  · have hB := h.total_le
    have hsurge : 0 ≤ (rollingUpdateLimits dep).1 := le_max_right _ _
    unfold initialReplicas
    split
    next hempty =>
      have hzero : totalSize dep w.replicaSets = 0 := by
        rw [totalSize, List.isEmpty_iff.1 hempty.2]
        rfl
      rw [hzero]
      have hdesired : desiredReplicas dep = max ((dep.spec.bind (·.replicas)).getD 1) 0 := rfl
      omega
    · simpa using hB

/-- **One request.**  What is known is kept by every request of a reconcile. -/
lemma Knows.exec (hrolling : isRecreate dep = false)
    (hdep : dep.Bounded) (hlimit : desiredReplicas dep + (rollingUpdateLimits dep).1 ≤ B)
    {c : Choice} {op : ClusterOp} (hallowed : (deploymentProtocol templateHash dep).allowed g op)
    (hlist : op = .listReplicaSets → c.fate = .served →
      MayList templateHash dep g.runtimeClass w.replicaSets) :
    Knows templateHash dep B (Cluster.exec rules w c op).1
      ((deploymentProtocol templateHash dep).observe g op (Cluster.exec rules w c op).2) := by
  refine exec_deployment (p := Knows templateHash dep B) hallowed h
    (fun hnone rc => ⟨h.wellFormed, h.total_le, fun l hl => absurd (hnone.symm.trans hl) (by simp)⟩)
    (fun hop hfate => h.list hrolling hlimit (hlist hop hfate)) h.setCreated
    (fun l rs w' hop hl hmay hw' => ?_) (fun l name rs w' hop hl hmay hw' => ?_)
    fun name w' _ hw' => ?_
  · subst hop
    cases hmay with
    | create hnew hkind habsent => exact h.create hdep hl hnew (plan_eq_nil hkind habsent) hw'
  · subst hop
    cases hmay with
    | replace rs _ spec hplan hspec howners =>
      exact h.replace hrolling hdep hl hplan hspec howners hw'
  · obtain rfl := of_deleteReplicaSet hw'
    exact h.delete c.now name

end Step

/-! ## Every run -/

section Run

variable (templateHash : ShipTemplateSpec → String) (rules : ShipRules) (dep : Deployment)

/-- The invariant: what is known holds, and the reconcile keeps to its protocol. -/
abbrev Rollout.Sound (B : Int) (c : Rollout) : Prop :=
  c.Keeps (deploymentProtocol templateHash dep) (Knows templateHash dep B)

variable {templateHash rules dep}

lemma Rollout.Sound.step {B : Int} {c : Rollout} (h : c.Sound templateHash dep B)
    (hrolling : isRecreate dep = false) (hdep : dep.Bounded)
    (hlimit : desiredReplicas dep + (rollingUpdateLimits dep).1 ≤ B) (e : Event)
    (hstep : c.InStep templateHash dep e) :
    (c.step templateHash rules dep e).Sound templateHash dep B := by
  cases e with
  | start status =>
    refine Config.KeepsTo.start h () ?_ (wp_reconcileDeployment_withStatus status)
    have hknows := (h ()).1
    exact ⟨hknows.wellFormed, hknows.total_le, fun l hl => absurd hl (by simp)⟩
  | report name status => exact fun k => ⟨(h k).1.report name status, (h k).2⟩
  | request choice =>
    refine Config.Keeps.step h _ (fun k choice' op next he hk hallowed => ?_) fun x hx => x.elim
    obtain rfl : choice = choice' := by simpa using he
    refine ⟨trivial, (h ()).1.exec hrolling hdep hlimit hallowed fun hop hfate => ?_,
      fun j hj => absurd rfl hj⟩
    subst hop
    refine hstep ?_ hfate
    rw [lists, hk]

/-- **The surge limit.**  As long as all ReplicaSets have caught up whenever the controller lists
them to scale up, they never ask for more Ships together than at first or than the Deployment wants
and the surge allows. -/
theorem rollout_total_le (w : Cluster) (es : List Rollout.Event) (hrolling : isRecreate dep = false)
    (hdep : dep.Bounded) (hw : WellFormed w.replicaSets)
    (hsteps : Run.AllSteps (Rollout.step templateHash rules dep) (Rollout.InStep templateHash dep)
      (Rollout.idle w) es) :
    Run.AllStates (Rollout.step templateHash rules dep)
      (fun c => totalSize dep c.world.replicaSets ≤ max (totalSize dep w.replicaSets)
        (desiredReplicas dep + (rollingUpdateLimits dep).1)) (Rollout.idle w) es := by
  refine Run.AllStates.of_invariant
    (fun c e hc he => Rollout.Sound.step hc hrolling hdep (le_max_right _ _) e he)
    (fun c hc => (hc ()).1.total_le) (Rollout.idle w) es (fun _ => ⟨?_, trivial⟩) hsteps
  exact ⟨hw, le_max_left _ _, fun l hl => absurd hl (by simp [Rollout.idle])⟩

/-- The rotation of four replicas from `a` to `b` has begun. -/
def midRollout : Cluster :=
  let dep := imageDeployment "RollingUpdate" 4 "b"
  { replicaSets := [imageReplicaset dep "a" 1 4 4, imageReplicaset dep "b" 2 0 0] }

/-- Between two reconciles the new ReplicaSet reports what it has been given. -/
theorem rollout_total_le_midRollout :
    Run.AllStates (Rollout.step imageHash plainRules (imageDeployment "RollingUpdate" 4 "b"))
      (fun c => totalSize (imageDeployment "RollingUpdate" 4 "b") c.world.replicaSets ≤
        max (totalSize (imageDeployment "RollingUpdate" 4 "b") midRollout.replicaSets)
          (desiredReplicas (imageDeployment "RollingUpdate" 4 "b") +
            (rollingUpdateLimits (imageDeployment "RollingUpdate" 4 "b")).1))
      (Rollout.idle midRollout)
      [.start none, .request {}, .request {}, .request {}, .report "web-b" ⟨1, 0⟩,
        .start none, .request {}, .request {}, .request {}] :=
  rollout_total_le midRollout _ (by decide) (by unfold Deployment.Bounded; decide)
    ⟨by decide +kernel, by decide +kernel, by decide +kernel⟩ (by decide +kernel)

/-- Without a report in between, the second reconcile adds the same replica again: the ReplicaSets
ask for six Ships, where four are wanted and one more is allowed. -/
theorem rollout_exceeds_surge :
    ¬ Run.AllStates (Rollout.step imageHash plainRules (imageDeployment "RollingUpdate" 4 "b"))
      (fun c => totalSize (imageDeployment "RollingUpdate" 4 "b") c.world.replicaSets ≤
        max (totalSize (imageDeployment "RollingUpdate" 4 "b") midRollout.replicaSets)
          (desiredReplicas (imageDeployment "RollingUpdate" 4 "b") +
            (rollingUpdateLimits (imageDeployment "RollingUpdate" 4 "b")).1))
      (Rollout.idle midRollout)
      [.start none, .request {}, .request {}, .request {}, .start none, .request {},
        .request {}] := by
  decide +kernel

end Run

end Tugboat.Workload
