import Tugboat.ControllerManager.Deployment

/-!
# What a reconcile of a Deployment writes

Everything a reconcile writes is decided when the ReplicaSets have been listed.  `planned` are the
ReplicaSets it may replace, each with the spec it may write; `initialReplicas` is the size of the
ReplicaSet it may create, if it has found none for its template; and stale ReplicaSets may be
deleted.  `wp_reconcileDeployment` says that it makes no other writes, whatever the answers to its
requests are.  In particular a PUT that is refused as outdated is repeated with the same spec.
-/

namespace Tugboat.Workload

open Controller Program

/-! ## The plan -/

def Deployment.template (dep : Deployment) : ShipTemplateSpec :=
  (dep.spec.bind (·.shipTemplate)).getD {}

def ReplicaSet.owners (rs : ReplicaSet) : List OwnerReference :=
  (rs.objectMeta.map (·.ownerReferences)).getD []

def specWith (replicas : Option Int) (rs : ReplicaSet) : ReplicaSetSpec :=
  { rs.spec.getD {} with replicas }

/-- The spec of the ReplicaSet with the template and the replicas of the Deployment. -/
def inPlaceSpec (dep : Deployment) (rs : ReplicaSet) : ReplicaSetSpec :=
  { rs.spec.getD {} with
    shipTemplate := (dep.spec.getD {}).shipTemplate, replicas := (dep.spec.getD {}).replicas }

/-- Every ReplicaSet of the list, with a spec that depends on it. -/
def assign (spec : ReplicaSet → ReplicaSetSpec) (l : List ReplicaSet) :
    List (ReplicaSet × ReplicaSetSpec) := l.map fun rs => (rs, spec rs)

variable {spec : ReplicaSet → ReplicaSetSpec} {l : List ReplicaSet} {rs : ReplicaSet}

lemma mem_assign (h : rs ∈ l) : (rs, spec rs) ∈ assign spec l := List.mem_map.2 ⟨rs, h, rfl⟩

variable (templateHash : ShipTemplateSpec → String)

/-- The ReplicaSet that is found by the hash of the Deployment's template. -/
def rotationReplicaset (dep : Deployment) (managed : List ReplicaSet) : Option ReplicaSet :=
  managed.find? (replicasetHasTemplateHash · (templateHash dep.template))

/-- Scale down what is old if it seems to run, else scale up. -/
def stopOrScale (dep : Deployment) (rs : List ReplicaSet) (old : List ReplicaSet) :
    List (ReplicaSet × ReplicaSetSpec) :=
  if hasOldRunningReplicas old then assign (specWith (some 0)) old
  else assign (specWith (some ((dep.spec.bind (·.replicas)).getD 1))) rs

def plannedRecreate (dep : Deployment) (managed : List ReplicaSet) :
    TemplateChangeKind → List (ReplicaSet × ReplicaSetSpec)
  | .inPlace | .hotplug => assign (inPlaceSpec dep) (activeReplicaset managed).toList
  | .noChange =>
    let active := activeReplicaset managed
    stopOrScale dep active.toList (oldReplicasets managed (active.bind (·.name)))
  | .requiresRotation =>
    match rotationReplicaset templateHash dep managed with
    | none => []
    | some rs => stopOrScale dep [rs] (oldReplicasets managed rs.name)

def lowered (targets : List (String × Int)) (old : List ReplicaSet) :
    List (ReplicaSet × ReplicaSetSpec) :=
  old.filterMap fun rs =>
    (targets.find? fun t => rs.name.getD "" = t.1).map fun t => (rs, specWith (some t.2) rs)

def plannedRotation (dep : Deployment) (rs : ReplicaSet) (old : List ReplicaSet) :
    List (ReplicaSet × ReplicaSetSpec) :=
  let targets := nextRollingUpdateRotationTargets dep rs old
  match targets.targetNewSpec with
  | some target => [(rs, specWith (some target) rs)]
  | none => lowered targets.oldTargets old

/-- The newest ReplicaSet first, as a rolling update goes through them. -/
def newestFirst (managed : List ReplicaSet) : List ReplicaSet :=
  let active := activeReplicaset managed
  active.toList ++ oldReplicasets managed (active.bind (·.name))

def plannedRolling (dep : Deployment) (managed : List ReplicaSet) :
    TemplateChangeKind → List (ReplicaSet × ReplicaSetSpec)
  | .noChange =>
    assign (specWith (dep.spec.bind (·.replicas))) (activeReplicaset managed).toList
  | .inPlace | .hotplug => assign (inPlaceSpec dep) (activeReplicaset managed).toList
  | .requiresRotation =>
    match rotationReplicaset templateHash dep (newestFirst managed) with
    | none => []
    | some rs => plannedRotation dep rs (oldReplicasets (newestFirst managed) rs.name)

/-- The ReplicaSets that may be replaced, with the specs they may get. -/
def planned (dep : Deployment) (managed : List ReplicaSet) (kind : TemplateChangeKind) :
    List (ReplicaSet × ReplicaSetSpec) :=
  if isRecreate dep then plannedRecreate templateHash dep managed kind
  else plannedRolling templateHash dep managed kind

def initialReplicas (dep : Deployment) (managed : List ReplicaSet) : Option Int :=
  if ¬ isRecreate dep ∧ managed.isEmpty then dep.spec.bind (·.replicas) else some 0

def stale (dep : Deployment) (managed : List ReplicaSet) : List ReplicaSet :=
  staleReplicasetsForCleanup
    (oldReplicasets managed ((activeReplicaset managed).bind (·.name))) (revisionHistoryLimit dep)

def kindOf (dep : Deployment) (runtimeClass : Option RuntimeClass) (managed : List ReplicaSet) :
    TemplateChangeKind :=
  let active := activeReplicaset managed
  changeKindOf dep.template runtimeClass active (oldReplicasets managed (active.bind (·.name)))

/-! ## The newest ReplicaSet -/

lemma newest_foldl (l : List ReplicaSet) (best : ReplicaSet) :
    ∃ rs ∈ best :: l, l.foldl (fun newest rs =>
      match newest with
      | none => some rs
      | some best =>
        if keyLe (creationSortKey best.objectMeta) (creationSortKey rs.objectMeta) then some rs
        else some best) (some best) = some rs := by
  induction l generalizing best with
  | nil => exact ⟨best, by simp, rfl⟩
  | cons a l ih =>
    rw [List.foldl_cons]
    dsimp only
    split
    · obtain ⟨rs, hrs, h⟩ := ih a
      exact ⟨rs, List.mem_cons_of_mem _ hrs, h⟩
    · obtain ⟨rs, hrs, h⟩ := ih best
      exact ⟨rs, by grind, h⟩

lemma exists_activeReplicaset (h : l ≠ []) : ∃ rs ∈ l, activeReplicaset l = some rs := by
  cases l with
  | nil => exact absurd rfl h
  | cons a l => exact newest_foldl l a

lemma mem_of_activeReplicaset (h : activeReplicaset l = some rs) : rs ∈ l := by
  obtain ⟨rs', hmem, hrs'⟩ := exists_activeReplicaset (l := l) (by rintro rfl; cases h)
  rw [h] at hrs'
  exact Option.some.inj hrs' ▸ hmem

lemma newestFirst_isEmpty (managed : List ReplicaSet) :
    (newestFirst managed).isEmpty = managed.isEmpty := by
  by_cases h : managed = []
  · rw [h]; rfl
  · obtain ⟨rs, -, hrs⟩ := exists_activeReplicaset h
    simp [newestFirst, hrs, h]

variable {p : ReplicaSet × ReplicaSetSpec}

lemma fst_mem_of_mem_assign (h : p ∈ assign spec l) : p.1 ∈ l ∧ p.2 = spec p.1 := by
  obtain ⟨rs, hrs, rfl⟩ := List.mem_map.1 h
  exact ⟨hrs, rfl⟩

lemma mem_of_mem_oldReplicasets {name : Option String} (h : rs ∈ oldReplicasets l name) :
    rs ∈ l := List.mem_of_mem_filter h

variable {managed : List ReplicaSet}

lemma mem_of_mem_newestFirst (h : rs ∈ newestFirst managed) : rs ∈ managed := by
  rcases List.mem_append.1 h with h | h
  · exact mem_of_activeReplicaset (Option.mem_toList.1 h)
  · exact mem_of_mem_oldReplicasets h

lemma mem_of_mem_stopOrScale {dep : Deployment} {rss old : List ReplicaSet}
    (hrss : ∀ rs ∈ rss, rs ∈ managed)
    (hold : ∀ rs ∈ old, rs ∈ managed) (h : p ∈ stopOrScale dep rss old) : p.1 ∈ managed := by
  unfold stopOrScale at h
  split at h
  · exact hold _ (fst_mem_of_mem_assign h).1
  · exact hrss _ (fst_mem_of_mem_assign h).1

lemma mem_of_mem_lowered {targets : List (String × Int)} {old : List ReplicaSet}
    (h : p ∈ lowered targets old) :
    p.1 ∈ old ∧ ∃ t, targets.find? (fun t => p.1.name.getD "" = t.1) = some t ∧
      p.2 = specWith (some t.2) p.1 := by
  obtain ⟨rs, hrs, h⟩ := List.mem_filterMap.1 h
  obtain ⟨t, ht, rfl⟩ := Option.map_eq_some_iff.1 h
  exact ⟨hrs, t, ht, rfl⟩

lemma plannedRotation_cases (dep : Deployment) (rs : ReplicaSet) (old : List ReplicaSet) :
    (∃ target, (nextRollingUpdateRotationTargets dep rs old).targetNewSpec = some target ∧
        plannedRotation dep rs old = [(rs, specWith (some target) rs)]) ∨
      ((nextRollingUpdateRotationTargets dep rs old).targetNewSpec = none ∧
        plannedRotation dep rs old =
          lowered (nextRollingUpdateRotationTargets dep rs old).oldTargets old) := by
  unfold plannedRotation
  generalize nextRollingUpdateRotationTargets dep rs old = targets
  cases htarget : targets.targetNewSpec with
  | some target => exact .inl ⟨target, rfl, by simp only [htarget]⟩
  | none => exact .inr ⟨rfl, by simp only [htarget]⟩

lemma mem_of_mem_planned {templateHash : ShipTemplateSpec → String} {dep : Deployment}
    {kind : TemplateChangeKind}
    (h : p ∈ planned templateHash dep managed kind) : p.1 ∈ managed := by
  have hactive : ∀ rs ∈ (activeReplicaset managed).toList, rs ∈ managed := fun rs hrs =>
    mem_of_activeReplicaset (Option.mem_toList.1 hrs)
  unfold planned at h
  split at h
  · cases kind with
    | inPlace | hotplug => exact hactive _ (fst_mem_of_mem_assign h).1
    | noChange => exact mem_of_mem_stopOrScale hactive (fun _ => mem_of_mem_oldReplicasets) h
    | requiresRotation =>
      simp only [plannedRecreate] at h
      split at h
      · cases h
      rename_i rs hrs
      refine mem_of_mem_stopOrScale (fun r hr => ?_) (fun _ => mem_of_mem_oldReplicasets) h
      rw [List.mem_singleton.1 hr]
      exact List.mem_of_find?_eq_some hrs
  · cases kind with
    | inPlace | hotplug | noChange => exact hactive _ (fst_mem_of_mem_assign h).1
    | requiresRotation =>
      simp only [plannedRolling] at h
      split at h
      · cases h
      rename_i rs hrs
      have hmem := mem_of_mem_newestFirst (List.mem_of_find?_eq_some hrs)
      obtain ⟨target, -, heq⟩ | ⟨-, heq⟩ :=
        plannedRotation_cases dep rs (oldReplicasets (newestFirst managed) rs.name)
      · rw [heq] at h
        rw [List.mem_singleton.1 h]
        exact hmem
      · rw [heq] at h
        exact mem_of_mem_newestFirst (mem_of_mem_oldReplicasets (mem_of_mem_lowered h).1)

/-! ## The protocol -/

/-- What a reconcile has seen: the runtime class of the template, the ReplicaSets, and whether it
has tried to create one. -/
structure Seen where
  runtimeClass : Option RuntimeClass := none
  listed : Option (List ReplicaSet) := none
  created : Bool := false

/-- The ReplicaSets among which the one of the template is looked for. -/
def candidates (dep : Deployment) (managed : List ReplicaSet) : List ReplicaSet :=
  if isRecreate dep then managed else newestFirst managed

/-- The writes that follow from a list of ReplicaSets. -/
inductive MayWrite (dep : Deployment) (g : Seen) (l : List ReplicaSet) : ClusterOp → Prop
  | create (hnew : g.created = false)
      (hkind : kindOf dep g.runtimeClass (managedReplicasets l dep) = .requiresRotation)
      (habsent : rotationReplicaset templateHash dep
        (candidates dep (managedReplicasets l dep)) = none) :
      MayWrite dep g l (.createReplicaSet (buildReplicasetWithReplicas dep
        (templateHash dep.template) (initialReplicas dep (managedReplicasets l dep))))
  | replace (rs rs' : ReplicaSet) (spec : ReplicaSetSpec)
      (hplanned : (rs, spec) ∈ planned templateHash dep (managedReplicasets l dep)
        (kindOf dep g.runtimeClass (managedReplicasets l dep)))
      (hspec : rs'.spec = some spec) (howners : rs'.owners = rs.owners) :
      MayWrite dep g l (.replaceReplicaSet (rs.name.getD "") rs')
  | delete (rs : ReplicaSet) (hstale : rs ∈ stale dep (managedReplicasets l dep)) :
      MayWrite dep g l (.deleteReplicaSet (rs.name.getD ""))

/-- The requests of a reconcile. -/
def deploymentProtocol (dep : Deployment) : Protocol ClusterOp.interface Seen where
  allowed g op :=
    match op with
    | .getRuntimeClass name => g.listed = none ∧ dep.template.runtimeClassName = some name
    | .listReplicaSets =>
      g.listed = none ∧ (dep.template.runtimeClassName = none → g.runtimeClass = none)
    | .getReplicaSet _ | .patchDeploymentStatus _ _ => True
    | .createReplicaSet _ | .replaceReplicaSet _ _ | .deleteReplicaSet _ =>
      ∃ l, g.listed = some l ∧ MayWrite templateHash dep g l op
    | .replaceReplicaSetStatus _ _ | .listShips | .generateSuffix | .createShip _
    | .replaceShip _ _ | .patchShip _ _ | .deleteShip _ => False
  assumes _ _ _ := True
  observe g op r :=
    match op, r with
    | .getRuntimeClass _, .ok runtimeClass => { g with runtimeClass }
    | .listReplicaSets, .ok l => { g with listed := some l }
    | .createReplicaSet _, _ => { g with created := true }
    | _, _ => g

section Wp

variable {templateHash} {dep : Deployment} {g : Seen} {rc : Option RuntimeClass}
  {l : List ReplicaSet}

/-- What has been fetched and listed. -/
def Seen.Has (rc : Option RuntimeClass) (l : List ReplicaSet) (g : Seen) : Prop :=
  g.runtimeClass = rc ∧ g.listed = some l

/-- `updated` gives `rs` the spec `spec` and leaves its owners. -/
def Gives (rs : ReplicaSet) (spec : ReplicaSetSpec) (updated : ReplicaSet) : Prop :=
  updated.spec = some spec ∧ ∃ m, updated.objectMeta = some m ∧ m.ownerReferences = rs.owners

lemma owners_eq (rs : ReplicaSet) : (rs.objectMeta.getD {}).ownerReferences = rs.owners := by
  rw [ReplicaSet.owners]
  cases rs.objectMeta with
  | none | some m => rfl

lemma gives_withReplicas (rs : ReplicaSet) (strategy : Option String) (replicas : Option Int) :
    Gives rs (specWith replicas rs)
      (setInPlaceUpdateStrategy strategy (withReplicas rs replicas)) :=
  ⟨rfl, _, rfl, owners_eq rs⟩

variable {rs updated : ReplicaSet}

lemma gives_of_updateReplicasetReplicas {replicas : Option Int}
    (h : updateReplicasetReplicas rs replicas = some updated) (strategy : Option String) :
    Gives rs (specWith replicas rs) (setInPlaceUpdateStrategy strategy updated) := by
  unfold updateReplicasetReplicas at h
  split at h
  · cases h
  split at h
  · cases h
  · cases h
    exact gives_withReplicas rs strategy replicas

variable {spec : ReplicaSetSpec}

/-- The latest version takes over the new spec as well as the owners. -/
lemma Gives.takeOver (h : Gives rs spec updated) (latest : ReplicaSet) :
    Gives rs spec (latest.takeOver updated) := by
  obtain ⟨hspec, m, hm, howners⟩ := h
  refine ⟨hspec, { latest.objectMeta.getD {} with
    labels := m.labels, annotations := m.annotations, ownerReferences := m.ownerReferences },
    ?_, howners⟩
  simp only [ReplicaSet.takeOver, hm]

/-- The writes that are planned, given what was seen. -/
abbrev Plan (templateHash : ShipTemplateSpec → String) (dep : Deployment)
    (rc : Option RuntimeClass) (l : List ReplicaSet) : List (ReplicaSet × ReplicaSetSpec) :=
  planned templateHash dep (managedReplicasets l dep) (kindOf dep rc (managedReplicasets l dep))

lemma allowed_replace (hg : g.Has rc l) (hplanned : (rs, spec) ∈ Plan templateHash dep rc l)
    (hgives : Gives rs spec updated) {name : String} (hname : name = rs.name.getD "") :
    (deploymentProtocol templateHash dep).allowed g (.replaceReplicaSet name updated) := by
  obtain ⟨hspec, m, hm, howners⟩ := hgives
  subst hname
  refine ⟨l, hg.2, .replace rs updated spec ?_ hspec ?_⟩
  · rw [hg.1]
    exact hplanned
  · rw [ReplicaSet.owners, hm]
    exact howners

/-- A part of a reconcile that keeps to the protocol once `l` is listed. -/
def Adheres (templateHash : ShipTemplateSpec → String) (dep : Deployment) (rc : Option RuntimeClass)
    (l : List ReplicaSet) {α : Type} (x : Controller α) : Prop :=
  ∀ g : Seen, g.Has rc l → x.run.wp (deploymentProtocol templateHash dep) g fun g' _ => g'.Has rc l

section Adheres

variable {α β : Type}

lemma adheres_pure (a : α) : Adheres templateHash dep rc l (pure a : Controller α) :=
  fun _ hg => hg

lemma Adheres.bind {x : Controller β} {f : β → Controller α} (hx : Adheres templateHash dep rc l x)
    (hf : ∀ b, Adheres templateHash dep rc l (f b)) : Adheres templateHash dep rc l (x >>= f) :=
  fun g hg => wp_controller_bind (hx g hg) (fun g' b hg' => hf b g' hg') fun _ _ hg' => hg'

lemma Adheres.discard_bind {x : Controller β} (hx : Adheres templateHash dep rc l x) (a : α) :
    Adheres templateHash dep rc l (do discard x; return a) :=
  Adheres.bind (hx.bind fun _ => adheres_pure ()) fun _ => adheres_pure a

end Adheres

section

variable (hplanned : (rs, spec) ∈ Plan templateHash dep rc l) (hgives : Gives rs spec updated)

include hplanned hgives

lemma adheres_retryReplace : Adheres templateHash dep rc l (retryReplace rs updated) := by
  intro g hg
  unfold retryReplace
  split
  · exact hg
  rename_i name hname
  refine wp_request_bind trivial (fun latest _ => ?_) fun e _ => hg
  cases latest with
  | none => exact hg
  | some latest =>
    dsimp only
    split
    · exact hg
    have hretry := allowed_replace hg hplanned (hgives.takeOver latest)
      (show name = rs.name.getD "" by rw [hname]; rfl)
    exact wp_request_bind hretry (fun _ _ => hg) fun e _ => hg

lemma adheres_replace : Adheres templateHash dep rc l (replaceReplicasetIfChanged rs updated) := by
  intro g hg
  unfold replaceReplicasetIfChanged
  split
  · exact hg
  refine wp_attempt_bind (allowed_replace hg hplanned hgives rfl) fun r _ => ?_
  split
  · exact hg
  · exact adheres_retryReplace hplanned hgives g hg
  · exact hg

lemma adheres_replaceAndRequeue : Adheres templateHash dep rc l (replaceAndRequeue rs updated) := by
  refine (adheres_replace hplanned hgives).bind fun changed => ?_
  split <;> exact adheres_pure _

end

/-! ### The loops -/

variable {old : List ReplicaSet}

lemma adheres_scaleToZero
    (hplanned : ∀ rs ∈ old, (rs, specWith (some 0) rs) ∈ Plan templateHash dep rc l) :
    Adheres templateHash dep rc l (scaleToZero old) := by
  induction old with
  | nil => exact adheres_pure _
  | cons rs rest ih =>
    rw [List.forall_mem_cons] at hplanned
    refine (adheres_replace hplanned.1 (gives_withReplicas rs none (some 0))).bind fun _ => ?_
    exact (ih hplanned.2).bind fun _ => adheres_pure _

lemma adheres_lowerOld {targets : List (String × Int)}
    (hplanned : ∀ rs ∈ old, ∀ t, (targets.find? fun t => rs.name.getD "" = t.1) = some t →
      (rs, specWith (some t.2) rs) ∈ Plan templateHash dep rc l) :
    Adheres templateHash dep rc l (lowerOld targets old) := by
  induction old with
  | nil => exact adheres_pure _
  | cons rs rest ih =>
    rw [List.forall_mem_cons] at hplanned
    unfold lowerOld
    split
    · exact ih hplanned.2
    rename_i name target hfind
    split
    · exact ih hplanned.2
    rename_i updated hupdated
    exact (adheres_replace (hplanned.1 _ hfind)
      (gives_of_updateReplicasetReplicas hupdated none)).discard_bind true

/-! ### The ReplicaSet of the template -/

lemma template_of_deploymentTemplate {template : ShipTemplateSpec}
    (h : deploymentTemplate dep = .ok template) : template = dep.template := by
  simp only [deploymentTemplate, bind_eq_ok_iff, require_eq_ok_iff] at h
  obtain ⟨spec, hspec, htemplate⟩ := h
  rw [Deployment.template, hspec, Option.bind_some, htemplate, Option.getD_some]

lemma hash_of_deploymentTemplateHash {hash : String}
    (h : deploymentTemplateHash templateHash dep = .ok hash) :
    hash = templateHash dep.template := by
  obtain ⟨template, htemplate, hhash⟩ := bind_eq_ok_iff.1 h
  rw [← template_of_deploymentTemplate htemplate]
  exact (Except.ok.inj hhash).symm

variable {managed : List ReplicaSet}

lemma wp_ensureRotationReplicaset {initial : Option Int} (hg : g.Has rc l)
    (hnew : g.created = false)
    (hkind : kindOf dep rc (managedReplicasets l dep) = .requiresRotation)
    (hmanaged : managed = candidates dep (managedReplicasets l dep))
    (hinitial : initial = initialReplicas dep (managedReplicasets l dep)) :
    (ensureRotationReplicaset templateHash dep managed initial).run.wp
      (deploymentProtocol templateHash dep) g fun g' r => g'.Has rc l ∧
        ∀ rs, r = .ok (some rs) → rotationReplicaset templateHash dep managed = some rs := by
  refine wp_compute_bind (fun hash hhash => ?_) fun e _ => ⟨hg, by simp⟩
  obtain rfl := hash_of_deploymentTemplateHash hhash
  split
  next rs hrs =>
    refine ⟨hg, fun rs' h => ?_⟩
    obtain rfl : rs = rs' := by simpa using h
    exact hrs
  next hnone =>
    subst hmanaged hinitial
    have hmay := MayWrite.create hnew ((congrArg (fun x => kindOf dep x _) hg.1).trans hkind) hnone
    refine wp_controller_bind (I := fun g' _ => g'.Has rc l)
      (wp_attempt_bind ⟨l, hg.2, hmay⟩ fun r _ => ?_)
      (fun g' _ hg' => ⟨hg', by simp⟩) fun g' e hg' => ⟨hg', by simp⟩
    split <;> exact hg

/-! ### The strategies -/

/-- The moves that follow once a Recreate knows what is old and what is to run. -/
lemma adheres_stopOrScale {rs : List ReplicaSet} {scale : Controller Action}
    (hplan : Plan templateHash dep rc l = stopOrScale dep rs old)
    (hscale : (∀ r ∈ rs, (r, specWith (some ((dep.spec.bind (·.replicas)).getD 1)) r) ∈
        Plan templateHash dep rc l) → Adheres templateHash dep rc l scale) :
    Adheres templateHash dep rc l
      (if hasOldRunningReplicas old then stopOld old else scale) := by
  unfold stopOrScale at hplan
  split
  next hrunning =>
    rw [if_pos hrunning] at hplan
    refine (adheres_scaleToZero fun r hr => hplan ▸ mem_assign hr).bind fun changed => ?_
    split <;> exact adheres_pure _
  next hstopped =>
    rw [if_neg hstopped] at hplan
    exact hscale fun r hr => hplan ▸ mem_assign hr

lemma adheres_updateInPlace (strategy : Option String)
    (hplan : Plan templateHash dep rc l = assign (inPlaceSpec dep) [rs]) :
    Adheres templateHash dep rc l (replaceReplicasetIfChanged rs (setInPlaceUpdateStrategy strategy
      (updateReplicasetForInPlace rs dep))) :=
  adheres_replace (hplan ▸ mem_assign (List.mem_singleton_self rs)) ⟨rfl, _, rfl, owners_eq rs⟩

lemma spec_replicas_eq (dep : Deployment) :
    (dep.spec.getD {}).replicas = dep.spec.bind (·.replicas) := by
  cases dep.spec with
  | none | some spec => rfl

lemma exists_active {kind : TemplateChangeKind} (hkind : kindOf dep rc managed = kind)
    (hne : kind ≠ .requiresRotation) :
    ∃ rs, activeReplicaset managed = some rs := by
  refine Option.ne_none_iff_exists'.1 fun hnone => hne ?_
  -- without a ReplicaSet there is one to be made
  simp only [← hkind, kindOf, hnone, changeKindOf]

lemma wp_reconcileRecreate (hg : g.Has rc l) (hnew : g.created = false)
    (hrecreate : isRecreate dep = true) :
    (reconcileRecreate templateHash dep (managedReplicasets l dep)
      (kindOf dep rc (managedReplicasets l dep))).run.wp (deploymentProtocol templateHash dep) g
      fun g' _ => g'.Has rc l := by
  have hplan : Plan templateHash dep rc l = _ := if_pos hrecreate
  generalize hkind : kindOf dep rc (managedReplicasets l dep) = kind at hplan ⊢
  cases kind with
  | inPlace | hotplug =>
    obtain ⟨rs, hactive⟩ := exists_active hkind (by decide)
    simp only [reconcileRecreate, hactive]
    simp only [plannedRecreate, hactive] at hplan
    exact (adheres_updateInPlace _ hplan).discard_bind _ g hg
  | noChange =>
    obtain ⟨rs, hactive⟩ := exists_active hkind (by decide)
    simp only [reconcileRecreate, hactive, spec_replicas_eq]
    simp only [plannedRecreate, hactive] at hplan
    refine adheres_stopOrScale hplan (fun hscale => ?_) g hg
    exact adheres_replaceAndRequeue (hscale rs (by simp)) (gives_withReplicas rs none _)
  | requiresRotation =>
    refine wp_controller_bind
      (wp_ensureRotationReplicaset hg hnew hkind (by simp [candidates, hrecreate])
        (by simp [initialReplicas, hrecreate]))
      (fun g' found hfound => ?_) fun g' e hg' => hg'.1
    cases found with
    | none => exact hfound.1
    | some rs =>
      simp only [plannedRecreate, hfound.2 rs rfl] at hplan
      refine adheres_stopOrScale hplan (fun hscale => ?_) g' hfound.1
      split
      · exact adheres_pure _
      rename_i updated hupdated
      exact adheres_replaceAndRequeue (hscale rs (by simp))
        (gives_of_updateReplicasetReplicas hupdated none)

lemma adheres_rotate (hplan : Plan templateHash dep rc l = plannedRotation dep rs old) :
    Adheres templateHash dep rc l (rotate dep rs old) := by
  unfold rotate
  unfold plannedRotation at hplan
  dsimp only at hplan ⊢
  generalize htargets : nextRollingUpdateRotationTargets dep rs old = targets at hplan ⊢
  split
  next updated hupdated =>
    obtain ⟨target, htarget, hupdated⟩ := Option.bind_eq_some_iff.1 hupdated
    rw [htarget] at hplan
    have hmem : (rs, specWith (some target) rs) ∈ Plan templateHash dep rc l := by
      rw [hplan]
      exact List.mem_singleton_self _
    exact (adheres_replace hmem (gives_of_updateReplicasetReplicas hupdated none)).discard_bind _
  · refine (adheres_lowerOld fun r hr t ht => ?_).bind fun lowered => ?_
    · cases htarget : targets.targetNewSpec with
      | some target =>
        -- a move that scales up does not scale down
        have hempty : targets.oldTargets = [] := by
          subst htargets
          simp only [nextRollingUpdateRotationTargets] at htarget ⊢
          rw [htarget]
          cases old <;> simp [removalTargets]
        simp [hempty] at ht
      | none =>
        rw [htarget] at hplan
        rw [hplan]
        exact List.mem_filterMap.2 ⟨r, hr, by rw [ht]; rfl⟩
    · split
      · exact adheres_pure _
      split
      · exact adheres_pure _
      · exact adheres_pure _

lemma wp_reconcileRollingUpdate (hg : g.Has rc l) (hnew : g.created = false)
    (hrolling : isRecreate dep = false) :
    (reconcileRollingUpdate templateHash dep (activeReplicaset (managedReplicasets l dep))
      (oldReplicasets (managedReplicasets l dep)
        ((activeReplicaset (managedReplicasets l dep)).bind (·.name)))
      (kindOf dep rc (managedReplicasets l dep))).run.wp (deploymentProtocol templateHash dep) g
      fun g' _ => g'.Has rc l := by
  have hplan : Plan templateHash dep rc l = _ := if_neg (by simp [hrolling])
  generalize hkind : kindOf dep rc (managedReplicasets l dep) = kind at hplan ⊢
  refine wp_compute_bind (fun spec hspec => ?_) fun e _ => hg
  rw [require_eq_ok_iff] at hspec
  have hreplicas : dep.spec.bind (·.replicas) = spec.replicas := by rw [hspec]; rfl
  cases kind with
  | noChange =>
    obtain ⟨rs, hactive⟩ := exists_active hkind (by decide)
    simp only [plannedRolling, hactive, hreplicas] at hplan
    simp only [hactive]
    split
    · exact hg
    rename_i updated hupdated
    exact (adheres_replace (hplan ▸ mem_assign (by simp))
      (gives_of_updateReplicasetReplicas hupdated none)).discard_bind _ g hg
  | inPlace | hotplug =>
    obtain ⟨rs, hactive⟩ := exists_active hkind (by decide)
    simp only [plannedRolling, hactive] at hplan
    simp only [hactive]
    refine (adheres_updateInPlace none hplan).bind (fun _ => ?_) g hg
    split
    · exact adheres_pure _
    split
    · exact adheres_pure _
    · exact adheres_pure _
  | requiresRotation =>
    have hempty := newestFirst_isEmpty (managedReplicasets l dep)
    have hfirst : newestFirst (managedReplicasets l dep) =
        (activeReplicaset (managedReplicasets l dep)).toList ++ oldReplicasets
          (managedReplicasets l dep)
          ((activeReplicaset (managedReplicasets l dep)).bind (·.name)) := rfl
    simp only [← hfirst]
    refine wp_controller_bind
      (wp_ensureRotationReplicaset hg hnew hkind (by simp [candidates, hrolling])
        (by simp [initialReplicas, hrolling, hempty, hreplicas]))
      (fun g' found hfound => ?_) fun g' e hg' => hg'.1
    cases found with
    | none => exact hfound.1
    | some rs =>
      simp only [plannedRolling, hfound.2 rs rfl] at hplan
      exact adheres_rotate hplan g' hfound.1

/-! ### The reconcile -/

lemma adheres_deleteAll {rss : List ReplicaSet}
    (hstale : ∀ rs ∈ rss, rs ∈ stale dep (managedReplicasets l dep)) :
    Adheres templateHash dep rc l (deleteAll rss) := by
  intro g hg
  induction rss with
  | nil => exact hg
  | cons rs rest ih =>
    rw [List.forall_mem_cons] at hstale
    exact wp_request_bind ⟨l, hg.2, .delete rs hstale.1⟩ (fun _ _ => ih hstale.2) fun e _ => hg

lemma adheres_syncDeploymentStatus :
    Adheres templateHash dep rc l (syncDeploymentStatus dep managed) := by
  intro g hg
  unfold syncDeploymentStatus
  dsimp only
  split
  · exact hg
  · exact wp_request_bind trivial (fun _ _ => hg) fun e _ => hg

lemma adheres_cleanUp : Adheres templateHash dep rc l (cleanUp dep (managedReplicasets l dep)) :=
  (adheres_deleteAll fun _ hrs => hrs).bind fun _ => adheres_syncDeploymentStatus

lemma wp_resolveRuntimeClass (hg : g = {}) :
    (resolveRuntimeClass dep.template).run.wp (deploymentProtocol templateHash dep) g
      fun g' r => g'.listed = none ∧ g'.created = false ∧
        (dep.template.runtimeClassName = none → g'.runtimeClass = none) ∧
        ∀ rc, r = .ok rc → g'.runtimeClass = rc := by
  subst hg
  unfold resolveRuntimeClass
  split
  · refine ⟨rfl, rfl, fun _ => rfl, fun rc h => ?_⟩
    exact Except.ok.inj h
  next name hname =>
    refine wp_request.2 ⟨⟨rfl, hname⟩, fun r _ => ?_⟩
    cases r with
    | error e => exact ⟨rfl, rfl, fun _ => rfl, fun rc h => nomatch h⟩
    | ok found =>
      refine ⟨rfl, rfl, fun hnone => ?_, fun rc h => Except.ok.inj h⟩
      cases hname.symm.trans hnone

/-- **What a reconcile writes.**  A reconcile keeps to the protocol from its start. -/
theorem wp_reconcileDeployment :
    (reconcileDeployment templateHash dep).run.wp (deploymentProtocol templateHash dep) {}
      fun _ _ => True := by
  refine wp_compute_bind (fun ns _ => ?_) fun e _ => trivial
  refine wp_compute_bind (fun _ _ => ?_) fun e _ => trivial
  refine wp_compute_bind (fun template htemplate => ?_) fun e _ => trivial
  obtain rfl := template_of_deploymentTemplate htemplate
  refine wp_controller_bind (wp_resolveRuntimeClass rfl) (fun g rc hg => ?_) fun _ _ _ => trivial
  obtain ⟨hlisted, hnew, hrc, hsame⟩ := hg
  obtain rfl := hsame rc rfl
  refine wp_request_bind ⟨hlisted, hrc⟩ (fun replicasets _ => ?_) fun e _ => trivial
  have hhas : (({ g with listed := some replicasets } : Seen)).Has g.runtimeClass replicasets :=
    ⟨rfl, rfl⟩
  refine wp_controller_bind (I := fun g' _ => g'.Has g.runtimeClass replicasets) ?_
    (fun g' action hg' => ?_) fun _ _ _ => trivial
  · unfold reconcileStrategy
    split
    next hrecreate =>
      exact wp_reconcileRecreate hhas hnew hrecreate
    next hrolling =>
      exact wp_reconcileRollingUpdate hhas hnew (by simpa using hrolling)
  exact wp_controller_bind (adheres_cleanUp g' hg') (fun _ _ _ => trivial) fun _ _ _ => trivial

lemma MayWrite.withStatus {status : Option DeploymentStatus} {op : ClusterOp}
    (h : MayWrite templateHash { dep with status } g l op) : MayWrite templateHash dep g l op := by
  cases h with
  | create hnew hkind habsent => exact .create hnew hkind habsent
  | replace rs rs' spec hplanned hspec howners =>
    exact .replace rs rs' spec hplanned hspec howners
  | delete rs hstale => exact .delete rs hstale

/-- Whatever status the Deployment has, a reconcile keeps to the protocol. -/
theorem wp_reconcileDeployment_withStatus (status : Option DeploymentStatus) :
    (reconcileDeployment templateHash { dep with status }).run.wp
      (deploymentProtocol templateHash dep) {} fun _ _ => True := by
  have hobserve : ∀ g op r, (deploymentProtocol templateHash { dep with status }).observe g op r =
      (deploymentProtocol templateHash dep).observe g op r := fun _ _ _ => rfl
  refine wp_of_allowed (fun g op hallowed => ?_) (fun _ _ _ _ => trivial) hobserve _ _
    wp_reconcileDeployment
  cases op with
  | createReplicaSet _ | replaceReplicaSet _ _ | deleteReplicaSet _ =>
    obtain ⟨l, hl, hmay⟩ := hallowed
    exact ⟨l, hl, hmay.withStatus⟩
  | getRuntimeClass | listReplicaSets | getReplicaSet | patchDeploymentStatus
  | replaceReplicaSetStatus | listShips | generateSuffix | createShip | replaceShip | patchShip
  | deleteShip => exact hallowed

end Wp

/-! ## Deployments that differ in their image

The Deployments and ReplicaSets of the examples. -/

def imageTemplate (image : String) : ShipTemplateSpec := { spec := some { image } }

def imageHash (template : ShipTemplateSpec) : String := (template.spec.map (·.image)).getD ""

/-- Specs of Ships are stored as they are sent. -/
def plainRules : ShipRules := ⟨id, fun _ new => new⟩

def imageDeployment (strategy : String) (replicas : Int) (image : String) : Deployment where
  objectMeta := some { name := some "web", «namespace» := some "ns", uid := some "1" }
  spec := some {
    replicas := some replicas
    shipTemplate := some (imageTemplate image)
    strategy := some { type := strategy } }

def imageReplicaset (dep : Deployment) (image : String) (created replicas reported : Int) :
    ReplicaSet where
  objectMeta := some {
    name := some ("web-" ++ image)
    uid := some image
    creationTimestamp := some ⟨created, 0⟩
    labels := [(shipTemplateHashLabel, image)]
    ownerReferences := [ownerReferenceFor dep] }
  spec := some {
    replicas := some replicas
    selector := [(shipTemplateHashLabel, image)]
    shipTemplate := some (imageTemplate image) }
  status := some ⟨reported, reported⟩

end Tugboat.Workload
