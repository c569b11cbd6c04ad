import Tugboat.ControllerManager.SurgeLimit

/-!
# What a rotation must not touch

A reconcile should delete no ReplicaSet that it turns to (`deletes_unused_iff`), report the right
numbers (`status_counts_iff`), and leave enough replicas that are ready
(`rotation_keeps_available_iff`).  Each fails where a ReplicaSet is judged by something else than
what is asked about it: stale ReplicaSets are all but the *newest*, while a rotation turns to the
one of the *template*; the updated replicas are those of the newest one; and replicas are taken from
what a ReplicaSet *asks for*, not from the Ships it has.
-/

namespace Tugboat.Workload

open Program Controller Wrapping Keyed

/-! ## The stale ReplicaSets -/

section Cleanup

variable (templateHash : ShipTemplateSpec → String) (dep : Deployment)

/-- The ReplicaSet a reconcile turns to: in a rotation the one of the template, else the newest. -/
def selected (w : Cluster) : Option ReplicaSet :=
  let managed := managedReplicasets w.replicaSets dep
  if kindOf dep (w.runtimeClass dep.template) managed = .requiresRotation then
    rotationReplicaset templateHash dep (candidates dep managed)
  else activeReplicaset managed

/-- The ReplicaSet of the name has no Ships, and it is not the one that is turned to. -/
def Unused (w : Cluster) (name : String) : Prop :=
  ∃ rs ∈ w.replicaSets, rs.name = some name ∧
    (∀ ship ∈ w.ships, isOwnedByReplicaset ship rs = false) ∧
    ∀ target ∈ selected templateHash dep w, target.name ≠ some name

/-- What is emptied and beyond the limit for the history has no Ships, and the reconcile does not
turn to it. -/
def SparesUsed (w : Cluster) : Prop :=
  ∀ rs ∈ stale dep (managedReplicasets w.replicaSets dep),
    (∀ ship ∈ w.ships, isOwnedByReplicaset ship rs = false) ∧ selected templateHash dep w ≠ some rs

variable {templateHash dep}

/-- What is listed is what was there at the start: before, nothing is written. -/
def Lists (w w' : Cluster) (g : Seen) : Prop :=
  (g.listed = none → w'.replicaSets = w.replicaSets) ∧ ∀ l ∈ g.listed, l = w.replicaSets

lemma Lists.exec {w w' : Cluster} {g : Seen} (h : Lists w w' g) {rules : ShipRules} {c : Choice}
    {op : ClusterOp} (hallowed : (deploymentProtocol templateHash dep).allowed g op) :
    Lists w (Cluster.exec rules w' c op).1
      ((deploymentProtocol templateHash dep).observe g op (Cluster.exec rules w' c op).2) := by
  have hwritten : ∀ {l : List ReplicaSet} {w'' : Cluster} {created : Bool}, g.listed = some l →
      Lists w w'' { g with created } := fun hl =>
    ⟨fun hnone => (nomatch hl.symm.trans hnone), h.2⟩
  refine exec_deployment (p := Lists w) hallowed h (fun _ _ => h) (fun hop _ => ?_) h
    (fun _ _ _ _ hl _ _ => hwritten hl) (fun _ _ _ _ _ hl _ _ => hwritten hl) fun _ _ hop _ => ?_
  · subst hop
    refine ⟨fun hnone => (nomatch hnone), ?_⟩
    rintro l ⟨⟩
    exact h.1 hallowed.1
  · subst hop
    obtain ⟨l, hl, -⟩ := hallowed
    exact hwritten hl

lemma mem_of_selected {w : Cluster} {rs : ReplicaSet} (h : rs ∈ selected templateHash dep w) :
    rs ∈ w.replicaSets := by
  refine List.mem_of_mem_filter (p := (isOwnedByDeployment · dep)) ?_
  unfold selected candidates at h
  dsimp only at h
  split at h
  · have hrs := List.mem_of_find?_eq_some h
    split at hrs
    · exact hrs
    · exact mem_of_mem_newestFirst hrs
  · exact mem_of_activeReplicaset h

lemma mem_of_mem_stale {managed : List ReplicaSet} {rs : ReplicaSet} (h : rs ∈ stale dep managed) :
    rs ∈ managed := by
  have hold := List.mem_of_mem_filter
    ((List.perm_insertionSort _ _).mem_iff.1 (List.mem_of_mem_take h))
  exact mem_of_mem_oldReplicasets hold

/-- Where all deletions succeed, all have been asked for. -/
lemma deletes_of_deleteAll {rules : ShipRules} {l : List ReplicaSet} {choice : ℕ → Choice}
    {w : Cluster} (h : ((deleteAll l).run.run (Cluster.exec rules) choice w).2 = .ok ()) :
    ∀ rs ∈ l, ∃ c ∈ (deleteAll l).run.calls (Cluster.exec rules) choice w,
      c.2 = .deleteReplicaSet (rs.name.getD "") := by
  induction l generalizing choice w with
  | nil => exact fun _ hrs => absurd hrs List.not_mem_nil
  | cons rs l ih =>
    obtain ⟨_, choice', -, hrest, hfirst, hsecond⟩ := exists_of_run_bind_ok h
    rw [List.forall_mem_cons]
    refine ⟨⟨_, hfirst List.mem_cons_self, rfl⟩, fun rs' hrs' => ?_⟩
    obtain ⟨c, hc, hdelete⟩ := ih hrest rs' hrs'
    exact ⟨c, hsecond hc, hdelete⟩

lemma run_resolveRuntimeClass (rules : ShipRules) (template : ShipTemplateSpec)
    (choice : ℕ → Choice) (w : Cluster) :
    ((resolveRuntimeClass template).run.run (Cluster.exec rules) choice w).1 = w := by
  unfold resolveRuntimeClass
  split
  · rfl
  · show ((choice 0).fate.read w _).1 = w
    cases (choice 0).fate with
    | served | refused | lost => rfl

lemma eq_of_listReplicaSets {rules : ShipRules} {choice : ℕ → Choice} {w : Cluster}
    {l : List ReplicaSet}
    (h : ((request .listReplicaSets).run.run (Cluster.exec rules) choice w).2 = .ok l) :
    l = w.replicaSets := by
  replace h : ((choice 0).fate.read w w.replicaSets).2.mapError ControllerError.client = .ok l := h
  cases hfate : (choice 0).fate with
  | served =>
    rw [hfate] at h
    exact (Except.ok.inj h).symm
  | refused | lost =>
    rw [hfate] at h
    cases h

/-- A reconcile that runs to its end asks to delete what is stale. -/
lemma deletes_of_reconcileDeployment {rules : ShipRules} {choice : ℕ → Choice} {w : Cluster}
    {action : Action} (h : ((reconcileDeployment templateHash dep).run.run (Cluster.exec rules)
      choice w).2 = .ok action) :
    ∀ rs ∈ stale dep (managedReplicasets w.replicaSets dep),
      ∃ c ∈ (reconcileDeployment templateHash dep).run.calls (Cluster.exec rules) choice w,
        c.2 = .deleteReplicaSet (rs.name.getD "") := by
  obtain ⟨_, _, -, h, -, hns⟩ := exists_of_run_bind_ok h
  obtain ⟨_, _, -, h, -, hspec⟩ := exists_of_run_bind_ok h
  obtain ⟨template, _, -, h, -, htemplate⟩ := exists_of_run_bind_ok h
  obtain ⟨rc, choice', -, h, -, hclass⟩ := exists_of_run_bind_ok h
  obtain ⟨l, _, hl, h, -, hlist⟩ := exists_of_run_bind_ok h
  obtain ⟨_, _, -, h, -, hmove⟩ := exists_of_run_bind_ok h
  obtain ⟨_, _, hclean, -, hcleaned, -⟩ := exists_of_run_bind_ok h
  obtain ⟨_, _, hdeleted, -, hcalls, -⟩ := exists_of_run_bind_ok hclean
  obtain rfl := (eq_of_listReplicaSets hl).trans
    (congrArg _ (run_resolveRuntimeClass rules template _ w))
  intro rs hrs
  obtain ⟨c, hc, hdelete⟩ := deletes_of_deleteAll hdeleted rs hrs
  exact ⟨c, hns (hspec (htemplate (hclass (hlist (hmove (hcleaned (hcalls hc))))))), hdelete⟩

/-- **History cleanup deletes nothing in use** exactly if nothing that is stale is in use: so it is
in every reconcile that runs to its end, and whichever request fails, the condition is enough. -/
theorem deletes_unused_iff (rules : ShipRules) (w : Cluster) (choice : ℕ → Choice)
    (hnamed : ∀ rs ∈ w.replicaSets, rs.name.isSome)
    (hdistinct : Distinct ReplicaSet.name w.replicaSets) :
    let deletesUnused := ∀ c ∈ (reconcileDeployment templateHash dep).run.calls
      (Cluster.exec rules) choice w, ∀ name, c.2 = .deleteReplicaSet name →
        Unused templateHash dep w name
    (SparesUsed templateHash dep w → deletesUnused) ∧
      ∀ action, ((reconcileDeployment templateHash dep).run.run (Cluster.exec rules) choice w).2 =
        .ok action → deletesUnused → SparesUsed templateHash dep w := by
  constructor
  · rintro hspares ⟨w', op⟩ hc name rfl
    have hstep : Complies (deploymentProtocol templateHash dep) (Cluster.exec rules)
        (fun _ _ => True) (Lists w) := fun _ _ _ _ _ h hallowed => ⟨trivial, h.exec hallowed⟩
    obtain ⟨g, hg, l, hl, hmay⟩ := allowed_of_mem_calls hstep _ {} choice w (fun _ => trivial)
      ⟨fun _ => rfl, fun _ hl => nomatch hl⟩ wp_reconcileDeployment _ hc
    obtain rfl := hg.2 l hl
    cases hmay with
    | delete rs hstale =>
      have hrs := List.mem_of_mem_filter (mem_of_mem_stale hstale)
      obtain ⟨name, hname⟩ := Option.isSome_iff_exists.1 (hnamed rs hrs)
      rw [hname]
      refine ⟨rs, hrs, hname, (hspares rs hstale).1, fun target htarget heq => ?_⟩
      obtain rfl := hdistinct.eq_of_key_eq (mem_of_selected htarget) hrs (heq.trans hname.symm)
      exact (hspares target hstale).2 htarget
  · intro action haction hunused rs hstale
    have hrs := List.mem_of_mem_filter (mem_of_mem_stale hstale)
    obtain ⟨name, hname⟩ := Option.isSome_iff_exists.1 (hnamed rs hrs)
    obtain ⟨c, hc, hdelete⟩ := deletes_of_reconcileDeployment haction rs hstale
    rw [hname] at hdelete
    obtain ⟨rs', hrs', hname', hships, hother⟩ := hunused c hc name hdelete
    obtain rfl := hdistinct.eq_of_key_eq hrs' hrs (hname'.trans hname.symm)
    exact ⟨hships, fun hselected => hother rs' hselected hname⟩

/-- Four replicas of `b` are running, and nothing is left of `a`. -/
def rolledOut (image : String) : Deployment × Cluster :=
  let dep := imageDeployment "RollingUpdate" 4 image
  (dep, { replicaSets := [imageReplicaset dep "a" 1 0 0, imageReplicaset dep "b" 2 4 4] })

/-- The requests of a reconcile that finds them. -/
def rolledOutCalls (image : String) : List (Cluster × ClusterOp) :=
  (reconcileDeployment imageHash (rolledOut image).1).run.calls (Cluster.exec plainRules)
    (fun _ => {}) (rolledOut image).2

lemma exists_deletes : ∀ image ∈ ["a", "b"], ∃ c ∈ rolledOutCalls image,
    c.2 = .deleteReplicaSet "web-a" := by
  decide +kernel

/-- While the Deployment asks for `b`, it may be. -/
theorem deletes_unused_iff_rolledOut :
    ∃ c ∈ rolledOutCalls "b", c.2 = .deleteReplicaSet "web-a" ∧
      Unused imageHash (rolledOut "b").1 (rolledOut "b").2 "web-a" := by
  obtain ⟨c, hc, hdelete⟩ := exists_deletes "b" (by decide)
  have hspares : SparesUsed imageHash (rolledOut "b").1 (rolledOut "b").2 := by
    unfold SparesUsed
    decide +kernel
  exact ⟨c, hc, hdelete, (deletes_unused_iff plainRules _ _ (by decide +kernel)
    (by decide +kernel)).1 hspares c hc _ hdelete⟩

/-- A Deployment that goes back to `a` scales its ReplicaSet up and deletes it at once. -/
theorem deletes_selected :
    ¬ ∀ c ∈ rolledOutCalls "a", ∀ name, c.2 = .deleteReplicaSet name →
      Unused imageHash (rolledOut "a").1 (rolledOut "a").2 name := by
  intro h
  obtain ⟨c, hc, hdelete⟩ := exists_deletes "a" (by decide)
  obtain ⟨-, -, -, -, hother⟩ := h c hc "web-a" hdelete
  exact hother (imageReplicaset (rolledOut "a").1 "a" 1 0 0) (by decide +kernel) rfl

end Cleanup

/-! ## The status -/

section Status

variable (dep : Deployment) (managed : List ReplicaSet)

def remaining : List ReplicaSet :=
  managed.filter fun rs => rs.name.all (· ∉ (stale dep managed).filterMap (·.name))

def hasTemplate (rs : ReplicaSet) : Bool :=
  rs.spec.bind (·.shipTemplate) = dep.spec.bind (·.shipTemplate)

/-- The status adds up all ReplicaSets, and those of the template. -/
def DeploymentStatus.Counts (status : DeploymentStatus) (replicasets : List ReplicaSet) : Prop :=
  status.replicas = (replicasets.map replicasetStatusReplicas).sum ∧
    status.readyReplicas = (replicasets.map replicasetReadyReplicas).sum ∧
    status.updatedReplicas =
        ((replicasets.filter (hasTemplate dep)).map replicasetStatusReplicas).sum
  deriving Decidable

variable {dep managed}

/-- Whatever is reported has the property `p`. -/
def reporting (p : DeploymentStatus → Prop) : Protocol ClusterOp.interface Unit where
  allowed _ op := ∀ name status, op = .patchDeploymentStatus name status → p status
  assumes _ _ _ := True
  observe g _ _ := g

lemma wp_cleanUp {p : DeploymentStatus → Prop}
    (h : p (buildDeploymentStatus (remaining dep managed)
      (activeReplicaset (remaining dep managed)))) :
    (cleanUp dep managed).run.wp (reporting p) () fun _ _ => True := by
  have hdelete : ∀ l, (deleteAll l).run.wp (reporting p) () fun _ _ => True := by
    intro l
    induction l with
    | nil => trivial
    | cons rs l ih => exact wp_request_bind (by rintro _ _ ⟨⟩) (fun _ _ => ih) fun _ _ => trivial
  refine wp_controller_bind (hdelete _) (fun _ _ _ => ?_) fun _ _ _ => trivial
  unfold syncDeploymentStatus
  dsimp only
  split
  · trivial
  refine wp_request_bind ?_ (fun _ _ => trivial) fun _ _ => trivial
  rintro name status ⟨⟩
  exact h

lemma foldl_add32_eq_sum_iff (l : List Int) : l.foldl add32 0 = l.sum ↔ InRange l.sum := by
  rw [foldl_add32_zero]
  exact ⟨fun h => h ▸ inRange_wrap32 _, wrap32_of_inRange⟩

/-- The sums fit.  The older ReplicaSets of the template have no replicas, if the newest has the
template too, and else as many as the newest. -/
structure Counted (dep : Deployment) (replicasets : List ReplicaSet) : Prop where
  replicas : InRange (replicasets.map replicasetStatusReplicas).sum
  ready : InRange (replicasets.map replicasetReadyReplicas).sum
  older : ∀ newest ∈ activeReplicaset replicasets,
    (((replicasets.erase newest).filter (hasTemplate dep)).map replicasetStatusReplicas).sum =
      if hasTemplate dep newest then 0 else replicasetStatusReplicas newest

lemma counts_iff (dep : Deployment) (replicasets : List ReplicaSet) :
    (buildDeploymentStatus replicasets (activeReplicaset replicasets)).Counts dep replicasets ↔
      Counted dep replicasets := by
  have hupdated : ((activeReplicaset replicasets).map replicasetStatusReplicas).getD 0 =
        ((replicasets.filter (hasTemplate dep)).map replicasetStatusReplicas).sum ↔
      ∀ newest ∈ activeReplicaset replicasets,
        (((replicasets.erase newest).filter (hasTemplate dep)).map replicasetStatusReplicas).sum =
          if hasTemplate dep newest then 0 else replicasetStatusReplicas newest := by
    cases hactive : activeReplicaset replicasets with
    | none =>
      have hnil : replicasets = [] := by
        by_contra hne
        obtain ⟨rs, -, hrs⟩ := exists_activeReplicaset hne
        cases hactive.symm.trans hrs
      simp [hnil]
    | some newest =>
      have hperm := List.perm_cons_erase (mem_of_activeReplicaset hactive)
      rw [((hperm.filter _).map _).sum_eq, List.filter_cons]
      simp only [Option.map_some, Option.getD_some, Option.mem_some_iff, forall_eq']
      split
      · rw [List.map_cons, List.sum_cons]
        omega
      · exact eq_comm
  constructor
  · rintro ⟨hreplicas, hready, hcount⟩
    exact ⟨(foldl_add32_eq_sum_iff _).1 hreplicas, (foldl_add32_eq_sum_iff _).1 hready,
      hupdated.1 hcount⟩
  · rintro ⟨hreplicas, hready, holder⟩
    exact ⟨(foldl_add32_eq_sum_iff _).2 hreplicas, (foldl_add32_eq_sum_iff _).2 hready,
      hupdated.2 holder⟩

/-- **The status counts the right replicas** exactly if the sums fit and no replicas of the template
are missed or miscounted for looking at the newest ReplicaSet only. -/
theorem status_counts_iff {ω ι : Type} (exec : Semantics ClusterOp.interface ω ι) (choice : ℕ → ι)
    (w : ω) : ∀ c ∈ (cleanUp dep managed).run.calls exec choice w, ∀ name status,
      c.2 = .patchDeploymentStatus name status →
        (status.Counts dep (remaining dep managed) ↔ Counted dep (remaining dep managed)) := by
  intro c hc
  have hstep : Complies (reporting fun status =>
      status.Counts dep (remaining dep managed) ↔ Counted dep (remaining dep managed)) exec
      (fun _ _ => True) fun _ _ => True := fun _ _ _ _ _ _ _ => ⟨trivial, trivial⟩
  obtain ⟨_, -, hallowed⟩ := allowed_of_mem_calls hstep _ () choice w (fun _ => trivial) trivial
    (wp_cleanUp (counts_iff dep _)) c hc
  exact hallowed

/-- One replica has been moved from `b` to `a`, which is older. -/
def rollingBack (image : String) : Deployment × List ReplicaSet :=
  let dep := imageDeployment "RollingUpdate" 4 image
  (dep, [imageReplicaset dep "a" 1 1 1, imageReplicaset dep "b" 2 3 3])

/-- The requests of the last part of a reconcile that finds them. -/
def rollingBackCalls (image : String) : List (Cluster × ClusterOp) :=
  (cleanUp (rollingBack image).1 (rollingBack image).2).run.calls (Cluster.exec plainRules)
    (fun _ => {}) {}

/-- Three updated replicas are reported in any case. -/
lemma exists_reports : ∀ image ∈ ["a", "b"], ∃ c ∈ rollingBackCalls image,
    c.2 = .patchDeploymentStatus "web" ⟨4, 4, 3⟩ := by
  decide +kernel

theorem status_counts_iff_rollingBack :
    ∃ c ∈ rollingBackCalls "b", c.2 = .patchDeploymentStatus "web" ⟨4, 4, 3⟩ ∧
      DeploymentStatus.Counts (rollingBack "b").1 ⟨4, 4, 3⟩
        (remaining (rollingBack "b").1 (rollingBack "b").2) := by
  obtain ⟨c, hc, hstatus⟩ := exists_reports "b" (by decide)
  exact ⟨c, hc, hstatus, (status_counts_iff (Cluster.exec plainRules) _ _ c hc _ _ hstatus).2
    ⟨by decide +kernel, by decide +kernel, by decide +kernel⟩⟩

/-- On the way back to `a`, the three replicas of `b` are reported as updated. -/
theorem status_counts_newest :
    ¬ ∀ c ∈ rollingBackCalls "a", ∀ name status, c.2 = .patchDeploymentStatus name status →
      status.Counts (rollingBack "a").1 (remaining (rollingBack "a").1 (rollingBack "a").2) := by
  intro h
  obtain ⟨c, hc, hstatus⟩ := exists_reports "a" (by decide)
  exact absurd (h c hc "web" _ hstatus) (by decide +kernel)

end Status

/-! ## The ready Ships -/

section Available

def targetOf (targets : List (String × Int)) (rs : ReplicaSet) : Int :=
  ((targets.find? fun t => rs.name.getD "" = t.1).map (·.2)).getD (replicasetSpecReplicas rs)

/-- The ready Ships that a ReplicaSet is left with when it is to have `target` replicas and those
that it deletes are ready. -/
def readyLeft (count ready : ReplicaSet → Int) (target : Int) (rs : ReplicaSet) : Int :=
  max (ready rs - max (count rs - target) 0) 0

/-- The ready Ships that are left once the targets of a rotation are applied. -/
def availableAfter (dep : Deployment) (active : ReplicaSet) (old : List ReplicaSet)
    (count ready : ReplicaSet → Int) : Int :=
  let targets := nextRollingUpdateRotationTargets dep active old
  readyLeft count ready (targets.targetNewSpec.getD (replicasetSpecReplicas active)) active +
    (old.map fun rs => readyLeft count ready (targetOf targets.oldTargets rs) rs).sum

/-- What is left to the limit on replicas. -/
def room (dep : Deployment) (active : ReplicaSet) (old : List ReplicaSet) : Int :=
  wrap32 (desiredReplicas dep + (rollingUpdateLimits dep).1 -
    (replicasetStatusReplicas active + (old.map replicasetStatusReplicas).sum))

/-- The new ReplicaSet may have more replicas. -/
def Grows (dep : Deployment) (active : ReplicaSet) (old : List ReplicaSet) : Prop :=
  0 < room dep active old ∧ replicasetSpecReplicas active < desiredReplicas dep
  deriving Decidable

def grownTo (dep : Deployment) (active : ReplicaSet) (old : List ReplicaSet) : Int :=
  if Grows dep active old then
    min (wrap32 (replicasetSpecReplicas active + room dep active old)) (desiredReplicas dep)
  else replicasetSpecReplicas active

/-- What may be taken from the old ReplicaSets: what is reported ready beyond the minimum, once the
new one grows no more. -/
def removable (dep : Deployment) (active : ReplicaSet) (old : List ReplicaSet) : Int :=
  if Grows dep active old then 0
  else max (wrap32 ((old.map replicasetReadyReplicas).sum + replicasetReadyReplicas active -
    max (wrap32 (desiredReplicas dep - (rollingUpdateLimits dep).2)) 0)) 0

/-- The ready Ships that go when a ReplicaSet is to have `target` replicas. -/
def lostBy (count ready : ReplicaSet → Int) (target : Int) (rs : ReplicaSet) : Int :=
  min (ready rs) (max (count rs - target) 0)

/-- The ready Ships that the old ReplicaSets lose if each gives its share: as much as it asks for,
until nothing more may be taken. -/
def lostByOld (count ready : ReplicaSet → Int) : Int → List ReplicaSet → Int
  | _, [] => 0
  | canRemove, rs :: rest =>
    let share := min (max (replicasetSpecReplicas rs) 0) canRemove
    lostBy count ready (replicasetSpecReplicas rs - share) rs +
      lostByOld count ready (canRemove - share) rest

variable {dep : Deployment} {active : ReplicaSet} {old : List ReplicaSet}
  {count ready : ReplicaSet → Int}

lemma readyLeft_eq (target : Int) (rs : ReplicaSet) :
    readyLeft count ready target rs = ready rs - lostBy count ready target rs := by
  unfold readyLeft lostBy
  omega

/-- The removal loop takes the share of the first ReplicaSet and goes on with what is left. -/
lemma targetOf_removalTargets {rs : ReplicaSet} {rest : List ReplicaSet}
    (hold : WellFormed (rs :: rest)) {canRemove : Int} (hcan : 0 ≤ canRemove) :
    let share := min (max (replicasetSpecReplicas rs) 0) canRemove
    targetOf (removalTargets (rs :: rest) canRemove) rs = replicasetSpecReplicas rs - share ∧
      ∀ rs' ∈ rest, targetOf (removalTargets (rs :: rest) canRemove) rs' =
        targetOf (removalTargets rest (canRemove - share)) rs' := by
  intro share
  have hne : ∀ rs' ∈ rest, rs'.name.getD "" ≠ rs.name.getD "" := by
    intro rs' hrs' heq
    obtain ⟨name, hname⟩ := Option.isSome_iff_exists.1 (hold.named rs List.mem_cons_self)
    obtain ⟨name', hname'⟩ :=
      Option.isSome_iff_exists.1 (hold.named rs' (List.mem_cons_of_mem _ hrs'))
    rw [hname, hname'] at heq
    refine (List.nodup_cons.1 hold.distinct).1 (List.mem_map.2 ⟨rs', hrs', ?_⟩)
    rw [hname, hname', show name' = name from heq]
  -- no later target has the name of the first
  have hself : ∀ c, targetOf (removalTargets rest c) rs = replicasetSpecReplicas rs := by
    intro c
    rw [targetOf, List.find?_eq_none.2]
    · rfl
    intro t ht
    obtain ⟨rs', hrs', hname, -⟩ := of_mem_removalTargets ht
    simpa [← hname] using (hne rs' hrs').symm
  rw [removalTargets]
  split
  next hzero =>
    obtain rfl : canRemove = 0 := Int.le_antisymm hzero hcan
    have hshare : share = 0 := by omega
    have hnil : removalTargets rest 0 = [] := by cases rest <;> simp [removalTargets]
    simp [hshare, hnil, targetOf]
  dsimp only
  split
  next hnone =>
    have hshare : share = 0 := by omega
    simp [hshare, hself]
  · have hshare : share = min (replicasetSpecReplicas rs) canRemove := by omega
    rw [if_pos (by omega), ← hshare]
    refine ⟨?_, fun rs' hrs' => ?_⟩
    · rw [targetOf, List.find?_cons_of_pos (by simp)]
      rfl
    · rw [targetOf, List.find?_cons_of_neg (by simpa using hne rs' hrs'), targetOf]

lemma sum_readyLeft (hold : WellFormed old) {canRemove : Int} (hcan : 0 ≤ canRemove) :
      (old.map fun rs =>
        readyLeft count ready (targetOf (removalTargets old canRemove) rs) rs).sum =
      (old.map ready).sum - lostByOld count ready canRemove old := by
  induction old generalizing canRemove with
  | nil => rfl
  | cons rs rest ih =>
    obtain ⟨hself, hrest⟩ := targetOf_removalTargets hold hcan
    have hwf : WellFormed rest := hold.of_subset (List.nodup_cons.1 hold.distinct).2 fun _ =>
      List.mem_cons_of_mem _
    rw [List.map_cons, List.sum_cons, hself, readyLeft_eq,
      List.map_congr_left fun rs' hrs' => by rw [hrest rs' hrs'], ih hwf (by omega),
      lostByOld, List.map_cons, List.sum_cons]
    omega

lemma targets_eq (dep : Deployment) (active : ReplicaSet) (old : List ReplicaSet) :
    (nextRollingUpdateRotationTargets dep active old).targetNewSpec.getD
        (replicasetSpecReplicas active) = grownTo dep active old ∧
      (nextRollingUpdateRotationTargets dep active old).oldTargets =
        removalTargets old (removable dep active old) := by
  have havailable : ∀ m, sub32 (add32 (sumReadyReplicas old) (replicasetReadyReplicas active)) m =
      wrap32 ((old.map replicasetReadyReplicas).sum + replicasetReadyReplicas active - m) := by
    intro m
    rw [sumReadyReplicas, foldl_add32_zero, add32, wrap32_add_wrap32, sub32, wrap32, wrap32, wrap32,
      Int.bmod_sub_bmod]
  simp only [nextRollingUpdateRotationTargets, canAdd_eq, havailable]
  split
  next hroom =>
    have hgrows : Grows dep active old := hroom
    rw [grownTo, removable, if_pos hgrows, if_pos hgrows]
    exact ⟨rfl, rfl⟩
  next hroom =>
    have hgrows : ¬ Grows dep active old := hroom
    rw [grownTo, removable, if_neg hgrows, if_neg hgrows]
    exact ⟨rfl, rfl⟩

/-- **A rotation keeps enough Ships ready** exactly if the ready Ships that go are no more than
there are beyond the minimum: from the new ReplicaSet and the old ones go the Ships beyond what they
ask for, and the old ones also give their shares of what may be removed. -/
theorem rotation_keeps_available_iff (hold : WellFormed old) :
    min (ready active + (old.map ready).sum) (desiredReplicas dep - (rollingUpdateLimits dep).2) ≤
        availableAfter dep active old count ready ↔
      lostBy count ready (grownTo dep active old) active +
          lostByOld count ready (removable dep active old) old ≤
        max (ready active + (old.map ready).sum -
          (desiredReplicas dep - (rollingUpdateLimits dep).2)) 0 := by
  obtain ⟨hnew, htargets⟩ := targets_eq dep active old
  have hcan : 0 ≤ removable dep active old := by
    unfold removable
    split
    · exact le_rfl
    · exact le_max_right _ _
  rw [availableAfter, hnew, htargets, readyLeft_eq, sum_readyLeft hold hcan]
  omega

/-- A rotation from `a`, which asks for `asked` Ships and has four, to `b`, which has one. -/
def rotating (asked : Int) : Deployment × ReplicaSet × List ReplicaSet :=
  let dep := imageDeployment "RollingUpdate" 4 "b"
  (dep, imageReplicaset dep "b" 2 1 1, [imageReplicaset dep "a" 1 asked 4])

/-- The five Ships are ready. -/
theorem rotation_keeps_available_iff_rotating :
    min (1 + (((rotating 4).2.2).map replicasetReadyReplicas).sum) (desiredReplicas (rotating 4).1 -
        (rollingUpdateLimits (rotating 4).1).2) ≤
      availableAfter (rotating 4).1 (rotating 4).2.1 (rotating 4).2.2 replicasetStatusReplicas
        replicasetReadyReplicas :=
  (rotation_keeps_available_iff ⟨by decide +kernel, by decide +kernel, by decide +kernel⟩).2
    (by decide +kernel)

/-- `a` asks for two Ships and has not yet deleted the others: taking away two more leaves one ready
Ship, where three have to be available. -/
theorem rotation_removes_available :
    ¬ min (1 + (((rotating 2).2.2).map replicasetReadyReplicas).sum)
        (desiredReplicas (rotating 2).1 - (rollingUpdateLimits (rotating 2).1).2) ≤
      availableAfter (rotating 2).1 (rotating 2).2.1 (rotating 2).2.2 replicasetStatusReplicas
        replicasetReadyReplicas := by
  decide +kernel

end Available

end Tugboat.Workload
