import Tugboat.ControllerManager.DeploymentMoves
import Tugboat.ControllerManager.ReplicaSet
import Tugboat.Lib.Keyed

/-!
# What the writes of a Deployment do to ReplicaSets

A PUT gives a ReplicaSet its new spec and owners, a POST adds one that the Deployment controls, and
a DELETE takes one away or marks it.  None of them changes a name.
-/

namespace Tugboat.Workload

open Keyed ReplicaSet

variable {dep : Deployment} {rs : ReplicaSet}

lemma isOwnedByDeployment_congr {rs' : ReplicaSet} (h : rs.owners = rs'.owners) :
    isOwnedByDeployment rs dep = isOwnedByDeployment rs' dep := by
  have hiff : ∀ r : ReplicaSet, isOwnedByDeployment r dep = r.owners.any fun ref =>
      isControlledBy (some { ownerReferences := [ref] }) dep "Deployment" := by
    intro r
    simp only [isOwnedByDeployment, isControlledBy, owners, Option.any_some, List.any_cons,
      List.any_nil, Bool.or_false]
    cases r.objectMeta with
    | none | some m => rfl
  rw [hiff, hiff, h]

variable {w w' : Cluster}

lemma of_updateReplicaSet {f : ReplicaSet → ReplicaSet} (hnamed : rs.name.isSome)
    (hw' : w.updateReplicaSet (rs.name.getD "") f = .ok w') :
    ∃ target ∈ w.replicaSets, target.name = rs.name ∧
      w' = { w with replicaSets := modify name target.name f w.replicaSets } := by
  obtain ⟨name, hname⟩ := Option.isSome_iff_exists.1 hnamed
  rw [hname, Option.getD_some, Cluster.updateReplicaSet] at hw'
  split at hw'
  next hany =>
    obtain ⟨target, htarget, htname⟩ := List.any_eq_true.1 hany
    have htname : target.name = some name := by simpa using htname
    refine ⟨target, htarget, htname.trans hname.symm, ?_⟩
    rw [← Except.ok.inj hw', htname]
    rfl
  · cases hw'

lemma name_replacedBy (rs updated : ReplicaSet) : (rs.replacedBy updated).name = rs.name := by
  simp only [replacedBy, name, replacedMeta, Option.bind_some]
  cases rs.objectMeta with
  | none | some m => rfl

lemma owners_replacedBy (rs updated : ReplicaSet) :
    (rs.replacedBy updated).owners = updated.owners :=
  owners_eq updated

lemma size_replacedBy (rs : ReplicaSet) {updated : ReplicaSet} {spec : ReplicaSetSpec}
    (h : updated.spec = some spec) : (rs.replacedBy updated).size = spec.size := by
  rw [size, replacedBy, h]
  rfl

lemma owners_markForDeletion (now : Time) (rs : ReplicaSet) :
    (Resource.markForDeletion now rs).owners = rs.owners := by
  obtain ⟨d, hd⟩ := Resource.exists_objectMeta_markForDeletion now rs
  have hmeta : (Resource.markForDeletion now rs).objectMeta =
      some { rs.objectMeta.getD {} with deletionTimestamp := d } := hd
  rw [owners, hmeta, ← owners_eq]
  rfl

lemma uidOf_markForDeletion {T : Type} [ObjectMetaResource T] (now : Time) (t : T) :
    uidOf (Resource.markForDeletion now t) = uidOf t := by
  obtain ⟨d, hd⟩ := Resource.exists_objectMeta_markForDeletion now t
  rw [uidOf, hd, uidOf]
  cases Resource.objectMeta t with
  | none | some m => rfl

def ReplicaSet.refUid (rs : ReplicaSet) : String := (uidOf rs).getD ""

/-- Two versions of a ReplicaSet that differ in their status or in a mark for deletion only. -/
structure SameSpec (rs' rs : ReplicaSet) : Prop where
  name_eq : rs'.name = rs.name
  owners_eq : rs'.owners = rs.owners
  spec_eq : rs'.spec = rs.spec
  refUid_eq : rs'.refUid = rs.refUid

lemma SameSpec.refl (rs : ReplicaSet) : SameSpec rs rs := ⟨rfl, rfl, rfl, rfl⟩

lemma of_deleteNamed {now : Time} {name : String} {rs' : ReplicaSet}
    (h : (if Resource.name rs ≠ some name then some rs
      else if Resource.hasFinalizers rs then some (Resource.markForDeletion now rs)
      else none) = some rs') : SameSpec rs' rs := by
  rcases eq_or_marked h with rfl | rfl
  · exact .refl rs'
  · refine ⟨Resource.name_markForDeletion now rs, owners_markForDeletion now rs, rfl, ?_⟩
    rw [refUid, uidOf_markForDeletion, refUid]

lemma owners_created (c : Choice) (rs : ReplicaSet) : (rs.created c).owners = rs.owners :=
  owners_eq rs

lemma isOwnedByDeployment_build (dep : Deployment) (hash : String) (replicas : Option Int) :
    isOwnedByDeployment (buildReplicasetWithReplicas dep hash replicas) dep = true := by
  simp only [isOwnedByDeployment, isControlledBy, buildReplicasetWithReplicas, ownerReferenceFor,
    Option.any_some, List.any_cons, List.any_nil, Bool.or_false, Bool.and_eq_true,
    decide_eq_true_eq]
  refine ⟨⟨rfl, trivial⟩, ?_⟩
  cases uidOf dep with
  | none => rfl
  | some uid => exact decide_eq_true rfl

/-- A POST that has an effect adds what was sent, under a new name. -/
lemma of_createReplicaSet {c : Choice} (hw' : w.createReplicaSet c rs = .ok w') :
    (∀ other ∈ w.replicaSets, other.name ≠ (rs.created c).name) ∧
      w' = { w with replicaSets := w.replicaSets ++ [rs.created c] } := by
  unfold Cluster.createReplicaSet at hw'
  split at hw'
  · cases hw'
  rename_i hfree
  refine ⟨fun other hother hname => hfree ?_, (Except.ok.inj hw').symm⟩
  rw [name_created] at hname
  exact List.any_eq_true.2 ⟨other, hother, by simpa using hname⟩

lemma of_deleteReplicaSet {c : Choice} {name : String} (hw' : w.deleteReplicaSet c name = .ok w') :
    w' = { w with replicaSets := deleteNamed c.now name w.replicaSets } := by
  unfold Cluster.deleteReplicaSet at hw'
  split at hw'
  · exact (Except.ok.inj hw').symm
  · cases hw'

variable {templateHash : ShipTemplateSpec → String}

/-- **One request of a Deployment.**  It has its effect or none, and what is seen of it is its
answer. -/
lemma exec_deployment {rules : ShipRules} {p : Cluster → Seen → Prop} {g : Seen} {c : Choice}
    {op : ClusterOp} (hallowed : (deploymentProtocol templateHash dep).allowed g op) (h : p w g)
    (hclass : g.listed = none → ∀ rc, p w { g with runtimeClass := rc })
    (hlist : op = .listReplicaSets → c.fate = .served → p w { g with listed := some w.replicaSets })
    (hcreated : p w { g with created := true })
    (hcreate : ∀ l rs w', op = .createReplicaSet rs → g.listed = some l →
      MayWrite templateHash dep g l op → w.createReplicaSet c rs = .ok w' →
        p w' { g with created := true })
    (hreplace : ∀ l name rs w', op = .replaceReplicaSet name rs → g.listed = some l →
      MayWrite templateHash dep g l op → w.updateReplicaSet name (·.replacedBy rs) = .ok w' →
      p w' g)
    (hdelete : ∀ name w', op = .deleteReplicaSet name → w.deleteReplicaSet c name = .ok w' →
      p w' g) :
    p (Cluster.exec rules w c op).1
      ((deploymentProtocol templateHash dep).observe g op (Cluster.exec rules w c op).2) := by
  cases op with
  | createReplicaSet rs =>
    obtain ⟨l, hl, hmay⟩ := hallowed
    exact Fate.write_of (p := (p · { g with created := true })) c.fate hcreated
      fun w' => hcreate l rs w' rfl hl hmay
  | replaceReplicaSet name rs =>
    obtain ⟨l, hl, hmay⟩ := hallowed
    exact Fate.write_of (p := (p · g)) c.fate h fun w' => hreplace l name rs w' rfl hl hmay
  | deleteReplicaSet name =>
    exact Fate.write_of (p := (p · g)) c.fate h fun w' => hdelete name w' rfl
  | replaceReplicaSetStatus | listShips | generateSuffix | createShip | replaceShip | patchShip
  | deleteShip => exact hallowed.elim
  | getRuntimeClass name =>
    obtain ⟨fate, uid, now, suffix⟩ := c
    cases fate with
    | served => exact hclass hallowed.1 _
    | refused | lost => exact h
  | listReplicaSets =>
    obtain ⟨fate, uid, now, suffix⟩ := c
    cases fate with
    | served => exact hlist rfl rfl
    | refused | lost => exact h
  | getReplicaSet | patchDeploymentStatus =>
    obtain ⟨fate, uid, now, suffix⟩ := c
    cases fate with
    | served | refused | lost => exact h

lemma plan_eq_nil {rc : Option RuntimeClass} {l : List ReplicaSet}
    (hkind : kindOf dep rc (managedReplicasets l dep) = .requiresRotation)
    (habsent : rotationReplicaset templateHash dep
      (candidates dep (managedReplicasets l dep)) = none) : Plan templateHash dep rc l = [] := by
  unfold candidates at habsent
  unfold Plan planned
  rw [hkind]
  split
  next hrecreate =>
    rw [if_pos hrecreate] at habsent
    simp only [plannedRecreate, habsent]
  next hrolling =>
    rw [if_neg hrolling] at habsent
    simp only [plannedRolling, habsent]

end Tugboat.Workload
