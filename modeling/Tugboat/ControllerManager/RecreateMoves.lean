import Tugboat.ControllerManager.ReplicaSetWrites

/-!
# The versions of a Recreate

With the strategy Recreate all Ships of the old template should be gone before the first one of the
new template is there.  The Deployment controller scales up when the other ReplicaSets *report* no
replicas.  What has to hold at that moment is more: those with another template must be `Quiet`,
that is, ask for no Ships, and have none and none to come.

This module is about the Deployment controller and does not look at Ships: that a ReplicaSet has
none and none to come is any predicate `free` on its identifier.  If the others are quiet whenever
the ReplicaSets are listed for a write that scales up or changes a template, then one of the two
sides stays quiet (`Apart`), or both have been scaled down and get no more Ships (`drained`).
-/

namespace Tugboat.Workload

open Program Keyed ReplicaSet

/-! ## What the Deployment controller relies on -/

def ReplicaSetSpec.template (spec : ReplicaSetSpec) : ShipTemplateSpec := spec.shipTemplate.getD {}

section Calm

variable (templateHash : ShipTemplateSpec → String) (dep : Deployment)
  (free drained : String → Prop)

/-- The ReplicaSet asks for no Ships, and its identifier is free. -/
def Quiet (rs : ReplicaSet) : Prop := rs.size = 0 ∧ free rs.refUid

def AllQuiet (side : ReplicaSet → Prop) (l : List ReplicaSet) : Prop :=
  ∀ rs ∈ managedReplicasets l dep, side rs → Quiet free rs

/-- The ReplicaSets with the template of the Deployment are quiet, or all others are, or nothing is
asked for at all. -/
def Apart (l : List ReplicaSet) : Prop :=
  AllQuiet dep free (fun rs => rs.template = dep.template) l ∨
    AllQuiet dep free (fun rs => rs.template ≠ dep.template) l ∨
    AllQuiet dep drained (fun _ => True) l

/-- All other ReplicaSets on the other side of the new spec are quiet. -/
def OthersQuiet (l : List ReplicaSet) (p : ReplicaSet × ReplicaSetSpec) : Prop :=
  AllQuiet dep free (fun rs => rs.name ≠ p.1.name ∧
    (rs.template = dep.template ↔ p.2.template ≠ dep.template)) l

/-- The write neither asks for Ships nor changes the template. -/
def Lowers (p : ReplicaSet × ReplicaSetSpec) : Prop :=
  p.2.size = 0 ∧ p.2.template = p.1.template

/-- The writes of a plan are safe: they all lower, and the templates are as they were listed; or
there is one, and the others are quiet. -/
def Safe (l : List ReplicaSet) (plan : List (ReplicaSet × ReplicaSetSpec)) : Prop :=
  (∀ p ∈ plan, Lowers p ∧ ∀ rs ∈ l, rs.name = p.1.name → rs.template = p.1.template) ∨
    ∃ p, plan = [p] ∧ OthersQuiet dep free l p

/-- What a list of the ReplicaSets still promises. -/
structure Pledge (listed : List ReplicaSet) (g : Seen) (l : List ReplicaSet) : Prop where
  named : ∀ rs ∈ listed, rs.name.isSome
  distinct : Distinct ReplicaSet.name listed
  owned : ∀ rs ∈ managedReplicasets listed dep, ∀ rs' ∈ l, rs'.name = rs.name →
    isOwnedByDeployment rs' dep = true
  safe : Safe dep free l (Plan templateHash dep g.runtimeClass listed)

/-- What is known of the ReplicaSets, given what the reconcile has seen. -/
structure Calm (l : List ReplicaSet) (g : Seen) : Prop where
  named : ∀ rs ∈ l, rs.name.isSome
  distinct : Distinct ReplicaSet.name l
  apart : Apart dep free drained l
  pledge : ∀ listed, g.listed = some listed → Pledge templateHash dep free listed g l

instance (rs : ReplicaSet) [DecidablePred free] : Decidable (Quiet free rs) :=
  inferInstanceAs (Decidable (_ ∧ _))

instance (side : ReplicaSet → Prop) [DecidablePred free] [DecidablePred side]
    (l : List ReplicaSet) : Decidable (AllQuiet dep free side l) :=
  inferInstanceAs (Decidable (∀ rs ∈ _, _ → _))

instance [DecidablePred free] [DecidablePred drained] (l : List ReplicaSet) :
    Decidable (Apart dep free drained l) :=
  inferInstanceAs (Decidable (_ ∨ _ ∨ _))

instance [DecidablePred free] (l : List ReplicaSet) (p : ReplicaSet × ReplicaSetSpec) :
    Decidable (OthersQuiet dep free l p) :=
  inferInstanceAs (Decidable (AllQuiet _ _ _ _))

instance (p : ReplicaSet × ReplicaSetSpec) : Decidable (Lowers p) :=
  inferInstanceAs (Decidable (_ ∧ _))

end Calm

namespace SameSpec

variable {rs' rs : ReplicaSet}

lemma template_eq (h : SameSpec rs' rs) : rs'.template = rs.template := by
  rw [template, h.spec_eq, template]

lemma quiet (h : SameSpec rs' rs) {free free' : String → Prop} (hquiet : Quiet free rs)
    (hfree : free' rs.refUid) : Quiet free' rs' := by
  refine ⟨?_, h.refUid_eq ▸ hfree⟩
  rw [size, h.spec_eq]
  exact hquiet.1

end SameSpec

section Step

variable {templateHash : ShipTemplateSpec → String} {dep : Deployment}
  {free free' drained drained' : String → Prop} {side : ReplicaSet → Prop}
  {l l' : List ReplicaSet} {g : Seen} {rules : ShipRules}

lemma AllQuiet.of_from (h : AllQuiet dep free side l)
    (hfrom : ∀ rs' ∈ l', ∃ rs ∈ l, SameSpec rs' rs)
    (hside : ∀ rs rs' : ReplicaSet, SameSpec rs' rs → side rs' → side rs)
    (hfree : ∀ rs ∈ l, Quiet free rs → free' rs.refUid) : AllQuiet dep free' side l' := by
  intro rs' hrs' hp
  obtain ⟨rs, hrs, hsame⟩ := hfrom rs' (List.mem_of_mem_filter hrs')
  have howned : isOwnedByDeployment rs dep = true := by
    rw [← isOwnedByDeployment_congr hsame.owners_eq]
    exact (List.mem_filter.1 hrs').2
  have hquiet := h rs (List.mem_filter.2 ⟨hrs, howned⟩) (hside rs rs' hsame hp)
  exact hsame.quiet hquiet (hfree rs hrs hquiet)

/-- What is known is kept when ReplicaSets go and the others keep their specs. -/
lemma Calm.of_from (h : Calm templateHash dep free drained l g)
    (hdistinct : Distinct name l') (hfrom : ∀ rs' ∈ l', ∃ rs ∈ l, SameSpec rs' rs)
    (hfree : ∀ rs ∈ l, Quiet free rs → free' rs.refUid)
    (hdrained : ∀ rs ∈ l, Quiet drained rs → drained' rs.refUid) :
    Calm templateHash dep free' drained' l' g := by
  refine ⟨fun rs' hrs' => ?_, hdistinct, ?_, fun listed hlisted => ?_⟩
  · obtain ⟨rs, hrs, hsame⟩ := hfrom rs' hrs'
    rw [hsame.name_eq]
    exact h.named rs hrs
  · rcases h.apart with hnew | hold | hall
    · exact .inl (hnew.of_from hfrom (fun _ _ hsame ht => hsame.template_eq ▸ ht) hfree)
    · exact .inr (.inl (hold.of_from hfrom (fun _ _ hsame ht => hsame.template_eq ▸ ht) hfree))
    · exact .inr (.inr (hall.of_from hfrom (fun _ _ _ _ => trivial) hdrained))
  · have hpledge := h.pledge listed hlisted
    refine ⟨hpledge.named, hpledge.distinct, fun rs hrs rs' hrs' hname => ?_, ?_⟩
    · obtain ⟨old, hold, hsame⟩ := hfrom rs' hrs'
      rw [isOwnedByDeployment_congr hsame.owners_eq]
      exact hpledge.owned rs hrs old hold (hsame.name_eq.symm.trans hname)
    · rcases hpledge.safe with hlower | ⟨p, hplan, hothers⟩
      · refine .inl fun p hp => ⟨(hlower p hp).1, fun rs' hrs' hname => ?_⟩
        obtain ⟨rs, hrs, hsame⟩ := hfrom rs' hrs'
        rw [hsame.template_eq]
        exact (hlower p hp).2 rs hrs (hsame.name_eq.symm.trans hname)
      · refine .inr ⟨p, hplan, AllQuiet.of_from hothers hfrom (fun rs rs' hsame hp => ?_) hfree⟩
        rw [hsame.name_eq, hsame.template_eq] at hp
        exact hp

variable {updated : ReplicaSet}

lemma template_replacedBy (rs : ReplicaSet) {spec : ReplicaSetSpec} (h : updated.spec = some spec) :
    (rs.replacedBy updated).template = spec.template := by
  rw [template, replacedBy, h]
  rfl

lemma refUid_replacedBy (rs updated : ReplicaSet) : (rs.replacedBy updated).refUid = rs.refUid := by
  unfold refUid uidOf
  simp only [Resource.objectMeta, replacedBy, replacedMeta, Option.bind_some]
  cases rs.objectMeta with
  | none | some m => rfl

variable {target : ReplicaSet}

lemma of_mem_replaced (hdistinct : Distinct name l) {r : ReplicaSet}
    (htarget : target ∈ l) (hr : r ∈ modify name target.name (·.replacedBy updated) l) :
    r = target.replacedBy updated ∨ (r ∈ l ∧ r.name ≠ target.name) := by
  obtain ⟨x, hx, ⟨hkey, rfl⟩ | ⟨hkey, rfl⟩⟩ := mem_modify hr
  · exact .inl (by rw [hdistinct.eq_of_key_eq hx htarget hkey])
  · exact .inr ⟨hx, hkey⟩

/-- Quiet ReplicaSets stay quiet when one of them is written, if that one is still quiet. -/
lemma AllQuiet.replace {side' : ReplicaSet → Prop} (h : AllQuiet dep free side l)
    (hdistinct : Distinct name l) (htarget : target ∈ l)
    (hwritten : side' (target.replacedBy updated) → Quiet free (target.replacedBy updated))
    (hside : ∀ r ∈ l, r.name ≠ target.name → side' r → side r) :
    AllQuiet dep free side' (modify name target.name (·.replacedBy updated) l) := by
  intro r hr hp
  obtain ⟨hmem, howned⟩ := List.mem_filter.1 hr
  rcases of_mem_replaced hdistinct htarget hmem with rfl | ⟨hmem', hne⟩
  · exact hwritten hp
  · exact h r (List.mem_filter.2 ⟨hmem', howned⟩) (hside r hmem' hne hp)

lemma Apart.lower (h : Apart dep free drained l) (hdistinct : Distinct name l)
    (htarget : target ∈ managedReplicasets l dep) (hsize : (target.replacedBy updated).size = 0)
    (htemplate : (target.replacedBy updated).template = target.template) :
    Apart dep free drained (modify name target.name (·.replacedBy updated) l) := by
  have hstill : ∀ f : String → Prop, Quiet f target → Quiet f (target.replacedBy updated) :=
    fun f hquiet => ⟨hsize, (refUid_replacedBy target updated).symm ▸ hquiet.2⟩
  have hmem := List.mem_of_mem_filter htarget
  rcases h with hnew | hold | hall
  · refine .inl (hnew.replace hdistinct hmem (fun ht => ?_) fun _ _ _ ht => ht)
    exact hstill free (hnew target htarget (htemplate.symm.trans ht))
  · refine .inr (.inl (hold.replace hdistinct hmem (fun ht => ?_) fun _ _ _ ht => ht))
    exact hstill free (hold target htarget fun heq => ht (htemplate.trans heq))
  · refine .inr (.inr (hall.replace hdistinct hmem (fun _ => ?_) fun _ _ _ ht => ht))
    exact hstill drained (hall target htarget trivial)

lemma template_specWith (replicas : Option Int) (rs : ReplicaSet) :
    (specWith replicas rs).template = rs.template := by
  unfold specWith ReplicaSetSpec.template template
  cases rs.spec with
  | none | some spec => rfl

/-- A plan of a Recreate scales down what is old, or makes one write. -/
lemma plannedRecreate_cases (managed : List ReplicaSet) (kind : TemplateChangeKind) :
    (∀ p ∈ plannedRecreate templateHash dep managed kind, Lowers p) ∨
      ∃ p, plannedRecreate templateHash dep managed kind = [p] := by
  have hnone : ∀ spec : ReplicaSet → ReplicaSetSpec, ∀ rs : Option ReplicaSet,
      (∀ p ∈ assign spec rs.toList, Lowers p) ∨ ∃ p, assign spec rs.toList = [p] := by
    intro spec rs
    cases rs with
    | none => exact .inl fun p hp => absurd hp List.not_mem_nil
    | some rs => exact .inr ⟨_, rfl⟩
  have hstop : ∀ (rs : Option ReplicaSet) (old : List ReplicaSet),
      (∀ p ∈ stopOrScale dep rs.toList old, Lowers p) ∨
        ∃ p, stopOrScale dep rs.toList old = [p] := by
    intro rs old
    unfold stopOrScale
    split
    · refine .inl fun p hp => ?_
      rw [Lowers, (fst_mem_of_mem_assign hp).2]
      exact ⟨rfl, template_specWith (some 0) p.1⟩
    · exact hnone _ rs
  cases kind with
  | inPlace | hotplug => exact hnone _ _
  | noChange => exact hstop _ _
  | requiresRotation =>
    simp only [plannedRecreate]
    split
    · exact .inl fun p hp => absurd hp List.not_mem_nil
    next rs hrs =>
      exact hstop (some rs) _

section

variable (h : Calm templateHash dep free drained l g)

include h

lemma Calm.replace {listed : List ReplicaSet}
    (hl : g.listed = some listed) {rs : ReplicaSet} {spec : ReplicaSetSpec}
    (hplan : (rs, spec) ∈ Plan templateHash dep g.runtimeClass listed)
    (hspec : updated.spec = some spec) (howners : updated.owners = rs.owners)
    (htarget : target ∈ l) (hname : target.name = rs.name) : Calm templateHash dep free drained
      (modify name target.name (·.replacedBy updated) l) g := by
  have hpledge := h.pledge listed hl
  have hmanaged := mem_of_mem_planned hplan
  have howned := hpledge.owned rs hmanaged target htarget hname
  have howned' : isOwnedByDeployment (target.replacedBy updated) dep = true := by
    rw [isOwnedByDeployment_congr ((owners_replacedBy target updated).trans howners)]
    exact (List.mem_filter.1 hmanaged).2
  have hsize := size_replacedBy target hspec
  have htemplate := template_replacedBy target hspec
  refine ⟨fun r hr => ?_, h.distinct.modify _ fun r => name_replacedBy r updated, ?_,
    fun listed' hl' => ?_⟩
  · rcases of_mem_replaced h.distinct htarget hr with rfl | ⟨hr, -⟩
    · rw [name_replacedBy]
      exact h.named target htarget
    · exact h.named r hr
  · rcases hpledge.safe with hlower | ⟨p, hp, hothers⟩
    · obtain ⟨⟨hzero, hkeep⟩, hlisted⟩ := hlower _ hplan
      refine h.apart.lower h.distinct (List.mem_filter.2 ⟨htarget, howned⟩) (hsize.trans hzero) ?_
      rw [htemplate, hkeep, hlisted target htarget hname]
    · obtain rfl : (rs, spec) = p := List.mem_singleton.1 (hp ▸ hplan)
      -- after a write with the others quiet, the versions are apart
      by_cases hside : spec.template = dep.template
      · refine .inr (.inl (AllQuiet.replace hothers h.distinct htarget ?_ fun r _ hne ht => ?_))
        · exact fun ht => absurd (htemplate.trans hside) ht
        · exact ⟨hname ▸ hne, fun heq => absurd heq ht, fun hneq => absurd hside hneq⟩
      · refine .inl (AllQuiet.replace hothers h.distinct htarget ?_ fun r _ hne ht => ?_)
        · exact fun ht => absurd (htemplate.symm.trans ht) hside
        · exact ⟨hname ▸ hne, fun _ => hside, fun _ => ht⟩
  · obtain rfl : listed = listed' := Option.some.inj (hl.symm.trans hl')
    refine ⟨hpledge.named, hpledge.distinct, fun cur hcur r hr hrname => ?_, ?_⟩
    · rcases of_mem_replaced h.distinct htarget hr with rfl | ⟨hr, -⟩
      · exact howned'
      · exact hpledge.owned cur hcur r hr hrname
    · rcases hpledge.safe with hlower | ⟨p, hp, hothers⟩
      · refine .inl fun p hp => ⟨(hlower p hp).1, fun r hr hrname => ?_⟩
        rcases of_mem_replaced h.distinct htarget hr with rfl | ⟨hr, -⟩
        · rw [name_replacedBy, hname] at hrname
          have hsame := hpledge.distinct.eq_of_key_eq (List.mem_of_mem_filter hmanaged)
            (List.mem_of_mem_filter (mem_of_mem_planned hp)) hrname
          rw [htemplate, (hlower _ hplan).1.2, hsame]
        · exact (hlower p hp).2 r hr hrname
      · obtain rfl : (rs, spec) = p := List.mem_singleton.1 (hp ▸ hplan)
        refine .inr ⟨_, hp, AllQuiet.replace hothers h.distinct htarget ?_ fun _ _ _ hp => hp⟩
        exact fun hr => absurd ((name_replacedBy target updated).trans hname) hr.1

lemma Calm.create (hrecreate : isRecreate dep = true)
    {listed : List ReplicaSet} (hl : g.listed = some listed)
    (hplan : Plan templateHash dep g.runtimeClass listed = []) {c : Choice} (hfree : free c.uid)
    (hdrained : drained c.uid) {built : ReplicaSet} {hash : String}
    (hbuilt : built = buildReplicasetWithReplicas dep hash
      (initialReplicas dep (managedReplicasets listed dep)))
    (hfresh : ∀ other ∈ l, other.name ≠ (built.created c).name) :
    Calm templateHash dep free drained (l ++ [built.created c]) { g with created := true } := by
  have hpledge := h.pledge listed hl
  have hsize : (built.created c).size = 0 := by
    subst hbuilt
    rw [initialReplicas, if_neg (by simp [hrecreate])]
    rfl
  have hquiet : ∀ {f : String → Prop} {side : ReplicaSet → Prop}, f c.uid →
      AllQuiet dep f side l → AllQuiet dep f side (l ++ [built.created c]) := by
    intro f side hf hall r hr hp
    obtain ⟨hr, howned⟩ := List.mem_filter.1 hr
    rcases List.mem_append.1 hr with hr | hr
    · exact hall r (List.mem_filter.2 ⟨hr, howned⟩) hp
    · rw [List.mem_singleton.1 hr]
      exact ⟨hsize, hf⟩
  refine ⟨fun r hr => ?_, h.distinct.append_singleton hfresh,
    h.apart.imp (hquiet hfree) (Or.imp (hquiet hfree) (hquiet hdrained)), fun listed' hl' => ?_⟩
  · rcases List.mem_append.1 hr with hr | hr
    · exact h.named r hr
    · rw [List.mem_singleton.1 hr, name_created, hbuilt]
      rfl
  · obtain rfl : listed = listed' := Option.some.inj (hl.symm.trans hl')
    refine ⟨hpledge.named, hpledge.distinct, fun cur hcur r hr hrname => ?_, .inl ?_⟩
    · rcases List.mem_append.1 hr with hr | hr
      · exact hpledge.owned cur hcur r hr hrname
      · rw [List.mem_singleton.1 hr, isOwnedByDeployment_congr (owners_created c built), hbuilt]
        exact isOwnedByDeployment_build dep hash _
    · intro p hp
      simp [hplan] at hp

lemma Calm.setCreated :
    Calm templateHash dep free drained l { g with created := true } :=
  ⟨h.named, h.distinct, h.apart, fun listed hl =>
    ⟨(h.pledge listed hl).named, (h.pledge listed hl).distinct, (h.pledge listed hl).owned,
      (h.pledge listed hl).safe⟩⟩

lemma Calm.restart :
    Calm templateHash dep free drained l {} :=
  ⟨h.named, h.distinct, h.apart, nofun⟩

lemma Calm.list (hrecreate : isRecreate dep = true)
    (hquiet : ∀ p ∈ Plan templateHash dep g.runtimeClass l, ¬ Lowers p → OthersQuiet dep free l p) :
    Calm templateHash dep free drained l { g with listed := some l } := by
  refine ⟨h.named, h.distinct, h.apart, fun listed hl => ?_⟩
  cases hl
  refine ⟨h.named, h.distinct, fun rs hrs rs' hrs' hname => ?_, ?_⟩
  · rw [h.distinct.eq_of_key_eq hrs' (List.mem_of_mem_filter hrs) hname]
    exact (List.mem_filter.1 hrs).2
  · have hlower : (∀ p ∈ Plan templateHash dep g.runtimeClass l, Lowers p) →
        Safe dep free l (Plan templateHash dep g.runtimeClass l) := by
      refine fun hall => .inl fun p hp => ⟨hall p hp, fun rs hrs hname => ?_⟩
      rw [h.distinct.eq_of_key_eq hrs (List.mem_of_mem_filter (mem_of_mem_planned hp)) hname]
    have hplan : Plan templateHash dep g.runtimeClass l = _ := if_pos hrecreate
    have hcases : (∀ p ∈ Plan templateHash dep g.runtimeClass l, Lowers p) ∨
        ∃ p, Plan templateHash dep g.runtimeClass l = [p] := by
      rw [hplan]
      exact plannedRecreate_cases _ _
    rcases hcases with hall | ⟨p, hp⟩
    · exact hlower hall
    by_cases hlowers : Lowers p
    · exact hlower (by rw [hp]; exact List.forall_mem_singleton.2 hlowers)
    · exact .inr ⟨p, hp, hquiet p (hp ▸ List.mem_singleton_self p) hlowers⟩

lemma Calm.delete (now : Time) (name : String) :
    Calm templateHash dep free drained (deleteNamed now name l) g := by
  refine h.of_from (h.distinct.filterMap fun rs rs' hrs => (of_deleteNamed hrs).name_eq)
    (fun rs' hrs' => ?_) (fun _ _ hquiet => hquiet.2) fun _ _ hquiet => hquiet.2
  obtain ⟨rs, hrs, hfrom⟩ := List.mem_filterMap.1 hrs'
  exact ⟨rs, hrs, of_deleteNamed hfrom⟩

end

lemma Calm.exec {w : Cluster} (h : Calm templateHash dep free drained w.replicaSets g)
    (hrecreate : isRecreate dep = true) {c : Choice} {op : ClusterOp}
    (hallowed : (deploymentProtocol templateHash dep).allowed g op)
    (hlist : op = .listReplicaSets → c.fate = .served →
      ∀ p ∈ Plan templateHash dep g.runtimeClass w.replicaSets, ¬ Lowers p →
        OthersQuiet dep free w.replicaSets p)
    (hcreate : ∀ rs, op = .createReplicaSet rs → free c.uid ∧ drained c.uid) :
    Calm templateHash dep free drained (Cluster.exec rules w c op).1.replicaSets
      ((deploymentProtocol templateHash dep).observe g op (Cluster.exec rules w c op).2) := by
  refine exec_deployment (p := fun w' => Calm templateHash dep free drained w'.replicaSets)
    hallowed h
    (fun hnone rc => ⟨h.named, h.distinct, h.apart,
      fun l hl => absurd (hnone.symm.trans hl) (by simp)⟩)
    (fun hop hfate => h.list hrecreate (hlist hop hfate)) h.setCreated
    (fun l rs w' hop hl hmay hw' => ?_) (fun l name rs w' hop hl hmay hw' => ?_)
    fun name w' _ hw' => ?_
  · subst hop
    cases hmay with
    | create hnew hkind habsent =>
      obtain ⟨hfresh, rfl⟩ := of_createReplicaSet hw'
      obtain ⟨hfree, hdrained⟩ := hcreate _ rfl
      exact h.create hrecreate hl (plan_eq_nil hkind habsent) hfree hdrained rfl hfresh
  · subst hop
    cases hmay with
    | replace rs _ spec hplan hspec howners =>
      have hnamed := (h.pledge l hl).named rs (List.mem_of_mem_filter (mem_of_mem_planned hplan))
      obtain ⟨target, htarget, hname, rfl⟩ := of_updateReplicaSet hnamed hw'
      exact h.replace hl hplan hspec howners htarget hname
  · obtain rfl := of_deleteReplicaSet hw'
    exact h.delete c.now name

end Step

end Tugboat.Workload
