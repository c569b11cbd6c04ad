import Tugboat.ControllerManager.RecreateMoves
import Tugboat.ControllerManager.ShipOwnership
import Tugboat.Lib.Composition
import Tugboat.Lib.Concurrent

/-!
# A Recreate does not overlap versions

`Recreation.step` runs reconciles of a Deployment, one at a time, and any number of reconciles of
ReplicaSets, each with the version of the ReplicaSet that its event carries.  The Ships of the
ReplicaSets with the template of the Deployment and of those with another do not overlap, if the run
is `InOrder`: what the Deployment controller takes for gone is gone.  A report is no proof of that:
while it is right, another reconcile may be about to make Ships.

A Ship belongs to the ReplicaSet in its last owner reference (`Ship.maker`), which is the one that
`buildShip` adds.
-/

namespace Tugboat.Workload

open Program Keyed Cluster

/-! ## The system -/

def Ship.maker (ship : Ship) : Option String :=
  (ship.owners.getLast?.filter (·.kind = "ReplicaSet")).map (·.uid)

/-- What tells Ships apart. -/
def Ship.identity (ship : Ship) : Option String × Option String := (ship.name, uidOf ship)

/-- A cluster, the reconcile of the Deployment, and `n` reconciles of ReplicaSets. -/
abbrev Recreation (n : ℕ) : Type :=
  Config ClusterOp.interface (Option (Fin n)) Cluster (Seen ⊕ ReplicaSetEvent)
    (Except ControllerError Action)

namespace Recreation

/-- What happens: reconciles begin and make their requests, and Ships go away. -/
inductive Event (n : ℕ)
  | start (status : Option DeploymentStatus)
  | request (choice : Choice)
  | startReplicaset (k : Fin n) (event : ReplicaSetEvent)
  | requestReplicaset (k : Fin n) (choice : Choice)
  | shipGone (name : String)
  deriving DecidableEq, Repr

variable {n : ℕ}

/-- No reconcile is under way. -/
def idle (n : ℕ) (w : Cluster) : Recreation n where
  world := w
  thread _ := .done (.ok .awaitChange)
  seen
    | none => .inl {}
    | some _ => .inr (.deleted {})

variable (templateHash : ShipTemplateSpec → String) (rules : ShipRules) (dep : Deployment)

abbrev protocol : Protocol ClusterOp.interface (Seen ⊕ ReplicaSetEvent) :=
  (deploymentProtocol templateHash dep).either replicasetProtocol

/-- The step function.  The reconciles of a ReplicaSet carry any version of it. -/
def step (c : Recreation n) : Event n → Recreation n
  | .start status =>
    c.start none (reconcileDeployment templateHash { dep with status }).run (.inl {})
  | .startReplicaset k event => c.start (some k) event.reconcile.run (.inr event)
  | .request choice =>
    Config.step (Cluster.exec rules) (fun w (_ : Empty) => w) (protocol templateHash dep)
      c (.call none choice)
  | .requestReplicaset k choice =>
    Config.step (Cluster.exec rules) (fun w (_ : Empty) => w) (protocol templateHash dep)
      c (.call (some k) choice)
  | .shipGone name =>
    let ships := c.world.ships.filter (·.name ≠ some name)
    { c with world := { c.world with ships } }

/-- The reconcile is under way and wants Ships of the ReplicaSet. -/
def wants (c : Recreation n) (k : Fin n) (uid : String) : Bool :=
  (c.thread (some k)).running &&
    match c.seen (some k) with
    | .inl _ => false
    | .inr event => event.replicaset.refUid = uid && 0 < event.wanted

/-- The ReplicaSet has Ships, or a reconcile that wants some is under way. -/
def Active (c : Recreation n) (uid : String) : Prop :=
  (∃ ship ∈ c.world.ships, ship.maker = some uid) ∨ ∃ k, c.wants k uid = true
  deriving Decidable

/-- The ReplicaSet has only Ships that were there at first, and no reconcile wants more. -/
def Drained (origin : List Ship) (c : Recreation n) (uid : String) : Prop :=
  (∀ ship ∈ c.world.ships, ship.maker = some uid → ship.identity ∈ origin.map (·.identity)) ∧
    ∀ k, c.wants k uid = false

/-- The next request of the Deployment controller. -/
def asks (c : Recreation n) (p : ClusterOp → Bool) : Bool :=
  match c.thread none with
  | .done _ => false
  | .call op _ => p op

def plan (c : Recreation n) : List (ReplicaSet × ReplicaSetSpec) :=
  match c.seen none with
  | .inl g => Plan templateHash dep g.runtimeClass c.world.replicaSets
  | .inr _ => []

/-- When the ReplicaSets are listed to scale one up or to change its template, the others with
another template have neither Ships nor reconciles that want some; nor has a ReplicaSet that is
deleted; identifiers are new; and a reconcile that wants Ships begins only while the ReplicaSet
still does. -/
def InOrder (c : Recreation n) : Event n → Prop
  | .request choice =>
    (c.asks (· = .listReplicaSets) = true → choice.fate = .served →
      ∀ p ∈ c.plan templateHash dep, ¬ Lowers p →
        OthersQuiet dep (fun uid => ¬ c.Active uid) c.world.replicaSets p) ∧
    (c.asks (fun op => op matches .createReplicaSet _) = true → ¬ c.Active choice.uid) ∧
    ∀ rs ∈ c.world.replicaSets, c.asks (· = .deleteReplicaSet (rs.name.getD "")) = true →
      ¬ c.Active rs.refUid
  | .startReplicaset _ event => 0 < event.wanted →
      (∃ rs ∈ c.world.replicaSets, rs.refUid = event.replicaset.refUid) ∧
      ∀ rs ∈ c.world.replicaSets, rs.refUid = event.replicaset.refUid → 0 < rs.size
  | .start _ | .requestReplicaset _ _ | .shipGone _ => True

instance (c : Recreation n) : (e : Event n) → Decidable (InOrder templateHash dep c e)
  | .request _ => inferInstanceAs (Decidable ((_ → _ → _) ∧ (_ → _) ∧ ∀ rs ∈ _, _ → _))
  | .startReplicaset _ _ => inferInstanceAs (Decidable (_ → _ ∧ _))
  | .start _ | .requestReplicaset _ _ | .shipGone _ => inferInstanceAs (Decidable True)

/-! ## What the steps do to the Ships -/

/-- Nothing has become active: each Ship was there before, or a reconcile wanted it. -/
structure NoMore (c c' : Recreation n) : Prop where
  ships : ∀ ship' ∈ c'.world.ships,
    (∃ ship ∈ c.world.ships, ship'.maker = ship.maker ∧ ship'.identity = ship.identity) ∨
      ∃ k uid, ship'.maker = some uid ∧ c.wants k uid = true
  wants : ∀ k uid, c'.wants k uid = true → c.wants k uid = true

variable {c c' : Recreation n} {uid : String}

lemma NoMore.active (h : NoMore c c') (hactive : c'.Active uid) : c.Active uid := by
  rcases hactive with ⟨ship', hship', hmaker⟩ | ⟨k, hk⟩
  · rcases h.ships ship' hship' with ⟨ship, hship, heq, -⟩ | ⟨k, uid', hmaker', hk⟩
    · exact .inl ⟨ship, hship, heq.symm.trans hmaker⟩
    · obtain rfl : uid = uid' := Option.some.inj (hmaker.symm.trans hmaker')
      exact .inr ⟨k, hk⟩
  · exact .inr ⟨k, h.wants k uid hk⟩

lemma NoMore.drained (h : NoMore c c') {origin : List Ship} (hdrained : Drained origin c uid) :
    Drained origin c' uid := by
  refine ⟨fun ship' hship' hmaker => ?_, fun k => ?_⟩
  · rcases h.ships ship' hship' with ⟨ship, hship, heq, hid⟩ | ⟨k, uid', hmaker', hk⟩
    · rw [hid]
      exact hdrained.1 ship hship (heq.symm.trans hmaker)
    · obtain rfl : uid = uid' := Option.some.inj (hmaker.symm.trans hmaker')
      exact absurd hk (by simp [hdrained.2 k])
  · cases hk : c'.wants k uid with
    | false => rfl
    | true => exact absurd (h.wants k uid hk) (by simp [hdrained.2 k])

lemma drained_of_not_active {origin : List Ship} (h : ¬ c.Active uid) : Drained origin c uid := by
  refine ⟨fun ship hship hmaker => absurd (.inl ⟨ship, hship, hmaker⟩) h, fun k => ?_⟩
  cases hk : c.wants k uid with
  | false => rfl
  | true => exact absurd (.inr ⟨k, hk⟩) h

end Recreation

section Ships

variable {templateHash : ShipTemplateSpec → String} {dep : Deployment} {rules : ShipRules}
  {w : Cluster} {c : Choice} {op : ClusterOp}

lemma maker_buildShip (rs : ReplicaSet) (template : ShipTemplateSpec) (suffix : String) :
    (buildShip rs template suffix).maker = some rs.refUid := by
  simp only [Ship.maker, Ship.owners, buildShip, Option.map_some, Option.getD_some,
    List.getLast?_concat]
  rfl

lemma maker_created (ship : Ship) : (ship.created rules c).maker = ship.maker := by
  unfold Ship.created Ship.maker Ship.owners
  cases ship.objectMeta with
  | none | some m => rfl

lemma maker_markForDeletion (now : Time) (ship : Ship) :
    (Resource.markForDeletion now ship).maker = ship.maker := by
  obtain ⟨d, hd⟩ := Resource.exists_objectMeta_markForDeletion now ship
  have hmeta : (Resource.markForDeletion now ship).objectMeta =
      some { ship.objectMeta.getD {} with deletionTimestamp := d } := hd
  have howners : (Resource.markForDeletion now ship).owners = ship.owners := by
    rw [Ship.owners, hmeta, Ship.owners]
    cases ship.objectMeta with
    | none | some m => rfl
  rw [Ship.maker, howners, Ship.maker]

lemma ships_exec_deployment {g : Seen}
    (hallowed : (deploymentProtocol templateHash dep).allowed g op) :
    (exec rules w c op).1.ships = w.ships := by
  refine exec_deployment (p := fun w' _ => w'.ships = w.ships) hallowed rfl (fun _ _ => rfl)
    (fun _ _ => rfl) rfl (fun _ _ w' _ _ _ hw' => ?_) (fun _ _ _ w' _ _ _ hw' => ?_)
    fun _ w' _ hw' => ?_
  · rw [(of_createReplicaSet hw').2]
  · unfold updateReplicaSet at hw'
    split at hw'
    · rw [← Except.ok.inj hw']
    · cases hw'
  · rw [of_deleteReplicaSet hw']

/-- The Ship was there before, or has been made by the ReplicaSet, which wants Ships. -/
def MadeFrom (w : Cluster) (event : ReplicaSetEvent) (ship' : Ship) : Prop :=
  (∃ ship ∈ w.ships, ship'.maker = ship.maker ∧ ship'.identity = ship.identity) ∨
    (0 < event.wanted ∧ ship'.maker = some event.replicaset.refUid)

/-- **One request of a ReplicaSet.**  It has its effect or none. -/
lemma exec_replicaset {p : Cluster → Prop} {event : ReplicaSetEvent}
    (hallowed : replicasetProtocol.allowed event op) (h : p w)
    (hcreate : ∀ ship, replicasetProtocol.allowed event (.createShip ship) →
      p { w with ships := w.ships ++ [ship.created rules c] })
    (hupdate : ∀ name, ∀ f : Option ShipSpec → Option ShipSpec, p { w with
      ships := modify Ship.name (some name) (fun s => { s with spec := f s.spec }) w.ships })
    (hdelete : ∀ name, p { w with ships := deleteNamed c.now name w.ships })
    (hstatus : ∀ name status, p { w with
      replicaSets := modify ReplicaSet.name (some name) ({ · with status }) w.replicaSets }) :
    p (exec rules w c op).1 := by
  refine exec_of h (fun _ hwrites => ?_) hstatus (fun ship hop => hcreate ship (hop ▸ hallowed))
    (fun name f _ => hupdate name f) fun name _ => hdelete name
  cases op with
  | createReplicaSet | replaceReplicaSet | deleteReplicaSet => exact hallowed.elim
  | _ => cases hwrites

lemma madeFrom_exec {event : ReplicaSetEvent} (hallowed : replicasetProtocol.allowed event op) :
    ∀ ship' ∈ (exec rules w c op).1.ships, MadeFrom w event ship' := by
  have hsame : ∀ ship' ∈ w.ships, MadeFrom w event ship' := fun ship' h =>
    .inl ⟨ship', h, rfl, rfl⟩
  refine exec_replicaset (p := fun w' => ∀ ship' ∈ w'.ships, MadeFrom w event ship') hallowed
    hsame ?_ ?_ ?_ fun _ _ => hsame
  · rintro ship ⟨hwanted, suffix, rfl⟩
    exact List.forall_mem_append.2 ⟨hsame, List.forall_mem_singleton.2
      (.inr ⟨hwanted, (maker_created _).trans (maker_buildShip _ _ _)⟩)⟩
  · exact fun name f => forall_mem_modify hsame fun ship hship => .inl ⟨ship, hship, rfl, rfl⟩
  intro name ship' hship'
  obtain ⟨ship, hship, hfrom⟩ := List.mem_filterMap.1 hship'
  rcases eq_or_marked hfrom with rfl | rfl
  · exact hsame ship' hship
  · exact .inl ⟨ship, hship, maker_markForDeletion c.now ship,
      Prod.ext (Resource.name_markForDeletion c.now ship) (uidOf_markForDeletion c.now ship)⟩

lemma stored_exec_deployment {g : Seen}
    (hallowed : (deploymentProtocol templateHash dep).allowed g op)
    {rs : ReplicaSet} (hrs : rs ∈ w.replicaSets)
    (hkept : ∀ name, op = .deleteReplicaSet name → rs.name ≠ some name) :
    ∃ rs' ∈ (exec rules w c op).1.replicaSets, rs'.refUid = rs.refUid := by
  have hsame : ∃ rs' ∈ w.replicaSets, rs'.refUid = rs.refUid := ⟨rs, hrs, rfl⟩
  refine exec_deployment (p := fun w' _ => ∃ rs' ∈ w'.replicaSets, rs'.refUid = rs.refUid) hallowed
    hsame (fun _ _ => hsame) (fun _ _ => hsame) hsame (fun _ new w' _ _ _ hw' => ?_)
    (fun _ name updated w' _ _ _ hw' => ?_) fun name w' hop hw' => ?_
  · rw [(of_createReplicaSet hw').2]
    exact ⟨rs, List.mem_append_left _ hrs, rfl⟩
  · unfold updateReplicaSet at hw'
    split at hw'
    · rw [← Except.ok.inj hw']
      refine ⟨_, List.mem_map_of_mem hrs, ?_⟩
      split
      · exact refUid_replacedBy rs updated
      · rfl
    · cases hw'
  · rw [of_deleteReplicaSet hw']
    exact ⟨rs, List.mem_filterMap.2 ⟨rs, hrs, if_pos (hkept name hop)⟩, rfl⟩

end Ships

/-! ## Every run -/

namespace Recreation

variable {n : ℕ} (templateHash : ShipTemplateSpec → String) (rules : ShipRules) (dep : Deployment)
  (origin : List Ship)

/-- The invariant. -/
structure Sound (c : Recreation n) : Prop where
  keeps : c.Keeps (protocol templateHash dep) fun _ _ => True
  calm : ∃ g, c.seen none = .inl g ∧ Calm templateHash dep (fun uid => ¬ c.Active uid)
    (Drained origin c) c.world.replicaSets g
  sides : ∀ k, ∃ g, c.seen (some k) = .inr g
  stored : ∀ uid, c.Active uid → ∃ rs ∈ c.world.replicaSets, rs.refUid = uid

variable {templateHash rules dep origin} {c c' : Recreation n} {uid : String}

lemma wants_congr {k : Fin n} (hthread : c'.thread (some k) = c.thread (some k))
    (hseen : c'.seen (some k) = c.seen (some k)) : c'.wants k uid = c.wants k uid := by
  rw [wants, hthread, hseen, wants]

/-- The invariant is kept by a step after which nothing has become active. -/
lemma Sound.of_noMore (h : c.Sound templateHash dep origin) (hmore : NoMore c c')
    (hkeeps : c'.Keeps (protocol templateHash dep) fun _ _ => True)
    (hcalm : ∃ g, c'.seen none = .inl g ∧ Calm templateHash dep (fun uid => ¬ c.Active uid)
      (Drained origin c) c'.world.replicaSets g)
    (hsides : ∀ k, ∃ g, c'.seen (some k) = .inr g)
    (hstored : ∀ rs ∈ c.world.replicaSets, c.Active rs.refUid →
      ∃ rs' ∈ c'.world.replicaSets, rs'.refUid = rs.refUid) : c'.Sound templateHash dep origin := by
  obtain ⟨g, hg, hcalm⟩ := hcalm
  refine ⟨hkeeps, ⟨g, hg, ?_⟩, hsides, fun uid hactive => ?_⟩
  · refine hcalm.of_from hcalm.distinct (fun rs hrs => ⟨rs, hrs, .refl rs⟩) ?_ ?_
    · exact fun rs _ hquiet hactive => hquiet.2 (hmore.active hactive)
    · exact fun rs _ hquiet => hmore.drained hquiet.2
  · obtain ⟨rs, hrs, rfl⟩ := h.stored uid (hmore.active hactive)
    exact hstored rs hrs (hmore.active hactive)

lemma keeps_call (h : c.Keeps (protocol templateHash dep) fun _ _ => True) (k : Option (Fin n))
    (choice : Choice) :
    (Config.step (exec rules) (fun w (_ : Empty) => w) (protocol templateHash dep)
      c (.call k choice)).Keeps (protocol templateHash dep) fun _ _ => True := by
  refine Config.Keeps.step h _ (fun k' choice' op next _ _ _ => ⟨?_, trivial, fun _ _ => trivial⟩)
    fun x _ => x.elim
  cases c.seen k' with
  | inl g | inr g => trivial

section

variable (h : c.Sound templateHash dep origin)

include h

lemma Sound.request (hrecreate : isRecreate dep = true)
    {choice : Choice} (horder : c.InOrder templateHash dep (.request choice)) :
    (c.step templateHash rules dep (.request choice)).Sound templateHash dep origin := by
  have hkeeps : (c.step templateHash rules dep (.request choice)).Keeps (protocol templateHash dep)
      fun _ _ => True := keeps_call h.keeps none choice
  cases hk : c.thread none with
  | done a =>
    rw [step, Config.step_call_of_done choice hk]
    exact h
  | call op next =>
    obtain ⟨g, hg, hcalm⟩ := h.calm
    have hallowed : (deploymentProtocol templateHash dep).allowed g op := by
      have hall := h.keeps.allowed hk
      rw [hg] at hall
      exact hall
    have hasks : ∀ p : ClusterOp → Bool, c.asks p = p op := fun p => by rw [asks, hk]
    have hplan : c.plan templateHash dep = Plan templateHash dep g.runtimeClass
        c.world.replicaSets := by rw [plan, hg]
    obtain ⟨hlist, hcreate, hdelete⟩ := horder
    rw [step, Config.step_call_of_call choice hk] at hkeeps ⊢
    refine h.of_noMore ⟨fun ship' hship' => ?_, fun k uid hwants => ?_⟩ hkeeps
      ⟨(deploymentProtocol templateHash dep).observe g op
        (exec rules c.world choice op).2, ?_, ?_⟩
      (fun k => ?_) fun rs hrs hactive => ?_
    · exact .inl ⟨ship', ships_exec_deployment hallowed ▸ hship', rfl, rfl⟩
    · exact (wants_congr (Config.advance_thread_of_ne (Option.some_ne_none k))
        (Config.advance_seen_of_ne (Option.some_ne_none k))).symm.trans hwants
    · rw [Config.advance_seen_self, hg]
      rfl
    · refine hcalm.exec hrecreate hallowed (fun hop hfate => ?_) fun rs hop => ?_
      · rw [← hplan]
        exact hlist (by rw [hasks, hop]; rfl) hfate
      · have hfree := hcreate (by rw [hasks, hop])
        exact ⟨hfree, drained_of_not_active hfree⟩
    · rw [Config.advance_seen_of_ne (Option.some_ne_none k)]
      exact h.sides k
    · refine stored_exec_deployment hallowed hrs fun name hop hname => ?_
      refine hdelete rs hrs ?_ hactive
      rw [hasks, hop, hname]
      exact decide_eq_true rfl

lemma Sound.requestReplicaset (k : Fin n) (choice : Choice) :
    (c.step templateHash rules dep (.requestReplicaset k choice)).Sound templateHash dep
      origin := by
  have hkeeps : (c.step templateHash rules dep (.requestReplicaset k choice)).Keeps
      (protocol templateHash dep) fun _ _ => True := keeps_call h.keeps (some k) choice
  cases hk : c.thread (some k) with
  | done a =>
    rw [step, Config.step_call_of_done choice hk]
    exact h
  | call op next =>
    obtain ⟨event, hg⟩ := h.sides k
    have hallowed : replicasetProtocol.allowed event op := by
      have hall := h.keeps.allowed hk
      rw [hg] at hall
      exact hall
    obtain ⟨f, hsame, hmap⟩ : ∃ f : ReplicaSet → ReplicaSet, (∀ rs, SameSpec (f rs) rs) ∧
        (exec rules c.world choice op).1.replicaSets = c.world.replicaSets.map f := by
      have hsame : ∃ f : ReplicaSet → ReplicaSet, (∀ rs, SameSpec (f rs) rs) ∧
          c.world.replicaSets = c.world.replicaSets.map f :=
        ⟨id, SameSpec.refl, (List.map_id _).symm⟩
      refine exec_replicaset (p := fun w' => ∃ f : ReplicaSet → ReplicaSet,
          (∀ rs, SameSpec (f rs) rs) ∧ w'.replicaSets = c.world.replicaSets.map f) hallowed hsame
        (fun _ _ => hsame) (fun _ _ => hsame) (fun _ => hsame)
        fun name status => ⟨_, fun r => ?_, rfl⟩
      split
      · exact ⟨rfl, rfl, rfl, rfl⟩
      · exact SameSpec.refl r
    obtain ⟨gd, hgd, hcalm⟩ := h.calm
    rw [step, Config.step_call_of_call choice hk] at hkeeps ⊢
    have hwants : ∀ uid, event.replicaset.refUid = uid → 0 < event.wanted →
        c.wants k uid = true := by
      intro uid huid hwanted
      simp only [wants, hk, hg, running, huid, hwanted, decide_true, Bool.and_true]
    refine h.of_noMore ⟨fun ship' hship' => ?_, fun j uid hj => ?_⟩ hkeeps ⟨gd, ?_, ?_⟩
      (fun j => ?_) fun rs hrs _ => ?_
    · exact (madeFrom_exec hallowed ship' hship').imp id fun ⟨hwanted, hmaker⟩ =>
        ⟨k, _, hmaker, hwants _ rfl hwanted⟩
    · by_cases hjk : j = k
      · subst hjk
        simp only [wants, Config.advance_seen_self, hg, Protocol.either, Bool.and_eq_true,
          decide_eq_true_eq] at hj
        exact hwants uid hj.2.1 hj.2.2
      · have hne : some j ≠ some k := fun heq => hjk (Option.some.inj heq)
        exact (wants_congr (Config.advance_thread_of_ne hne)
          (Config.advance_seen_of_ne hne)).symm.trans hj
    · rw [Config.advance_seen_of_ne (Option.some_ne_none k).symm]
      exact hgd
    · show Calm _ _ _ _ (exec rules c.world choice op).1.replicaSets gd
      rw [hmap]
      refine hcalm.of_from ?_ (fun rs' hrs' => ?_) (fun _ _ hquiet => hquiet.2)
        fun _ _ hquiet => hquiet.2
      · rw [Distinct, List.map_map]
        have hname : (ReplicaSet.name ∘ f) = ReplicaSet.name := funext fun rs => (hsame rs).name_eq
        rw [hname]
        exact hcalm.distinct
      · obtain ⟨rs, hrs, rfl⟩ := List.mem_map.1 hrs'
        exact ⟨rs, hrs, hsame rs⟩
    · by_cases hjk : j = k
      · subst hjk
        rw [Config.advance_seen_self, hg]
        exact ⟨_, rfl⟩
      · rw [Config.advance_seen_of_ne fun heq => hjk (Option.some.inj heq)]
        exact h.sides j
    · refine ⟨f rs, ?_, (hsame rs).refUid_eq⟩
      show f rs ∈ (exec rules c.world choice op).1.replicaSets
      rw [hmap]
      exact List.mem_map_of_mem hrs

lemma Sound.start (status : Option DeploymentStatus) :
    (c.step templateHash rules dep (.start status)).Sound templateHash dep origin := by
  have hkeeps : (c.step templateHash rules dep (.start status)).Keeps
      (protocol templateHash dep) fun _ _ => True :=
    h.keeps.start none trivial ((wp_either_inl _ _).2 (wp_reconcileDeployment_withStatus status))
  cases hk : c.thread none with
  | call op next =>
    rw [step, Config.start_of_call _ _ hk]
    exact h
  | done a =>
    obtain ⟨g, hg, hcalm⟩ := h.calm
    rw [step] at hkeeps ⊢
    refine h.of_noMore ⟨fun ship hship => ?_, fun k uid hwants => ?_⟩ hkeeps
      ⟨{}, Config.start_seen_self hk, ?_⟩ (fun k => ?_) fun rs hrs _ => ?_
    · rw [Config.start_world] at hship
      exact .inl ⟨ship, hship, rfl, rfl⟩
    · exact (wants_congr (Config.start_thread_of_ne (Option.some_ne_none k))
        (Config.start_seen_of_ne (Option.some_ne_none k))).symm.trans hwants
    · rw [Config.start_world]
      exact hcalm.restart
    · rw [Config.start_seen_of_ne (Option.some_ne_none k)]
      exact h.sides k
    · rw [Config.start_world]
      exact ⟨rs, hrs, rfl⟩

lemma Sound.shipGone (name : String) :
    (c.step templateHash rules dep (.shipGone name)).Sound templateHash dep origin := by
  refine h.of_noMore ⟨fun ship hship => ?_, fun _ _ hwants => hwants⟩
    (fun k => ⟨trivial, (h.keeps k).2⟩) h.calm h.sides fun rs hrs _ => ⟨rs, hrs, rfl⟩
  exact .inl ⟨ship, List.mem_of_mem_filter hship, rfl, rfl⟩

lemma Sound.startReplicaset {k : Fin n}
    {event : ReplicaSetEvent} (horder : c.InOrder templateHash dep (.startReplicaset k event)) :
    (c.step templateHash rules dep (.startReplicaset k event)).Sound templateHash dep origin := by
  have hkeeps : (c.step templateHash rules dep (.startReplicaset k event)).Keeps
      (protocol templateHash dep) fun _ _ => True :=
    h.keeps.start (some k) trivial ((wp_either_inr _ _).2 (wp_reconcile event))
  cases hk : c.thread (some k) with
  | call op next =>
    rw [step, Config.start_of_call _ _ hk]
    exact h
  | done a =>
    obtain ⟨g, hg, hcalm⟩ := h.calm
    obtain ⟨c', hnew⟩ : ∃ c' : Recreation n, c' = c.start (some k) event.reconcile.run
      (.inr event) := ⟨_, rfl⟩
    rw [step, ← hnew] at hkeeps ⊢
    have hworld : c'.world = c.world := hnew ▸ Config.start_world
    have hseen : c'.seen (some k) = .inr event := hnew ▸ Config.start_seen_self hk
    -- only the new reconcile can want more
    have hwants : ∀ j uid, c'.wants j uid = true → c.wants j uid = true ∨
        (event.replicaset.refUid = uid ∧ 0 < event.wanted) := by
      intro j uid hj
      by_cases hjk : j = k
      · subst hjk
        simp only [wants, hseen, Bool.and_eq_true, decide_eq_true_eq] at hj
        exact .inr hj.2
      · have hne : some j ≠ some k := fun heq => hjk (Option.some.inj heq)
        exact .inl ((wants_congr (hnew ▸ Config.start_thread_of_ne hne)
          (hnew ▸ Config.start_seen_of_ne hne)).symm.trans hj)
    -- and what it wants is not quiet
    have hasked : ∀ {f : String → Prop}, ∀ rs ∈ c.world.replicaSets, Quiet f rs →
        ¬ (event.replicaset.refUid = rs.refUid ∧ 0 < event.wanted) := by
      intro f rs hrs hquiet ⟨huid, hwanted⟩
      have hpos := (horder hwanted).2 rs hrs huid.symm
      have hzero := hquiet.1
      omega
    have hactive : ∀ uid, c'.Active uid → c.Active uid ∨
        (event.replicaset.refUid = uid ∧ 0 < event.wanted) := by
      rintro uid (⟨ship, hship, hmaker⟩ | ⟨j, hj⟩)
      · exact .inl (.inl ⟨ship, hworld ▸ hship, hmaker⟩)
      · exact (hwants j uid hj).imp (fun hj => .inr ⟨j, hj⟩) id
    refine ⟨hkeeps, ⟨g, ?_, ?_⟩, fun j => ?_, fun uid huid => ?_⟩
    · rw [hnew, Config.start_seen_of_ne (Option.some_ne_none k).symm]
      exact hg
    · rw [hworld]
      refine hcalm.of_from hcalm.distinct (fun rs hrs => ⟨rs, hrs, .refl rs⟩) ?_ ?_
      · exact fun rs hrs hquiet ha => (hactive _ ha).elim hquiet.2 (hasked rs hrs hquiet)
      refine fun rs hrs hquiet => ⟨fun ship hship => hquiet.2.1 ship (hworld ▸ hship), fun j => ?_⟩
      refine Bool.eq_false_iff.2 fun hj =>
        (hwants j _ hj).elim (fun hj => ?_) (hasked rs hrs hquiet)
      exact absurd hj (by simp [hquiet.2.2 j])
    · by_cases hjk : j = k
      · exact ⟨_, hjk ▸ hseen⟩
      · rw [hnew, Config.start_seen_of_ne fun heq => hjk (Option.some.inj heq)]
        exact h.sides j
    · rw [hworld]
      rcases hactive uid huid with huid | ⟨huid, hwanted⟩
      · exact h.stored uid huid
      · obtain ⟨rs, hrs, hrsuid⟩ := (horder hwanted).1
        exact ⟨rs, hrs, hrsuid.trans huid⟩

lemma Sound.step (hrecreate : isRecreate dep = true)
    {e : Event n} (horder : c.InOrder templateHash dep e) :
    (c.step templateHash rules dep e).Sound templateHash dep origin := by
  cases e with
  | start status => exact h.start status
  | request choice => exact h.request hrecreate horder
  | startReplicaset k event => exact h.startReplicaset horder
  | requestReplicaset k choice => exact h.requestReplicaset k choice
  | shipGone name => exact h.shipGone name

end

/-- Every Ship of a ReplicaSet has that ReplicaSet, and if Ships of a ReplicaSet with the template
of the Deployment and of one with another template exist at the same time, then both were there at
first. -/
def KeptApart (dep : Deployment) (origin : List Ship) (w : Cluster) : Prop :=
  (∀ ship ∈ w.ships, ∀ uid ∈ ship.maker, ∃ rs ∈ w.replicaSets, rs.refUid = uid) ∧
    ∀ rs ∈ managedReplicasets w.replicaSets dep, rs.template = dep.template →
    ∀ rs' ∈ managedReplicasets w.replicaSets dep, rs'.template ≠ dep.template →
    ∀ ship ∈ w.ships, ship.maker = some rs.refUid →
    ∀ ship' ∈ w.ships, ship'.maker = some rs'.refUid →
      ship.identity ∈ origin.map (·.identity) ∧ ship'.identity ∈ origin.map (·.identity)
  deriving Decidable

lemma Sound.keptApart (h : c.Sound templateHash dep origin) : KeptApart dep origin c.world := by
  obtain ⟨g, -, hcalm⟩ := h.calm
  refine ⟨fun ship hship uid huid => h.stored uid (.inl ⟨ship, hship, huid⟩), ?_⟩
  intro rs hrs ht rs' hrs' ht' ship hship hmaker ship' hship' hmaker'
  rcases hcalm.apart with hnew | hold | hall
  · exact absurd (.inl ⟨ship, hship, hmaker⟩) (hnew rs hrs ht).2
  · exact absurd (.inl ⟨ship', hship', hmaker'⟩) (hold rs' hrs' ht').2
  · exact ⟨(hall rs hrs trivial).2.1 ship hship hmaker,
      (hall rs' hrs' trivial).2.1 ship' hship' hmaker'⟩

end Recreation

open Recreation

variable {n : ℕ} {templateHash : ShipTemplateSpec → String} {rules : ShipRules} {dep : Deployment}

/-- **A Recreate does not overlap versions**, as long as the ReplicaSets with another template have
no Ships and want none whenever one is scaled up. -/
theorem recreate_keeps_versions_apart (w : Cluster) (es : List (Recreation.Event n))
    (hrecreate : isRecreate dep = true) (hnamed : ∀ rs ∈ w.replicaSets, rs.name.isSome)
    (hdistinct : Distinct ReplicaSet.name w.replicaSets)
    (hstored : ∀ ship ∈ w.ships, ∀ uid ∈ ship.maker, ∃ rs ∈ w.replicaSets, rs.refUid = uid)
    (hapart : Apart dep (fun uid => ∀ ship ∈ w.ships, ship.maker ≠ some uid) (fun _ => True)
      w.replicaSets)
    (horder : Run.AllSteps (Recreation.step templateHash rules dep)
      (Recreation.InOrder templateHash dep) (Recreation.idle n w) es) :
    Run.AllStates (Recreation.step templateHash rules dep)
      (fun c => KeptApart dep w.ships c.world) (Recreation.idle n w) es := by
  have hwants : ∀ k uid, (idle n w).wants k uid = false := fun _ _ => rfl
  have hactive : ∀ uid, (∀ ship ∈ w.ships, ship.maker ≠ some uid) →
      ¬ (idle n w).Active uid := by
    rintro uid hnone (⟨ship, hship, hmaker⟩ | ⟨k, hk⟩)
    · exact hnone ship hship hmaker
    · exact absurd hk (by simp [hwants])
  refine Run.AllStates.of_invariant (fun c e hc he => Sound.step hc hrecreate he)
    (fun c hc => hc.keptApart) (idle n w) es
    ⟨fun k => ⟨trivial, trivial⟩, ⟨{}, rfl, hnamed, hdistinct, ?_, nofun⟩,
      fun k => ⟨_, rfl⟩, ?_⟩ horder
  · refine hapart.imp ?_ (Or.imp ?_ ?_)
    · exact fun hall rs hrs ht => ⟨(hall rs hrs ht).1, hactive _ (hall rs hrs ht).2⟩
    · exact fun hall rs hrs ht => ⟨(hall rs hrs ht).1, hactive _ (hall rs hrs ht).2⟩
    · refine fun hall rs hrs ht => ⟨(hall rs hrs ht).1, fun ship hship _ => ?_, fun _ => rfl⟩
      exact List.mem_map_of_mem hship
  · rintro uid (⟨ship, hship, hmaker⟩ | ⟨k, hk⟩)
    · exact hstored ship hship uid hmaker
    · exact absurd hk (by simp [hwants])

/-- A ReplicaSet of the example, with a namespace to make Ships in. -/
def deployedReplicaset (image : String) (created replicas reported : Int) : ReplicaSet :=
  let rs := imageReplicaset (imageDeployment "Recreate" 1 "b") image created replicas reported
  { rs with objectMeta := rs.objectMeta.map ({ · with «namespace» := some "ns" }) }

/-- The template has changed from `a` to `b`, and there are still the Ships of `a`. -/
def beforeRecreate (ships : List Ship) : Cluster where
  replicaSets := [deployedReplicaset "a" 1 1 ships.length, deployedReplicaset "b" 2 0 0]
  ships := ships

def oldShip : Ship := buildShip (deployedReplicaset "a" 1 1 1) (imageTemplate "a") "1"

def servedRequests (k : Fin 1) (count : ℕ) : List (Recreation.Event 1) :=
  List.replicate count (.requestReplicaset k {})

/-- `a` is scaled down, its Ship goes, it reports that, and only then `b` is scaled up. -/
theorem recreate_keeps_versions_apart_rotation :
    Run.AllStates (Recreation.step imageHash plainRules (imageDeployment "Recreate" 1 "b"))
      (fun c => KeptApart (imageDeployment "Recreate" 1 "b") [oldShip] c.world)
      (Recreation.idle 1 (beforeRecreate [oldShip]))
      ([.start none, .request {}, .request {}, .request {}] ++
        .startReplicaset 0 (.applied (deployedReplicaset "a" 1 0 1)) :: servedRequests 0 3 ++
        .startReplicaset 0 (.applied (deployedReplicaset "a" 1 0 1)) :: servedRequests 0 2 ++
        [.start none, .request {}, .request {}, .request {}, .request {}] ++
        .startReplicaset 0 (.applied (deployedReplicaset "b" 2 1 0)) :: servedRequests 0 3) :=
  recreate_keeps_versions_apart (beforeRecreate [oldShip]) _ (by decide) (by decide +kernel)
    (by decide +kernel)
    (by decide +kernel) (by decide +kernel) (by decide +kernel)

/-- A reconcile of `a` makes a Ship and then reports the number of Ships from before, which is zero.
So `b` is scaled up and gets a Ship beside that of `a`. -/
theorem recreate_overlaps_versions :
    ¬ Run.AllStates (Recreation.step imageHash plainRules (imageDeployment "Recreate" 1 "b"))
      (fun c => KeptApart (imageDeployment "Recreate" 1 "b") [] c.world)
      (Recreation.idle 1 (beforeRecreate []))
      (.startReplicaset 0 (.applied (deployedReplicaset "a" 1 1 0)) :: servedRequests 0 4 ++
        [.start none, .request {}, .request {}, .request {}, .request {}] ++
        .startReplicaset 0 (.applied (deployedReplicaset "b" 2 1 0)) :: servedRequests 0 3) := by
  decide +kernel

end Tugboat.Workload
