import Tugboat.Lib.Program
import Tugboat.Resources.Workload

/-!
# The cluster as the workload controllers see it

The Deployment and the ReplicaSet controller talk to the API server about the ReplicaSets and the
Ships of one namespace.  `ClusterOp` lists their requests, `Cluster` is what the server stores, and
`Cluster.exec` what a request does.  Every request may fail, before it has an effect or after
(`Fate`), also because a PUT is refused as outdated.

What the server makes of the spec of a Ship on its way in is the parameter `ShipRules`.
-/

namespace Tugboat.Workload

/-! ## Requests -/

/-- Why a request failed: the server says so, or there is no answer. -/
inductive ClientError
  | api (code : ℕ)
  | transport
  deriving DecidableEq, Repr

inductive ControllerError
  | client (e : ClientError)
  | missingNamespace (kind : String)
  | missingName (kind : String)
  | missingDeploymentSpec (ns name : String)
  | missingDeploymentTemplate (ns name : String)
  | missingReplicaSetSpec (ns name : String)
  deriving DecidableEq, Repr

/-- When an object is to be reconciled again. -/
inductive Action
  | awaitChange
  | requeue (seconds : ℕ)
  deriving DecidableEq, Repr

/-- The requests of the workload controllers, and the draw of a random suffix. -/
inductive ClusterOp
  | getRuntimeClass (name : String)
  | listReplicaSets
  | getReplicaSet (name : String)
  | createReplicaSet (rs : ReplicaSet)
  | replaceReplicaSet (name : String) (rs : ReplicaSet)
  | replaceReplicaSetStatus (name : String) (rs : ReplicaSet)
  | deleteReplicaSet (name : String)
  | patchDeploymentStatus (name : String) (status : DeploymentStatus)
  | listShips
  | generateSuffix
  | createShip (ship : Ship)
  | replaceShip (name : String) (ship : Ship)
  | patchShip (name : String) (ship : Ship)
  | deleteShip (name : String)
  deriving DecidableEq, Repr

namespace ClusterOp

/-- What is used of the answer to a request. -/
def Result : ClusterOp → Type
  | getRuntimeClass _ => Option RuntimeClass
  | listReplicaSets => List ReplicaSet
  | getReplicaSet _ => Option ReplicaSet
  | listShips => List Ship
  | generateSuffix => String
  | createReplicaSet _ | replaceReplicaSet _ _ | replaceReplicaSetStatus _ _ | deleteReplicaSet _
  | patchDeploymentStatus _ _ | createShip _ | replaceShip _ _ | patchShip _ _
  | deleteShip _ => Unit

abbrev interface : Interface where
  Op := ClusterOp
  Reply op := Except ClientError op.Result

def writesReplicaSets : ClusterOp → Bool
  | createReplicaSet _ | replaceReplicaSet _ _ | deleteReplicaSet _ => true
  | getRuntimeClass _ | listReplicaSets | getReplicaSet _ | replaceReplicaSetStatus _ _
  | patchDeploymentStatus _ _ | listShips | generateSuffix | createShip _ | replaceShip _ _
  | patchShip _ _ | deleteShip _ => false

end ClusterOp

abbrev Controller (α : Type) : Type := ExceptT ControllerError (Program ClusterOp.interface) α

namespace Controller

/-- A request whose failure ends the reconcile. -/
def request (op : ClusterOp) : Controller op.Result :=
  ExceptT.mk (.call op fun r => .done (r.mapError ControllerError.client))

/-- A request whose failure the controller looks at. -/
def attempt (op : ClusterOp) : Controller (Except ClientError op.Result) :=
  ExceptT.mk (.call op fun r => .done (.ok r))

/-- A computation that makes no requests. -/
def compute {α : Type} (x : Except ControllerError α) : Controller α := ExceptT.mk (.done x)

section Wp

variable {γ : Type} {P : Protocol ClusterOp.interface γ} {g : γ} {op : ClusterOp}

@[simp] lemma wp_compute {α : Type} (x : Except ControllerError α)
    {Q : γ → Except ControllerError α → Prop} : (compute x).run.wp P g Q ↔ Q g x := Iff.rfl

lemma wp_request {Q : γ → Except ControllerError op.Result → Prop} : (request op).run.wp P g Q ↔
      P.allowed g op ∧ ∀ r : Except ClientError op.Result, P.assumes g op r →
        Q (P.observe g op r) (r.mapError ControllerError.client) := Iff.rfl

variable {α : Type} {Q : γ → Except ControllerError α → Prop}

lemma wp_request_bind {f : op.Result → Controller α} (hallowed : P.allowed g op)
    (hok : ∀ a : op.Result, P.assumes g op (Except.ok a) →
      (f a).run.wp P (P.observe g op (Except.ok a)) Q)
    (herror : ∀ e : ClientError, P.assumes g op (Except.error e) →
      Q (P.observe g op (Except.error e)) (.error (.client e))) :
    (request op >>= f).run.wp P g Q := by
  refine (Program.wp_run_bind _ _ _ _).2 ⟨hallowed, fun r hr => ?_⟩
  cases r with
  | ok a => exact hok a hr
  | error e => exact herror e hr

/-- The rule for a block that starts with a request and looks at its failure. -/
lemma wp_attempt_bind {f : Except ClientError op.Result → Controller α} (hallowed : P.allowed g op)
    (hnext : ∀ r : Except ClientError op.Result, P.assumes g op r →
      (f r).run.wp P (P.observe g op r) Q) :
    (attempt op >>= f).run.wp P g Q :=
  (Program.wp_run_bind _ _ _ _).2 ⟨hallowed, hnext⟩

variable {β : Type}

lemma wp_compute_bind {x : Except ControllerError β} {f : β → Controller α}
    (hok : ∀ b, x = .ok b → (f b).run.wp P g Q) (herror : ∀ e, x = .error e → Q g (.error e)) :
    (compute x >>= f).run.wp P g Q := by
  refine (Program.wp_run_bind _ _ _ _).2 ?_
  rw [wp_compute]
  cases x with
  | ok b => exact hok b rfl
  | error e => exact herror e rfl

/-- The rule for a block, from what its first part ensures. -/
lemma wp_controller_bind {x : Controller β} {f : β → Controller α}
    {I : γ → Except ControllerError β → Prop} (hx : x.run.wp P g I)
    (hf : ∀ g' b, I g' (.ok b) → (f b).run.wp P g' Q)
    (herror : ∀ g' e, I g' (.error e) → Q g' (.error e)) : (x >>= f).run.wp P g Q := by
  refine (Program.wp_run_bind _ _ _ _).2 (Program.wp_mono (fun g' r hI => ?_) g x.run hx)
  cases r with
  | ok b => exact hf g' b hI
  | error e => exact herror g' e hI

lemma wp_discard {x : Controller β} {I : γ → Prop} (hx : x.run.wp P g fun g' _ => I g') :
    (discard x).run.wp P g fun g' _ => I g' :=
  wp_controller_bind hx (fun _ _ hI => hI) fun _ _ hI => hI

end Wp

end Controller

/-! ## What the server stores -/

/-- The objects of one namespace, and the runtime classes. -/
structure Cluster where
  replicaSets : List ReplicaSet := []
  ships : List Ship := []
  runtimeClasses : List RuntimeClass := []
  deriving DecidableEq, Repr

/-- What happens to a request. -/
inductive Fate
  | served
  /-- It fails without an effect. -/
  | refused (e : ClientError)
  /-- It has its effect, but the answer is an error. -/
  | lost (e : ClientError)
  deriving DecidableEq, Repr

namespace Fate

variable {σ α : Type}

def read (s : σ) (a : α) : Fate → σ × Except ClientError α
  | served => (s, .ok a)
  | refused e | lost e => (s, .error e)

/-- A request that writes, or is answered with an error code. -/
def write (s : σ) (effect : Except ℕ σ) : Fate → σ × Except ClientError Unit
  | served =>
    match effect with
    | .ok s' => (s', .ok ())
    | .error code => (s, .error (.api code))
  | refused e => (s, .error e)
  | lost e => ((effect.toOption).getD s, .error e)

lemma write_of {p : σ → Prop} {s : σ} {effect : Except ℕ σ} (fate : Fate) (hnone : p s)
    (heffect : ∀ s', effect = .ok s' → p s') : p (fate.write s effect).1 := by
  cases fate with
  | refused e => exact hnone
  | served | lost e =>
    cases effect with
    | error code => exact hnone
    | ok s' => exact heffect s' rfl

end Fate

/-- What the outside decides about a request: its fate, the identity of a new object, the time and
the random suffix. -/
structure Choice where
  fate : Fate := .served
  uid : String := ""
  now : Time := ⟨0, 0⟩
  suffix : String := ""
  deriving DecidableEq, Repr

/-- What the server makes of the specs of Ships: the defaults it fills in, and how a merge patch
combines two of them. -/
structure ShipRules where
  withDefaults : Option ShipSpec → Option ShipSpec
  merged : Option ShipSpec → Option ShipSpec → Option ShipSpec

/-- The metadata after a PUT: the identity stays, and so do labels and annotations that are not
mentioned. -/
def replacedMeta (current updated : ObjectMeta) : ObjectMeta :=
  { current with
    labels := StringMap.extend current.labels updated.labels
    annotations := StringMap.extend current.annotations updated.annotations
    ownerReferences := updated.ownerReferences
    finalizers := updated.finalizers }

def createdMeta (c : Choice) (m : ObjectMeta) : ObjectMeta :=
  { m with uid := some c.uid, creationTimestamp := some c.now, generation := some 1 }

def ReplicaSet.created (c : Choice) (rs : ReplicaSet) : ReplicaSet :=
  { rs with objectMeta := some (createdMeta c (rs.objectMeta.getD {})) }

/-- The Ship as it is stored by a POST. -/
def Ship.created (rules : ShipRules) (c : Choice) (ship : Ship) : Ship :=
  { ship with
    objectMeta := some (createdMeta c (ship.objectMeta.getD {}))
    spec := rules.withDefaults ship.spec }

lemma ReplicaSet.name_created (c : Choice) (rs : ReplicaSet) : (rs.created c).name = rs.name := by
  unfold ReplicaSet.created ReplicaSet.name
  cases rs.objectMeta with
  | none | some m => rfl

/-- The ReplicaSet after a PUT: the status stays. -/
def ReplicaSet.replacedBy (current updated : ReplicaSet) : ReplicaSet :=
  { current with
    objectMeta := some (replacedMeta (current.objectMeta.getD {}) (updated.objectMeta.getD {}))
    spec := updated.spec }

/-- The objects after a DELETE of one of them: it is gone, or marked if it has finalizers. -/
def deleteNamed {T : Type} [ObjectMetaResource T] (now : Time) (name : String) (l : List T) :
    List T :=
  l.filterMap fun t =>
    if Resource.name t ≠ some name then some t
    else if Resource.hasFinalizers t then some (Resource.markForDeletion now t)
    else none

lemma eq_or_marked {T : Type} [ObjectMetaResource T] {now : Time} {name : String} {t t' : T}
    (h : (if Resource.name t ≠ some name then some t
      else if Resource.hasFinalizers t then some (Resource.markForDeletion now t)
      else none) = some t') : t' = t ∨ t' = Resource.markForDeletion now t := by
  split at h
  · exact .inl (Option.some.inj h).symm
  · obtain ⟨-, h⟩ := Option.ite_none_right_eq_some.1 h
    exact .inr (Option.some.inj h).symm

namespace Cluster

variable (rules : ShipRules) (w : Cluster)

def updateReplicaSet (name : String) (f : ReplicaSet → ReplicaSet) : Except ℕ Cluster :=
  if w.replicaSets.any (·.name = some name) then
    .ok { w with replicaSets :=
      w.replicaSets.map fun rs => if rs.name = some name then f rs else rs }
  else .error 404

/-- The Ships with the spec of one of them changed.  An update carries the version of the Ship it
was computed from and is refused for any other, so the metadata stays as it is. -/
def updateShip (name : String) (f : Option ShipSpec → Option ShipSpec) : Except ℕ Cluster :=
  if w.ships.any (·.name = some name) then
    .ok { w with ships := w.ships.map fun s =>
      if s.name = some name then { s with spec := f s.spec } else s }
  else .error 404

def createReplicaSet (c : Choice) (rs : ReplicaSet) : Except ℕ Cluster :=
  if w.replicaSets.any (·.name = rs.name) then .error 409
  else .ok { w with replicaSets := w.replicaSets ++ [rs.created c] }

def createShip (c : Choice) (ship : Ship) : Except ℕ Cluster :=
  if w.ships.any (·.name = ship.name) then .error 409
  else .ok { w with ships := w.ships ++ [ship.created rules c] }

def deleteReplicaSet (c : Choice) (name : String) : Except ℕ Cluster :=
  if w.replicaSets.any (·.name = some name) then
    .ok { w with replicaSets := deleteNamed c.now name w.replicaSets }
  else .error 404

def deleteShip (c : Choice) (name : String) : Except ℕ Cluster :=
  if w.ships.any (·.name = some name) then
    .ok { w with ships := deleteNamed c.now name w.ships }
  else .error 404

/-- What a request does to the cluster, and its answer. -/
def exec : Program.Semantics ClusterOp.interface Cluster Choice := fun w c op =>
  match op with
  | .getRuntimeClass name =>
    c.fate.read w (w.runtimeClasses.find? (·.objectMeta.bind (·.name) = some name))
  | .listReplicaSets => c.fate.read w w.replicaSets
  | .getReplicaSet name => c.fate.read w (w.replicaSets.find? (·.name = some name))
  | .createReplicaSet rs => c.fate.write w (w.createReplicaSet c rs)
  | .replaceReplicaSet name rs => c.fate.write w (w.updateReplicaSet name (·.replacedBy rs))
  | .replaceReplicaSetStatus name rs =>
    c.fate.write w (w.updateReplicaSet name fun current => { current with status := rs.status })
  | .deleteReplicaSet name => c.fate.write w (w.deleteReplicaSet c name)
  -- nothing modelled reads the status of a Deployment from the store
  | .patchDeploymentStatus _ _ => c.fate.write w (.ok w)
  | .listShips => c.fate.read w w.ships
  | .generateSuffix => (w, .ok c.suffix)
  | .createShip ship => c.fate.write w (w.createShip rules c ship)
  | .replaceShip name ship =>
    c.fate.write w (w.updateShip name fun _ => rules.withDefaults ship.spec)
  | .patchShip name ship =>
    c.fate.write w (w.updateShip name fun current =>
      rules.withDefaults (rules.merged current ship.spec))
  | .deleteShip name => c.fate.write w (w.deleteShip c name)

end Cluster

/-! ## Owners -/

def uidOf {T : Type} [ObjectMetaResource T] (t : T) : Option String :=
  (Resource.objectMeta t).bind (·.uid)

def ownerReferenceFor {T : Type} [ObjectMetaResource T] (resource : T) : OwnerReference where
  apiVersion := (Resource.typeMeta T).apiVersion.getD ""
  kind := (Resource.descriptor T).kind
  name := (Resource.name resource).getD ""
  uid := (uidOf resource).getD ""
  controller := some true

def isControlledBy {T : Type} [ObjectMetaResource T] (m : Option ObjectMeta) (owner : T)
    (ownerKind : String) : Bool :=
  m.any fun m => m.ownerReferences.any fun ownerRef =>
    ownerRef.kind = ownerKind && ownerRef.name = (Resource.name owner).getD "" &&
      match uidOf owner with
      | some uid => ownerRef.uid = uid
      | none => ownerRef.uid = ""

/-- `creation_sort_key`: the time of creation and the name. -/
def creationSortKey (m : Option ObjectMeta) : Int × Int × String :=
  let time := (m.bind (·.creationTimestamp)).map fun t => (t.seconds, t.nanos)
  ((time.getD (0, 0)).1, (time.getD (0, 0)).2, (m.bind (·.name)).getD "")

/-- The order of the sort keys. -/
def keyLe (a b : Int × Int × String) : Bool :=
  a.1 < b.1 ||
    (a.1 = b.1 && (a.2.1 < b.2.1 || (a.2.1 = b.2.1 && (a.2.2 < b.2.2 || a.2.2 = b.2.2))))

lemma keyLe_total (a b : Int × Int × String) : keyLe a b ∨ keyLe b a := by
  simp only [keyLe]
  grind

lemma keyLe_trans {a b c : Int × Int × String} (hab : keyLe a b) (hbc : keyLe b c) :
    keyLe a c := by
  simp only [keyLe] at *
  grind

end Tugboat.Workload
