import Tugboat.Resources.Ship

/-!
# Workloads: whole Ship specs, templates, ReplicaSets and Deployments

The API server's own checks read a handful of fields of a Ship.  The controllers, the scheduler and
the drain read nearly all of its spec: `Workload.ShipSpec` extends the short one by the remaining
fields, and `Workload.Ship.toShip` forgets them again.

A ReplicaSet keeps a number of Ships of one template running, and a Deployment manages ReplicaSets,
one for each template it has had.  Replica counts are 32 bit integers in the source and integers
here; the functions that add them up wrap.
-/

namespace Tugboat

/-! ## Maps of labels and annotations -/

namespace StringMap

/-- Store a value under a key, in increasing order of the keys. -/
def insert (k v : String) : List (String × String) → List (String × String)
  | [] => [(k, v)]
  | (l, w) :: m =>
    if k = l then (k, v) :: m
    else if k < l then (k, v) :: (l, w) :: m
    else (l, w) :: insert k v m

/-- Drop a key. -/
def remove (k : String) (m : List (String × String)) : List (String × String) :=
  m.filter (·.1 ≠ k)

/-- Add all entries of a map to another one, replacing what is there. -/
def extend (m entries : List (String × String)) : List (String × String) :=
  entries.foldl (fun m e => insert e.1 e.2 m) m

end StringMap

/-- The selector asks for labels, and all of them are there. -/
def matchesSelector (labels selector : List (String × String)) : Bool :=
  selector.all fun e => labels.lookup e.1 = some e.2

namespace Workload

/-! ## The spec of a Ship -/

structure LabelSelectorRequirement where
  key : String := ""
  operator : String := ""
  values : List String := []
  deriving DecidableEq, Repr

structure LabelSelector where
  matchLabels : List (String × String) := []
  matchExpressions : List LabelSelectorRequirement := []
  deriving DecidableEq, Repr

structure NodeSelectorRequirement where
  key : String := ""
  operator : String := ""
  values : List String := []
  deriving DecidableEq, Repr

structure NodeSelectorTerm where
  matchExpressions : List NodeSelectorRequirement := []
  matchFields : List NodeSelectorRequirement := []
  deriving DecidableEq, Repr

structure NodeSelector where
  nodeSelectorTerms : List NodeSelectorTerm := []
  deriving DecidableEq, Repr

structure PreferredSchedulingTerm where
  weight : Int := 0
  preference : Option NodeSelectorTerm := none
  deriving DecidableEq, Repr

structure NodeAffinity where
  requiredDuringScheduling : Option NodeSelector := none
  preferredDuringScheduling : List PreferredSchedulingTerm := []
  deriving DecidableEq, Repr

structure ShipAffinityTerm where
  labelSelector : Option LabelSelector := none
  namespaces : List String := []
  topologyKey : String := ""
  deriving DecidableEq, Repr

structure WeightedShipAffinityTerm where
  weight : Int := 0
  shipAffinityTerm : Option ShipAffinityTerm := none
  deriving DecidableEq, Repr

/-- `ShipAffinity` and `ShipAntiAffinity`, which have the same fields. -/
structure ShipAffinity where
  requiredDuringScheduling : List ShipAffinityTerm := []
  preferredDuringScheduling : List WeightedShipAffinityTerm := []
  deriving DecidableEq, Repr

structure Affinity where
  nodeAffinity : Option NodeAffinity := none
  shipAffinity : Option ShipAffinity := none
  shipAntiAffinity : Option ShipAffinity := none
  deriving DecidableEq, Repr

structure TopologySpreadConstraint where
  maxSkew : Int := 0
  topologyKey : String := ""
  whenUnsatisfiable : String := ""
  labelSelector : Option LabelSelector := none
  deriving DecidableEq, Repr

structure Toleration where
  key : Option String := none
  operator : String := ""
  value : Option String := none
  effect : String := ""
  tolerationSeconds : Option Int := none
  deriving DecidableEq, Repr

structure ShipNetworkClassReference where
  kind : String := ""
  name : String := ""
  apiGroup : String := ""
  deriving DecidableEq, Repr

structure KeyToPath where
  key : String := ""
  path : String := ""
  deriving DecidableEq, Repr

structure ConfigMapVolumeSource where
  name : String := ""
  items : List KeyToPath := []
  defaultMode : Option Int := none
  optional : Option Bool := none
  deriving DecidableEq, Repr

structure SecretVolumeSource where
  secretName : String := ""
  items : List KeyToPath := []
  defaultMode : Option Int := none
  optional : Option Bool := none
  deriving DecidableEq, Repr

structure ServiceAccountTokenProjection where
  audience : Option String := none
  expirationSeconds : Option Int := none
  path : String := ""
  deriving DecidableEq, Repr

/-- The projection of a ConfigMap or a Secret, which have the same fields. -/
structure KeyProjection where
  name : String := ""
  items : List KeyToPath := []
  optional : Option Bool := none
  deriving DecidableEq, Repr

structure VolumeProjection where
  serviceAccountToken : Option ServiceAccountTokenProjection := none
  configMap : Option KeyProjection := none
  secret : Option KeyProjection := none
  deriving DecidableEq, Repr

structure ProjectedVolumeSource where
  sources : List VolumeProjection := []
  defaultMode : Option Int := none
  deriving DecidableEq, Repr

structure ShipVolume where
  name : String := ""
  /-- The name of the claim. -/
  persistentVolumeClaim : Option String := none
  configMap : Option ConfigMapVolumeSource := none
  secret : Option SecretVolumeSource := none
  projected : Option ProjectedVolumeSource := none
  deriving DecidableEq, Repr

structure ShipSpec extends Tugboat.ShipSpec where
  networkClassRef : List ShipNetworkClassReference := []
  /-- Whether UEFI is enabled. -/
  uefi : Option Bool := none
  tolerations : List Toleration := []
  /-- The names of claims. -/
  volumeClaimRef : List String := []
  volumes : List ShipVolume := []
  serviceAccountName : Option String := none
  automountServiceAccountToken : Option Bool := none
  affinity : Option Affinity := none
  topologySpreadConstraints : List TopologySpreadConstraint := []
  deriving DecidableEq, Repr

structure Ship where
  typeMeta : Option TypeMeta := none
  objectMeta : Option ObjectMeta := none
  spec : Option ShipSpec := none
  status : Option ShipStatus := none
  deriving DecidableEq, Repr

instance : ObjectMetaResource Ship where
  resourceKind := .ship
  objectMeta := Ship.objectMeta
  setObjectMeta m s := { s with objectMeta := m }

namespace Ship

/-- The Ship without the fields that only placement and workloads read. -/
def toShip (s : Ship) : Tugboat.Ship where
  typeMeta := s.typeMeta
  objectMeta := s.objectMeta
  spec := s.spec.map (·.toShipSpec)
  status := s.status

def name (s : Ship) : Option String := s.objectMeta.bind (·.name)

/-- A migration is under way. -/
def hasActiveMigration (s : Ship) : Bool := s.toShip.hasActiveMigration

end Ship

/-! ## ReplicaSets and Deployments -/

structure ShipTemplateSpec where
  metadata : Option ObjectMeta := none
  spec : Option ShipSpec := none
  deriving DecidableEq, Repr

structure ReplicaSetSpec where
  replicas : Option Int := none
  selector : List (String × String) := []
  shipTemplate : Option ShipTemplateSpec := none
  deriving DecidableEq, Repr

structure ReplicaSetStatus where
  replicas : Int := 0
  readyReplicas : Int := 0
  deriving DecidableEq, Repr

structure ReplicaSet where
  typeMeta : Option TypeMeta := none
  objectMeta : Option ObjectMeta := none
  spec : Option ReplicaSetSpec := none
  status : Option ReplicaSetStatus := none
  deriving DecidableEq, Repr

instance : ObjectMetaResource ReplicaSet where
  resourceKind := .replicaSet
  objectMeta := ReplicaSet.objectMeta
  setObjectMeta m rs := { rs with objectMeta := m }

namespace ReplicaSet

def name (rs : ReplicaSet) : Option String := rs.objectMeta.bind (·.name)

def «namespace» (rs : ReplicaSet) : Option String := rs.objectMeta.bind (·.namespace)

/-- The template, with the default if there is none. -/
def template (rs : ReplicaSet) : ShipTemplateSpec := (rs.spec.bind (·.shipTemplate)).getD {}

end ReplicaSet

structure RollingUpdateStrategy where
  maxUnavailable : Option Int := none
  maxSurge : Option Int := none
  deriving DecidableEq, Repr

structure DeploymentStrategy where
  type : String := ""
  rollingUpdate : Option RollingUpdateStrategy := none
  deriving DecidableEq, Repr

structure DeploymentSpec where
  replicas : Option Int := none
  selector : List (String × String) := []
  shipTemplate : Option ShipTemplateSpec := none
  strategy : Option DeploymentStrategy := none
  revisionHistoryLimit : Option Int := none
  deriving DecidableEq, Repr

structure DeploymentStatus where
  replicas : Int := 0
  readyReplicas : Int := 0
  updatedReplicas : Int := 0
  deriving DecidableEq, Repr

structure Deployment where
  typeMeta : Option TypeMeta := none
  objectMeta : Option ObjectMeta := none
  spec : Option DeploymentSpec := none
  status : Option DeploymentStatus := none
  deriving DecidableEq, Repr

instance : ObjectMetaResource Deployment where
  resourceKind := .deployment
  objectMeta := Deployment.objectMeta
  setObjectMeta m dep := { dep with objectMeta := m }

namespace Deployment

def name (dep : Deployment) : Option String := dep.objectMeta.bind (·.name)

def «namespace» (dep : Deployment) : Option String := dep.objectMeta.bind (·.namespace)

end Deployment

end Workload

end Tugboat
