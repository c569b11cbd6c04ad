import Mathlib.Tactic.Common

/-!
# The built-in kinds and their descriptors

`Kind` enumerates the resource kinds the API server knows at compile time, in the order of
`ALL_RESOURCE_DESCRIPTORS`, and `Kind.descriptor` is the table of `resource_api.rs`.  The singular
name and the table of operations of a descriptor feed discovery documents only and are left out.
-/

namespace Tugboat

/-- Whether the objects of a kind live in a namespace. -/
inductive ResourceScope
  | cluster
  | namespaced
  deriving DecidableEq, Repr

/-- What the server knows about a kind. -/
structure ResourceApiDescriptor where
  group : String
  version : String
  kind : String
  plural : String
  scope : ResourceScope
  deriving DecidableEq, Repr

namespace ResourceApiDescriptor

/-- The objects of the kind live in a namespace. -/
def namespaced (d : ResourceApiDescriptor) : Bool := d.scope = .namespaced

/-- The objects of the kind are cluster wide. -/
def clusterScoped (d : ResourceApiDescriptor) : Bool := d.scope = .cluster

end ResourceApiDescriptor

inductive Kind
  | customResourceDefinition | clusterRole | clusterRoleBinding | deployment | fleet
  | clusterNetworkClass | configMap | namespace | node | persistentVolume | networkClass
  | persistentVolumeClaim | replicaSet | role | roleBinding | runtimeClass | secret
  | serviceAccount | ship | shipClass | storageClass | lease | volumeSnapshot
  | volumeSnapshotContent | volumeSnapshotClass | shipSnapshot
  deriving DecidableEq, Repr

namespace Kind

/-- The descriptor of a kind: group, version, kind, plural and scope. -/
def descriptor : Kind → ResourceApiDescriptor
  | .customResourceDefinition =>
    ⟨"apiextensions", "v1", "CustomResourceDefinition", "customresourcedefinitions", .cluster⟩
  | .clusterRole => ⟨"authorization", "v1", "ClusterRole", "clusterroles", .cluster⟩
  | .clusterRoleBinding =>
    ⟨"authorization", "v1", "ClusterRoleBinding", "clusterrolebindings", .cluster⟩
  | .deployment => ⟨"apps", "v1", "Deployment", "deployments", .namespaced⟩
  | .fleet => ⟨"apps", "v1", "Fleet", "fleets", .namespaced⟩
  | .clusterNetworkClass => ⟨"core", "v1", "ClusterNetworkClass", "clusternetworkclasses", .cluster⟩
  | .configMap => ⟨"core", "v1", "ConfigMap", "configmaps", .namespaced⟩
  | .namespace => ⟨"core", "v1", "Namespace", "namespaces", .cluster⟩
  | .node => ⟨"core", "v1", "Node", "nodes", .cluster⟩
  | .persistentVolume => ⟨"core", "v1", "PersistentVolume", "persistentvolumes", .cluster⟩
  | .networkClass => ⟨"core", "v1", "NetworkClass", "networkclasses", .namespaced⟩
  | .persistentVolumeClaim =>
    ⟨"core", "v1", "PersistentVolumeClaim", "persistentvolumeclaims", .namespaced⟩
  | .replicaSet => ⟨"apps", "v1", "ReplicaSet", "replicasets", .namespaced⟩
  | .role => ⟨"authorization", "v1", "Role", "roles", .namespaced⟩
  | .roleBinding => ⟨"authorization", "v1", "RoleBinding", "rolebindings", .namespaced⟩
  | .runtimeClass => ⟨"core", "v1", "RuntimeClass", "runtimeclasses", .cluster⟩
  | .secret => ⟨"core", "v1", "Secret", "secrets", .namespaced⟩
  | .serviceAccount => ⟨"core", "v1", "ServiceAccount", "serviceaccounts", .namespaced⟩
  | .ship => ⟨"core", "v1", "Ship", "ships", .namespaced⟩
  | .shipClass => ⟨"core", "v1", "ShipClass", "shipclasses", .cluster⟩
  | .storageClass => ⟨"core", "v1", "StorageClass", "storageclasses", .cluster⟩
  | .lease => ⟨"coordination", "v1", "Lease", "leases", .namespaced⟩
  | .volumeSnapshot => ⟨"snapshot", "v1", "VolumeSnapshot", "volumesnapshots", .namespaced⟩
  | .volumeSnapshotContent =>
    ⟨"snapshot", "v1", "VolumeSnapshotContent", "volumesnapshotcontents", .cluster⟩
  | .volumeSnapshotClass =>
    ⟨"snapshot", "v1", "VolumeSnapshotClass", "volumesnapshotclasses", .cluster⟩
  | .shipSnapshot => ⟨"snapshot", "v1", "ShipSnapshot", "shipsnapshots", .namespaced⟩

/-- Every kind, in the order of the server's table. -/
def all : List Kind :=
  [.customResourceDefinition, .clusterRole, .clusterRoleBinding, .deployment, .fleet,
    .clusterNetworkClass, .configMap, .namespace, .node, .persistentVolume, .networkClass,
    .persistentVolumeClaim, .replicaSet, .role, .roleBinding, .runtimeClass, .secret,
    .serviceAccount, .ship, .shipClass, .storageClass, .lease, .volumeSnapshot,
    .volumeSnapshotContent, .volumeSnapshotClass, .shipSnapshot]

lemma mem_all (k : Kind) : k ∈ all := by
  cases k <;> decide

end Kind

def allResourceDescriptors : List ResourceApiDescriptor := Kind.all.map Kind.descriptor

end Tugboat
