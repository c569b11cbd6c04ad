import Tugboat.Resources.Meta

/-!
# Roles and bindings

The four kinds of the `authorization` group.  A role is a list of rules; a binding gives the rules
of one role to its subjects.  The cluster scoped kinds have the same fields as the namespaced
ones, except for the aggregation of roles, and differ in where they are stored and in what the
authorizer makes of them.
-/

namespace Tugboat

/-- The requests a role permits. -/
structure PolicyRule where
  apiGroups : List String := []
  resources : List String := []
  verbs : List String := []
  resourceNames : List String := []
  deriving DecidableEq, Repr

/-- Whom a binding is for. -/
structure Subject where
  kind : String
  name : String
  «namespace» : Option String := none
  deriving DecidableEq, Repr

structure RoleRef where
  apiGroup : String
  kind : String
  name : String
  deriving DecidableEq, Repr

namespace Authorization

structure LabelSelectorRequirement where
  key : String := ""
  operator : String := ""
  values : List String := []
  deriving DecidableEq, Repr

structure LabelSelector where
  matchLabels : List (String × String) := []
  matchExpressions : List LabelSelectorRequirement := []
  deriving DecidableEq, Repr

/-- A role with such a rule is given the rules of the roles that are selected. -/
structure AggregationRule where
  clusterRoleSelectors : List LabelSelector := []
  deriving DecidableEq, Repr

end Authorization

structure ClusterRole where
  objectMeta : Option ObjectMeta := none
  rules : List PolicyRule := []
  aggregationRule : Option Authorization.AggregationRule := none
  deriving DecidableEq, Repr

structure Role where
  objectMeta : Option ObjectMeta := none
  rules : List PolicyRule := []
  deriving DecidableEq, Repr

structure ClusterRoleBinding where
  objectMeta : Option ObjectMeta := none
  subjects : List Subject := []
  roleRef : Option RoleRef := none
  deriving DecidableEq, Repr

structure RoleBinding where
  objectMeta : Option ObjectMeta := none
  subjects : List Subject := []
  roleRef : Option RoleRef := none
  deriving DecidableEq, Repr

instance : ObjectMetaResource ClusterRole where
  resourceKind := .clusterRole
  objectMeta := ClusterRole.objectMeta
  setObjectMeta m r := { r with objectMeta := m }

instance : ObjectMetaResource Role where
  resourceKind := .role
  objectMeta := Role.objectMeta
  setObjectMeta m r := { r with objectMeta := m }

instance : ObjectMetaResource ClusterRoleBinding where
  resourceKind := .clusterRoleBinding
  objectMeta := ClusterRoleBinding.objectMeta
  setObjectMeta m b := { b with objectMeta := m }

instance : ObjectMetaResource RoleBinding where
  resourceKind := .roleBinding
  objectMeta := RoleBinding.objectMeta
  setObjectMeta m b := { b with objectMeta := m }

end Tugboat
