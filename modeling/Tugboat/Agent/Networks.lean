import Mathlib.Data.List.Forall2
import Tugboat.Lib.KeyDiff
import Tugboat.Lib.Text
import Tugboat.Resources.Workload
import Tugboat.VmRuntime.Interface

/-!
# Networks of a Ship

A Ship refers to its networks in a list.  A reference names a class of networks of the Ship's
namespace or of the cluster, with the API group `core` or none.  For each class the agent plans an
attachment: a bridge, an interface that is called after its place in the list, and a MAC address
that is formed from the class and the Ship.

Two texts identify a class.  `networkRefKey` is made from a reference, with the API group as it is
written there; `networkClassInfoKey` is made from the class that was found and always says `core`.
They agree exactly if the reference says `core` (`classKey_eq_networkRefKey_iff`).
-/

namespace Tugboat.Network

open Workload VmRuntime Hex

/-! ## Classes -/

/-- The plugin is what the agent itself looks at; the rest of the spec is the plugin's. -/
structure NetworkClassSpec where
  cniPlugin : String := ""
  deriving DecidableEq, Repr

structure NetworkClassInfo where
  name : String
  «namespace» : Option String
  spec : NetworkClassSpec := {}
  deriving DecidableEq, Repr

def networkRefKey (ref : ShipNetworkClassReference) : String :=
  ref.apiGroup ++ "|" ++ ref.kind ++ "|" ++ ref.name

def networkKeys (spec : Workload.ShipSpec) : List String := spec.networkClassRef.map networkRefKey

def networkClassInfoKey (info : NetworkClassInfo) : String :=
  "core|" ++ (if info.namespace.isSome then "NetworkClass" else "ClusterNetworkClass") ++ "|" ++
    info.name

/-- A reference that the agent can look up. -/
def ValidRef (ref : ShipNetworkClassReference) : Prop :=
  (ref.apiGroup = "core" ∨ ref.apiGroup = "") ∧
    (ref.kind = "ClusterNetworkClass" ∨ ref.kind = "NetworkClass")
  deriving Decidable

def NetworkClassInfo.ofRef (ns : String) (ref : ShipNetworkClassReference)
    (spec : NetworkClassSpec) : NetworkClassInfo where
  name := ref.name
  «namespace» := if ref.kind = "ClusterNetworkClass" then none else some ns
  spec := spec

/-- The classes are those the references name; `get_related_network_classes` returns them if it
does not fail. -/
def Found (ns : String) : List ShipNetworkClassReference → List NetworkClassInfo → Prop :=
  List.Forall₂ fun ref info => ValidRef ref ∧ ∃ spec, info = .ofRef ns ref spec

/-- The text that identifies the class of a reference, whatever its API group says. -/
def classKey (ref : ShipNetworkClassReference) : String :=
  "core|" ++ ref.kind ++ "|" ++ ref.name

variable {ns : String} {ref : ShipNetworkClassReference}

lemma networkClassInfoKey_ofRef {spec : NetworkClassSpec} (h : ValidRef ref) :
    networkClassInfoKey (.ofRef ns ref spec) = classKey ref := by
  rcases h.2 with hkind | hkind <;>
    simp [networkClassInfoKey, NetworkClassInfo.ofRef, classKey, hkind]

lemma key_inj {group group' kind kind' name name' : String} (hgroup : '|' ∉ group.toList)
    (hgroup' : '|' ∉ group'.toList) (hkind : '|' ∉ kind.toList) (hkind' : '|' ∉ kind'.toList)
    (h : group ++ "|" ++ kind ++ "|" ++ name = group' ++ "|" ++ kind' ++ "|" ++ name') :
    group = group' ∧ kind = kind' ∧ name = name' := by
  have hlist : group.toList ++ '|' :: (kind.toList ++ '|' :: name.toList) =
      group'.toList ++ '|' :: (kind'.toList ++ '|' :: name'.toList) := by
    have hto := congrArg String.toList h
    simpa using hto
  obtain ⟨hfirst, hrest⟩ := Text.append_cons_inj hgroup hgroup' hlist
  obtain ⟨hsecond, hthird⟩ := Text.append_cons_inj hkind hkind' hrest
  exact ⟨String.toList_inj.mp hfirst, String.toList_inj.mp hsecond, String.toList_inj.mp hthird⟩

lemma ValidRef.notMem_apiGroup (h : ValidRef ref) : '|' ∉ ref.apiGroup.toList := by
  rcases h.1 with hgroup | hgroup <;> rw [hgroup] <;> decide

lemma ValidRef.notMem_kind (h : ValidRef ref) : '|' ∉ ref.kind.toList := by
  rcases h.2 with hkind | hkind <;> rw [hkind] <;> decide

variable {ref' : ShipNetworkClassReference}

/-- The key of a class is the key of a reference exactly if the reference names the class and says
`core`. -/
theorem classKey_eq_networkRefKey_iff (h : ValidRef ref) (h' : ValidRef ref') :
    classKey ref = networkRefKey ref' ↔
      ref'.apiGroup = "core" ∧ ref'.kind = ref.kind ∧ ref'.name = ref.name := by
  constructor
  · intro heq
    have heq' : "core" ++ "|" ++ ref.kind ++ "|" ++ ref.name =
        ref'.apiGroup ++ "|" ++ ref'.kind ++ "|" ++ ref'.name := heq
    obtain ⟨hgroup, hkind, hname⟩ :=
      key_inj (by decide) h'.notMem_apiGroup h.notMem_kind h'.notMem_kind heq'
    exact ⟨hgroup.symm, hkind.symm, hname.symm⟩
  · rintro ⟨hgroup, hkind, hname⟩
    rw [classKey, networkRefKey, hgroup, hkind, hname]
    rfl

lemma networkRefKey_inj (h : ValidRef ref) (h' : ValidRef ref')
    (heq : networkRefKey ref = networkRefKey ref') :
    ref.apiGroup = ref'.apiGroup ∧ ref.kind = ref'.kind ∧ ref.name = ref'.name :=
  key_inj h.notMem_apiGroup h'.notMem_apiGroup h.notMem_kind h'.notMem_kind heq

/-! ## Planned attachments -/

structure PlannedNetworkConfig where
  bridge : String
  info : NetworkClassInfo
  vm : VmNetworkConfig
  deriving DecidableEq, Repr

section Plans

variable (sha256 : String → Digest)

def hexByte (d : Digest) (i : ℕ) : String := String.ofList (byteDigits (d.bytes.getD i 0))

def macAddress (ns : Option String) (name shipId : String) : String :=
  let ident := match ns with
    | some ns => "NetworkClass/" ++ ns ++ "/" ++ name ++ "/" ++ shipId
    | none => "ClusterNetworkClass/" ++ name ++ "/" ++ shipId
  let digest := sha256 ident
  "52:54:00:" ++ hexByte digest 0 ++ ":" ++ hexByte digest 1 ++ ":" ++ hexByte digest 2

def createBridgeName (ns : Option String) (name : String) : String :=
  let ident := match ns with
    | some ns => "NetworkClass/" ++ ns ++ "/" ++ name
    | none => "ClusterNetworkClass/" ++ name
  "br-" ++ (if ns.isSome then "ns" else "cl") ++ "-" ++
    String.ofList ((encode (sha256 ident).bytes).take 8)

/-- The name of the interface with a number. -/
def ifaceName (index : ℕ) : String := "eth" ++ toString index

def planSingle (shipId iface : String) (info : NetworkClassInfo) : PlannedNetworkConfig where
  bridge := createBridgeName sha256 info.namespace info.name
  info := info
  vm := { ifaceName := iface, macAddress := macAddress sha256 info.namespace info.name shipId }

def createNetworkConfigsFromIndex (shipId : String) (startIndex : ℕ)
    (classes : List NetworkClassInfo) : List PlannedNetworkConfig :=
  classes.zipIdx.map fun p => planSingle sha256 shipId (ifaceName (startIndex + p.2)) p.1

def createNetworkConfigs (shipId : String) (classes : List NetworkClassInfo) :
    List PlannedNetworkConfig := createNetworkConfigsFromIndex sha256 shipId 0 classes

/-- The networks of the new spec that the old one does not have, planned behind the networks of the
old one; and the keys of the old spec's networks that the new one does not have. -/
def diffHotplugNetworks (shipId : String) (oldSpec newSpec : Workload.ShipSpec)
    (newClasses : List NetworkClassInfo) : List PlannedNetworkConfig × List String :=
  let oldKeys := networkKeys oldSpec
  let newKeys := networkKeys newSpec
  let addedKeys := newKeys.filter (· ∉ oldKeys)
  let removedKeys := oldKeys.filter (· ∉ newKeys)
  let addedClasses := newClasses.filter (networkClassInfoKey · ∈ addedKeys)
  (createNetworkConfigsFromIndex sha256 shipId oldSpec.networkClassRef.length addedClasses,
    removedKeys)

/-- The attachments that are taken down after a hotplug, planned anew from the old spec. -/
def removedNetworkPlans (shipId : String) (oldClasses : List NetworkClassInfo)
    (removedKeys : List String) : List PlannedNetworkConfig :=
  (createNetworkConfigs sha256 shipId oldClasses).filter
    fun plan => networkClassInfoKey plan.info ∈ removedKeys

lemma map_createNetworkConfigsFromIndex {γ : Type} (f : NetworkClassInfo → String → γ)
    (shipId : String) (startIndex : ℕ) (classes : List NetworkClassInfo) :
    (createNetworkConfigsFromIndex sha256 shipId startIndex classes).map
        (fun plan => f plan.info plan.vm.macAddress) =
      classes.map fun info => f info (macAddress sha256 info.namespace info.name shipId) := by
  have hplan : ∀ p : NetworkClassInfo × ℕ,
      (fun plan : PlannedNetworkConfig => f plan.info plan.vm.macAddress)
        (planSingle sha256 shipId (ifaceName (startIndex + p.2)) p.1) =
      (fun info : NetworkClassInfo => f info (macAddress sha256 info.namespace info.name shipId))
        p.1 := fun _ => rfl
  rw [createNetworkConfigsFromIndex, List.map_map, Function.comp_def, funext hplan]
  conv_rhs => rw [← List.zipIdx_map_fst 0 classes, List.map_map]
  rfl

end Plans

/-! ## Networks that are added

The plans of a hotplug are made for the classes whose key is among the added keys.  These are the
classes of the added references, unless a class is referred to in both spellings: then the plans may
be as many as the added references without being theirs. -/

/-- No class is referred to with the API group and without it. -/
def SpelledAlike (refs : List ShipNetworkClassReference) : Prop :=
  ∀ ref ∈ refs, ∀ ref' ∈ refs,
    ref.kind = ref'.kind → ref.name = ref'.name → ref.apiGroup = ref'.apiGroup
  deriving Decidable

variable {refs : List ShipNetworkClassReference}

/-- Two selections of which one is part of the other are equal if they are equally long. -/
lemma filter_eq_filter_of_length {α : Type} {l : List α} {p q : α → Bool}
    (hsub : ∀ x ∈ l, p x = true → q x = true)
    (hlen : (l.filter p).length = (l.filter q).length) : l.filter p = l.filter q := by
  have hpq : l.filter p = (l.filter q).filter p := by
    rw [List.filter_filter]
    refine List.filter_congr fun x hx => ?_
    cases hp : p x with
    | false => rfl
    | true => rw [hsub x hx hp]; rfl
  rw [hpq]
  exact List.Sublist.eq_of_length List.filter_sublist (by rw [← hpq, hlen])

variable {classes : List NetworkClassInfo}

lemma Found.validRef (h : Found ns refs classes) : ∀ ref ∈ refs, ValidRef ref := by
  induction h with
  | nil => simp
  | cons hhead _ ih => exact List.forall_mem_cons.mpr ⟨hhead.1, ih⟩

lemma Found.map_networkClassInfoKey (h : Found ns refs classes) :
    classes.map networkClassInfoKey = refs.map classKey := by
  induction h with
  | nil => rfl
  | cons hhead _ ih =>
    obtain ⟨hvalid, spec, rfl⟩ := hhead
    rw [List.map_cons, List.map_cons, networkClassInfoKey_ofRef hvalid, ih]

/-- If as many classes are planned as references were added, they are the classes of those. -/
lemma filter_map_classKey {oldKeys : List String} (hvalid : ∀ ref ∈ refs, ValidRef ref)
    (hspelled : SpelledAlike refs)
    (hlen : ((refs.map classKey).filter
        (· ∈ (refs.map networkRefKey).filter (· ∉ oldKeys))).length =
      ((refs.map networkRefKey).filter (· ∉ oldKeys)).length) :
    (refs.map classKey).filter (· ∈ (refs.map networkRefKey).filter (· ∉ oldKeys)) =
      (refs.filter (networkRefKey · ∉ oldKeys)).map classKey := by
  generalize hadded : (refs.map networkRefKey).filter (· ∉ oldKeys) = added at hlen ⊢
  have hsub : ∀ ref ∈ refs, decide (classKey ref ∈ added) = true →
      decide (networkRefKey ref ∉ oldKeys) = true := by
    intro ref href hsel
    rw [decide_eq_true_eq] at hsel ⊢
    rw [← hadded, List.mem_filter] at hsel
    obtain ⟨hmem, hnew⟩ := hsel
    obtain ⟨ref', href', hkey⟩ := List.mem_map.mp hmem
    obtain ⟨-, hkind, hname⟩ :=
      (classKey_eq_networkRefKey_iff (hvalid ref href) (hvalid ref' href')).mp hkey.symm
    -- the selected key is the key of a reference to the same class, which is spelled alike
    have hgroup := hspelled ref href ref' href' hkind.symm hname.symm
    have hsame : networkRefKey ref = networkRefKey ref' := by
      rw [networkRefKey, networkRefKey, hgroup, hkind, hname]
    rw [hsame, hkey]
    simpa using hnew
  have hcount : added.length = (refs.filter (networkRefKey · ∉ oldKeys)).length := by
    rw [← hadded, List.filter_map, List.length_map]
    rfl
  rw [List.filter_map, List.length_map, hcount] at hlen
  rw [List.filter_map]
  exact congrArg (List.map classKey) (filter_eq_filter_of_length hsub hlen)

end Tugboat.Network
