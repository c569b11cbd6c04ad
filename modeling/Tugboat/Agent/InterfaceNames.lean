import Tugboat.Agent.DeviceIds

/-!
# Names of network interfaces over many hotplugs

A network is attached to a Ship under the name of an interface, and taken down by the same name.
The name is not recorded.  It is formed anew each time, from the place of the network in a list:
that of the spec, or, for a network that is added, that of the added ones behind the old spec.

`Wired` follows the attachments of a Ship.  If every hotplug either appends networks to the list or
cuts networks off its end (`AtTheEnd`), the names are distinct and every network is taken down by
the name it was attached with (`interface_names_stable`).  If a network is removed in front of
another one, the next network that is added gets a name that is in use, and the networks behind are
later taken down by other names (`interface_names_collide`).
-/

namespace Tugboat.Hotplug

open VmRuntime Network Volume Hex

/-! ## Attachments -/

def attachment (plan : PlannedNetworkConfig) : String × String :=
  (networkClassInfoKey plan.info, plan.vm.ifaceName)

/-- A Ship over many hotplugs, with its attachments. -/
structure Wired extends Tracked where
  attached : List (String × String) := []

section Run

variable (sha256 : String → Digest) (ns shipId : String)

def Wired.start (spec : Workload.ShipSpec) (classes : List NetworkClassInfo)
    (published : List PublishedVolume) : Wired where
  toTracked := Tracked.start sha256 shipId spec classes published
  attached := (createNetworkConfigs sha256 shipId classes).map attachment

variable {sha256 ns}

/-- The attachments that a hotplug makes before it calls the runtime. -/
def Change.attaches {s : Tracked} (c : Change sha256 ns s) : List (String × String) :=
  (c.prep.addedNetworkPlans sha256 shipId).map attachment

/-- The attachments that a hotplug takes down after it called the runtime. -/
def Change.detaches {s : Tracked} (c : Change sha256 ns s) : List (String × String) :=
  (removedNetworkPlans sha256 shipId c.prep.oldClasses
    (diffHotplugNetworks sha256 shipId s.spec c.newSpec c.prep.newClasses).2).map attachment

/-- The Ship after a hotplug: the networks that the new spec does not have are no longer
attached. -/
def Wired.hotplugged (w : Wired) (c : Change sha256 ns w.toTracked) : Wired where
  toTracked := c.after shipId
  attached := w.attached.filter (·.1 ∈ c.newSpec.networkClassRef.map classKey) ++ c.attaches shipId

variable (sha256 ns)

/-- A Ship that was started and then hotplugged any number of times, where every change of the spec
is as `guard` says. -/
inductive WiredReached (guard : Workload.ShipSpec → Workload.ShipSpec → Prop) : Wired → Prop
  | start {spec : Workload.ShipSpec} {classes : List NetworkClassInfo}
      {published : List PublishedVolume} (hclasses : Found ns spec.networkClassRef classes) :
      WiredReached guard (Wired.start sha256 shipId spec classes published)
  | hotplug {w : Wired} (hw : WiredReached guard w) (c : Change sha256 ns w.toTracked)
      (hguard : guard w.spec c.newSpec) (hsupported : c.Supported shipId) :
      WiredReached guard (w.hotplugged shipId c)

end Run

/-- The attachments that the deletion of a Ship takes down, the last one first. -/
def deletionDetaches (sha256 : String → Digest) (shipId : String)
    (classes : List NetworkClassInfo) : List (String × String) :=
  ((createNetworkConfigs sha256 shipId classes).map attachment).reverse

/-! ## Names by place -/

def placed (start : ℕ) (refs : List Workload.ShipNetworkClassReference) : List (String × String) :=
  (refs.zipIdx start).map fun x => (classKey x.1, ifaceName x.2)

lemma placed_append (start : ℕ) (refs more : List Workload.ShipNetworkClassReference) :
    placed start (refs ++ more) = placed start refs ++ placed (start + refs.length) more := by
  rw [placed, List.zipIdx_append, List.map_append]
  rfl

lemma ifaceName_injective : Function.Injective ifaceName := by
  intro m n h
  have hlist : Nat.toDigits 10 m = Nat.toDigits 10 n := by
    have hto := congrArg String.toList h
    simp only [ifaceName, String.toList_append] at hto
    have hrepr : ∀ k : ℕ, (toString k).toList = Nat.toDigits 10 k := fun _ => Nat.toList_repr
    rw [hrepr, hrepr] at hto
    exact List.append_cancel_left hto
  have hparse := Decimal.parseDigits_toDigits m
  rw [hlist, Decimal.parseDigits_toDigits] at hparse
  exact (Option.some.inj hparse).symm

lemma nodup_placed (start : ℕ) (refs : List Workload.ShipNetworkClassReference) :
    ((placed start refs).map Prod.snd).Nodup := by
  have hnames : (placed start refs).map Prod.snd =
      ((refs.zipIdx start).map Prod.snd).map ifaceName := by
    rw [placed, List.map_map, List.map_map]
    rfl
  rw [hnames, List.zipIdx_map_snd]
  exact List.Nodup.map ifaceName_injective (List.nodup_range' _)

variable {start : ℕ} {refs : List Workload.ShipNetworkClassReference}

lemma map_attachment_plans {sha256 : String → Digest} {ns shipId : String}
    {classes : List NetworkClassInfo} (h : Found ns refs classes) :
    (createNetworkConfigsFromIndex sha256 shipId start classes).map attachment =
      placed start refs := by
  have hplan : ∀ x : NetworkClassInfo × ℕ,
      attachment (planSingle sha256 shipId (ifaceName (start + x.2)) x.1) =
        (networkClassInfoKey x.1, ifaceName (start + x.2)) := fun _ => rfl
  have hindexed : ∀ k, (classes.zipIdx k).map
      (fun x => (networkClassInfoKey x.1, ifaceName (start + x.2))) =
      placed (start + k) refs := by
    induction h with
    | nil => exact fun _ => rfl
    | cons hhead _ ih =>
      intro k
      obtain ⟨hvalid, spec, rfl⟩ := hhead
      rw [List.zipIdx_cons, List.map_cons, ih (k + 1), placed, placed, List.zipIdx_cons,
        List.map_cons, networkClassInfoKey_ofRef hvalid]
      rfl
  rw [createNetworkConfigsFromIndex, List.map_map]
  exact (List.map_congr_left fun x _ => hplan x).trans (hindexed 0)

/-! ## Changes at the end of the list -/

/-- Networks are appended to the list or cut off its end, and all references say `core`. -/
structure AtTheEnd (oldSpec newSpec : Workload.ShipSpec) : Prop where
  ends : oldSpec.networkClassRef <+: newSpec.networkClassRef ∨
    newSpec.networkClassRef <+: oldSpec.networkClassRef
  core : ∀ ref ∈ oldSpec.networkClassRef ++ newSpec.networkClassRef, ref.apiGroup = "core"

lemma networkKeys_eq {spec : Workload.ShipSpec}
    (h : ∀ ref ∈ spec.networkClassRef, ref.apiGroup = "core") :
    networkKeys spec = spec.networkClassRef.map classKey := by
  refine List.map_congr_left fun ref href => ?_
  rw [networkRefKey, h ref href]
  rfl

lemma AtTheEnd.networkKeys_eq {oldSpec newSpec : Workload.ShipSpec} (h : AtTheEnd oldSpec newSpec) :
    networkKeys oldSpec = oldSpec.networkClassRef.map classKey ∧
      networkKeys newSpec = newSpec.networkClassRef.map classKey :=
  ⟨Hotplug.networkKeys_eq fun ref href => h.core ref (List.mem_append_left _ href),
    Hotplug.networkKeys_eq fun ref href => h.core ref (List.mem_append_right _ href)⟩

/-- If the keys of a list stay in their order, nothing that is appended to the list has one of its
keys. -/
lemma notMem_of_retainedOrder_append {keys more : List String}
    (h : retainedOrder keys (keys ++ more) = retainedOrder (keys ++ more) keys) :
    ∀ key ∈ more, key ∉ keys := by
  have hall : keys.filter (· ∈ keys ++ more) = keys :=
    List.filter_eq_self.mpr fun key hkey => by simp [hkey]
  have hsame : keys.filter (· ∈ keys) = keys :=
    List.filter_eq_self.mpr fun key hkey => by simp [hkey]
  rw [retainedOrder, retainedOrder, hall, List.filter_append, hsame] at h
  have hmore : more.filter (· ∈ keys) = [] := List.append_right_eq_self.mp h.symm
  intro key hkey hmem
  exact absurd hmem (by simpa using List.filter_eq_nil_iff.mp hmore key hkey)

/-- Networks of some classes are selected from a list of named networks. -/
lemma filter_placed_of_forall {p : String → Bool} (h : ∀ ref ∈ refs, p (classKey ref) = true) :
    (placed start refs).filter (fun x => p x.1) = placed start refs := by
  refine List.filter_eq_self.mpr fun x hx => ?_
  obtain ⟨y, hy, rfl⟩ := List.mem_map.mp hx
  exact h y.1 (List.fst_mem_of_mem_zipIdx hy)

lemma filter_placed_of_forall_not {p : String → Bool} (h : ∀ ref ∈ refs, p (classKey ref) = false) :
    (placed start refs).filter (fun x => p x.1) = [] := by
  refine List.filter_eq_nil_iff.mpr fun x hx => ?_
  obtain ⟨y, hy, rfl⟩ := List.mem_map.mp hx
  rw [h y.1 (List.fst_mem_of_mem_zipIdx hy)]
  exact Bool.false_ne_true

section Steps

variable {sha256 : String → Digest} {ns shipId : String} {s : Tracked} (c : Change sha256 ns s)

lemma detaches_eq (hends : AtTheEnd s.spec c.newSpec) :
    c.detaches shipId = (placed 0 s.spec.networkClassRef).filter
      fun x => decide (x.1 ∉ c.newSpec.networkClassRef.map classKey) := by
  have hplans : (createNetworkConfigs sha256 shipId c.prep.oldClasses).map attachment =
      placed 0 s.spec.networkClassRef := map_attachment_plans c.prep.oldClasses_found
  have hdetaches : c.detaches shipId = (placed 0 s.spec.networkClassRef).filter
      fun x => decide (x.1 ∈ (networkKeys s.spec).filter (· ∉ networkKeys c.newSpec)) := by
    rw [← hplans, List.filter_map]
    rfl
  rw [hdetaches, hends.networkKeys_eq.1, hends.networkKeys_eq.2]
  refine List.filter_congr fun x hx => ?_
  obtain ⟨y, hy, rfl⟩ := List.mem_map.mp hx
  rw [decide_eq_decide, List.mem_filter, decide_eq_true_eq]
  exact and_iff_right (List.mem_map_of_mem (List.fst_mem_of_mem_zipIdx hy))

variable {more : List Workload.ShipNetworkClassReference}

lemma Found.append_left {refs : List Workload.ShipNetworkClassReference}
    {classes : List NetworkClassInfo} (h : Found ns (refs ++ more) classes) :
    ∃ first rest, classes = first ++ rest ∧ Found ns refs first ∧ Found ns more rest := by
  induction refs generalizing classes with
  | nil => exact ⟨[], classes, rfl, .nil, h⟩
  | cons ref refs ih =>
    cases h with
    | cons hhead htail =>
      obtain ⟨first, rest, rfl, hfirst, hrest⟩ := ih htail
      exact ⟨_ :: first, rest, rfl, .cons hhead hfirst, hrest⟩

lemma attaches_of_appended (shipId : String) (c : Change sha256 ns s)
    (hends : AtTheEnd s.spec c.newSpec)
    (hrefs : c.newSpec.networkClassRef = s.spec.networkClassRef ++ more)
    (hnew : ∀ ref ∈ more, classKey ref ∉ s.spec.networkClassRef.map classKey) :
    c.attaches shipId = placed s.spec.networkClassRef.length more := by
  -- the plans are for the classes of the appended references
  have hfound : Found ns (s.spec.networkClassRef ++ more) c.prep.newClasses :=
    hrefs ▸ c.prep.newClasses_found
  obtain ⟨first, rest, hclasses, hfirst, hrest⟩ := Found.append_left hfound
  have hselect : c.prep.newClasses.filter (networkClassInfoKey · ∈
      (networkKeys c.newSpec).filter (· ∉ networkKeys s.spec)) = rest := by
    rw [hclasses, hends.networkKeys_eq.1, hends.networkKeys_eq.2, List.filter_append]
    have hnone : first.filter (networkClassInfoKey · ∈
        (c.newSpec.networkClassRef.map classKey).filter
          (· ∉ s.spec.networkClassRef.map classKey)) = [] := by
      refine List.filter_eq_nil_iff.mpr fun info hinfo hmem => ?_
      have hold := List.mem_map_of_mem (f := networkClassInfoKey) hinfo
      rw [hfirst.map_networkClassInfoKey] at hold
      exact of_decide_eq_true (List.mem_filter.mp (of_decide_eq_true hmem)).2 hold
    have hall : rest.filter (networkClassInfoKey · ∈ (c.newSpec.networkClassRef.map classKey).filter
        (· ∉ s.spec.networkClassRef.map classKey)) = rest := by
      refine List.filter_eq_self.mpr fun info hinfo => ?_
      have hmore := List.mem_map_of_mem (f := networkClassInfoKey) hinfo
      rw [hrest.map_networkClassInfoKey] at hmore
      obtain ⟨ref, href, hkey⟩ := List.mem_map.mp hmore
      rw [← hkey, hrefs, List.map_append]
      exact decide_eq_true (List.mem_filter.mpr
        ⟨List.mem_append_right _ (List.mem_map_of_mem href), decide_eq_true (hnew ref href)⟩)
    rw [hnone, hall, List.nil_append]
  simp only [Change.attaches, Preparation.addedNetworkPlans, diffHotplugNetworks]
  rw [hselect]
  exact map_attachment_plans hrest

/-- The two ways a supported change at the end of the list can go. -/
lemma appended_or_cut (hends : AtTheEnd s.spec c.newSpec) (hsupported : c.Supported shipId) :
    (∃ more, c.newSpec.networkClassRef = s.spec.networkClassRef ++ more ∧
      ∀ ref ∈ more, classKey ref ∉ s.spec.networkClassRef.map classKey) ∨
    (∃ gone, s.spec.networkClassRef = c.newSpec.networkClassRef ++ gone ∧
      ∀ ref ∈ gone, classKey ref ∉ c.newSpec.networkClassRef.map classKey) := by
  obtain ⟨-, -, hnics, -⟩ := supported_parts hsupported.1
  have horder := (classifyDevices_spec hnics).1
  rw [hends.networkKeys_eq.1, hends.networkKeys_eq.2] at horder
  rcases hends.ends with ⟨more, hmore⟩ | ⟨gone, hgone⟩
  · refine .inl ⟨more, hmore.symm, fun ref href => ?_⟩
    rw [← hmore, List.map_append] at horder
    exact notMem_of_retainedOrder_append horder _ (List.mem_map_of_mem href)
  · refine .inr ⟨gone, hgone.symm, fun ref href => ?_⟩
    rw [← hgone, List.map_append] at horder
    exact notMem_of_retainedOrder_append horder.symm _ (List.mem_map_of_mem href)

/-- What a supported change at the end of the list does to attachments that are named by place: it
takes down the networks that the new spec does not have, attaches under names that are not in use,
and leaves the networks named by place. -/
lemma calls_of_atTheEnd (hends : AtTheEnd s.spec c.newSpec) (hsupported : c.Supported shipId) :
    c.detaches shipId = (placed 0 s.spec.networkClassRef).filter
        (fun x => decide (x.1 ∉ c.newSpec.networkClassRef.map classKey)) ∧
      ((placed 0 s.spec.networkClassRef ++ c.attaches shipId).map Prod.snd).Nodup ∧
      (placed 0 s.spec.networkClassRef).filter
          (fun x => decide (x.1 ∈ c.newSpec.networkClassRef.map classKey)) ++ c.attaches shipId =
        placed 0 c.newSpec.networkClassRef := by
  refine ⟨detaches_eq c hends, ?_⟩
  rcases appended_or_cut c hends hsupported with ⟨more, hmore, hnew⟩ | ⟨gone, hgone, hcut⟩
  · have hwhole : placed 0 s.spec.networkClassRef ++ placed s.spec.networkClassRef.length more =
        placed 0 c.newSpec.networkClassRef := by
      rw [hmore, placed_append, Nat.zero_add]
    rw [attaches_of_appended shipId c hends hmore hnew, hwhole]
    refine ⟨nodup_placed 0 _, ?_⟩
    rw [filter_placed_of_forall
      (p := fun key => decide (key ∈ c.newSpec.networkClassRef.map classKey))
      fun ref href => decide_eq_true ?_, hwhole]
    rw [hmore]
    exact List.mem_map_of_mem (List.mem_append_left _ href)
  · have hadded : (networkKeys c.newSpec).filter (· ∉ networkKeys s.spec) = [] := by
      refine List.filter_eq_nil_iff.mpr fun key hkey => ?_
      rw [networkKeys] at hkey
      simp [networkKeys, hgone, List.mem_map.mp hkey]
    have hattaches : c.attaches shipId = [] := by
      rw [Change.attaches, addedNetworkPlans_eq_nil c hadded]
      rfl
    rw [hattaches, List.append_nil, List.append_nil]
    refine ⟨nodup_placed 0 _, ?_⟩
    rw [hgone, placed_append, List.filter_append,
      filter_placed_of_forall
        (p := fun key => decide (key ∈ c.newSpec.networkClassRef.map classKey))
        fun ref href => decide_eq_true (List.mem_map_of_mem href),
      filter_placed_of_forall_not
        (p := fun key => decide (key ∈ c.newSpec.networkClassRef.map classKey))
        fun ref href => decide_eq_false (hcut ref href), List.append_nil]

end Steps

/-! ## Every hotplug -/

section Invariant

variable {sha256 : String → Digest} {ns shipId : String} {w : Wired}

lemma attached_eq_placed (h : WiredReached sha256 ns shipId AtTheEnd w) :
    w.attached = placed 0 w.spec.networkClassRef := by
  induction h with
  | start hclasses => exact map_attachment_plans hclasses
  | @hotplug w _ c hguard hsupported ih =>
    obtain ⟨-, -, hafter⟩ := calls_of_atTheEnd c hguard hsupported
    change w.attached.filter _ ++ c.attaches shipId = placed 0 c.newSpec.networkClassRef
    rw [ih]
    exact hafter

/-- If every hotplug so far appended networks to the list or cut some off its end, then the names of
the attached networks are distinct; the deletion of the Ship takes down every network by its name;
and so does the next such hotplug, which attaches under names that are not in use. -/
theorem interface_names_stable (h : WiredReached sha256 ns shipId AtTheEnd w) :
    (w.attached.map Prod.snd).Nodup ∧
      (∀ classes, Found ns w.spec.networkClassRef classes →
        deletionDetaches sha256 shipId classes = w.attached.reverse) ∧
      ∀ c : Change sha256 ns w.toTracked, AtTheEnd w.spec c.newSpec → c.Supported shipId →
        ((w.attached ++ c.attaches shipId).map Prod.snd).Nodup ∧
        c.detaches shipId =
          w.attached.filter (fun x => decide (x.1 ∉ c.newSpec.networkClassRef.map classKey)) := by
  rw [attached_eq_placed h]
  refine ⟨nodup_placed 0 _, ?_, ?_⟩
  · intro classes hclasses
    exact congrArg List.reverse (map_attachment_plans hclasses)
  · intro c hends hsupported
    obtain ⟨hdetaches, hnodup, -⟩ := calls_of_atTheEnd c hends hsupported
    exact ⟨hnodup, hdetaches⟩

end Invariant

/-! ## A network that is removed in front of another one

The Ship starts with the networks `a` and `b`.  If `c` is appended, it is the third network and gets
the third name.  If `a` is removed first, `c` is the second network and gets the name of `b`, and
the deletion of the Ship takes `b` down by the name that `a` had. -/

def pairStart : Wired :=
  Wired.start nameDigest "ship" (netSpec ["a", "b"]) (netClasses ["a", "b"]) []

lemma reached_pairStart (guard : Workload.ShipSpec → Workload.ShipSpec → Prop) :
    WiredReached nameDigest "ns" "ship" guard pairStart :=
  WiredReached.start (found_netClasses ["a", "b"])

def toNetworks (names : List String) : Change nameDigest "ns" pairStart.toTracked where
  newSpec := netSpec names
  prep := netPreparation ["a", "b"] names
  volumeIds := []
  volumeIds_eq := rfl
  hotplug := some allCapabilities

theorem interface_names_stable_appended :
    (toNetworks ["a", "b", "c"]).attaches "ship" = [("core|NetworkClass|c", "eth2")] ∧
      (((pairStart.hotplugged "ship" (toNetworks ["a", "b", "c"])).attached.map Prod.snd).Nodup) :=
  ⟨by decide +kernel,
    (interface_names_stable (WiredReached.hotplug (reached_pairStart AtTheEnd)
      (toNetworks ["a", "b", "c"]) ⟨.inl ⟨[coreRef "c"], rfl⟩, by decide +kernel⟩
      (by decide +kernel))).1⟩

def withoutA : Wired := pairStart.hotplugged "ship" (toNetworks ["b"])

def appendC : Change nameDigest "ns" withoutA.toTracked where
  newSpec := netSpec ["b", "c"]
  prep := netPreparation ["b"] ["b", "c"]
  volumeIds := []
  volumeIds_eq := rfl
  hotplug := some allCapabilities

theorem interface_names_collide :
    WiredReached nameDigest "ns" "ship" (fun _ _ => True) (withoutA.hotplugged "ship" appendC) ∧
      (withoutA.hotplugged "ship" appendC).attached =
        [("core|NetworkClass|b", "eth1"), ("core|NetworkClass|c", "eth1")] ∧
      ¬ ((withoutA.hotplugged "ship" appendC).attached.map Prod.snd).Nodup ∧
      Found "ns" (withoutA.hotplugged "ship" appendC).spec.networkClassRef (netClasses ["b", "c"]) ∧
      deletionDetaches nameDigest "ship" (netClasses ["b", "c"]) =
        [("core|NetworkClass|c", "eth1"), ("core|NetworkClass|b", "eth0")] :=
  ⟨WiredReached.hotplug (WiredReached.hotplug (reached_pairStart _) (toNetworks ["b"]) trivial
      (by decide +kernel)) appendC trivial (by decide +kernel : appendC.Supported "ship"),
    by decide +kernel, by decide +kernel, found_netClasses ["b", "c"], by decide +kernel⟩

end Tugboat.Hotplug
