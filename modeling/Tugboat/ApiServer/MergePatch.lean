import Tugboat.ApiServer.CustomResources

/-!
# JSON merge patches

Patches of built-in and of custom resources are applied by two copies of one function.  What they
compute is the `MergePatch` of RFC 7396 (`mergePatch`), where a name that the target does not have
is not the same as one with the value `null`.

A patch that is applied again changes nothing.  For this the order of the fields matters: a field
that is there is replaced in its place, so the maps have to be sorted as those of the parser are.
`Document` is a value all of whose maps are, and sorted maps with the same values are equal
(`Sorted.ext`).  Patches of different fields commute for the same reason.
-/

namespace Tugboat

open Json

namespace MergePatch

mutual

/-- `MergePatch` as RFC 7396 has it.  A name that is not in the target has no value. -/
def mergePatch (target : Option Value) : Value → Value
  | .object patch => .object (mergeMembers ((target.bind (·.asObject)).getD []) patch)
  | patch => patch

/-- The loop over the members of the patch. -/
def mergeMembers (target : Map) : List (String × Value) → Map
  | [] => target
  | (name, value) :: patch =>
    mergeMembers
      (if value = .null then
        if (target.get name).isSome then target.remove name else target
      else target.insert name (mergePatch (target.get name) value)) patch

end

lemma remove_of_get {m : Map} {k : String} (h : m.get k = none) : m.remove k = m := by
  refine List.filter_eq_self.2 fun f hf => ?_
  have hne : ¬ k = f.1 := by simpa using List.lookup_eq_none_iff.1 h f hf
  exact decide_eq_true (Ne.symm hne)

mutual

lemma mergePatch_eq (target : Option Value) :
    ∀ patch, mergePatch target patch = rfc7396MergePatch (target.getD .null) patch
  | .object patch => by
    have hbase : (target.bind (·.asObject)).getD [] = (target.getD .null).asObject.getD [] := by
      cases target <;> rfl
    rw [mergePatch, rfc7396MergePatch, hbase, mergeMembers_eq]
  | .null | .bool b | .number n | .string s | .array items => by
    simp [mergePatch, rfc7396MergePatch]

lemma mergeMembers_eq (target : Map) : ∀ patch, mergeMembers target patch = mergeFields target patch
  | [] => by rw [mergeMembers, mergeFields]
  | (name, value) :: patch => by
    have hremove : (if (target.get name).isSome then target.remove name else target) =
        target.remove name := by
      split
      · rfl
      next h => exact (remove_of_get (by simpa using h)).symm
    rw [mergeMembers, mergeFields, hremove, mergePatch_eq, mergeMembers_eq]

end

/-- The keys of a map increase. -/
def Sorted (m : Map) : Prop := m.Pairwise (·.1 < ·.1)

/-- The maps of the parser are sorted, at every depth. -/
inductive Ordered : Value → Prop
  | object {m : Map} (sorted : Sorted m) (fields : ∀ k v, m.get k = some v → Ordered v) :
      Ordered (.object m)
  | array {items : List Value} (each : ∀ v ∈ items, Ordered v) : Ordered (.array items)
  | null : Ordered .null
  | bool (b : Bool) : Ordered (.bool b)
  | number (n : Number) : Ordered (.number n)
  | string (s : String) : Ordered (.string s)

lemma Ordered.single {v : Value} (h : Ordered v) (k : String) : Ordered (.object [(k, v)]) := by
  refine .object (List.pairwise_singleton _ _) fun k' w hw => ?_
  rw [Map.get_cons] at hw
  split at hw
  · cases hw
    exact h
  · cases hw

structure Document where
  value : Value
  ordered : Ordered value

/-- A document that sets the number of replicas. -/
def scaled (replicas : Int) : Document where
  value := .object [("spec", .object [("replicas", .number (.int replicas))])]
  ordered := ((Ordered.number _).single _).single _

variable {m m' : Map} {k : String} {v : Value}

lemma get_of_lt (h : ∀ f ∈ m, k < f.1) : m.get k = none := by
  refine List.lookup_eq_none_iff.2 fun f hf => ?_
  have hlt := h f hf
  grind

/-- Sorted maps are determined by their values. -/
lemma Sorted.ext : ∀ {m m' : Map}, Sorted m → Sorted m' → (∀ k, m.get k = m'.get k) → m = m'
  | [], [], _, _, _ => rfl
  | [], (l, w) :: m', _, _, h => by simpa [Map.get_cons, Map.get] using h l
  | (k, v) :: m, [], _, _, h => by simpa [Map.get_cons, Map.get] using h k
  | (k, v) :: m, (l, w) :: m', hm, hm', h => by
    obtain ⟨hk, htail⟩ := List.pairwise_cons.1 hm
    obtain ⟨hl, htail'⟩ := List.pairwise_cons.1 hm'
    have hget : ∀ j, (if j = k then some v else Map.get m j) =
        if j = l then some w else Map.get m' j := by simpa [Map.get_cons] using h
    -- a first key that the other map does not begin with is not in it at all
    obtain rfl : k = l := by
      by_contra hne
      obtain hlt | hlt : k < l ∨ l < k := by grind
      · have hnone : Map.get m' k = none := get_of_lt fun f hf => by grind
        simpa [hne, hnone] using hget k
      · have hnone : Map.get m l = none := get_of_lt fun f hf => by grind
        simpa [Ne.symm hne, hnone] using hget l
    obtain rfl : v = w := by simpa using hget k
    have hrest : m = m' := Sorted.ext htail htail' fun j => by
      by_cases hj : j = k
      · rw [hj, get_of_lt hk, get_of_lt hl]
      · simpa [hj] using hget j
    rw [hrest]

lemma mem_insert {f : String × Value} : ∀ {m : Map}, f ∈ m.insert k v → f = (k, v) ∨ f ∈ m
  | [], h => .inl (List.mem_singleton.1 h)
  | (l, w) :: m, h => by
    have ih := @mem_insert f m
    grind [Map.insert]

lemma Sorted.insert (hm : Sorted m) : Sorted (m.insert k v) := by
  induction m with
  | nil => exact List.pairwise_singleton _ _
  | cons f m ih =>
    obtain ⟨hf, hm⟩ := List.pairwise_cons.1 hm
    unfold Map.insert
    split
    next heq => exact List.pairwise_cons.2 ⟨heq ▸ hf, hm⟩
    split
    next hlt =>
      refine List.pairwise_cons.2 ⟨fun g hg => ?_, List.pairwise_cons.2 ⟨hf, hm⟩⟩
      obtain rfl | hg := List.mem_cons.1 hg
      · exact hlt
      · grind
    next hne hle =>
      refine List.pairwise_cons.2 ⟨fun g hg => ?_, ih hm⟩
      obtain rfl | hg := mem_insert hg
      · grind
      · exact hf g hg

lemma Sorted.mergeFields (hm : Sorted m) (patch : Map) : Sorted (mergeFields m patch) := by
  induction patch generalizing m with
  | nil =>
    rw [Tugboat.mergeFields]
    exact hm
  | cons f patch ih =>
    rw [Tugboat.mergeFields]
    refine ih ?_
    split
    · exact hm.filter _
    · exact hm.insert

lemma Ordered.asObject {target : Value} (h : Ordered target) :
    Ordered (.object (target.asObject.getD [])) := by
  cases h with
  | object keys fields => exact .object keys fields
  | array | null | bool | number | string => exact .object .nil nofun

lemma Sorted.nodup (hm : Sorted m) : (m.map Prod.fst).Nodup := by
  refine List.pairwise_map.2 (hm.imp fun h => ?_)
  grind

/-- A patch that is applied again changes nothing. -/
lemma merge_merge {patch : Value} (hpatch : Ordered patch) {target : Value}
    (htarget : Ordered target) :
    rfc7396MergePatch (rfc7396MergePatch target patch) patch = rfc7396MergePatch target patch := by
  induction hpatch generalizing target with
  | @object patch sorted _ ih =>
    obtain ⟨hbase, hfields⟩ := htarget.asObject
    rw [rfc7396MergePatch, rfc7396MergePatch]
    change Value.object (mergeFields (mergeFields _ _) _) = _
    congr 1
    refine ((hbase.mergeFields _).mergeFields _).ext (hbase.mergeFields _) fun k => ?_
    rw [ResourceUpdater.get_mergeFields _ _ sorted.nodup,
      ResourceUpdater.get_mergeFields _ _ sorted.nodup]
    cases hget : Map.get patch k with
    | none => rfl
    | some v =>
      dsimp only
      split
      · rfl
      · rw [Option.getD_some, ih k v hget]
        cases hk : Map.get (target.asObject.getD []) k with
        | none => exact .null
        | some w => exact hfields k w hk
  | array each => simp [rfc7396MergePatch]
  | null | bool b | number n | string s => simp [rfc7396MergePatch]

/-- **Both merges are that of RFC 7396**, and applying a patch twice is applying it once. -/
theorem merge_patch_rfc7396 (target patch : Document) :
    rfc7396MergePatch target.value patch.value = mergePatch (some target.value) patch.value ∧
      CustomResource.rfc7396MergePatch target.value patch.value =
        mergePatch (some target.value) patch.value ∧
      rfc7396MergePatch (rfc7396MergePatch target.value patch.value) patch.value =
        rfc7396MergePatch target.value patch.value := by
  have hrfc := (mergePatch_eq (some target.value) patch.value).symm
  exact ⟨hrfc, hrfc, merge_merge patch.ordered target.ordered⟩

theorem merge_patch_scaled :
    rfc7396MergePatch (scaled 1).value (scaled 2).value = (scaled 2).value ∧
      mergePatch (some (scaled 1).value) (scaled 2).value = (scaled 2).value :=
  have h : rfc7396MergePatch (scaled 1).value (scaled 2).value = (scaled 2).value := rfl
  ⟨h, (merge_patch_rfc7396 (scaled 1) (scaled 2)).1.symm.trans h⟩

/-- The values have no field in common, except for objects that are apart again. -/
inductive Apart : Value → Value → Prop
  | object {p q : Map} (fields : ∀ k v w, p.get k = some v → q.get k = some w → Apart v w) :
      Apart (.object p) (.object q)

/-- Two patches of different fields. -/
structure ApartPatches where
  p : Document
  q : Document
  apart : Apart p.value q.value

lemma merge_comm {p q : Value} (h : Apart p q) (hp : Ordered p) (hq : Ordered q) {target : Value}
    (htarget : Ordered target) : rfc7396MergePatch (rfc7396MergePatch target p) q =
      rfc7396MergePatch (rfc7396MergePatch target q) p := by
  induction h generalizing target with
  | @object p q apart ih =>
    obtain ⟨hp, hpfields⟩ := hp
    obtain ⟨hq, hqfields⟩ := hq
    obtain ⟨hbase, hfields⟩ := htarget.asObject
    simp only [rfc7396MergePatch]
    change Value.object (mergeFields (mergeFields _ _) _) =
      .object (mergeFields (mergeFields _ _) _)
    congr 1
    refine ((hbase.mergeFields _).mergeFields _).ext ((hbase.mergeFields _).mergeFields _)
      fun k => ?_
    simp only [ResourceUpdater.get_mergeFields _ _ hp.nodup,
      ResourceUpdater.get_mergeFields _ _ hq.nodup]
    cases hv : p.get k with
    | none => rfl
    | some v =>
      cases hw : q.get k with
      | none => rfl
      | some w =>
        have htarget : Ordered (((target.asObject.getD []).get k).getD .null) := by
          cases hk : Map.get (target.asObject.getD []) k with
          | none => exact .null
          | some u => exact hfields k u hk
        have hcomm := ih k v w hv hw (hpfields k v hv) (hqfields k w hw) htarget
        cases apart k v w hv hw
        simp [hcomm]

/-- **Patches of different fields commute.**  Whichever of them comes first, at whatever depth the
fields are, the document in the end is the same. -/
theorem merge_patch_comm (target : Document) (patches : ApartPatches) :
    rfc7396MergePatch (rfc7396MergePatch target.value patches.p.value) patches.q.value =
      rfc7396MergePatch (rfc7396MergePatch target.value patches.q.value) patches.p.value :=
  merge_comm patches.apart patches.p.ordered patches.q.ordered target.ordered

/-- A patch that removes the labels. -/
def unlabelled : Document where
  value := .object [("metadata", .object [("labels", .null)])]
  ordered := (Ordered.null.single _).single _

lemma apart_scaled_unlabelled : Apart (scaled 2).value unlabelled.value := by
  refine .object fun k v w hv hw => ?_
  simp only [Map.get_cons] at hv hw
  grind [Map.get]

theorem merge_patch_comm_scaled :
    rfc7396MergePatch (rfc7396MergePatch (scaled 1).value (scaled 2).value) unlabelled.value =
      rfc7396MergePatch (rfc7396MergePatch (scaled 1).value unlabelled.value) (scaled 2).value :=
  merge_patch_comm (scaled 1) ⟨scaled 2, unlabelled, apart_scaled_unlabelled⟩

end MergePatch

end Tugboat
