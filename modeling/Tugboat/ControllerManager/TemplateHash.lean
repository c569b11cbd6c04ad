import Mathlib.Data.List.Sort
import Tugboat.ApiServer.MergePatch
import Tugboat.Lib.Hex

/-!
# Template hashes

A Deployment and a Fleet recognize the ReplicaSets of a template by a hash of its JSON form.  The
fields of all maps are sorted before the form is hashed, by two functions that differ only in how
they sort.  What they compute is the same for two templates just when these have the same fields up
to their order (`hash_eq_iff_reordered`).
-/

namespace Tugboat.TemplateHash

open Json MergePatch Hex

def collect (fields : Map) : Map := fields.foldl (fun m f => m.insert f.1 f.2) []

mutual

/-- The canonical form of a value, with the fields of a map arranged before they are collected. -/
def canonicalize (arrange : Map → Map) : Value → Value
  | .array items => .array (canonicalizeItems arrange items)
  | .object fields => .object (collect (arrange (canonicalizeFields arrange fields)))
  | value => value

def canonicalizeItems (arrange : Map → Map) : List Value → List Value
  | [] => []
  | v :: items => canonicalize arrange v :: canonicalizeItems arrange items

def canonicalizeFields (arrange : Map → Map) : List (String × Value) → Map
  | [] => []
  | (k, v) :: fields => (k, canonicalize arrange v) :: canonicalizeFields arrange fields

end

/-- The Deployment controller collects the fields in the order they come in. -/
def canonicalizeJsonValue : Value → Value := canonicalize id

/-- The Fleet controller sorts them first; only their keys are compared. -/
def canonicalizeJson : Value → Value := canonicalize (·.insertionSort fun f g => f.1 ≤ g.1)

/-- The kinds that have templates. -/
inductive Owner
  | deployment
  | fleet

def Owner.canonical : Owner → Value → Value
  | .deployment => canonicalizeJsonValue
  | .fleet => canonicalizeJson

/-- The first eight bytes of the digest of a canonical form, as text. -/
def hashOf (sha256 : String → Digest) (toString : Value → String) (canonical : Value) : String :=
  String.ofList (encode ((sha256 (toString canonical)).bytes.take 8))

/-- The values differ in the order of the fields of some maps, at any depth. -/
inductive Reordered : Value → Value → Prop
  | perm {m m' : Map} (keys : (m.map Prod.fst).Nodup) (h : m.Perm m') :
      Reordered (.object m) (.object m')
  | field {k : String} {v w : Value} (before after : Map) (h : Reordered v w) :
      Reordered (.object (before ++ (k, v) :: after)) (.object (before ++ (k, w) :: after))
  | item {v w : Value} (before after : List Value) (h : Reordered v w) :
      Reordered (.array (before ++ v :: after)) (.array (before ++ w :: after))
  | refl (v : Value) : Reordered v v
  | symm {v w : Value} (h : Reordered v w) : Reordered w v
  | trans {u v w : Value} (h : Reordered u v) (h' : Reordered v w) : Reordered u w

/-! ## Sorted maps -/

lemma perm_insert {k : String} {v : Value} : ∀ {m : Map}, k ∉ m.map Prod.fst →
    (m.insert k v).Perm ((k, v) :: m)
  | [], _ => .refl _
  | (l, w) :: m, h => by
    obtain ⟨hne, hm⟩ := not_or.1 (mt List.mem_cons.2 h)
    rw [Map.insert, if_neg hne]
    split
    · exact .refl _
    · exact ((perm_insert hm).cons _).trans (.swap ..)

lemma foldl_insert {fields : Map} : ∀ {m : Map}, Sorted m → ((fields ++ m).map Prod.fst).Nodup →
    (fields.foldl (fun m f => m.insert f.1 f.2) m).Perm (fields ++ m) ∧
      Sorted (fields.foldl (fun m f => m.insert f.1 f.2) m) := by
  induction fields with
  | nil => exact fun hm _ => ⟨.refl _, hm⟩
  | cons f fields ih =>
    intro m hm hkeys
    have hf : f.1 ∉ m.map Prod.fst := by
      rw [List.map_append, List.map_cons, List.cons_append, List.nodup_cons] at hkeys
      exact fun hmem => hkeys.1 (List.mem_append_right _ hmem)
    have hperm : (fields ++ m.insert f.1 f.2).Perm (f :: (fields ++ m)) :=
      ((perm_insert hf).append_left fields).trans List.perm_middle
    obtain ⟨hfold, hsorted⟩ := ih hm.insert ((hperm.map Prod.fst).nodup_iff.2 hkeys)
    exact ⟨hfold.trans hperm, hsorted⟩

section

variable {arrange : Map → Map} (harrange : ∀ m, (arrange m).Perm m)

lemma canonicalizeItems_eq (items : List Value) :
    canonicalizeItems arrange items = items.map (canonicalize arrange) := by
  induction items with
  | nil => rfl
  | cons v items ih => rw [canonicalizeItems, ih, List.map_cons]

lemma canonicalizeFields_eq (fields : Map) : canonicalizeFields arrange fields =
    fields.map fun f => (f.1, canonicalize arrange f.2) := by
  induction fields with
  | nil => rfl
  | cons f fields ih => rw [canonicalizeFields, ih, List.map_cons]

include harrange in
lemma collect_arrange {fields : Map} (hkeys : (fields.map Prod.fst).Nodup) :
    (collect (arrange (canonicalizeFields arrange fields))).Perm
        (canonicalizeFields arrange fields) ∧
      Sorted (collect (arrange (canonicalizeFields arrange fields))) := by
  have hperm := harrange (canonicalizeFields arrange fields)
  have hnodup : ((arrange (canonicalizeFields arrange fields) ++ []).map Prod.fst).Nodup := by
    rw [List.append_nil, (hperm.map Prod.fst).nodup_iff, canonicalizeFields_eq, List.map_map]
    exact hkeys
  obtain ⟨hfold, hsorted⟩ := foldl_insert .nil hnodup
  rw [List.append_nil] at hfold
  exact ⟨hfold.trans hperm, hsorted⟩

include harrange in
lemma canonicalize_eq_of_reordered {v w : Value} (h : Reordered v w) :
    canonicalize arrange v = canonicalize arrange w := by
  induction h with
  | perm keys h =>
    obtain ⟨hperm, hsorted⟩ := collect_arrange harrange keys
    obtain ⟨hperm', hsorted'⟩ := collect_arrange harrange ((h.map Prod.fst).nodup_iff.1 keys)
    rw [canonicalize, canonicalize]
    congr 1
    refine List.Perm.eq_of_pairwise (fun f g _ _ hlt hgt => ?_) hsorted hsorted' (hperm.trans ?_)
    · grind
    · refine .trans ?_ hperm'.symm
      rw [canonicalizeFields_eq, canonicalizeFields_eq]
      exact h.map _
  | field before after _ ih =>
    simp [canonicalize, canonicalizeFields_eq, ih]
  | item before after _ ih => simp [canonicalize, canonicalizeItems_eq, ih]
  | refl v => rfl
  | symm _ ih => exact ih.symm
  | trans _ _ ih ih' => exact ih.trans ih'

mutual

lemma reordered_canonicalize (harrange : ∀ m, (arrange m).Perm m) :
    ∀ v, v.wellFormed = true → Reordered v (canonicalize arrange v)
  | .object fields, h => by
    have hkeys := Value.nodup_of_wellFormed h
    rw [Value.wellFormed, Bool.and_eq_true] at h
    have hfields : Reordered (.object fields) (.object (canonicalizeFields arrange fields)) :=
      reordered_fields harrange [] fields h.2
    have hperm := (collect_arrange harrange hkeys).1.symm
    rw [canonicalize]
    refine hfields.trans (.perm ?_ hperm)
    rw [canonicalizeFields_eq, List.map_map]
    exact hkeys
  | .array items, h => by
    rw [Value.wellFormed] at h
    rw [canonicalize]
    exact reordered_items harrange [] items h
  | .null, _ | .bool _, _ | .number _, _ | .string _, _ => by
    rw [canonicalize]
    · exact .refl _
    all_goals simp

lemma reordered_items (harrange : ∀ m, (arrange m).Perm m) (before : List Value) :
    ∀ items, Value.wellFormedItems items = true →
    Reordered (.array (before ++ items)) (.array (before ++ canonicalizeItems arrange items))
  | [], _ => .refl _
  | v :: items, h => by
    rw [Value.wellFormedItems, Bool.and_eq_true] at h
    have hrest := reordered_items harrange (before ++ [canonicalize arrange v]) items h.2
    rw [List.append_assoc, List.append_assoc] at hrest
    exact (Reordered.item before items (reordered_canonicalize harrange v h.1)).trans hrest

lemma reordered_fields (harrange : ∀ m, (arrange m).Perm m) (before : Map) :
    ∀ fields, Value.wellFormedFields fields = true →
    Reordered (.object (before ++ fields)) (.object (before ++ canonicalizeFields arrange fields))
  | [], _ => .refl _
  | (k, v) :: fields, h => by
    rw [Value.wellFormedFields, Bool.and_eq_true] at h
    have hrest := reordered_fields harrange (before ++ [(k, canonicalize arrange v)]) fields h.2
    rw [List.append_assoc, List.append_assoc] at hrest
    exact (Reordered.field before fields (reordered_canonicalize harrange v h.1)).trans hrest

end

end

structure Template where
  json : Value
  wellFormed : json.wellFormed = true

/-- Different values have different texts, as the JSON library of the source writes them. -/
def Lossless (toString : Value → String) : Prop := Function.Injective toString

/-- **Hashes of templates depend only on their content**: the canonical forms are equal just when
the templates are up to the order of their fields, and other templates have the same hash only if
the digests of different texts begin alike. -/
theorem hash_eq_iff_reordered (sha256 : String → Digest) (toString : Value → String)
    (owner : Owner) (a b : Template) :
    let form := fun t : Template => owner.canonical t.json
    let hash := fun t => hashOf sha256 toString (form t)
    (form a = form b ↔ Reordered a.json b.json) ∧
      (Reordered a.json b.json → hash a = hash b) ∧
      (hash a = hash b → Reordered a.json b.json ∨ form a ≠ form b ∧
        (Lossless toString → toString (form a) ≠ toString (form b)) ∧
        (sha256 (toString (form a))).bytes.take 8 = (sha256 (toString (form b))).bytes.take 8) := by
  obtain ⟨arrange, harrange, hcanonical⟩ : ∃ arrange : Map → Map, (∀ m, (arrange m).Perm m) ∧
      owner.canonical = canonicalize arrange := by
    cases owner with
    | deployment => exact ⟨_, fun m => .refl m, rfl⟩
    | fleet => exact ⟨_, fun m => List.perm_insertionSort _ m, rfl⟩
  rw [hcanonical]
  have hiff : canonicalize arrange a.json = canonicalize arrange b.json ↔ Reordered a.json b.json :=
    ⟨fun h => (reordered_canonicalize harrange _ a.wellFormed).trans
      (h ▸ (reordered_canonicalize harrange _ b.wellFormed).symm),
      canonicalize_eq_of_reordered harrange⟩
  refine ⟨hiff, fun h => congrArg (hashOf sha256 toString) (hiff.2 h), fun h => ?_⟩
  by_cases heq : canonicalize arrange a.json = canonicalize arrange b.json
  · exact .inl (hiff.1 heq)
  · exact .inr ⟨heq, fun htext => htext.ne heq, encode_injective (String.ofList_injective h)⟩

/-- A template with two fields, in one order and in the other. -/
def imageFirst : Template :=
  ⟨.object [("image", .string "linux"), ("shipClass", .string "small")], by decide⟩

def classFirst : Template :=
  ⟨.object [("shipClass", .string "small"), ("image", .string "linux")], by decide⟩

theorem hash_eq_imageFirst_classFirst :
    Owner.fleet.canonical imageFirst.json = Owner.fleet.canonical classFirst.json :=
  (hash_eq_iff_reordered (fun _ => Digest.ofBytes []) (fun _ => "") .fleet imageFirst
    classFirst).1.mpr (.perm (by decide) (.swap ..))

end Tugboat.TemplateHash
