import Mathlib.Algebra.BigOperators.Group.List.Basic
import Mathlib.Algebra.Order.BigOperators.Group.List
import Mathlib.Algebra.Order.Group.Int
import Mathlib.Algebra.Ring.Int.Defs
import Mathlib.Data.List.Nodup

/-!
# Lists of objects with distinct keys

A store that holds at most one object of a key, as a list.  `modify` changes the object of a key
and leaves the others.  The lemmas say what this does to a quantity that is summed over the list:
only the contribution of the changed object changes (`sum_modify`), and every object's
contribution can be split off (`sum_eq_add_sum_others`).
-/

namespace Tugboat.Keyed

variable {α κ : Type} {key : α → κ} {l : List α} {x : α}

def Distinct (key : α → κ) (l : List α) : Prop := (l.map key).Nodup

lemma Distinct.eq_of_key_eq (h : Distinct key l) {y : α} (hx : x ∈ l) (hy : y ∈ l)
    (hkey : key x = key y) : x = y :=
  List.inj_on_of_nodup_map h hx hy hkey

lemma Distinct.sublist (h : Distinct key l) {l' : List α} (hsub : List.Sublist l' l) :
    Distinct key l' := List.Nodup.sublist (hsub.map key) h

lemma Distinct.append_singleton (h : Distinct key l) (hx : ∀ y ∈ l, key y ≠ key x) :
    Distinct key (l ++ [x]) := by
  rw [Distinct, List.map_append, List.map_singleton]
  refine List.Nodup.append h (List.nodup_singleton _) ?_
  rw [List.disjoint_singleton]
  intro hmem
  obtain ⟨y, hy, hkey⟩ := List.mem_map.1 hmem
  exact hx y hy hkey

/-- What is left when objects go, and others change without changing their keys. -/
lemma Distinct.filterMap (h : Distinct key l) {f : α → Option α}
    (hf : ∀ x y, f x = some y → key y = key x) : Distinct key (l.filterMap f) := by
  refine List.Nodup.sublist ?_ h
  induction l with
  | nil => exact List.Sublist.slnil
  | cons a l ih =>
    have hl := ih (List.nodup_cons.1 h).2
    cases ha : f a with
    | none =>
      rw [List.filterMap_cons_none ha, List.map_cons]
      exact hl.cons _
    | some b =>
      rw [List.filterMap_cons_some ha, List.map_cons, List.map_cons, hf a b ha]
      exact hl.cons_cons _

variable [DecidableEq κ]

instance : Decidable (Distinct key l) := inferInstanceAs (Decidable (List.Nodup _))

def others (key : α → κ) (k : κ) (l : List α) : List α := l.filter (key · ≠ k)

def modify (key : α → κ) (k : κ) (f : α → α) (l : List α) : List α :=
  l.map fun x => if key x = k then f x else x

variable {k : κ}

lemma mem_others : x ∈ others key k l ↔ x ∈ l ∧ key x ≠ k := by
  simp [others]

variable {f : α → α}

/-- What the change keeps of each object stays the same along the list. -/
lemma map_modify {β : Type} {v : α → β} (hf : ∀ x, v (f x) = v x) (l : List α) :
    (modify key k f l).map v = l.map v := by
  rw [modify, List.map_map]
  refine List.map_congr_left fun x _ => ?_
  rw [Function.comp_apply]
  split
  · exact hf x
  · rfl

lemma Distinct.modify (h : Distinct key l) (k : κ) (hf : ∀ x, key (f x) = key x) :
    Distinct key (modify key k f l) := by
  rw [Distinct, map_modify hf]
  exact h

lemma mem_modify {y : α} (h : y ∈ modify key k f l) :
    ∃ x ∈ l, (key x = k ∧ y = f x) ∨ (key x ≠ k ∧ y = x) := by
  obtain ⟨x, hx, rfl⟩ := List.mem_map.1 h
  refine ⟨x, hx, ?_⟩
  split
  · exact .inl ⟨‹_›, rfl⟩
  · exact .inr ⟨‹_›, rfl⟩

lemma forall_mem_modify {P : α → Prop} (h : ∀ x ∈ l, P x) (hf : ∀ x ∈ l, P (f x)) :
    ∀ y ∈ modify key k f l, P y := by
  intro y hy
  obtain ⟨x, hx, ⟨-, rfl⟩ | ⟨-, rfl⟩⟩ := mem_modify hy
  · exact hf x hx
  · exact h y hx

section Sum

variable (v : α → ℤ)

/-- If contributions are not negative, losing objects makes a total smaller. -/
lemma sum_filterMap_le {f : α → Option α} (hf : ∀ x y, f x = some y → v y = v x)
    (hv : ∀ x, 0 ≤ v x) (l : List α) : ((l.filterMap f).map v).sum ≤ (l.map v).sum := by
  induction l with
  | nil => exact le_rfl
  | cons a l ih =>
    have ha' := hv a
    cases ha : f a with
    | none =>
      rw [List.filterMap_cons_none ha, List.map_cons, List.sum_cons]
      omega
    | some b =>
      rw [List.filterMap_cons_some ha, List.map_cons, List.map_cons, List.sum_cons,
        List.sum_cons, hf a b ha]
      omega

/-- The contribution of one object, and that of the others. -/
lemma sum_eq_add_sum_others (h : Distinct key l) (hx : x ∈ l) :
    (l.map v).sum = v x + ((others key (key x) l).map v).sum := by
  induction l with
  | nil => cases hx
  | cons a l ih =>
    obtain ⟨hnotin, hl⟩ := List.nodup_cons.1 h
    rw [List.map_cons, List.sum_cons]
    rcases List.mem_cons.1 hx with rfl | hx
    · have hothers : others key (key x) (x :: l) = l := by
        rw [others, List.filter_cons_of_neg (by simp), List.filter_eq_self]
        intro y hy
        have hne : key y ≠ key x := fun heq => hnotin (List.mem_map.2 ⟨y, hy, heq⟩)
        simpa using hne
      rw [hothers]
    · have hne : key a ≠ key x := fun heq => hnotin (List.mem_map.2 ⟨x, hx, heq.symm⟩)
      have hothers : others key (key x) (a :: l) = a :: others key (key x) l := by
        rw [others, List.filter_cons_of_pos (by simpa using hne)]
        rfl
      rw [hothers, List.map_cons, List.sum_cons, ih hl hx]
      omega

/-- A change of the object of a key changes its contribution. -/
lemma sum_modify (h : Distinct key l) (hx : x ∈ l) (f : α → α) :
    ((modify key (key x) f l).map v).sum = (l.map v).sum - v x + v (f x) := by
  induction l with
  | nil => cases hx
  | cons a l ih =>
    obtain ⟨hnotin, hl⟩ := List.nodup_cons.1 h
    rw [modify, List.map_cons, List.map_cons, List.sum_cons, List.map_cons, List.sum_cons]
    rcases List.mem_cons.1 hx with rfl | hx
    · have hrest : l.map (fun y => if key y = key x then f y else y) = l := by
        conv_rhs => rw [← List.map_id l]
        refine List.map_congr_left fun y hy => if_neg fun heq => ?_
        exact hnotin (List.mem_map.2 ⟨y, hy, heq⟩)
      rw [hrest, if_pos rfl]
      omega
    · have hne : key a ≠ key x := fun heq => hnotin (List.mem_map.2 ⟨x, hx, heq.symm⟩)
      have := ih hl hx
      rw [modify] at this
      rw [if_neg hne, this]
      omega

end Sum

end Tugboat.Keyed
