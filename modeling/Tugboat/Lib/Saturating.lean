import Mathlib.Algebra.BigOperators.Group.List.Basic
import Mathlib.Algebra.GroupWithZero.Nat
import Mathlib.Algebra.Order.Group.Nat

/-!
# Saturating sums, and sums over part of a list

A counter of 64 bits that saturates loses nothing but the exact value of what does not fit:
adding up a list with saturating additions gives the sum, cut off at the largest value
(`foldl_saturatingAdd`).

`sum_map_ite_mem` is the bookkeeping fact for updating some of the elements of a list without
repetitions: adding something for the elements of a sublist adds the sum over that sublist.
-/

namespace Tugboat.Saturating

/-- The largest unsigned integer of 64 bits. -/
def u64Max : ℕ := 2 ^ 64 - 1

/-- Addition that stops at the largest value. -/
def saturatingAdd (a b : ℕ) : ℕ := min (a + b) u64Max

lemma foldl_saturatingAdd_of_le :
    ∀ (l : List ℕ) (acc : ℕ), acc ≤ u64Max → l.foldl saturatingAdd acc = min (acc + l.sum) u64Max
  | [], acc, h => by simp [h]
  | a :: l, acc, h => by
    have hle : saturatingAdd acc a ≤ u64Max := min_le_right _ _
    rw [List.foldl_cons, foldl_saturatingAdd_of_le l _ hle, List.sum_cons]
    unfold saturatingAdd
    omega

/-- Adding up with saturation is adding up and cutting off. -/
lemma foldl_saturatingAdd (l : List ℕ) : l.foldl saturatingAdd 0 = min l.sum u64Max := by
  rw [foldl_saturatingAdd_of_le l 0 (Nat.zero_le _), Nat.zero_add]

section Sums

variable {α : Type} [DecidableEq α]

/-- A sum over the elements of a list that belong to a sublist is the sum over the sublist. -/
lemma sum_map_ite_mem (f : α → ℕ) {l' l : List α} (hsub : l'.Sublist l) (hl : l.Nodup) :
    (l.map fun a => if a ∈ l' then f a else 0).sum = (l'.map f).sum := by
  induction hsub with
  | slnil => rfl
  | @cons l' l a hsub ih =>
    obtain ⟨ha, hl⟩ := List.nodup_cons.1 hl
    have hnot : a ∉ l' := fun h => ha (hsub.subset h)
    rw [List.map_cons, List.sum_cons, if_neg hnot, ih hl, Nat.zero_add]
  | @cons_cons l' l a hsub ih =>
    obtain ⟨ha, hl⟩ := List.nodup_cons.1 hl
    have hrest : (l.map fun b => if b ∈ a :: l' then f b else 0) =
        l.map fun b => if b ∈ l' then f b else 0 := by
      refine List.map_congr_left fun b hb => ?_
      have hne : b ≠ a := fun h => ha (h ▸ hb)
      simp [hne]
    rw [List.map_cons, List.sum_cons, if_pos List.mem_cons_self, hrest, ih hl, List.map_cons,
      List.sum_cons]

end Sums

end Tugboat.Saturating
