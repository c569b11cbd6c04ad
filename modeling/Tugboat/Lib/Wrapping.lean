import Mathlib.Algebra.BigOperators.Group.List.Basic
import Mathlib.Algebra.Order.Group.Int
import Mathlib.Algebra.Ring.Int.Defs
import Mathlib.Tactic.Common

/-!
# Integers of 32 bits

Arithmetic on signed integers of 32 bits, as machine code does it: the exact result, wrapped into
the range.  Adding up a list wraps the exact sum (`foldl_add32`).  What a proof about limits needs
is that wrapping makes a number smaller unless it lies below the range (`wrap32_le`).
-/

namespace Tugboat.Wrapping

/-- The number of the range that is congruent to `n`. -/
def wrap32 (n : Int) : Int := n.bmod 4294967296

/-- The numbers of 32 bits. -/
def InRange (n : Int) : Prop := -2147483648 ≤ n ∧ n < 2147483648
  deriving Decidable

lemma wrap32_of_inRange {n : Int} (h : InRange n) : wrap32 n = n := by
  obtain ⟨hlow, hhigh⟩ := h
  exact Int.bmod_eq_of_le (by omega) (by omega)

/-- Wrapping a number that is not below the range does not make it larger. -/
lemma wrap32_le {n : Int} (h : -2147483648 ≤ n) : wrap32 n ≤ n := by
  rw [wrap32, Int.bmod_def]
  split <;> omega

lemma eq_zero_of_wrap32_eq_zero {n : Int} (h : wrap32 n = 0) (hlow : 0 ≤ n)
    (hhigh : n < 4294967296) : n = 0 := by
  rw [wrap32, Int.bmod_def] at h
  split at h <;> omega

/-- Addition of 32 bit integers. -/
def add32 (a b : Int) : Int := wrap32 (a + b)

/-- Subtraction of 32 bit integers. -/
def sub32 (a b : Int) : Int := wrap32 (a - b)

lemma wrap32_add_wrap32 (a b : Int) : wrap32 (wrap32 a + b) = wrap32 (a + b) :=
  Int.bmod_add_bmod

lemma sub32_wrap32 (a b : Int) : sub32 (wrap32 a) (wrap32 b) = wrap32 (a - b) := by
  rw [sub32, wrap32, wrap32, wrap32, Int.bmod_sub_bmod, Int.sub_bmod_bmod, wrap32]

lemma foldl_add32 (l : List Int) (a : Int) : l.foldl add32 (wrap32 a) = wrap32 (a + l.sum) := by
  induction l generalizing a with
  | nil => simp
  | cons b l ih =>
    rw [List.foldl_cons, add32, wrap32_add_wrap32, ih, List.sum_cons, add_assoc]

lemma foldl_add32_zero (l : List Int) : l.foldl add32 0 = wrap32 l.sum := by
  have hfold := foldl_add32 l 0
  rw [zero_add] at hfold
  exact hfold

end Tugboat.Wrapping
