import Mathlib.Algebra.Ring.Int.Defs
import Mathlib.Algebra.Ring.Nat
import Mathlib.Tactic.Common

/-!
# Decimal integers of 64 bits

`Decimal.parseInt64` reads a signed 64-bit integer the way a strict integer parser does: an
optional sign, then at least one digit and nothing else, and a value in range.  Printing a
natural number and reading it back gives the number, or nothing when it is too large
(`parseInt64_toString`); in particular reading never gives a *different* number.
-/

namespace Tugboat.Decimal

/-- The number a non-empty list of digits stands for. -/
def parseDigits (cs : List Char) : Option Nat :=
  if cs ≠ [] ∧ cs.all Char.isDigit then some (Nat.ofDigitChars 10 cs 0) else none

/-- Read a signed integer of 64 bits. -/
def parseInt64 (s : String) : Option Int :=
  match s.toList with
  | '-' :: cs => (parseDigits cs).bind fun n => if n ≤ 2 ^ 63 then some (-(n : Int)) else none
  | '+' :: cs => (parseDigits cs).bind fun n => if n < 2 ^ 63 then some (n : Int) else none
  | cs => (parseDigits cs).bind fun n => if n < 2 ^ 63 then some (n : Int) else none

lemma parseDigits_toDigits (n : Nat) : parseDigits (Nat.toDigits 10 n) = some n := by
  have hdigits : (Nat.toDigits 10 n).all Char.isDigit = true := by
    rw [List.all_eq_true]
    intro c hc
    exact Nat.isDigit_of_mem_toDigits (by omega) (by omega) hc
  rw [parseDigits, if_pos ⟨Nat.toDigits_ne_nil, hdigits⟩, Nat.ofDigitChars_ten_toDigits]

/-- A printed natural number starts with a digit, so it is read without a sign. -/
lemma parseInt64_of_isDigit {s : String} (h : ∀ c ∈ s.toList, c.isDigit = true) : parseInt64 s =
      (parseDigits s.toList).bind fun n => if n < 2 ^ 63 then some (n : Int) else none := by
  unfold parseInt64
  split
  case h_1 cs hs =>
    rw [hs] at h
    cases h '-' (by simp)
  case h_2 cs hs =>
    rw [hs] at h
    cases h '+' (by simp)
  case h_3 => rfl

theorem parseInt64_toString (n : Nat) :
    parseInt64 (toString n) = if n < 2 ^ 63 then some (n : Int) else none := by
  have hlist : (toString n).toList = Nat.toDigits 10 n := Nat.toList_repr
  have hdigit : ∀ c ∈ (toString n).toList, c.isDigit = true := by
    intro c hc
    rw [hlist] at hc
    exact Nat.isDigit_of_mem_toDigits (by omega) (by omega) hc
  rw [parseInt64_of_isDigit hdigit, hlist, parseDigits_toDigits]
  rfl

/-- Reading a printed number gives that number, if anything. -/
lemma eq_of_parseInt64_toString {n : Nat} {i : Int} (h : parseInt64 (toString n) = some i) :
    i = n := by
  rw [parseInt64_toString] at h
  split at h
  · exact (Option.some.inj h).symm
  · cases h

example : parseInt64 "-12" = some (-12) := by decide

example : parseInt64 "12a" = none := by decide

end Tugboat.Decimal
