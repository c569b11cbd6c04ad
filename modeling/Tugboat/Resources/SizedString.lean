import Mathlib.Data.List.TakeWhile
import Tugboat.Lib.Decimal

/-!
# Sizes written with a suffix

Amounts of memory are written as digits with a suffix, such as `4Gi`.  `asByteLength` reads them:
at least one digit, then one of ten suffixes, then nothing.  The number has to fit into 64 bits, and
the product with the suffix is computed in 64 bits.  A number without a suffix is not a size
(`asByteLength_toString`).
-/

namespace Tugboat.SizedString

/-- The number of bytes a suffix stands for. -/
def suffixFactor : List Char → Option ℕ
  | ['K', 'i'] => some 1024
  | ['M', 'i'] => some (1024 * 1024)
  | ['G', 'i'] => some (1024 * 1024 * 1024)
  | ['T', 'i'] => some (1024 * 1024 * 1024 * 1024)
  | ['P', 'i'] => some (1024 * 1024 * 1024 * 1024 * 1024)
  | ['K'] => some 1000
  | ['M'] => some (1000 * 1000)
  | ['G'] => some (1000 * 1000 * 1000)
  | ['T'] => some (1000 * 1000 * 1000 * 1000)
  | ['P'] => some (1000 * 1000 * 1000 * 1000 * 1000)
  | _ => none

def asByteLength (size : String) : Option ℕ := do
  let number ← Decimal.parseDigits (size.toList.takeWhile Char.isDigit)
  let factor ← suffixFactor (size.toList.dropWhile Char.isDigit)
  if number < 2 ^ 64 then some (number * factor % 2 ^ 64) else none

/-- A plain number has no suffix, so it is not read as a size. -/
theorem asByteLength_toString (n : ℕ) : asByteLength (toString n) = none := by
  have hlist : (toString n).toList = Nat.toDigits 10 n := Nat.toList_repr
  have hdrop : (toString n).toList.dropWhile Char.isDigit = [] := by
    rw [List.dropWhile_eq_nil_iff, hlist]
    exact fun c hc => Nat.isDigit_of_mem_toDigits (by omega) (by omega) hc
  rw [asByteLength, hdrop]
  cases Decimal.parseDigits ((toString n).toList.takeWhile Char.isDigit) <;> rfl

example : asByteLength "4Gi" = some 4294967296 := by decide

example : asByteLength "4gi" = none := by decide

end Tugboat.SizedString
