import Mathlib.Data.List.Basic
import Mathlib.Tactic.Common

/-!
# Bytes as hexadecimal digits

`Hex.encode` writes every byte as two lower-case hexadecimal digits.

A digest is a list of 32 bytes.
-/

namespace Tugboat.Hex

def byteDigits (b : UInt8) : List Char :=
  [Nat.digitChar (b.toNat / 16), Nat.digitChar (b.toNat % 16)]

def encode (bytes : List UInt8) : List Char := bytes.flatMap byteDigits

lemma encode_injective : Function.Injective encode := by
  have hdigit : ∀ i < 16, ∀ j < 16, Nat.digitChar i = Nat.digitChar j → i = j := by decide
  intro a
  induction a with
  | nil =>
    rintro (_ | ⟨y, b⟩) h
    · rfl
    · cases h
  | cons x a ih =>
    rintro (_ | ⟨y, b⟩) h
    · cases h
    simp only [encode, List.flatMap_cons, byteDigits, List.cons_append, List.nil_append,
      List.cons.injEq] at h
    have hhigh := hdigit _ (by have := x.toNat_lt; omega) _ (by have := y.toNat_lt; omega) h.1
    have hlow := hdigit _ (Nat.mod_lt _ (by omega)) _ (Nat.mod_lt _ (by omega)) h.2.1
    rw [ih h.2.2, UInt8.toNat_inj.1 (show x.toNat = y.toNat by omega)]

structure Digest where
  bytes : List UInt8
  length_bytes : bytes.length = 32
  deriving DecidableEq

namespace Digest

def hex (d : Digest) : String := String.ofList (encode d.bytes)

/-- The digest that starts with the given bytes, filled up with zeros. -/
def ofBytes (bytes : List UInt8) : Digest where
  bytes := (bytes ++ List.replicate 32 0).take 32
  length_bytes := by simp

end Digest

end Tugboat.Hex
