import Tugboat.Lib.Program

/-!
# Programs over several interfaces

A component that talks to two others is a program over the sum of their interfaces, and a program
over one of them is also a program over the sum (`Program.onLeft`, `Program.onRight`).  What it does
there is what it does under the part of the protocol that is about its own calls (`wp_onLeft`,
`wp_onRight`).

Programs that keep to different protocols can be run together: `Protocol.either` is the protocol of
a program that keeps to one of two, each with a record of its own.
-/

namespace Tugboat

abbrev Interface.sum (E F : Interface) : Interface where
  Op := E.Op ⊕ F.Op
  Reply
    | .inl op => E.Reply op
    | .inr op => F.Reply op

variable {E F : Interface} {α γ δ : Type}

namespace Program

/-- A program that makes calls of the first interface only. -/
def onLeft : Program E α → Program (E.sum F) α
  | done a => done a
  | call op next => call (.inl op) fun r => (next r).onLeft

/-- A program that makes calls of the second interface only. -/
def onRight : Program F α → Program (E.sum F) α
  | done a => done a
  | call op next => call (.inr op) fun r => (next r).onRight

end Program

namespace Protocol

/-- What a protocol says about the calls of the first interface. -/
def left (P : Protocol (E.sum F) γ) : Protocol E γ where
  allowed g op := P.allowed g (.inl op)
  assumes g op := P.assumes g (.inl op)
  observe g op := P.observe g (.inl op)

/-- What a protocol says about the calls of the second interface. -/
def right (P : Protocol (E.sum F) γ) : Protocol F γ where
  allowed g op := P.allowed g (.inr op)
  assumes g op := P.assumes g (.inr op)
  observe g op := P.observe g (.inr op)

/-- The protocol of a program that makes calls of the second interface only. -/
def onRight (P : Protocol F γ) : Protocol (E.sum F) γ where
  allowed g
    | .inl _ => False
    | .inr op => P.allowed g op
  assumes g
    | .inl _ => fun _ => True
    | .inr op => P.assumes g op
  observe g
    | .inl _ => fun _ => g
    | .inr op => P.observe g op

/-- The protocol of a program that keeps to one of two protocols. -/
def either (P : Protocol E γ) (P' : Protocol E δ) : Protocol E (γ ⊕ δ) where
  allowed
    | .inl g => P.allowed g
    | .inr g => P'.allowed g
  assumes
    | .inl g => P.assumes g
    | .inr g => P'.assumes g
  observe
    | .inl g => fun op r => .inl (P.observe g op r)
    | .inr g => fun op r => .inr (P'.observe g op r)

end Protocol

namespace Program

lemma wp_onLeft {P : Protocol (E.sum F) γ} {Q : γ → α → Prop} :
    ∀ (g : γ) (p : Program E α), wp P g p.onLeft Q ↔ wp P.left g p Q
  | _, done _ => Iff.rfl
  | g, call op next =>
    and_congr_right fun _ => forall_congr' fun r => imp_congr_right fun _ =>
      wp_onLeft (P.left.observe g op r) (next r)

lemma wp_onRight {P : Protocol (E.sum F) γ} {Q : γ → α → Prop} :
    ∀ (g : γ) (p : Program F α), wp P g p.onRight Q ↔ wp P.right g p Q
  | _, done _ => Iff.rfl
  | g, call op next =>
    and_congr_right fun _ => forall_congr' fun r => imp_congr_right fun _ =>
      wp_onRight (P.right.observe g op r) (next r)

variable {Q : γ ⊕ δ → α → Prop}

lemma wp_either_inl {P : Protocol E γ} {P' : Protocol E δ} :
    ∀ (g : γ) (p : Program E α), wp (P.either P') (.inl g) p Q ↔ wp P g p fun g a => Q (.inl g) a
  | _, done _ => Iff.rfl
  | g, call op next =>
    and_congr_right fun _ => forall_congr' fun r => imp_congr_right fun _ =>
      wp_either_inl (P.observe g op r) (next r)

lemma wp_either_inr {P : Protocol E γ} {P' : Protocol E δ} :
    ∀ (g : δ) (p : Program E α), wp (P.either P') (.inr g) p Q ↔ wp P' g p fun g a => Q (.inr g) a
  | _, done _ => Iff.rfl
  | g, call op next =>
    and_congr_right fun _ => forall_congr' fun r => imp_congr_right fun _ =>
      wp_either_inr (P'.observe g op r) (next r)

end Program

end Tugboat
