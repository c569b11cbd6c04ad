import Mathlib.Tactic.Common

/-!
# Channels that keep the last value

A channel with one slot: every value that is sent takes the place of the one before, and a version
counts the values.  A receiver knows the version it has seen last.  `Receiver.changed` returns as
soon as there is another one, and `Receiver.borrowAndUpdate` then takes the value that is in the
slot, which may be a later one.

`Receiver.due` is what a receiver takes if it goes on now.  The lemmas say how each operation
changes it: only what is due can be taken, taking it leaves nothing due, and sending replaces it.
-/

namespace Tugboat.WatchChannel

/-- The slot with the number of values sent so far. -/
structure Slot (α : Type) where
  value : α
  version : ℕ
  deriving DecidableEq, Repr

/-- A receiver: the version it has seen last, and whether it was told of a change and has not yet
taken the value. -/
structure Receiver where
  seen : ℕ
  notified : Bool
  deriving DecidableEq, Repr

variable {α : Type}

def Slot.send (slot : Slot α) (a : α) : Slot α := ⟨a, slot.version + 1⟩

def Slot.subscribe (slot : Slot α) : Receiver := ⟨slot.version, false⟩

namespace Receiver

/-- Wait for a change.  As long as there is none, nothing happens. -/
def changed (slot : Slot α) (rx : Receiver) : Receiver :=
  if rx.seen ≠ slot.version then ⟨slot.version, true⟩ else rx

def borrowAndUpdate (slot : Slot α) (rx : Receiver) : Receiver × Option α :=
  if rx.notified then (⟨slot.version, false⟩, some slot.value) else (rx, none)

/-- What the receiver takes if it goes on now. -/
def due (slot : Slot α) (rx : Receiver) : Option α := ((rx.changed slot).borrowAndUpdate slot).2

lemma due_eq (slot : Slot α) (rx : Receiver) : rx.due slot =
      if rx.notified = true ∨ rx.seen ≠ slot.version then some slot.value else none := by
  by_cases hseen : rx.seen = slot.version
  · cases hnotified : rx.notified with
    | true | false => simp [due, changed, borrowAndUpdate, hseen, hnotified]
  · simp [due, changed, borrowAndUpdate, hseen]

lemma due_changed (slot : Slot α) (rx : Receiver) : (rx.changed slot).due slot = rx.due slot := by
  rw [due_eq, due_eq, changed]
  by_cases hseen : rx.seen = slot.version
  · rw [if_neg (not_not.2 hseen)]
  · rw [if_pos hseen]
    simp [hseen]

variable {rx : Receiver}

lemma due_borrowAndUpdate_of_notified (slot : Slot α) (h : rx.notified = true) :
    (rx.borrowAndUpdate slot).1.due slot = none := by
  rw [due_eq, borrowAndUpdate, if_pos h]
  simp

lemma borrowAndUpdate_of_notified (slot : Slot α) (h : rx.notified = true) :
    (rx.borrowAndUpdate slot).2 = rx.due slot := by
  rw [due_eq, if_pos (.inl h), borrowAndUpdate, if_pos h]

lemma borrowAndUpdate_of_not_notified (slot : Slot α) (h : rx.notified = false) :
    rx.borrowAndUpdate slot = (rx, none) := by
  rw [borrowAndUpdate, h]
  rfl

variable {slot : Slot α}

/-- A value that is sent is due at once, whatever was due before. -/
lemma due_send (h : rx.seen ≤ slot.version) (a : α) : rx.due (slot.send a) = some a := by
  have hne : rx.seen ≠ (slot.send a).version := Nat.ne_of_lt (Nat.lt_succ_of_le h)
  rw [due_eq, if_pos (.inr hne)]
  rfl

lemma due_subscribe (slot : Slot α) : slot.subscribe.due slot = none := by
  rw [due_eq]
  simp [Slot.subscribe]

lemma seen_changed_le (h : rx.seen ≤ slot.version) : (rx.changed slot).seen ≤ slot.version := by
  unfold changed
  split
  · exact Nat.le_refl _
  · exact h

lemma seen_borrowAndUpdate_le (h : rx.seen ≤ slot.version) :
    (rx.borrowAndUpdate slot).1.seen ≤ slot.version := by
  unfold borrowAndUpdate
  split
  · exact Nat.le_refl _
  · exact h

end Receiver

end Tugboat.WatchChannel
