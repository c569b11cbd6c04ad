import Mathlib.Data.List.Basic
import Mathlib.Logic.Function.Basic

/-!
# Histories of keyed collections, and replicas that follow them

A collection holds entries under keys.  Its history is a list of `Change`s; `replay` makes them.
Whoever watches the collection is told of each change in a `Report`, together with the entry the
change has found under its key.

A replica of the part that `p` selects can be kept up to date from the reports that show an entry it
selects: the new entry of a write, the old entry of a removal.  It misses one kind of change, a
write that replaces a selected entry by one that is not selected.  `Report.follow_select_iff` says
that this is all it misses.
-/

namespace Tugboat

variable {K V : Type}

/-- A change of a keyed collection: from `revision` on, `entry` is what is under `key`. -/
structure Change (K V : Type) where
  key : K
  revision : ℕ
  entry : Option V
  deriving DecidableEq, Repr

/-- A change as it is reported, with the entry that was under the key before. -/
structure Report (K V : Type) where
  change : Change K V
  previous : Option V
  deriving DecidableEq, Repr

/-- What a report shows: the new entry, or the one that is gone.  A removal that found nothing
shows nothing. -/
def Report.shown (r : Report K V) : Option V := r.change.entry.or r.previous

def select (p : K → V → Bool) (s : K → Option V) : K → Option V := fun k => (s k).filter (p k)

variable [DecidableEq K]

def Change.apply (s : K → Option V) (c : Change K V) : K → Option V :=
  Function.update s c.key c.entry

def replay (s : K → Option V) (cs : List (Change K V)) : K → Option V := cs.foldl Change.apply s

def reports (s : K → Option V) : List (Change K V) → List (Report K V)
  | [] => []
  | c :: cs => ⟨c, s c.key⟩ :: reports (c.apply s) cs

lemma map_change_reports (s : K → Option V) (cs : List (Change K V)) :
    (reports s cs).map (·.change) = cs := by
  induction cs generalizing s with
  | nil => rfl
  | cons c cs ih => rw [reports, List.map_cons, ih]

/-! ## Replicas -/

/-- The change takes an entry out of the selection without removing it. -/
def Change.Leaves (p : K → V → Bool) (s : K → Option V) (c : Change K V) : Prop :=
  (∃ old, s c.key = some old ∧ p c.key old = true) ∧ ∃ new, c.entry = some new ∧ p c.key new = false
  deriving Decidable

/-- A replica takes over the changes of which it is shown an entry it selects. -/
def Report.follow (p : K → V → Bool) (replica : K → Option V) (r : Report K V) : K → Option V :=
  if r.shown.any (p r.change.key) then r.change.apply replica else replica

/-- The selection changes where the collection does. -/
lemma select_apply (p : K → V → Bool) (s : K → Option V) (c : Change K V) :
    select p (c.apply s) = Function.update (select p s) c.key (c.entry.filter (p c.key)) := by
  funext k
  by_cases hk : k = c.key
  · subst hk
    simp only [select, Change.apply, Function.update_self]
  · simp only [select, Change.apply, Function.update_of_ne hk]

/-- **A replica stays equal to the selection exactly if nothing leaves it.** -/
theorem Report.follow_select_iff (p : K → V → Bool) (s : K → Option V) (c : Change K V) :
    Report.follow p (select p s) ⟨c, s c.key⟩ = select p (c.apply s) ↔ ¬ c.Leaves p s := by
  rw [select_apply]
  cases hentry : c.entry with
  | some new =>
    cases hnew : p c.key new with
    | true =>
      -- the new entry is shown and taken over
      have hnot : ¬ c.Leaves p s := by
        rintro ⟨-, new', hnew', hp⟩
        cases hentry.symm.trans hnew'
        cases hnew.symm.trans hp
      simp [Report.follow, Report.shown, hentry, hnew, Change.apply, hnot, Option.filter_some]
    | false =>
      -- the new entry is not shown, so the old one stays in the replica
      have hfollow : Report.follow p (select p s) ⟨c, s c.key⟩ = select p s := by
        simp [Report.follow, Report.shown, hentry, hnew]
      rw [hfollow, Option.filter_some, if_neg (by rw [hnew]; decide), eq_comm,
        Function.update_eq_self_iff]
      constructor
      · rintro hnone ⟨⟨old, hold, hp⟩, -⟩
        simp [select, hold, Option.filter_some, if_pos hp] at hnone
      · intro hstays
        rw [select]
        cases hs : s c.key with
        | none => rfl
        | some old =>
          have hp : ¬ p c.key old = true := fun hp =>
            hstays ⟨⟨old, hs, hp⟩, new, hentry, hnew⟩
          rw [Option.filter_some, if_neg hp]
  | none =>
    have hnot : ¬ c.Leaves p s := by
      rintro ⟨-, new, hnew, -⟩
      cases hentry.symm.trans hnew
    simp only [hnot, not_false_iff, iff_true, Option.filter_none]
    by_cases hshown : (s c.key).any (p c.key) = true
    · simp [Report.follow, Report.shown, hentry, hshown, Change.apply]
    have hfollow : Report.follow p (select p s) ⟨c, s c.key⟩ = select p s := by
      simp [Report.follow, Report.shown, hentry, hshown]
    -- the selection has nothing under the key, so clearing it changes nothing
    rw [hfollow, eq_comm, Function.update_eq_self_iff, select]
    cases hs : s c.key with
    | none => rfl
    | some old =>
      rw [hs] at hshown
      rw [Option.filter_some, if_neg (by simpa using hshown)]

end Tugboat
