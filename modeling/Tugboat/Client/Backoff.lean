import Tugboat.Lib.Saturating

/-!
# Delays between attempts

The delay before an attempt is repeated grows by a factor up to a maximum, which the loop of
`delayFor` applies to every product.  It does not apply it to the initial delay: the delays stay
below the maximum and never become shorter just when the initial delay is not above it
(`delayFor_bounded_iff`).
-/

namespace Tugboat.Backoff

open Saturating

/-! Durations are counted in nanoseconds. -/

def asMillis (duration : ℕ) : ℕ := duration / 1000000

def fromMillis (millis : ℕ) : ℕ := millis * 1000000

structure BackoffConfig where
  initialDelay : ℕ
  maxDelay : ℕ
  factor : ℕ

namespace BackoffConfig

/-- One product of the loop, which saturates at 128 bits. -/
def grow (factor maxMillis millis : ℕ) : ℕ := min (min (millis * factor) (2 ^ 128 - 1)) maxMillis

/-- The loop over the attempts, which ends early at the maximum. -/
def growLoop (factor maxMillis : ℕ) : ℕ → ℕ → ℕ
  | 0, millis => millis
  | attempt + 1, millis =>
    let next := grow factor maxMillis millis
    if next = maxMillis then next else growLoop factor maxMillis attempt next

def delayFor (config : BackoffConfig) (attempt : ℕ) : ℕ :=
  let millis := max (asMillis config.initialDelay) 1
  let maxMillis := max (asMillis config.maxDelay) 1
  fromMillis (min (growLoop (max config.factor 1) maxMillis attempt millis) u64Max)

variable {factor maxMillis millis : ℕ}

/-- A product is not smaller, as far as 64 bits and the maximum go. -/
lemma le_grow (hfactor : 1 ≤ factor) (hle : min millis u64Max ≤ maxMillis) :
    min millis u64Max ≤ min (grow factor maxMillis millis) u64Max := by
  have hmul : millis ≤ millis * factor := Nat.le_mul_of_pos_right millis hfactor
  have hwidth : u64Max ≤ 2 ^ 128 - 1 := by decide
  unfold grow
  omega

lemma growLoop_bounds (hfactor : 1 ≤ factor) :
    ∀ (attempt millis : ℕ), min millis u64Max ≤ maxMillis →
      min millis u64Max ≤ min (growLoop factor maxMillis attempt millis) u64Max ∧
      min (growLoop factor maxMillis attempt millis) u64Max ≤ maxMillis ∧
      min (growLoop factor maxMillis attempt millis) u64Max ≤
        min (growLoop factor maxMillis (attempt + 1) millis) u64Max
  | 0, millis, hle => by
    have hgrow := le_grow hfactor hle
    simp [growLoop, hle, hgrow]
  | attempt + 1, millis, hle => by
    have hgrow := le_grow hfactor hle
    have hnext : grow factor maxMillis millis ≤ maxMillis := Nat.min_le_right _ _
    obtain ⟨hlow, hhigh, hmono⟩ := growLoop_bounds hfactor attempt (grow factor maxMillis millis)
      ((Nat.min_le_left _ _).trans hnext)
    rw [growLoop, growLoop]
    -- at the maximum both loops have ended
    split
    next hmax => exact ⟨hgrow, (Nat.min_le_left _ _).trans hnext, le_rfl⟩
    next => exact ⟨hgrow.trans hlow, hhigh, hmono⟩

/-- **The delays are bounded and monotone** just when the initial delay is not above the maximum, in
whole milliseconds, of which there is at least one. -/
theorem delayFor_bounded_iff (config : BackoffConfig) :
    (∀ attempt, fromMillis 1 ≤ config.delayFor attempt ∧
        config.delayFor attempt ≤ max config.maxDelay (fromMillis 1) ∧
        config.delayFor attempt ≤ config.delayFor (attempt + 1)) ↔
      min (max (asMillis config.initialDelay) 1) u64Max ≤ max (asMillis config.maxDelay) 1 := by
  constructor
  · intro h
    obtain ⟨-, hmax, -⟩ := h 0
    simp only [delayFor, growLoop, fromMillis, asMillis] at hmax ⊢
    omega
  · intro hle attempt
    obtain ⟨hlow, hhigh, hmono⟩ := growLoop_bounds (le_max_right config.factor 1) attempt _ hle
    have hpos : 1 ≤ u64Max := by decide
    simp only [delayFor, fromMillis, asMillis] at *
    omega

/-- An initial delay of ten milliseconds with a maximum of five: the first delay is too long, and
the second one is shorter. -/
theorem delayFor_above_max :
    let config : BackoffConfig := ⟨fromMillis 10, fromMillis 5, 2⟩
    config.delayFor 0 = fromMillis 10 ∧ config.delayFor 1 = fromMillis 5 := by decide

end BackoffConfig

end Tugboat.Backoff
