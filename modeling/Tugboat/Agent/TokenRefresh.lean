import Mathlib.Logic.Function.Basic
import Tugboat.Lib.Run

/-!
# Refreshing projected tokens

For each projected token of a Ship the agent spawns a task that asks for a new token before the old
one expires, and writes it to the file.  The registry has the cancellation token of the task of each
file; a call that spawns another task for the file cancels the one that is registered.

A task looks at its cancellation token and acts in a later step.  If no call for the file comes in
between, then only the newest task writes the file, and its entry stays until it ends
(`newest_refreshes`).  Otherwise an older task still writes, or drops the newest one's entry
(`older_refreshes`).
-/

namespace Tugboat.TokenRefresh

/-- Where a task is. -/
inductive Phase
  /-- It waits for the time of the next refresh, or for a cancellation. -/
  | sleeping
  /-- It waits for the answer of the API server. -/
  | requesting
  /-- It has looked at its cancellation token, and writes the file next. -/
  | writing
  /-- It has left the loop. -/
  | ending
  /-- It has looked at its cancellation token, and drops its entry next. -/
  | forgetting
  | done
  deriving DecidableEq, Repr

/-- Whether it acts next as a task that is not cancelled. -/
def Phase.acts : Phase → Bool
  | writing | forgetting => true
  | sleeping | requesting | ending | done => false

/-- What a task does next. -/
inductive Action
  /-- The delay is over. -/
  | wake (fileExists : Bool)
  /-- The agent shuts down. -/
  | shutdown
  /-- `task_cancellation.cancelled()` -/
  | cancelled
  | reply (ok : Bool)
  | write
  | isCancelled
  | forget
  deriving DecidableEq, Repr

inductive Event
  /-- `spawn_service_account_token_refresh` -/
  | spawn
  | act (task : ℕ) (a : Action)
  deriving DecidableEq, Repr

/-- Where an action takes a task; one that is not possible leaves it where it is. -/
def Phase.next (cancelled : Bool) : Phase → Action → Phase
  | .sleeping, .wake fileExists => if fileExists then .requesting else .ending
  | .sleeping, .shutdown => .ending
  | .sleeping, .cancelled => if cancelled then .done else .sleeping
  | .requesting, .reply ok => if ok && !cancelled then .writing else .sleeping
  | .writing, .write => .sleeping
  | .ending, .isCancelled => if cancelled then .done else .forgetting
  | .forgetting, .forget => .done
  | phase, _ => phase

lemma Phase.acts_of_next {p : Phase} {a : Action} (h : (p.next true a).acts = true) :
    p.acts = true := by
  revert h
  fun_cases Phase.next true p a <;> simp_all [Phase.acts]

/-- The tasks of one file in the order in which they were spawned, and the entry of the file in
`TokenRefreshRegistry`. -/
structure Refreshers where
  entry : Option ℕ := none
  spawned : ℕ := 0
  phase : ℕ → Phase := fun _ => .done
  cancelled : ℕ → Bool := fun _ => false

namespace Refreshers

variable {s : Refreshers} {task : ℕ}

/-- The task that is registered is cancelled. -/
def replace (s : Refreshers) : Refreshers where
  entry := some s.spawned
  spawned := s.spawned + 1
  phase := Function.update s.phase s.spawned .sleeping
  cancelled task := s.cancelled task || s.entry = some task

def forget (s : Refreshers) : Refreshers :=
  { s with entry := none }

def step (s : Refreshers) : Event → Refreshers
  | .spawn => s.replace
  | .act task a =>
    let next := (s.phase task).next (s.cancelled task) a
    let moved := { s with phase := Function.update s.phase task next }
    if s.phase task = .forgetting ∧ a = .forget then moved.forget else moved

def WritesNewest (s : Refreshers) : Event → Prop
  | .act task .write => s.phase task = .writing → s.spawned = task + 1
  | _ => True

/-- As long as it has not ended, the newest task is registered, and the next call cancels it. -/
def Registered (s : Refreshers) : Prop :=
  ∀ task, s.spawned = task + 1 → s.phase task ≠ .done →
    s.entry = some task ∧ s.replace.cancelled task = true

/-- No task is spawned while another one is between looking at its cancellation token and acting. -/
def Undisturbed (s : Refreshers) : Event → Prop
  | .spawn => ∀ task, (s.phase task).acts = false
  | .act _ _ => True

/-! ## The invariant -/

structure Sound (s : Refreshers) : Prop where
  spawned : ∀ task, s.phase task ≠ .done → task < s.spawned
  registered : ∀ task, s.phase task ≠ .done → s.cancelled task = false → s.entry = some task
  newest : ∀ task, s.entry = some task → s.spawned = task + 1
  /-- A task is cancelled only for a later one. -/
  cancelled : ∀ task, s.cancelled task = true → task + 1 < s.spawned
  acts : ∀ task, (s.phase task).acts = true → s.cancelled task = false

lemma Sound.replace (h : s.Sound) (hfree : s.Undisturbed .spawn) : s.replace.Sound := by
  have hphase : ∀ task, s.replace.phase task =
      if task = s.spawned then .sleeping else s.phase task := fun _ => Function.update_apply ..
  refine ⟨fun task hlive => ?_, fun task hlive hcancelled => ?_, fun task htask => ?_,
    fun task hcancelled => ?_, fun task hacts => ?_⟩
  · rw [hphase] at hlive
    split at hlive
    · exact Nat.lt_succ_of_le (Nat.le_of_eq ‹_›)
    · exact Nat.lt_succ_of_lt (h.spawned task hlive)
  · rw [hphase] at hlive
    split at hlive
    · exact congrArg some (Eq.symm ‹_›)
    -- a task that is neither cancelled nor done was registered, and is cancelled now
    obtain ⟨hcancelled, hentry⟩ := Bool.or_eq_false_iff.mp hcancelled
    exact absurd (h.registered task hlive hcancelled) (of_decide_eq_false hentry)
  · exact congrArg (· + 1) (Option.some.inj htask)
  · rcases Bool.or_eq_true_iff.mp hcancelled with hcancelled | hentry
    · exact Nat.lt_succ_of_lt (h.cancelled task hcancelled)
    · exact Nat.lt_succ_of_le (Nat.le_of_eq (h.newest task (of_decide_eq_true hentry)).symm)
  · rw [hphase] at hacts
    split at hacts
    · cases hacts
    · simp [hfree task] at hacts

lemma Sound.move (h : s.Sound) {p : Phase} (hlive : p ≠ .done → s.phase task ≠ .done)
    (hacts : p.acts = true → s.cancelled task = false) :
    Sound { s with phase := Function.update s.phase task p } := by
  have hlive' : ∀ j, Function.update s.phase task p j ≠ .done → s.phase j ≠ .done := by
    intro j hj
    rw [Function.update_apply] at hj
    split at hj
    · exact ‹j = task› ▸ hlive hj
    · exact hj
  refine ⟨fun j hj => h.spawned j (hlive' j hj), fun j hj => h.registered j (hlive' j hj),
    h.newest, h.cancelled, fun j (hj : (Function.update s.phase task p j).acts = true) => ?_⟩
  rw [Function.update_apply] at hj
  split at hj
  · exact ‹j = task› ▸ hacts hj
  · exact h.acts j hj

lemma Sound.next (h : s.Sound) (task : ℕ) (a : Action) : Sound { s with
    phase := Function.update s.phase task ((s.phase task).next (s.cancelled task) a) } := by
  refine h.move (fun hne hdone => hne ?_) fun hacts => ?_
  · rw [hdone]
    rfl
  · by_contra hcancelled
    rw [Bool.not_eq_false] at hcancelled
    rw [hcancelled] at hacts
    exact nomatch hcancelled.symm.trans (h.acts task (Phase.acts_of_next hacts))

lemma Sound.start : Sound {} where
  spawned _ hlive := absurd rfl hlive
  registered _ hlive := absurd rfl hlive
  newest _ hentry := nomatch hentry
  cancelled _ hcancelled := nomatch hcancelled
  acts _ _ := rfl

lemma Sound.step (h : s.Sound) (e : Event) (he : s.Undisturbed e) : (s.step e).Sound := by
  cases e with
  | spawn => exact h.replace he
  | act task a =>
    have hmoved := h.next task a
    simp only [Refreshers.step]
    split
    next hforget =>
      refine ⟨hmoved.spawned, fun j hlive hcancelled => ?_, nofun,
        hmoved.cancelled, hmoved.acts⟩
      -- the entry that is dropped was that of the task, which has ended
      have hentry := h.registered task (by rw [hforget.1]; decide)
        (h.acts task (by rw [hforget.1]; rfl))
      obtain rfl : task = j :=
        Option.some.inj (hentry.symm.trans (hmoved.registered j hlive hcancelled))
      exact absurd (by rw [hforget.1, hforget.2]; exact Function.update_self ..) hlive
    · exact hmoved

lemma Sound.writesNewest (h : s.Sound) (e : Event) : s.WritesNewest e := by
  cases e with
  | spawn => trivial
  | act task a =>
    cases a with
    | write =>
      intro hwriting
      have hcancelled := h.acts task (by rw [hwriting]; rfl)
      exact h.newest task (h.registered task (by rw [hwriting]; decide) hcancelled)
    | wake _ | shutdown | cancelled | reply _ | isCancelled | forget => trivial

lemma Sound.allRegistered (h : s.Sound) : s.Registered := by
  intro task hnewest hlive
  have hcancelled : s.cancelled task = false :=
    Bool.eq_false_iff.mpr fun hc => Nat.lt_irrefl _ (hnewest ▸ h.cancelled task hc)
  have hentry := h.registered task hlive hcancelled
  exact ⟨hentry, Bool.or_eq_true_iff.mpr (.inr (decide_eq_true hentry))⟩

/-- Whatever the tasks do, only the newest one writes the file, and it is registered until it ends,
provided that no task is spawned while another one is between looking at its cancellation token and
acting. -/
theorem newest_refreshes (events : List Event) (hspawns : Run.AllSteps step Undisturbed {} events) :
    Run.AllSteps step WritesNewest {} events ∧ Run.AllStates step Registered {} events :=
  ⟨Run.AllSteps.of_invariant (I := Sound) (fun _ e h he => h.step e he)
      (fun _ e h _ => h.writesNewest e) {} events .start hspawns,
    Run.AllStates.of_invariant (I := Sound) (fun _ e h he => h.step e he)
      (fun _ h => h.allRegistered) {} events .start hspawns⟩

/-- A task has written the file when the Ship is reconciled again. -/
def restarted : List Event :=
  [.spawn, .act 0 (.wake true), .act 0 (.reply true), .act 0 .write, .spawn]

theorem newest_refreshes_restarted :
    (Run.exec step {} restarted).cancelled 0 = true ∧
      Run.AllStates step Registered {} restarted := by
  refine ⟨by decide, (newest_refreshes restarted ?_).2⟩
  refine ⟨fun _ => rfl, trivial, trivial, trivial, fun task => ?_, trivial⟩
  cases task with
  | zero | succ task => rfl

/-- The Ship is reconciled again when the task has looked at its cancellation token, before it
writes. -/
def beforeWrite : List Event :=
  [.spawn, .act 0 (.wake true), .act 0 (.reply true), .spawn]

/-- The same before the task drops its entry; the Ship is then reconciled once more. -/
def beforeForget : List Event :=
  [.spawn, .act 0 (.wake false), .act 0 .isCancelled, .spawn, .act 0 .forget]

theorem older_refreshes : ¬ (Run.exec step {} beforeWrite).WritesNewest (.act 0 .write) ∧
    ¬ (Run.exec step {} beforeForget).Registered ∧
    (Run.exec step {} (beforeForget ++ [.spawn])).cancelled 1 = false := by
  refine ⟨fun h => ?_, fun h => ?_, by decide⟩
  · cases h (by decide)
  · exact nomatch (h 1 (by decide) (by decide)).1

end Refreshers

end Tugboat.TokenRefresh
