import Mathlib.Logic.Function.Basic
import Tugboat.Lib.Run

/-!
# Locks of the volume state

The agent keeps the state of published volumes in files, and guards the files of a Ship by a lock.
The locks are in a map that is filled on demand: a task looks its lock up, waits for it and runs its
closure.  A task whose closure has removed the last file of a Ship drops the entry.

Two closures for one Ship never run at the same time if no task has a reference to a lock whose
entry is dropped (`closures_exclude`).  If a task waits for it then, the next task makes another
lock, and the two do not exclude each other (`closures_overlap`).
-/

namespace Tugboat.StateLocks

/-- Where a task is; `removes` says that its closure removes the state of a volume. -/
inductive Place
  | idle
  /-- The first look has found no entry. -/
  | missed (shipId : String) (removes : Bool)
  /-- It has a reference to the lock. -/
  | waiting (shipId : String) (removes : Bool) (lock : ℕ)
  /-- It runs its closure. -/
  | inside (shipId : String) (removes : Bool) (lock : ℕ)
  /-- It has removed a file, and looks at the directory next. -/
  | removed (shipId : String)
  /-- The directory was gone. -/
  | dropping (shipId : String)
  deriving DecidableEq, Repr

namespace Place

def reference : Place → Option (String × ℕ)
  | waiting shipId _ lock | inside shipId _ lock => some (shipId, lock)
  | idle | missed _ _ | removed _ | dropping _ => none

/-- The Ship and the lock of a task that runs its closure. -/
def running : Place → Option (String × ℕ)
  | inside shipId _ lock => some (shipId, lock)
  | idle | missed _ _ | waiting _ _ _ | removed _ | dropping _ => none

lemma reference_of_running {p : Place} {r : String × ℕ} (h : p.running = some r) :
    p.reference = some r := by
  cases p with
  | inside shipId removes lock => exact h
  | idle | missed _ _ | waiting _ _ _ | removed _ | dropping _ => cases h

end Place

/-- The map of locks, the locks that were made, and the tasks. -/
structure StateManager (κ : Type) where
  locks : String → Option ℕ := fun _ => none
  made : ℕ := 0
  held : ℕ → Bool := fun _ => false
  place : κ → Place := fun _ => .idle

inductive Event (κ : Type)
  /-- A task begins a section; this is the first look of `get_lock`. -/
  | withLock (task : κ) (shipId : String) (removes : Bool)
  /-- The entry of the map is taken or made. -/
  | entry (task : κ)
  | lock (task : κ)
  /-- The closure ends, and the lock is released. -/
  | finish (task : κ)
  | look (task : κ) (parentExists : Bool)
  | removeLock (task : κ)
  deriving DecidableEq, Repr

namespace StateManager

variable {κ : Type} [DecidableEq κ] {s : StateManager κ} {task : κ} {shipId : String}
  {removes : Bool} {lock : ℕ}

def move (s : StateManager κ) (task : κ) (p : Place) : StateManager κ :=
  { s with place := Function.update s.place task p }

def step (s : StateManager κ) : Event κ → StateManager κ
  | .withLock task shipId removes =>
    if s.place task = .idle then
      match s.locks shipId with
      | some lock => s.move task (.waiting shipId removes lock)
      | none => s.move task (.missed shipId removes)
    else s
  | .entry task =>
    match s.place task with
    | .missed shipId removes =>
      match s.locks shipId with
      | some lock => s.move task (.waiting shipId removes lock)
      | none =>
        { s.move task (.waiting shipId removes s.made) with
          locks := Function.update s.locks shipId (some s.made)
          made := s.made + 1 }
    | _ => s
  | .lock task =>
    match s.place task with
    | .waiting shipId removes lock =>
      if s.held lock then s
      else
        { s.move task (.inside shipId removes lock) with
          held := Function.update s.held lock true }
    | _ => s
  | .finish task =>
    match s.place task with
    | .inside shipId removes lock =>
      { s.move task (if removes then .removed shipId else .idle) with
        held := Function.update s.held lock false }
    | _ => s
  | .look task parentExists =>
    match s.place task with
    | .removed shipId => s.move task (if parentExists then .idle else .dropping shipId)
    | _ => s
  | .removeLock task =>
    match s.place task with
    | .dropping shipId =>
      { s.move task .idle with locks := Function.update s.locks shipId none }
    | _ => s

/-- Two closures for one Ship do not run at the same time. -/
def Exclusive (s : StateManager κ) : Prop :=
  ∀ i j shipId lock lock', (s.place i).running = some (shipId, lock) →
    (s.place j).running = some (shipId, lock') → i = j

/-- An entry is dropped only if no task has a reference to the lock of the Ship. -/
def DropsUnused (s : StateManager κ) : Event κ → Prop
  | .removeLock task => ∀ shipId, s.place task = .dropping shipId →
      ∀ j r, (s.place j).reference = some r → r.1 ≠ shipId
  | _ => True

/-! ## The invariant -/

structure Sound (s : StateManager κ) : Prop where
  /-- The locks that tasks have references to are those in the map. -/
  listed : ∀ i r, (s.place i).reference = some r → s.locks r.1 = some r.2
  held : ∀ i r, (s.place i).running = some r → s.held r.2 = true
  unique : ∀ i j r r', (s.place i).running = some r → (s.place j).running = some r' →
    r.2 = r'.2 → i = j

omit [DecidableEq κ] in
lemma Sound.exclusive (h : s.Sound) : s.Exclusive := by
  intro i j shipId lock lock' hi hj
  have hlock := h.listed i _ (Place.reference_of_running hi)
  have hlock' := h.listed j _ (Place.reference_of_running hj)
  exact h.unique i j _ _ hi hj (Option.some.inj (hlock.symm.trans hlock'))

lemma of_moved {f : κ → Place} {p : Place} {g : Place → Option (String × ℕ)} {i : κ}
    {r : String × ℕ} (h : g (Function.update f task p i) = some r) :
    (i = task ∧ g p = some r) ∨ (i ≠ task ∧ g (f i) = some r) := by
  by_cases heq : i = task
  · subst heq
    exact .inl ⟨rfl, by rwa [Function.update_self] at h⟩
  · exact .inr ⟨heq, by rwa [Function.update_of_ne heq] at h⟩

lemma Sound.move (h : s.Sound) {p : Place} (hrunning : p.running = none)
    (hlisted : ∀ r, p.reference = some r → s.locks r.1 = some r.2) : (s.move task p).Sound := by
  have hold : ∀ i r, ((s.move task p).place i).running = some r →
      (s.place i).running = some r := by
    intro i r hi
    rcases of_moved hi with ⟨-, hp⟩ | ⟨-, hi⟩
    · cases hrunning.symm.trans hp
    · exact hi
  refine ⟨fun i r hi => ?_, fun i r hi => h.held i r (hold i r hi), fun i j r r' hi hj =>
    h.unique i j r r' (hold i r hi) (hold j r' hj)⟩
  rcases of_moved hi with ⟨-, hp⟩ | ⟨-, hi⟩
  · exact hlisted r hp
  · exact h.listed i r hi

lemma Sound.wait (h : s.Sound) (hlock : s.locks shipId = some lock) :
    (s.move task (.waiting shipId removes lock)).Sound :=
  h.move rfl fun _ hr => Option.some.inj hr ▸ hlock

omit [DecidableEq κ] in
/-- A lock is made for a Ship that has none; no task has a reference to one. -/
lemma Sound.insert (h : s.Sound) (hnone : s.locks shipId = none) (made : ℕ) :
    Sound { s with locks := Function.update s.locks shipId (some lock), made } := by
  refine ⟨fun i r hi => ?_, h.held, h.unique⟩
  have hlock := h.listed i r hi
  have hne : r.1 ≠ shipId := by
    intro heq
    simp [heq, hnone] at hlock
  exact (Function.update_of_ne hne ..).trans hlock

lemma Sound.acquire (h : s.Sound) (hplace : s.place task = .waiting shipId removes lock)
    (hfree : s.held lock = false) : Sound { s.move task (.inside shipId removes lock) with
      held := Function.update s.held lock true } := by
  have hlock : s.locks shipId = some lock := h.listed task (shipId, lock) (by rw [hplace]; rfl)
  -- a closure that runs has its lock, so none runs with the one that is free
  have hother : ∀ i r, (s.place i).running = some r → r.2 ≠ lock := by
    intro i r hi heq
    have hheld := h.held i r hi
    simp [heq, hfree] at hheld
  refine ⟨fun i r hi => ?_, fun i r hi => ?_, fun i j r r' hi hj heq => ?_⟩
  · rcases of_moved hi with ⟨-, hp⟩ | ⟨-, hi⟩
    · exact Option.some.inj hp ▸ hlock
    · exact h.listed i r hi
  · rcases of_moved hi with ⟨-, hp⟩ | ⟨-, hi⟩
    · exact Option.some.inj hp ▸ Function.update_self ..
    · exact (Function.update_of_ne (hother i r hi) ..).trans (h.held i r hi)
  · rcases of_moved hi with ⟨rfl, hp⟩ | ⟨-, hi'⟩
    · cases hp
      rcases of_moved hj with ⟨rfl, -⟩ | ⟨-, hj'⟩
      · rfl
      · exact absurd heq.symm (hother j r' hj')
    · rcases of_moved hj with ⟨rfl, hp⟩ | ⟨-, hj'⟩
      · cases hp
        exact absurd heq (hother i r hi')
      · exact h.unique i j r r' hi' hj' heq

lemma Sound.release (h : s.Sound) (hplace : s.place task = .inside shipId removes lock)
    {p : Place} (hrunning : p.running = none) (hp : p.reference = none) :
    Sound { s.move task p with held := Function.update s.held lock false } := by
  have hmoved : (s.move task p).Sound := h.move hrunning fun r hr => by rw [hp] at hr; cases hr
  refine ⟨hmoved.listed, fun i r hi => ?_, hmoved.unique⟩
  rcases of_moved hi with ⟨-, hr⟩ | ⟨hne, hi⟩
  · cases hrunning.symm.trans hr
  have hlock : r.2 ≠ lock := fun heq => hne (h.unique i task r (shipId, lock) hi
    (by rw [hplace]; rfl) heq)
  exact (Function.update_of_ne hlock ..).trans (h.held i r hi)

lemma Sound.drop (h : s.Sound) (hunused : ∀ j r, (s.place j).reference = some r → r.1 ≠ shipId) :
    Sound { s.move task .idle with locks := Function.update s.locks shipId none } := by
  have hdropped : Sound { s with locks := Function.update s.locks shipId none } :=
    ⟨fun i r hi => (Function.update_of_ne (hunused i r hi) ..).trans (h.listed i r hi), h.held,
      h.unique⟩
  exact hdropped.move (p := .idle) rfl nofun

omit [DecidableEq κ] in
lemma Sound.start : Sound ({} : StateManager κ) where
  listed _ _ hr := nomatch hr
  held _ _ hr := nomatch hr
  unique _ _ _ _ hr := nomatch hr

lemma Sound.step (h : s.Sound) (e : Event κ) (he : s.DropsUnused e) : (s.step e).Sound := by
  cases e with
  | withLock task shipId removes =>
    simp only [StateManager.step]
    split
    · split
      · exact h.wait ‹_›
      · exact h.move rfl nofun
    · exact h
  | entry task =>
    simp only [StateManager.step]
    split
    · split
      · exact h.wait ‹_›
      · exact (h.insert ‹_› (s.made + 1)).wait (Function.update_self ..)
    · exact h
  | lock task =>
    simp only [StateManager.step]
    split
    · split
      · exact h
      · exact h.acquire ‹_› (Bool.eq_false_iff.mpr ‹_›)
    · exact h
  | finish task =>
    simp only [StateManager.step]
    split
    · exact h.release ‹_› (by split <;> rfl) (by split <;> rfl)
    · exact h
  | look task parentExists =>
    simp only [StateManager.step]
    split
    · cases parentExists with
      | true | false => exact h.move rfl nofun
    · exact h
  | removeLock task =>
    simp only [StateManager.step]
    split
    · exact h.drop (he _ ‹_›)
    · exact h

/-- Whatever any number of tasks do, two closures for one Ship never run at the same time, provided
that an entry is dropped only if no task has a reference to its lock. -/
theorem closures_exclude (events : List (Event κ))
    (hdrops : Run.AllSteps step DropsUnused ({} : StateManager κ) events) :
    Run.AllStates step Exclusive ({} : StateManager κ) events :=
  Run.AllStates.of_invariant (I := Sound) (fun _ e h he => h.step e he)
    (fun _ h => h.exclusive) {} events .start hdrops

/-! ## Tasks of one Ship -/

/-- A task removes the last state of the Ship while no other is there, and the Ship comes back. -/
def removedAndBack : List (Event Bool) :=
  [.withLock false "u1" true, .entry false, .lock false, .finish false, .look false false,
    .removeLock false, .withLock true "u1" false, .entry true, .lock true]

theorem closures_exclude_alone :
    (Run.exec step ({} : StateManager Bool) removedAndBack).place true = .inside "u1" false 1 ∧
      Run.AllStates step Exclusive ({} : StateManager Bool) removedAndBack := by
  refine ⟨by decide, closures_exclude removedAndBack ?_⟩
  refine ⟨trivial, trivial, trivial, trivial, trivial, ?_, trivial, trivial, trivial, trivial⟩
  intro shipId _ j r hr
  cases j with
  | false | true => cases hr

inductive Caller
  | remover
  | waiter
  | newcomer
  deriving DecidableEq

/-- A task waits for the lock while its entry is dropped, and another one comes. -/
def overlapping : List (Event Caller) :=
  [.withLock .remover "u1" true, .entry .remover, .lock .remover, .withLock .waiter "u1" false,
    .finish .remover, .look .remover false, .removeLock .remover, .lock .waiter,
    .withLock .newcomer "u1" false, .entry .newcomer, .lock .newcomer]

theorem closures_overlap :
    (Run.exec step {} overlapping).place .waiter = .inside "u1" false 0 ∧
      (Run.exec step {} overlapping).place .newcomer = .inside "u1" false 1 ∧
      ¬ (Run.exec step {} overlapping).Exclusive := by
  have hwaiter : (Run.exec step {} overlapping).place .waiter = .inside "u1" false 0 := by decide
  have hnewcomer : (Run.exec step {} overlapping).place .newcomer = .inside "u1" false 1 := by
    decide
  refine ⟨hwaiter, hnewcomer, fun h => ?_⟩
  exact nomatch h .waiter .newcomer "u1" 0 1 (by rw [hwaiter]; rfl) (by rw [hnewcomer]; rfl)

end StateManager

end Tugboat.StateLocks
