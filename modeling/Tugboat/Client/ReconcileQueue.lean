import Mathlib.Logic.Function.Basic
import Tugboat.Lib.Run
import Tugboat.Resources.ConfigMap

/-!
# The controller queue

`ReconcileQueue::spawn` starts a task for every event.  A task first enters itself under the key of
its object, cancelling the task that it finds there, and then reconciles, again and again after
waiting; at the end it takes its entry out of the map.  Ids are given out by `spawn`, but the entry
is made by the task, whenever it comes to run.

Two things follow.  The task of an older event may come to run after that of a newer one, and then
it is the newer one that is cancelled.  And a cancelled task stops only where it looks at its token,
so the reconcile it has begun can run at the same time as that of the next task.
`ReconcileQueue.Orderly` rules these two out, and `ReconcileQueue.serialized_of_orderly` says that
nothing else goes wrong.
-/

namespace Tugboat

variable {T : Type} [ObjectMetaResource T]

/-- What a controller is told about an object. -/
inductive ReconcileEvent (T : Type)
  | applied (resource : T)
  | deleted (resource : T)
  deriving DecidableEq, Repr

namespace ReconcileEvent

def resource {T : Type} : ReconcileEvent T → T
  | .applied resource | .deleted resource => resource

/-- The key that the work on an object is serialized by. -/
def resourceKey (event : ReconcileEvent T) : Option String :=
  (Resource.name event.resource).map fun name =>
    match Resource.namespace event.resource with
    | some ns => ns ++ "/" ++ name
    | none => name

end ReconcileEvent

/-! ## Tasks -/

inductive TaskPhase
  /-- It has not run yet. -/
  | spawned
  /-- It is in the map and looks at its token next. -/
  | registered
  /-- It has found its token not cancelled and enters the `select!` next. -/
  | checked
  /-- The first reconcile runs, in the `select!`. -/
  | reconciling
  /-- It waits before it reconciles again. -/
  | waiting
  /-- It has found its token not cancelled and gets the latest version of the object. -/
  | fetching
  /-- A later reconcile runs. -/
  | requeued
  /-- It takes its entry out of the map next. -/
  | finishing
  | ended
  deriving DecidableEq, Repr

/-- The task of one event: its key, where it is and whether its token is cancelled.  That it has
started to reconcile is recorded for the statements. -/
structure QueueTask where
  key : String
  phase : TaskPhase := .spawned
  cancelled : Bool := false
  started : Bool := false
  deriving DecidableEq, Repr

/-- What the request for the latest version of an object comes to. -/
inductive Fetched
  | found
  | missing
  | failed
  deriving DecidableEq, Repr

/-- What a task does by itself, without the map. -/
inductive TaskAction
  /-- Look at the token after the entry is made. -/
  | check
  /-- The `select!` polls the reconcile for the first time. -/
  | start
  /-- The `select!` finds the token cancelled and drops the reconcile. -/
  | notice
  /-- A reconcile returns; it asks to be called again, or has failed, or neither. -/
  | finish (requeue : Bool)
  /-- The wait is over; look at the token. -/
  | wake
  | fetch (result : Fetched)
  deriving DecidableEq, Repr

namespace QueueTask

/-- One action of a task.  `shutdown` says that the token of the whole controller is cancelled,
which cancels all tokens. -/
def act (shutdown : Bool) (t : QueueTask) : TaskAction → QueueTask
  | .check =>
    if t.phase = .registered then
      { t with phase := if t.cancelled || shutdown then .ended else .checked }
    else t
  | .start =>
    -- a branch of the `select!` may be polled before the one that sees the token
    if t.phase = .checked then { t with phase := .reconciling, started := true } else t
  | .notice =>
    if (t.phase = .checked ∨ t.phase = .reconciling) ∧ (t.cancelled || shutdown) then
      { t with phase := .finishing }
    else t
  | .finish requeue =>
    if t.phase = .reconciling ∨ t.phase = .requeued then
      { t with phase := if requeue then .waiting else .finishing }
    else t
  | .wake =>
    if t.phase = .waiting then
      { t with phase := if t.cancelled || shutdown then .finishing else .fetching }
    else t
  | .fetch result =>
    if t.phase = .fetching then
      { t with phase := match result with
        | .found => .requeued
        | .missing => .finishing
        | .failed => .waiting }
    else t

def executing (t : QueueTask) : Bool := t.phase = .reconciling || t.phase = .requeued

/-- The task is past the point where it looks at its token, or is reconciling. -/
def active (t : QueueTask) : Bool := t.executing || t.phase = .checked || t.phase = .fetching

def starts (t : QueueTask) (a : TaskAction) : Bool :=
  (a = .start && t.phase = .checked) || (a = .fetch .found && t.phase = .fetching)

end QueueTask

/-! ## The queue -/

/-- The tasks there have been, in the order of their ids, the map of tasks in flight, and whether
the controller is shut down. -/
structure ReconcileQueue where
  tasks : List QueueTask := []
  inFlight : String → Option ℕ := fun _ => none
  shutdown : Bool := false

namespace ReconcileQueue

/-- What happens to a queue: an event is passed to `spawn`, the controller is shut down, and the
steps of the tasks, in any order. -/
inductive Event (T : Type)
  | spawn (event : ReconcileEvent T)
  | shutdown
  | register (id : ℕ)
  | act (id : ℕ) (action : TaskAction)
  | cleanup (id : ℕ)
  deriving DecidableEq, Repr

/-- Something happens to one task. -/
def atTask (q : ReconcileQueue) (id : ℕ) (f : QueueTask → QueueTask) : ReconcileQueue :=
  { q with tasks := q.tasks.modify id f }

def cancelPrevious (q : ReconcileQueue) (key : String) : ReconcileQueue :=
  match q.inFlight key with
  | some previous => q.atTask previous fun t => { t with cancelled := true }
  | none => q

def enroll (q : ReconcileQueue) (id : ℕ) (key : String) : ReconcileQueue where
  tasks := q.tasks.modify id fun t => { t with phase := .registered }
  inFlight := Function.update q.inFlight key (some id)
  shutdown := q.shutdown

/-- Under the lock of the map: cancel the task that is there, and enter the task `id`. -/
def enter (q : ReconcileQueue) (id : ℕ) (key : String) : ReconcileQueue :=
  (q.cancelPrevious key).enroll id key

/-- Under the lock of the map: take the entry out, if it is still the one of the task `id`. -/
def leave (q : ReconcileQueue) (id : ℕ) (key : String) : ReconcileQueue where
  tasks := q.tasks.modify id fun t => { t with phase := .ended }
  inFlight := if q.inFlight key = some id then Function.update q.inFlight key none else q.inFlight
  shutdown := q.shutdown

/-- One step.  An event without a name has a task of its own that shares nothing, which is left
out. -/
def step (q : ReconcileQueue) : Event T → ReconcileQueue
  | .spawn event =>
    match event.resourceKey with
    | some key => { q with tasks := q.tasks ++ [{ key }] }
    | none => q
  | .shutdown => { q with shutdown := true }
  | .register id =>
    match q.tasks[id]? with
    | some t => if t.phase = .spawned then q.enter id t.key else q
    | none => q
  | .act id action => q.atTask id fun t => t.act q.shutdown action
  | .cleanup id =>
    match q.tasks[id]? with
    | some t => if t.phase = .finishing then q.leave id t.key else q
    | none => q

/-- At most one call of the reconciler is executing for each key. -/
def Serialized (q : ReconcileQueue) : Prop :=
  ∀ (i j : ℕ) (t u : QueueTask), q.tasks[i]? = some t → q.tasks[j]? = some u → t.key = u.key →
    t.executing = true → u.executing = true → i = j

/-- The step prefers no older event: a task cancels no task of a later event of its key, and does
not start a reconcile once a later event of its key has been reconciled. -/
def PrefersNoOlder (q : ReconcileQueue) : Event T → Prop
  | .register id => ∀ t ∈ q.tasks[id]?, t.phase = .spawned → ∀ other ∈ q.inFlight t.key, other < id
  | .act id action => ∀ t ∈ q.tasks[id]?, t.starts action = true →
      ∀ (j : ℕ) (u : QueueTask), id < j → q.tasks[j]? = some u → u.key = t.key → u.started = false
  | _ => True

/-- The condition on a step: a task makes its entry after the tasks of all earlier events of its
key, and starts a reconcile only when none of these is reconciling or past the look at its token. -/
def Orderly (q : ReconcileQueue) : Event T → Prop
  | .register id => ∀ t ∈ q.tasks[id]?, t.phase = .spawned →
      ∀ (i : ℕ) (u : QueueTask), i < id → q.tasks[i]? = some u → u.key = t.key →
        u.phase ≠ .spawned
  | .act id action => ∀ t ∈ q.tasks[id]?, t.starts action = true →
      ∀ (i : ℕ) (u : QueueTask), i < id → q.tasks[i]? = some u → u.key = t.key → u.active = false
  | _ => True

/-- What holds of all tasks with their ids can be decided. -/
instance decidableAllTasks (l : List QueueTask) (P : ℕ → QueueTask → Prop)
    [∀ i t, Decidable (P i t)] : Decidable (∀ i t, l[i]? = some t → P i t) :=
  decidable_of_iff (∀ p ∈ l.zipIdx, P p.2 p.1)
    ⟨fun h i t ht => h (t, i) (List.mk_mem_zipIdx_iff_getElem?.2 ht),
      fun h p hp => h p.2 p.1 (List.mk_mem_zipIdx_iff_getElem?.1 hp)⟩

instance : DecidablePred Serialized := fun q =>
  decidable_of_iff (∀ (i : ℕ) (t : QueueTask), q.tasks[i]? = some t →
      ∀ (j : ℕ) (u : QueueTask), q.tasks[j]? = some u → t.key = u.key → t.executing = true →
        u.executing = true → i = j)
    ⟨fun h i j t u ht hu => h i t ht j u hu, fun h i t ht j u hu => h i j t u ht hu⟩

instance (q : ReconcileQueue) (e : Event T) : Decidable (q.PrefersNoOlder e) :=
  match e with
  | .register _ => inferInstanceAs (Decidable (∀ _ ∈ _, _))
  | .act id action => decidable_of_iff (∀ t ∈ q.tasks[id]?, t.starts action = true →
      ∀ (j : ℕ) (u : QueueTask), q.tasks[j]? = some u → id < j → u.key = t.key → u.started = false)
    ⟨fun h t ht hs j u hj hu => h t ht hs j u hu hj, fun h t ht hs j u hu hj => h t ht hs j u hj hu⟩
  | .spawn _ | .shutdown | .cleanup _ => inferInstanceAs (Decidable True)

instance (q : ReconcileQueue) (e : Event T) : Decidable (q.Orderly e) :=
  match e with
  | .register id => decidable_of_iff (∀ t ∈ q.tasks[id]?, t.phase = .spawned →
      ∀ (i : ℕ) (u : QueueTask), q.tasks[i]? = some u → i < id → u.key = t.key →
        u.phase ≠ .spawned)
    ⟨fun h t ht hs i u hi hu => h t ht hs i u hu hi, fun h t ht hs i u hu hi => h t ht hs i u hi hu⟩
  | .act id action => decidable_of_iff (∀ t ∈ q.tasks[id]?, t.starts action = true →
      ∀ (i : ℕ) (u : QueueTask), q.tasks[i]? = some u → i < id → u.key = t.key →
        u.active = false)
    ⟨fun h t ht hs i u hi hu => h t ht hs i u hu hi, fun h t ht hs i u hu hi => h t ht hs i u hi hu⟩
  | .spawn _ | .shutdown | .cleanup _ => inferInstanceAs (Decidable True)

/-! ## What the tasks know of each other -/

def Retired (t : QueueTask) : Prop := t.cancelled = true ∨ t.phase = .ended

/-- How a task `t` stands to the task `u` of a later event of its key.  Once `u` is in the map, `t`
has been there and is retired; once `u` has started to reconcile, `t` does not reconcile any
more. -/
def Behind (t u : QueueTask) : Prop :=
  (u.phase ≠ .spawned → t.phase ≠ .spawned ∧ Retired t) ∧ (u.started = true → t.active = false)

/-- A task that reconciles or has reconciled is marked so, and has been in the map. -/
def Recorded (t : QueueTask) : Prop :=
  (t.executing = true ∨ t.phase = .waiting ∨ t.phase = .fetching → t.started = true) ∧
    (t.started = true → t.phase ≠ .spawned)

/-- The invariant.  The map leads to tasks of its keys that have entered themselves, and all
others that have are retired. -/
structure Sound (q : ReconcileQueue) : Prop where
  behind : ∀ (i j : ℕ) (t u : QueueTask), i < j → q.tasks[i]? = some t → q.tasks[j]? = some u →
    t.key = u.key → Behind t u
  recorded : ∀ (id : ℕ) (t : QueueTask), q.tasks[id]? = some t → Recorded t
  mapped : ∀ key id, q.inFlight key = some id →
    ∃ t, q.tasks[id]? = some t ∧ t.key = key ∧ t.phase ≠ .spawned
  retired : ∀ (id : ℕ) (t : QueueTask), q.tasks[id]? = some t → t.phase ≠ .spawned →
    q.inFlight t.key ≠ some id → Retired t

lemma sound_new : ({} : ReconcileQueue).Sound where
  behind := by simp
  recorded := by simp
  mapped := by simp
  retired := by simp

lemma Sound.serialized {q : ReconcileQueue} (h : q.Sound) : q.Serialized := by
  -- of two tasks that reconcile the earlier one would be inactive
  have hlt : ∀ (i j : ℕ) (t u : QueueTask), i < j → q.tasks[i]? = some t →
      q.tasks[j]? = some u → t.key = u.key → t.executing = true → u.executing = true → False := by
    intro i j t u hij ht hu hkey htx hux
    have hstarted : u.started = true := (h.recorded j u hu).1 (.inl hux)
    have hinactive := (h.behind i j t u hij ht hu hkey).2 hstarted
    simp [QueueTask.active, htx] at hinactive
  intro i j t u ht hu hkey htx hux
  rcases Nat.lt_trichotomy i j with hij | hij | hij
  · exact (hlt i j t u hij ht hu hkey htx hux).elim
  · exact hij
  · exact (hlt j i u t hij hu ht hkey.symm hux htx).elim

lemma active_of_starts {t : QueueTask} {a : TaskAction} (h : t.starts a = true) :
    t.active = true := by
  simp only [QueueTask.starts, Bool.or_eq_true, Bool.and_eq_true, decide_eq_true_eq] at h
  rcases h with ⟨-, hphase⟩ | ⟨-, hphase⟩ <;> simp [QueueTask.active, hphase]

omit [ObjectMetaResource T] in
lemma Sound.prefersNoOlder {q : ReconcileQueue} (h : q.Sound) (e : Event T) :
    q.PrefersNoOlder e := by
  cases e with
  | spawn event | shutdown | cleanup id => trivial
  | register id =>
    intro t ht hspawned other hother
    obtain ⟨u, hu, hkey, hphase⟩ := h.mapped t.key other hother
    rcases Nat.lt_trichotomy other id with hlt | heq | hgt
    · exact hlt
    · rw [heq, ht] at hu
      cases hu
      exact absurd hspawned hphase
    · exact absurd hspawned ((h.behind id other t u hgt ht hu hkey.symm).1 hphase).1
  | act id action =>
    intro t ht hstarts j u hij hu hkey
    cases hstarted : u.started with
    | false => rfl
    | true =>
      have hinactive := (h.behind id j t u hij ht hu hkey.symm).2 hstarted
      simp [active_of_starts hstarts] at hinactive

/-! ## One step -/

section

variable {q : ReconcileQueue} {id : ℕ} {t : QueueTask}

lemma getElem?_atTask {other : ℕ} {f : QueueTask → QueueTask}
    (h : (q.atTask id f).tasks[other]? = some t) : (id ≠ other ∧ q.tasks[other]? = some t) ∨
      (id = other ∧ ∃ t', q.tasks[other]? = some t' ∧ f t' = t) := by
  have hget : (q.tasks.modify id f)[other]? = some t := h
  rw [List.getElem?_modify] at hget
  obtain ⟨t', ht', hf⟩ := Option.map_eq_some_iff.1 hget
  by_cases hid : id = other
  · rw [if_pos hid] at hf
    exact .inr ⟨hid, t', ht', hf⟩
  · rw [if_neg hid] at hf
    exact .inl ⟨hid, hf ▸ ht'⟩

lemma getElem?_atTask_of_some {other : ℕ} (f : QueueTask → QueueTask)
    (h : q.tasks[other]? = some t) :
    (q.atTask id f).tasks[other]? = some (if id = other then f t else t) := by
  show (q.tasks.modify id f)[other]? = _
  rw [List.getElem?_modify, h]
  rfl

/-- A change of one task keeps the invariant if it moves the task neither into nor out of the map,
a retired task stays retired and inactive, and the task starts to reconcile only when the earlier
ones of its key are inactive. -/
lemma Sound.atTask (h : q.Sound) {f : QueueTask → QueueTask}
    (hkey : ∀ t, q.tasks[id]? = some t → (f t).key = t.key)
    (hspawned : ∀ t, q.tasks[id]? = some t → ((f t).phase = .spawned ↔ t.phase = .spawned))
    (hretired : ∀ t, Retired t → Retired (f t) ∧ (t.active = false → (f t).active = false))
    (hrecorded : ∀ t, Recorded t → Recorded (f t))
    (hstarted : ∀ t, q.tasks[id]? = some t → (f t).started = true → t.started = true ∨
      ∀ (i : ℕ) (u : QueueTask), i < id → q.tasks[i]? = some u → u.key = t.key → u.active = false) :
    (q.atTask id f).Sound where
  behind i j t u hij ht hu htu := by
    rcases getElem?_atTask ht with ⟨hi, ht'⟩ | ⟨rfl, t', ht', rfl⟩
    · rcases getElem?_atTask hu with ⟨-, hu'⟩ | ⟨rfl, u', hu', rfl⟩
      · exact h.behind i j t u hij ht' hu' htu
      -- the later task is the one that changes
      rw [hkey u' hu'] at htu
      obtain ⟨hentered, hinactive⟩ := h.behind i id t u' hij ht' hu' htu
      refine ⟨fun hphase => hentered ((hspawned u' hu').not.1 hphase), fun hstart => ?_⟩
      rcases hstarted u' hu' hstart with hstart | hearlier
      · exact hinactive hstart
      · exact hearlier i t hij ht' htu
    · rcases getElem?_atTask hu with ⟨-, hu'⟩ | ⟨rfl, -⟩
      · -- the earlier one is
        rw [hkey t' ht'] at htu
        obtain ⟨hentered, hinactive⟩ := h.behind id j t' u hij ht' hu' htu
        refine ⟨fun hphase => ?_, fun hstart => ?_⟩
        · obtain ⟨hphase', hret⟩ := hentered hphase
          exact ⟨(hspawned t' ht').not.2 hphase', (hretired t' hret).1⟩
        · have hret := (hentered ((h.recorded j u hu').2 hstart)).2
          exact (hretired t' hret).2 (hinactive hstart)
      · omega
  recorded other t ht := by
    rcases getElem?_atTask ht with ⟨-, ht'⟩ | ⟨rfl, t', ht', rfl⟩
    · exact h.recorded other t ht'
    · exact hrecorded t' (h.recorded id t' ht')
  mapped key other hmap := by
    obtain ⟨t, ht, htkey, hphase⟩ := h.mapped key other hmap
    refine ⟨_, getElem?_atTask_of_some f ht, ?_⟩
    by_cases hid : id = other
    · subst hid
      rw [if_pos rfl, hkey t ht]
      exact ⟨htkey, (hspawned t ht).not.2 hphase⟩
    · rw [if_neg hid]
      exact ⟨htkey, hphase⟩
  retired other t ht hphase hmap := by
    rcases getElem?_atTask ht with ⟨-, ht'⟩ | ⟨rfl, t', ht', rfl⟩
    · exact h.retired other t ht' hphase hmap
    · rw [hkey t' ht'] at hmap
      exact (hretired t' (h.retired id t' ht' ((hspawned t' ht').not.1 hphase) hmap)).1

/-! ### The actions of a task -/

lemma key_act (s : Bool) (t : QueueTask) (a : TaskAction) : (t.act s a).key = t.key := by
  cases a <;> simp only [QueueTask.act] <;> split <;> rfl

lemma spawned_act (s : Bool) (t : QueueTask) (a : TaskAction) :
    (t.act s a).phase = .spawned ↔ t.phase = .spawned := by
  obtain ⟨key, phase, cancelled, started⟩ := t
  cases a with
  | fetch result => cases phase <;> cases result <;> simp [QueueTask.act]
  | check | start | notice | wake | finish =>
    cases phase <;> simp only [QueueTask.act] <;> grind

lemma retired_act (s : Bool) (t : QueueTask) (a : TaskAction) (h : Retired t) :
    Retired (t.act s a) ∧ (t.active = false → (t.act s a).active = false) := by
  obtain ⟨key, phase, cancelled, started⟩ := t
  cases a <;> cases phase <;>
    simp [Retired, QueueTask.act, QueueTask.active, QueueTask.executing] at h ⊢ <;> grind

lemma recorded_act (s : Bool) (t : QueueTask) (a : TaskAction) (h : Recorded t) :
    Recorded (t.act s a) := by
  obtain ⟨key, phase, cancelled, started⟩ := t
  cases a <;> cases phase <;>
    simp [Recorded, QueueTask.act, QueueTask.executing] at h ⊢ <;> grind

lemma started_act {s : Bool} {a : TaskAction} (h : (t.act s a).started = true) :
    t.started = true ∨ t.starts a = true := by
  cases a with
  | start =>
    by_cases hphase : t.phase = .checked
    · exact .inr (by simp [QueueTask.starts, hphase])
    · rw [QueueTask.act, if_neg hphase] at h
      exact .inl h
  | check | notice | wake | finish | fetch =>
    left
    simp only [QueueTask.act] at h
    split at h <;> exact h

lemma Sound.act (h : q.Sound) {a : TaskAction} (hguard : q.Orderly (T := T) (.act id a)) :
    (q.step (T := T) (.act id a)).Sound := by
  refine h.atTask (fun t _ => key_act _ t a) (fun t _ => spawned_act _ t a)
    (fun t => retired_act _ t a) (fun t => recorded_act _ t a) fun t ht hstart => ?_
  rcases started_act hstart with hstart | hstarts
  · exact .inl hstart
  · exact .inr (hguard t ht hstarts)

/-! ### The map -/

lemma getElem?_cancelPrevious {key : String} (h : (q.cancelPrevious key).tasks[id]? = some t) :
    ∃ t', q.tasks[id]? = some t' ∧ t'.key = t.key ∧ t'.phase = t.phase := by
  unfold cancelPrevious at h
  split at h
  · rcases getElem?_atTask h with ⟨-, ht⟩ | ⟨-, t', ht, rfl⟩
    · exact ⟨t, ht, rfl, rfl⟩
    · exact ⟨t', ht, rfl, rfl⟩
  · exact ⟨t, h, rfl, rfl⟩

lemma Sound.cancelPrevious (h : q.Sound) (key : String) : (q.cancelPrevious key).Sound := by
  unfold ReconcileQueue.cancelPrevious
  split
  · exact h.atTask (fun _ _ => rfl) (fun _ _ => Iff.rfl) (fun _ _ => ⟨.inl rfl, fun ha => ha⟩)
      (fun _ ht => ht) (fun _ _ hstart => .inl hstart)
  · exact h

/-- After the task in the map is cancelled, all tasks of the key that have been in it are
retired. -/
lemma Sound.retired_of_cancelPrevious (h : q.Sound) {key : String}
    (ht : (q.cancelPrevious key).tasks[id]? = some t) (hphase : t.phase ≠ .spawned)
    (hkey : t.key = key) : Retired t := by
  unfold ReconcileQueue.cancelPrevious at ht
  split at ht
  next previous hprevious =>
    rcases getElem?_atTask ht with ⟨hid, ht'⟩ | ⟨-, t', -, rfl⟩
    · refine h.retired id t ht' hphase ?_
      rw [hkey, hprevious]
      exact fun heq => hid (Option.some.inj heq)
    · exact .inl rfl
  next hnone =>
    refine h.retired id t ht hphase ?_
    rw [hkey, hnone]
    exact fun heq => by cases heq

/-- A task may enter the map when the earlier ones of its key have, and all that have are
retired. -/
lemma Sound.enroll (h : q.Sound) (ht : q.tasks[id]? = some t) (hspawned : t.phase = .spawned)
    (hearlier : ∀ (i : ℕ) (u : QueueTask), i < id → q.tasks[i]? = some u → u.key = t.key →
      u.phase ≠ .spawned)
    (hretired : ∀ (i : ℕ) (u : QueueTask), q.tasks[i]? = some u → u.phase ≠ .spawned →
      u.key = t.key → Retired u) : (q.enroll id t.key).Sound where
  behind i j u v hij hu hv huv := by
    rcases getElem?_atTask hu with ⟨hi, hu'⟩ | ⟨rfl, u', hu', rfl⟩
    · rcases getElem?_atTask hv with ⟨-, hv'⟩ | ⟨rfl, v', hv', rfl⟩
      · exact h.behind i j u v hij hu' hv' huv
      obtain rfl : t = v' := Option.some.inj (ht.symm.trans hv')
      have hentered := hearlier i u hij hu' huv
      refine ⟨fun _ => ⟨hentered, hretired i u hu' hentered huv⟩, fun hstart => ?_⟩
      exact absurd hspawned ((h.recorded id t ht).2 hstart)
    · rcases getElem?_atTask hv with ⟨-, hv'⟩ | ⟨rfl, -⟩
      · -- no later task has been in the map before this one
        obtain rfl : t = u' := Option.some.inj (ht.symm.trans hu')
        have hlater : v.phase = .spawned := by
          by_contra hphase
          exact ((h.behind id j t v hij ht hv' huv).1 hphase).1 hspawned
        exact ⟨fun hphase => absurd hlater hphase,
          fun hstart => absurd hlater ((h.recorded j v hv').2 hstart)⟩
      · omega
  recorded other u hu := by
    rcases getElem?_atTask hu with ⟨-, hu'⟩ | ⟨rfl, u', hu', rfl⟩
    · exact h.recorded other u hu'
    · exact ⟨by simp [QueueTask.executing], by simp⟩
  mapped key other hmap := by
    simp only [ReconcileQueue.enroll] at hmap
    by_cases hkey : key = t.key
    · subst hkey
      obtain rfl : id = other := by simpa using hmap
      refine ⟨_, getElem?_atTask_of_some _ ht, ?_⟩
      rw [if_pos rfl]
      exact ⟨rfl, by simp⟩
    · rw [Function.update_of_ne hkey] at hmap
      obtain ⟨u, hu, hukey, hphase⟩ := h.mapped key other hmap
      refine ⟨_, getElem?_atTask_of_some _ hu, ?_⟩
      split
      · exact ⟨hukey, by simp⟩
      · exact ⟨hukey, hphase⟩
  retired other u hu hphase hmap := by
    simp only [ReconcileQueue.enroll] at hmap
    rcases getElem?_atTask hu with ⟨hid, hu'⟩ | ⟨rfl, u', hu', rfl⟩
    · by_cases hkey : u.key = t.key
      · exact hretired other u hu' hphase hkey
      · rw [Function.update_of_ne hkey] at hmap
        exact h.retired other u hu' hphase hmap
    · obtain rfl : t = u' := Option.some.inj (ht.symm.trans hu')
      exact absurd (Function.update_self ..) hmap

lemma Sound.enter (h : q.Sound) (ht : q.tasks[id]? = some t) (hspawned : t.phase = .spawned)
    (hearlier : ∀ (i : ℕ) (u : QueueTask), i < id → q.tasks[i]? = some u → u.key = t.key →
      u.phase ≠ .spawned) : (q.enter id t.key).Sound := by
  -- the task is still the one from before, and has not run
  obtain ⟨t', ht', hkey, hphase⟩ : ∃ t', (q.cancelPrevious t.key).tasks[id]? = some t' ∧
      t'.key = t.key ∧ t'.phase = .spawned := by
    unfold ReconcileQueue.cancelPrevious
    split
    · refine ⟨_, getElem?_atTask_of_some _ ht, ?_⟩
      split <;> exact ⟨rfl, hspawned⟩
    · exact ⟨t, ht, rfl, hspawned⟩
  rw [ReconcileQueue.enter, ← hkey]
  refine (h.cancelPrevious t'.key).enroll (hkey ▸ ht') hphase (fun i u hi hu huk => ?_)
    fun i u hu huphase huk => h.retired_of_cancelPrevious hu huphase huk
  obtain ⟨u', hu', hkey', hphase'⟩ := getElem?_cancelPrevious hu
  exact hphase' ▸ hearlier i u' hi hu' (hkey'.trans (huk.trans hkey))

lemma Sound.leave (h : q.Sound) (ht : q.tasks[id]? = some t) (hfinishing : t.phase = .finishing) :
    (q.leave id t.key).Sound := by
  have hended : (q.atTask id fun t => { t with phase := .ended }).Sound := by
    refine h.atTask (fun _ _ => rfl) (fun u hu => ?_) (fun _ _ => ⟨.inr rfl, fun _ => rfl⟩)
      (fun _ _ => ⟨by simp [QueueTask.executing], by simp⟩) (fun _ _ hstart => .inl hstart)
    cases ht.symm.trans hu
    simp [hfinishing]
  refine ⟨hended.behind, hended.recorded, fun key other hmap => ?_,
    fun other u hu hphase hmap => ?_⟩
  · refine hended.mapped key other ?_
    simp only [ReconcileQueue.leave] at hmap
    split at hmap
    · by_cases hkey : key = t.key
      · simp [hkey, Function.update_self] at hmap
      · rwa [Function.update_of_ne hkey] at hmap
    · exact hmap
  · rcases getElem?_atTask hu with ⟨hid, hu'⟩ | ⟨-, u', -, rfl⟩
    · refine h.retired other u hu' hphase fun hsome => hmap ?_
      simp only [ReconcileQueue.leave]
      split
      next hown =>
        by_cases hkey : u.key = t.key
        · rw [hkey, hown] at hsome
          exact absurd (Option.some.inj hsome) hid
        · rwa [Function.update_of_ne hkey]
      · exact hsome
    · exact .inr rfl

lemma Sound.spawn (h : q.Sound) (key : String) :
    ({ q with tasks := q.tasks ++ [{ key }] } : ReconcileQueue).Sound := by
  -- a task is an old one, or the new one, which has done nothing yet
  have hget : ∀ {id : ℕ} {t : QueueTask}, (q.tasks ++ [({ key } : QueueTask)])[id]? = some t →
      q.tasks[id]? = some t ∨ (id = q.tasks.length ∧ t.phase = .spawned ∧ Recorded t ∧
        t.started = false) := by
    intro id t ht
    rw [List.getElem?_append] at ht
    split at ht
    · exact .inl ht
    rename_i hlen
    obtain ⟨hzero, rfl⟩ : id - q.tasks.length = 0 ∧ { key } = t := by
      simpa [List.getElem?_singleton] using ht
    exact .inr ⟨by omega, rfl, ⟨by simp [QueueTask.executing], by simp⟩, rfl⟩
  have hlt : ∀ {id : ℕ} {t : QueueTask}, q.tasks[id]? = some t → id < q.tasks.length :=
    fun ht => (List.getElem?_eq_some_iff.1 ht).1
  refine ⟨fun i j t u hij ht hu htu => ?_, fun id t ht => ?_, fun key' id hmap => ?_,
    fun id t ht hphase hmap => ?_⟩
  · rcases hget hu with hu' | ⟨rfl, hphase, -, hstarted⟩
    · rcases hget ht with ht' | ⟨rfl, -⟩
      · exact h.behind i j t u hij ht' hu' htu
      · exact absurd (hlt hu') (by omega)
    · refine ⟨fun hne => absurd hphase hne, fun hstart => ?_⟩
      cases hstarted.symm.trans hstart
  · rcases hget ht with ht' | ⟨-, -, hrecorded, -⟩
    · exact h.recorded id t ht'
    · exact hrecorded
  · obtain ⟨t, ht, hkey, hphase⟩ := h.mapped key' id hmap
    refine ⟨t, ?_, hkey, hphase⟩
    rw [List.getElem?_append_left (hlt ht)]
    exact ht
  · rcases hget ht with ht' | ⟨-, hspawned, -⟩
    · exact h.retired id t ht' hphase hmap
    · exact absurd hspawned hphase

lemma Sound.step (h : q.Sound) {e : Event T} (hguard : q.Orderly e) : (q.step e).Sound := by
  cases e with
  | spawn event =>
    simp only [ReconcileQueue.step]
    split
    · exact h.spawn _
    · exact h
  | shutdown => exact ⟨h.behind, h.recorded, h.mapped, h.retired⟩
  | act id action => exact h.act hguard
  | register id =>
    simp only [ReconcileQueue.step]
    split
    next t ht =>
      split
      next hspawned =>
        exact h.enter ht hspawned (hguard t ht hspawned)
      · exact h
    · exact h
  | cleanup id =>
    simp only [ReconcileQueue.step]
    split
    next t ht =>
      split
      next hfinishing =>
        exact h.leave ht hfinishing
      · exact h
    · exact h

/-! ## Whole runs -/

/-- **The queue serializes the work on each object, as far as its tasks are scheduled in order.**
For every sequence of events, every outcome of the reconciles and every schedule in which all steps
meet the condition: at most one call of the reconciler is executing for each key at any time, and no
step prefers an older event. -/
theorem serialized_of_orderly (events : List (Event T))
    (h : Run.AllSteps step Orderly ({} : ReconcileQueue) events) :
    Run.AllStates step Serialized ({} : ReconcileQueue) events ∧
      Run.AllSteps step PrefersNoOlder ({} : ReconcileQueue) events :=
  ⟨Run.AllStates.of_invariant (fun _ _ hI hG => hI.step hG) (fun _ hI => hI.serialized) _ _
      sound_new h,
    Run.AllSteps.of_invariant (fun _ _ hI hG => hI.step hG) (fun _ e hI _ => hI.prefersNoOlder e)
      _ _ sound_new h⟩

end

namespace Sample

open Fixture

/-- An event for a config map; all events below are for this one. -/
def event : ReconcileEvent ConfigMap :=
  .applied { objectMeta := some { name := some "web", «namespace» := some "default" } }

/-- The second event comes while the first reconcile waits to be repeated.  Its task enters itself,
and reconciles; the first task finds itself cancelled when its wait is over. -/
def orderly : List (Event ConfigMap) :=
  [.spawn event, .register 0, .act 0 .check, .act 0 .start, .act 0 (.finish true),
    .spawn event, .register 1, .act 1 .check, .act 1 .start, .act 0 .wake, .cleanup 0,
    .act 1 (.finish false), .cleanup 1]

/-- Both tasks are spawned before one of them runs, and the second comes to run first. -/
def lateRegistration : List (Event ConfigMap) :=
  [.spawn event, .spawn event, .register 1, .act 1 .check, .act 1 .start, .register 0,
    .act 0 .check, .act 0 .start]

/-- The first task reconciles again when the second event comes. -/
def duringRequeue : List (Event ConfigMap) :=
  [.spawn event, .register 0, .act 0 .check, .act 0 .start, .act 0 (.finish true), .act 0 .wake,
    .act 0 (.fetch .found), .spawn event, .register 1, .act 1 .check, .act 1 .start]

/-- The second task starts before the `select!` of the first one has noticed that it is
cancelled. -/
def beforeNotice : List (Event ConfigMap) :=
  [.spawn event, .register 0, .act 0 .check, .act 0 .start, .spawn event, .register 1,
    .act 1 .check, .act 1 .start]

end Sample

open Fixture Sample in
theorem serialized_of_orderly_sample :
    Run.AllSteps step Orderly ({} : ReconcileQueue) Sample.orderly ∧
      (Run.AllStates step Serialized ({} : ReconcileQueue) Sample.orderly ∧
        Run.AllSteps step PrefersNoOlder ({} : ReconcileQueue) Sample.orderly) := by
  have h : Run.AllSteps step Orderly ({} : ReconcileQueue) Sample.orderly := by decide +kernel
  exact ⟨h, serialized_of_orderly Sample.orderly h⟩

open Fixture Sample in
/-- Without the condition all three go wrong: the task of the earlier event cancels that of the
later one and reconciles after it, and two reconciles of one object execute at the same time, with
the first one repeated or not. -/
theorem overlapping_of_schedule :
    ¬ Run.AllSteps step PrefersNoOlder ({} : ReconcileQueue) Sample.lateRegistration ∧
      ¬ Run.AllStates step Serialized ({} : ReconcileQueue) Sample.duringRequeue ∧
      ¬ Run.AllStates step Serialized ({} : ReconcileQueue) Sample.beforeNotice := by
  decide +kernel

end ReconcileQueue

end Tugboat
