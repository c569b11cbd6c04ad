import Tugboat.Store.WatchMux

/-!
# Sharing watches

`WatchMuxAggregator` keeps one fan-out for every key that is watched without a resource version, and
makes a new one for every watch with a resource version.  Each has a task that emits into it as long
as it has receivers.  The task's look at the receivers, the removal from the map and the
subscription of another watch are separate steps, and the removal is by key.

So a watch can find a fan-out in the map whose task has already decided to stop, and wait for events
that do not come.  And a task that stops removes whatever is under its key, also a fan-out that
others use.  `WatchMuxAggregator.served_iff` says that nothing else goes wrong.
-/

namespace Tugboat

variable {D : Type}

/-- The task of a fan-out.  It starts after the fan-out is in the map, and once it has found no
receivers it stops. -/
inductive TaskState
  | starting
  | running
  | stopping
  | ended
  deriving DecidableEq, Repr

def TaskState.isAlive : TaskState → Bool
  | .starting | .running => true
  | .stopping | .ended => false

/-- A fan-out with its key and its task.  It is shared unless it was made for a resource version. -/
structure WatchedMux (D : Type) where
  key : String
  shared : Bool
  mux : WatchMux D
  task : TaskState
  deriving DecidableEq, Repr

/-- The fan-out has a receiver, or the call that has made it is about to get one. -/
def WatchedMux.inUse (m : WatchedMux D) : Bool := m.mux.hasReceivers || m.task == .starting

/-- All fan-outs there have been, and the map of those that are shared. -/
structure WatchMuxAggregator (D : Type) where
  muxes : List (WatchedMux D) := []
  map : String → Option ℕ := fun _ => none

namespace WatchMuxAggregator

/-- What happens to an aggregator: a call of `get_from_start_revision`, which for a new shared
fan-out goes on after the map is unlocked; receivers that are dropped; and what a task does. -/
inductive Event (D : Type)
  | get (key : String) (startRevision : Option ℕ)
  | spawn (id : ℕ)
  | dropReceiver (id place : ℕ)
  | emit (id : ℕ) (batch : Batch D)
  | stopCheck (id : ℕ)
  | cleanupWatch (id : ℕ)
  deriving DecidableEq, Repr

/-- Something happens to one fan-out. -/
def atMux (agg : WatchMuxAggregator D) (id : ℕ) (f : WatchedMux D → WatchedMux D) :
    WatchMuxAggregator D :=
  { agg with muxes := agg.muxes.modify id f }

def addReceiver (m : WatchedMux D) : WatchedMux D := { m with mux := m.mux.receiver }

/-- The task is spawned, after the receiver of the call is made. -/
def startTask (m : WatchedMux D) : WatchedMux D :=
  if m.task = .starting then { m with mux := m.mux.receiver, task := .running } else m

/-- The task emits.  Without receivers that fails, and the task stops. -/
def emitBatch (batch : Batch D) (m : WatchedMux D) : WatchedMux D :=
  if m.task = .running then
    match m.mux.emit batch with
    | some mux => { m with mux }
    | none => { m with task := .stopping }
  else m

/-- The first half of `stop_watch_if_unused`. -/
def stopIfUnused (m : WatchedMux D) : WatchedMux D :=
  if m.task = .running ∧ m.mux.hasReceivers = false then { m with task := .stopping } else m

def endTask (m : WatchedMux D) : WatchedMux D := { m with task := .ended }

def step (agg : WatchMuxAggregator D) : Event D → WatchMuxAggregator D
  | .get key none =>
    match agg.map key with
    | some id => agg.atMux id addReceiver
    | none => {
        muxes := agg.muxes ++ [⟨key, true, .new, .starting⟩]
        map := Function.update agg.map key (some agg.muxes.length) }
  | .get key (some _) =>
    { agg with muxes := agg.muxes ++ [⟨key, false, WatchMux.new.receiver, .running⟩] }
  | .spawn id => agg.atMux id startTask
  | .dropReceiver id place => agg.atMux id fun m => { m with mux := m.mux.step (.drop place) }
  | .emit id batch => agg.atMux id (emitBatch batch)
  | .stopCheck id => agg.atMux id stopIfUnused
  | .cleanupWatch id =>
    match agg.muxes[id]? with
    | some m =>
      if m.task = .stopping then {
        muxes := agg.muxes.modify id endTask
        map := Function.update agg.map m.key none }
      else agg
    | none => agg

/-- Every fan-out in use has a task that goes on, and if it is shared the map leads to it. -/
def Served (agg : WatchMuxAggregator D) : Prop :=
  ∀ id m, agg.muxes[id]? = some m → m.inUse = true →
    m.task.isAlive = true ∧ (m.shared = true → agg.map m.key = some id)

/-- No watch finds a fan-out whose task is about to stop, and no task removes a fan-out in use. -/
def Undisturbed (agg : WatchMuxAggregator D) : Event D → Prop
  | .get key none => ∀ id ∈ agg.map key, ∀ m ∈ agg.muxes[id]?, m.task.isAlive = true
  | .cleanupWatch id => ∀ m ∈ agg.muxes[id]?, m.task = .stopping →
      ∀ other ∈ agg.map m.key, ∀ m' ∈ agg.muxes[other]?, m'.inUse = false
  | _ => True

/-- The map leads to shared fan-outs of its keys. -/
def Mapped (agg : WatchMuxAggregator D) : Prop :=
  ∀ key id, agg.map key = some id →
    ∃ m, agg.muxes[id]? = some m ∧ m.key = key ∧ m.shared = true

/-! ## One step -/

section

variable {agg : WatchMuxAggregator D} {id : ℕ} {f : WatchedMux D → WatchedMux D} {m : WatchedMux D}

lemma getElem?_atMux {other : ℕ} (h : (agg.atMux id f).muxes[other]? = some m) :
    (id ≠ other ∧ agg.muxes[other]? = some m) ∨
      (id = other ∧ ∃ m', agg.muxes[other]? = some m' ∧ f m' = m) := by
  have hget : (agg.muxes.modify id f)[other]? = some m := h
  rw [List.getElem?_modify] at hget
  obtain ⟨m', hm', hf⟩ := Option.map_eq_some_iff.1 hget
  by_cases hid : id = other
  · rw [if_pos hid] at hf
    exact .inr ⟨hid, m', hm', hf⟩
  · rw [if_neg hid] at hf
    exact .inl ⟨hid, hf ▸ hm'⟩

lemma Mapped.atMux (h : agg.Mapped) (hf : ∀ m, (f m).key = m.key ∧ (f m).shared = m.shared) :
    (agg.atMux id f).Mapped := by
  intro key other hmap
  obtain ⟨m, hm, hkey, hshared⟩ := h key other hmap
  have hget : (agg.atMux id f).muxes[other]? = some (if id = other then f m else m) := by
    show (agg.muxes.modify id f)[other]? = _
    rw [List.getElem?_modify, hm]
    rfl
  refine ⟨_, hget, ?_⟩
  by_cases hid : id = other
  · rw [if_pos hid, (hf m).1, (hf m).2]
    exact ⟨hkey, hshared⟩
  · rw [if_neg hid]
    exact ⟨hkey, hshared⟩

lemma Served.atMux (h : agg.Served) (hf : ∀ m, agg.muxes[id]? = some m → (f m).inUse = true →
      (f m).task.isAlive = true ∧ ((f m).shared = true → agg.map (f m).key = some id)) :
    (agg.atMux id f).Served := by
  intro other m hm huse
  rcases getElem?_atMux hm with ⟨-, hm⟩ | ⟨rfl, m', hm', rfl⟩
  · exact h other m hm huse
  · exact hf m' hm' huse

/-- Enough for `Served.atMux`: it was in use before, and its task goes on as it did. -/
lemma Served.atMux_of_inUse (h : agg.Served)
    (hkey : ∀ m, (f m).key = m.key ∧ (f m).shared = m.shared) (hf : ∀ m, (f m).inUse = true →
      m.inUse = true ∧ (m.task.isAlive = true → (f m).task.isAlive = true)) :
    (agg.atMux id f).Served := by
  refine h.atMux fun m hm huse => ?_
  obtain ⟨huse', halive⟩ := hf m huse
  rw [(hkey m).1, (hkey m).2]
  exact ⟨halive (h id m hm huse').1, (h id m hm huse').2⟩

lemma keeps_startTask (m : WatchedMux D) :
    (startTask m).key = m.key ∧ (startTask m).shared = m.shared := by
  unfold startTask
  split <;> exact ⟨rfl, rfl⟩

lemma keeps_emitBatch (batch : Batch D) (m : WatchedMux D) :
    (emitBatch batch m).key = m.key ∧ (emitBatch batch m).shared = m.shared := by
  unfold emitBatch
  split
  · split <;> exact ⟨rfl, rfl⟩
  · exact ⟨rfl, rfl⟩

lemma keeps_stopIfUnused (m : WatchedMux D) :
    (stopIfUnused m).key = m.key ∧ (stopIfUnused m).shared = m.shared := by
  unfold stopIfUnused
  split <;> exact ⟨rfl, rfl⟩

lemma inUse_of_startTask (h : (startTask m).inUse = true) :
    m.inUse = true ∧ (m.task.isAlive = true → (startTask m).task.isAlive = true) := by
  by_cases hstarting : m.task = .starting
  · refine ⟨by simp [WatchedMux.inUse, hstarting], fun _ => ?_⟩
    rw [startTask, if_pos hstarting]
    rfl
  · rw [startTask, if_neg hstarting] at h ⊢
    exact ⟨h, fun halive => halive⟩

lemma inUse_of_emitBatch {batch : Batch D} (h : (emitBatch batch m).inUse = true) :
    m.inUse = true ∧ (m.task.isAlive = true → (emitBatch batch m).task.isAlive = true) := by
  by_cases hrunning : m.task = .running
  · cases hemit : m.mux.emit batch with
    | some mux =>
      have heq : emitBatch batch m = { m with mux } := by
        simp only [emitBatch, if_pos hrunning, hemit]
      refine ⟨?_, fun halive => by rw [heq]; exact halive⟩
      have hsome : m.mux.hasReceivers = true := by
        by_contra hnone
        simp [WatchMux.emit, if_neg hnone] at hemit
      rw [WatchedMux.inUse, hsome]
      rfl
    | none =>
      -- the task has found no receivers, so the fan-out is not in use
      have heq : emitBatch batch m = { m with task := .stopping } := by
        simp only [emitBatch, if_pos hrunning, hemit]
      simp [heq, WatchedMux.inUse, WatchMux.not_hasReceivers_of_emit hemit] at h
  · have heq : emitBatch batch m = m := by simp only [emitBatch, if_neg hrunning]
    rw [heq] at h ⊢
    exact ⟨h, fun halive => halive⟩

lemma inUse_of_stopIfUnused (h : (stopIfUnused m).inUse = true) :
    m.inUse = true ∧ (m.task.isAlive = true → (stopIfUnused m).task.isAlive = true) := by
  by_cases hunused : m.task = .running ∧ m.mux.hasReceivers = false
  · rw [stopIfUnused, if_pos hunused, WatchedMux.inUse, hunused.2] at h
    cases h
  · rw [stopIfUnused, if_neg hunused] at h ⊢
    exact ⟨h, fun halive => halive⟩

lemma inUse_addReceiver (m : WatchedMux D) : (addReceiver m).inUse = true := by
  rw [WatchedMux.inUse, addReceiver, WatchMux.hasReceivers_receiver]
  rfl

lemma getElem?_append_singleton {muxes : List (WatchedMux D)} {m' : WatchedMux D}
    (h : (muxes ++ [m])[id]? = some m') :
    muxes[id]? = some m' ∨ (id = muxes.length ∧ m' = m) := by
  by_cases hid : id < muxes.length
  · rw [List.getElem?_append_left hid] at h
    exact .inl h
  · rw [List.getElem?_append_right (Nat.le_of_not_lt hid), List.getElem?_singleton] at h
    by_cases hzero : id - muxes.length = 0
    · rw [if_pos hzero] at h
      exact .inr ⟨by omega, (Option.some.inj h).symm⟩
    · simp [if_neg hzero] at h

/-- A new fan-out is served if it is not shared, or the map leads to it. -/
lemma Served.append (h : agg.Served) {map : String → Option ℕ} (halive : m.task.isAlive = true)
    (hmap : m.shared = true → map m.key = some agg.muxes.length)
    (hkeep : ∀ key id, agg.map key = some id → map key = some id) :
    Served { muxes := agg.muxes ++ [m], map } := by
  intro id m' hm' huse
  rcases getElem?_append_singleton hm' with hm' | ⟨rfl, rfl⟩
  · obtain ⟨halive', hmap'⟩ := h id m' hm' huse
    exact ⟨halive', fun hshared => hkeep _ _ (hmap' hshared)⟩
  · exact ⟨halive, hmap⟩

lemma Mapped.append (h : agg.Mapped) (m : WatchedMux D) {map : String → Option ℕ}
    (hmap : ∀ key id, map key = some id →
      agg.map key = some id ∨ (key = m.key ∧ m.shared = true ∧ id = agg.muxes.length)) :
    Mapped { muxes := agg.muxes ++ [m], map } := by
  intro key id hid
  rcases hmap key id hid with hid | ⟨rfl, hshared, rfl⟩
  · obtain ⟨m', hm', hkey, hshared⟩ := h key id hid
    obtain ⟨hlt, -⟩ := List.getElem?_eq_some_iff.1 hm'
    exact ⟨m', by rw [← hm']; exact List.getElem?_append_left hlt, hkey, hshared⟩
  · exact ⟨m, List.getElem?_concat_length, rfl, hshared⟩

lemma Mapped.remove (h : agg.Mapped) (hf : ∀ m, (f m).key = m.key ∧ (f m).shared = m.shared)
    (key : String) :
    Mapped { muxes := agg.muxes.modify id f, map := Function.update agg.map key none } := by
  intro key' other hmap
  exact h.atMux hf key' other (of_update_none_eq_some hmap)

lemma Mapped.step (h : agg.Mapped) (event : Event D) : (agg.step event).Mapped := by
  cases event with
  | get key startRevision =>
    cases startRevision with
    | some revision => exact h.append _ fun key id hid => .inl hid
    | none =>
      cases hmap : agg.map key with
      | some id =>
        simp only [WatchMuxAggregator.step, hmap]
        exact h.atMux fun m => ⟨rfl, rfl⟩
      | none =>
        simp only [WatchMuxAggregator.step, hmap]
        refine h.append _ fun key' id hid => ?_
        rcases of_update_eq_some hid with ⟨rfl, ⟨⟩⟩ | ⟨-, hid⟩
        · exact .inr ⟨rfl, rfl, rfl⟩
        · exact .inl hid
  | spawn id => exact h.atMux keeps_startTask
  | dropReceiver id place => exact h.atMux fun m => ⟨rfl, rfl⟩
  | emit id batch => exact h.atMux (keeps_emitBatch batch)
  | stopCheck id => exact h.atMux keeps_stopIfUnused
  | cleanupWatch id =>
    cases hget : agg.muxes[id]? with
    | none => simpa only [WatchMuxAggregator.step, hget] using h
    | some m =>
      simp only [WatchMuxAggregator.step, hget]
      by_cases hstopping : m.task = .stopping
      · rw [if_pos hstopping]
        exact h.remove (f := endTask) (fun _ => ⟨rfl, rfl⟩) m.key
      · rwa [if_neg hstopping]

/-- A watch that finds a fan-out is served exactly if the task of it goes on. -/
lemma served_get_iff (hmapped : agg.Mapped) (h : agg.Served) (key : String) :
    (agg.step (.get key none)).Served ↔ agg.Undisturbed (.get key none) := by
  cases hmap : agg.map key with
  | none =>
    simp only [step, hmap, Undisturbed]
    refine iff_of_true ?_ fun id hid => by cases hid
    refine h.append rfl (fun _ => Function.update_self ..) fun key' id hid => ?_
    have hne : key' ≠ key := by
      rintro rfl
      cases hmap.symm.trans hid
    rw [Function.update_of_ne hne, hid]
  | some id =>
    simp only [step, hmap, Undisturbed]
    obtain ⟨m, hm, hkey, hshared⟩ := hmapped key id hmap
    constructor
    · rintro hserved other hother m' hm'
      cases hother
      have hget : (agg.atMux id addReceiver).muxes[id]? = some (addReceiver m') := by
        show (agg.muxes.modify id addReceiver)[id]? = _
        rw [List.getElem?_modify_eq, Option.mem_def.1 hm']
        rfl
      exact (hserved id _ hget (inUse_addReceiver m')).1
    · intro halive
      refine h.atMux fun m' hm' _ => ?_
      cases hm.symm.trans hm'
      refine ⟨halive id rfl m hm, fun _ => ?_⟩
      show agg.map m.key = some id
      rw [hkey, hmap]

/-- A task that stops leaves all served exactly if nobody uses what is under its key. -/
lemma served_cleanupWatch_iff (hmapped : agg.Mapped) (h : agg.Served) (id : ℕ) :
    (agg.step (.cleanupWatch id)).Served ↔ agg.Undisturbed (.cleanupWatch id) := by
  cases hget : agg.muxes[id]? with
  | none =>
    simp only [step, hget, Undisturbed]
    exact iff_of_true h fun m hm => by cases hm
  | some m =>
    simp only [step, hget, Undisturbed]
    by_cases hstopping : m.task = .stopping
    · rw [if_pos hstopping]
      -- the task has stopped because its own fan-out is not in use
      have hunused : m.inUse = false := by
        by_contra huse
        rw [Bool.not_eq_false] at huse
        have halive := (h id m hget huse).1
        rw [hstopping] at halive
        cases halive
      constructor
      · rintro hserved m' hm' - other hother m'' hm''
        cases hm'
        by_contra huse
        rw [Bool.not_eq_false] at huse
        obtain ⟨m₀, hm₀, hkey, hshared⟩ := hmapped m.key other hother
        obtain rfl : m₀ = m'' := Option.some.inj (hm₀.symm.trans hm'')
        have hne : id ≠ other := by
          rintro rfl
          cases hget.symm.trans hm₀
          cases hunused.symm.trans huse
        have hm₁ : (agg.muxes.modify id endTask)[other]? = some m₀ := by
          rw [List.getElem?_modify_ne _ _ hne, hm₀]
        have hgone : Function.update agg.map m.key none m₀.key = some other :=
          (hserved other m₀ hm₁ huse).2 hshared
        simp [hkey, Function.update_self] at hgone
      · intro hnone other m' hm' huse
        rcases getElem?_atMux hm' with ⟨-, hm'⟩ | ⟨rfl, m₀, hm₀, rfl⟩
        · obtain ⟨halive, hmap⟩ := h other m' hm' huse
          refine ⟨halive, fun hshared => ?_⟩
          show Function.update agg.map m.key none m'.key = some other
          by_cases hkey : m'.key = m.key
          · have hother := hmap hshared
            rw [hkey] at hother
            simp [hnone m rfl hstopping other hother m' hm'] at huse
          · rw [Function.update_of_ne hkey]
            exact hmap hshared
        · cases hget.symm.trans hm₀
          have hused : (m.mux.hasReceivers || false) = true := huse
          have hunused' : (m.mux.hasReceivers || m.task == .starting) = false := hunused
          rw [Bool.or_eq_false_iff] at hunused'
          simp [hunused'.1] at hused
    · rw [if_neg hstopping]
      refine iff_of_true h fun m' hm' hstopping' => ?_
      cases hm'
      exact absurd hstopping' hstopping

lemma served_step_iff (hmapped : agg.Mapped) (h : agg.Served) (event : Event D) :
    (agg.step event).Served ↔ agg.Undisturbed event := by
  cases event with
  | get key startRevision =>
    cases startRevision with
    | none => exact served_get_iff hmapped h key
    | some revision =>
      exact iff_of_true
        (h.append rfl (fun hshared => by cases hshared) fun _ _ hid => hid) trivial
  | spawn id =>
    exact iff_of_true (h.atMux_of_inUse keeps_startTask fun _ => inUse_of_startTask) trivial
  | dropReceiver id place =>
    refine iff_of_true (h.atMux_of_inUse (fun m => ⟨rfl, rfl⟩) fun m huse => ?_) trivial
    refine ⟨?_, fun halive => halive⟩
    rcases Bool.or_eq_true_iff.1 huse with hreceivers | hstarting
    · rw [WatchedMux.inUse, WatchMux.hasReceivers_of_drop hreceivers]
      rfl
    · exact Bool.or_eq_true_iff.2 (.inr hstarting)
  | emit id batch =>
    exact iff_of_true
      (h.atMux_of_inUse (keeps_emitBatch batch) fun _ => inUse_of_emitBatch) trivial
  | stopCheck id =>
    exact iff_of_true (h.atMux_of_inUse keeps_stopIfUnused fun _ => inUse_of_stopIfUnused) trivial
  | cleanupWatch id => exact served_cleanupWatch_iff hmapped h id

end

/-! ## Runs -/

/-- **When every receiver is served.**  Along every run of calls of `get`, dropped receivers and
tasks that emit, look for receivers and stop: every fan-out in use has a task that goes on and is
found in the map if it is shared, if and only if no call finds a fan-out whose task is about to stop
and no task removes a fan-out in use. -/
theorem served_iff (events : List (Event D)) :
    Run.AllStates step Served {} events ↔ Run.AllSteps step Undisturbed {} events := by
  refine Run.allStates_iff_allSteps (I := Mapped) ?_ ?_ {} events ?_ ?_
  · exact fun agg event hmapped _ _ => hmapped.step event
  · exact fun agg event hmapped h => served_step_iff hmapped h event
  · intro key id hid
    cases hid
  · intro id m hm
    cases hm

namespace Race

def key : String := "/tugboat/registry/core/configmaps/"

/-- Someone watches the config maps, someone else does so from a resource version and leaves. -/
def otherWatcherLeaves : List (Event Unit) :=
  [.get key none, .spawn 0, .get key (some 5), .dropReceiver 1 0, .stopCheck 1, .cleanupWatch 1]

/-- The only watcher leaves, and another one comes before the task is gone. -/
def watcherComesLate : List (Event Unit) :=
  [.get key none, .spawn 0, .dropReceiver 0 0, .stopCheck 0, .get key none, .cleanupWatch 0]

end Race

open Race in
/-- A watcher with a resource version that leaves takes a shared fan-out out of the map that is in
use; and a watcher that comes late has a receiver of a task that has ended. -/
theorem receiver_is_not_served :
    (let agg := Run.exec step {} otherWatcherLeaves
     (agg.muxes[0]?).any (fun m => m.shared && m.mux.hasReceivers) = true ∧ agg.map key = none ∧
       ¬ agg.Served) ∧
    (let agg := Run.exec step {} watcherComesLate
     (agg.muxes[0]?).any (fun m => m.mux.hasReceivers && m.task == .ended) = true ∧
       ¬ agg.Served) := by
  refine ⟨⟨by decide, by decide, fun h => ?_⟩, by decide, fun h => ?_⟩
  · have hmapped := (h 0 _ rfl rfl).2 rfl
    revert hmapped
    decide
  · have halive := (h 0 _ rfl rfl).1
    revert halive
    decide

end WatchMuxAggregator

end Tugboat
