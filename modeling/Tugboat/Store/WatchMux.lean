import Tugboat.Lib.Run
import Tugboat.Lib.WatchChannel
import Tugboat.Store.Watch

/-!
# The fan-out of a watch

A `WatchMux` hands the events of a watch on to all who follow it.  It is a channel that keeps the
last batch only.  Receivers go through the batches at their own pace, in the loop of `watch`: wait
for a change, take the batch in the slot, send its events on.

A batch that is emitted while a receiver has not yet taken the one before replaces it.
`WatchMux.lossless_iff` says that this is the only way to lose a batch: what a receiver gets is what
was emitted since it subscribed, if and only if no emission comes upon a receiver to whom a batch
with events is still due.
-/

namespace Tugboat

open WatchChannel

variable {D : Type}

abbrev Batch (D : Type) : Type := List (WatchEvent (KeyValue D))

/-- A receiver with what it has got so far, and what was emitted since it subscribed; empty batches
are left out of both. -/
structure Consumer (D : Type) where
  rx : WatchChannel.Receiver
  got : List (Batch D) := []
  emitted : List (Batch D) := []
  deriving DecidableEq, Repr

/-- A batch as part of a sequence of batches with events. -/
def Batch.toList (batch : Batch D) : List (Batch D) := if batch.isEmpty then [] else [batch]

namespace Consumer

def changed (slot : Slot (Batch D)) (c : Consumer D) : Consumer D :=
  { c with rx := c.rx.changed slot }

def borrowAndUpdate (slot : Slot (Batch D)) (c : Consumer D) : Consumer D :=
  { c with
    rx := (c.rx.borrowAndUpdate slot).1
    got := c.got ++ (c.rx.borrowAndUpdate slot).2.elim [] Batch.toList }

/-- Go once through the loop, as far as that is possible now. -/
def consume (slot : Slot (Batch D)) (c : Consumer D) : Consumer D :=
  (c.changed slot).borrowAndUpdate slot

/-- What the receiver gets if it goes on now: no batch, or one. -/
def due (slot : Slot (Batch D)) (c : Consumer D) : List (Batch D) :=
  (c.rx.due slot).elim [] Batch.toList

lemma got_consume (slot : Slot (Batch D)) (c : Consumer D) :
    (c.consume slot).got = c.got ++ c.due slot := rfl

lemma due_changed (slot : Slot (Batch D)) (c : Consumer D) :
    (c.changed slot).due slot = c.due slot := by
  rw [due, changed, Receiver.due_changed, due]

lemma got_due_borrowAndUpdate (slot : Slot (Batch D)) (c : Consumer D) :
    (c.borrowAndUpdate slot).got ++ (c.borrowAndUpdate slot).due slot = c.got ++ c.due slot := by
  cases hnotified : c.rx.notified with
  | true =>
    rw [due, borrowAndUpdate,
      Receiver.due_borrowAndUpdate_of_notified slot hnotified,
      Receiver.borrowAndUpdate_of_notified slot hnotified, Option.elim_none,
      List.append_nil, due]
  | false =>
    rw [due, borrowAndUpdate,
      Receiver.borrowAndUpdate_of_not_notified slot hnotified,
      Option.elim_none, List.append_nil, due]

end Consumer

/-- The fan-out of a watch, with its receivers; dropped ones leave a gap. -/
structure WatchMux (D : Type) where
  slot : Slot (Batch D)
  receivers : List (Option (Consumer D))
  deriving DecidableEq, Repr

namespace WatchMux

def new : WatchMux D := ⟨⟨[], 0⟩, []⟩

def hasReceivers (mux : WatchMux D) : Bool := mux.receivers.any Option.isSome

/-- A batch is sent to the receivers there are.  Without any the call fails and the batch is not
kept. -/
def emit (mux : WatchMux D) (batch : Batch D) : Option (WatchMux D) :=
  if mux.hasReceivers then
    some {
      slot := mux.slot.send batch
      receivers := mux.receivers.map
        (Option.map fun c => { c with emitted := c.emitted ++ batch.toList }) }
  else none

def receiver (mux : WatchMux D) : WatchMux D :=
  { mux with receivers := mux.receivers ++ [some { rx := mux.slot.subscribe }] }

def atReceiver (mux : WatchMux D) (place : ℕ) (f : Consumer D → Option (Consumer D)) : WatchMux D :=
  { mux with receivers := mux.receivers.mapIdx fun i c => if i = place then c.bind f else c }

/-- What happens to a fan-out. -/
inductive Event (D : Type)
  | emit (batch : Batch D)
  | receiver
  | changed (place : ℕ)
  | borrowAndUpdate (place : ℕ)
  | drop (place : ℕ)
  deriving DecidableEq, Repr

def step (mux : WatchMux D) : Event D → WatchMux D
  | .emit batch => (mux.emit batch).getD mux
  | .receiver => mux.receiver
  | .changed place => mux.atReceiver place fun c => some (c.changed mux.slot)
  | .borrowAndUpdate place => mux.atReceiver place fun c => some (c.borrowAndUpdate mux.slot)
  | .drop place => mux.atReceiver place fun _ => none

/-- Every receiver that goes on has all batches since it subscribed, each once and in order. -/
def Lossless (mux : WatchMux D) : Prop :=
  ∀ c, some c ∈ mux.receivers → (c.consume mux.slot).got = c.emitted

/-- No batch is emitted while one with events is still due to a receiver. -/
def Awaited (mux : WatchMux D) : Event D → Prop
  | .emit _ => ∀ c, some c ∈ mux.receivers → c.due mux.slot = []
  | _ => True

def SeenSent (mux : WatchMux D) : Prop :=
  ∀ c, some c ∈ mux.receivers → c.rx.seen ≤ mux.slot.version

/-! ## One step -/

variable {mux : WatchMux D} {place : ℕ} {f : Consumer D → Option (Consumer D)}

lemma mem_atReceiver {c : Consumer D} (h : some c ∈ (mux.atReceiver place f).receivers) :
    some c ∈ mux.receivers ∨ ∃ c', some c' ∈ mux.receivers ∧ f c' = some c := by
  obtain ⟨i, hi, hc⟩ := List.mem_mapIdx.1 h
  by_cases hplace : i = place
  · rw [if_pos hplace] at hc
    obtain ⟨c', hget, hf⟩ := Option.bind_eq_some_iff.1 hc
    exact .inr ⟨c', hget ▸ List.getElem_mem hi, hf⟩
  · rw [if_neg hplace] at hc
    exact .inl (hc ▸ List.getElem_mem hi)

/-- What is true of every receiver stays true if one does something that keeps it true. -/
lemma forall_atReceiver {P : Consumer D → Prop} (h : ∀ c, some c ∈ mux.receivers → P c)
    (hf : ∀ c c', f c = some c' → P c → P c') :
    ∀ c, some c ∈ (mux.atReceiver place f).receivers → P c := by
  intro c hc
  rcases mem_atReceiver hc with hc | ⟨c', hc', hfc⟩
  · exact h c hc
  · exact hf c' c hfc (h c' hc')

lemma hasReceivers_receiver (mux : WatchMux D) : mux.receiver.hasReceivers = true := by
  rw [hasReceivers, receiver, List.any_append]
  simp

lemma hasReceivers_iff : mux.hasReceivers = true ↔ ∃ c, some c ∈ mux.receivers := by
  rw [hasReceivers, List.any_eq_true]
  constructor
  · rintro ⟨c, hc, hsome⟩
    obtain ⟨c', rfl⟩ := Option.isSome_iff_exists.1 hsome
    exact ⟨c', hc⟩
  · rintro ⟨c, hc⟩
    exact ⟨some c, hc, rfl⟩

lemma hasReceivers_of_drop (h : (mux.step (.drop place)).hasReceivers = true) :
    mux.hasReceivers = true := by
  obtain ⟨c, hc⟩ := hasReceivers_iff.1 h
  rcases mem_atReceiver hc with hc | ⟨c', hc', -⟩
  · exact hasReceivers_iff.2 ⟨c, hc⟩
  · exact hasReceivers_iff.2 ⟨c', hc'⟩

lemma not_hasReceivers_of_emit {batch : Batch D} (h : mux.emit batch = none) :
    mux.hasReceivers = false := by
  by_contra hsome
  rw [Bool.not_eq_false] at hsome
  simp [emit, if_pos hsome] at h

lemma step_emit_of_hasReceivers (h : mux.hasReceivers = true) (batch : Batch D) :
    mux.step (.emit batch) = {
      slot := mux.slot.send batch
      receivers := mux.receivers.map
        (Option.map fun c => { c with emitted := c.emitted ++ batch.toList }) } := by
  rw [step, emit, if_pos h]
  rfl

lemma step_emit_of_not_hasReceivers (h : ¬ mux.hasReceivers = true) (batch : Batch D) :
    mux.step (.emit batch) = mux := by
  rw [step, emit, if_neg h]
  rfl

lemma seenSent_step (h : mux.SeenSent) (event : Event D) : (mux.step event).SeenSent := by
  cases event with
  | emit batch =>
    by_cases hreceivers : mux.hasReceivers = true
    · rw [step_emit_of_hasReceivers hreceivers]
      intro c hc
      obtain ⟨c', hc', heq⟩ := List.mem_map.1 hc
      obtain ⟨c'', rfl, rfl⟩ := Option.map_eq_some_iff.1 heq
      exact Nat.le_succ_of_le (h c'' hc')
    · rwa [step_emit_of_not_hasReceivers hreceivers]
  | receiver =>
    intro c hc
    rcases List.mem_append.1 hc with hc | hc
    · exact h c hc
    · cases List.mem_singleton.1 hc
      exact le_rfl
  | changed place =>
    refine forall_atReceiver h fun c c' hf hseen => ?_
    cases hf
    exact Receiver.seen_changed_le hseen
  | borrowAndUpdate place =>
    refine forall_atReceiver h fun c c' hf hseen => ?_
    cases hf
    exact Receiver.seen_borrowAndUpdate_le hseen
  | drop place => exact forall_atReceiver h fun c c' hf => by cases hf

/-- An emission leaves everything due that was emitted exactly if nothing was due before. -/
lemma lossless_emit_iff (hseen : mux.SeenSent) (h : mux.Lossless) (batch : Batch D) :
    (mux.step (.emit batch)).Lossless ↔ mux.Awaited (.emit batch) := by
  by_cases hreceivers : mux.hasReceivers = true
  · rw [step_emit_of_hasReceivers hreceivers]
    -- after the emission the new batch is due, and nothing else
    have hiff : ∀ c, some c ∈ mux.receivers →
        ((({ c with emitted := c.emitted ++ batch.toList } : Consumer D).consume
          (mux.slot.send batch)).got = c.emitted ++ batch.toList ↔ c.due mux.slot = []) := by
      intro c hc
      have hgot := h c hc
      rw [Consumer.got_consume] at hgot
      rw [Consumer.got_consume, Consumer.due, Receiver.due_send (hseen c hc),
        Option.elim_some, ← hgot, List.append_left_inj, List.self_eq_append_right]
    constructor
    · intro hlossless c hc
      exact (hiff c hc).1 (hlossless _ (List.mem_map.2 ⟨some c, hc, rfl⟩))
    · intro hawaited c hc
      obtain ⟨c', hc', heq⟩ := List.mem_map.1 hc
      obtain ⟨c'', rfl, rfl⟩ := Option.map_eq_some_iff.1 heq
      exact (hiff c'' hc').2 (hawaited c'' hc')
  · rw [step_emit_of_not_hasReceivers hreceivers]
    refine iff_of_true h fun c hc => ?_
    exact absurd (hasReceivers_iff.2 ⟨c, hc⟩) hreceivers

/-- Only an emission can lose something, and only if something is still due. -/
lemma lossless_step_iff (hseen : mux.SeenSent) (h : mux.Lossless) (event : Event D) :
    (mux.step event).Lossless ↔ mux.Awaited event := by
  cases event with
  | emit batch => exact lossless_emit_iff hseen h batch
  | receiver =>
    refine iff_of_true (fun c hc => ?_) trivial
    rcases List.mem_append.1 hc with hc | hc
    · exact h c hc
    cases List.mem_singleton.1 hc
    rw [Consumer.got_consume]
    show [] ++ (mux.slot.subscribe.due mux.slot).elim [] Batch.toList = []
    rw [Receiver.due_subscribe]
    rfl
  | changed place =>
    refine iff_of_true (forall_atReceiver h fun c c' hf hgot => ?_) trivial
    cases hf
    rw [Consumer.got_consume] at hgot ⊢
    show c.got ++ (c.changed mux.slot).due mux.slot = c.emitted
    rw [Consumer.due_changed]
    exact hgot
  | borrowAndUpdate place =>
    refine iff_of_true (forall_atReceiver h fun c c' hf hgot => ?_) trivial
    cases hf
    rw [Consumer.got_consume] at hgot ⊢
    show (c.borrowAndUpdate mux.slot).got ++ (c.borrowAndUpdate mux.slot).due mux.slot = c.emitted
    rw [Consumer.got_due_borrowAndUpdate]
    exact hgot
  | drop place => exact iff_of_true (forall_atReceiver h fun c c' hf => by cases hf) trivial

/-! ## Runs -/

/-- **When nothing is lost in the fan-out.**  Along every run of emissions and of receivers that
subscribe, wait, take and are dropped: every receiver has, if it goes on, exactly the batches with
events that were emitted since it subscribed, if and only if every emission finds all receivers up
to date. -/
theorem lossless_iff (events : List (Event D)) :
    Run.AllStates step Lossless new events ↔ Run.AllSteps step Awaited new events := by
  refine Run.allStates_iff_allSteps (I := SeenSent) ?_ ?_ new events ?_ ?_
  · exact fun mux event hseen _ _ => seenSent_step hseen event
  · exact fun mux event hseen h => lossless_step_iff hseen h event
  · intro c hc
    cases hc
  · intro c hc
    cases hc

namespace Overtaken

def first : Batch Unit := [.added ⟨"/tugboat/registry/core/configmaps/default/a", some (), 2⟩]

def second : Batch Unit := [.added ⟨"/tugboat/registry/core/configmaps/default/b", some (), 3⟩]

/-- Both come before the receiver has taken the first. -/
def events : List (Event Unit) := [.receiver, .emit first, .emit second]

end Overtaken

open Overtaken in
/-- Of two batches that come in quick succession the receiver gets the second only. -/
theorem overtaken_batch_is_lost :
    (Run.exec step new (events ++ [.changed 0, .borrowAndUpdate 0])).receivers =
        [some ⟨⟨2, false⟩, [second], [first, second]⟩] ∧
      ¬ Run.AllStates step Lossless new events := by
  refine ⟨by decide, fun h => ?_⟩
  have hgot := h.2.2.2 ⟨⟨0, false⟩, [], [first, second]⟩ (by decide)
  revert hgot
  decide

end WatchMux

end Tugboat
