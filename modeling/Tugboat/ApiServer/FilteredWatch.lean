import Tugboat.ApiServer.Watch
import Tugboat.Lib.Run
import Tugboat.Store.Collection

/-!
# Filtered watches

A client lists a collection with selectors, keeps what it got, and follows the watch with the same
selectors.  Its copy should be the selected part of the collection, after every change.

But a watch looks only at the object in the event, which for a put is the new version: a put that
makes an object stop matching is not sent, and neither is the removal of the object later on.  The
copy stays right exactly as long as no put takes an object out of the selection.
-/

namespace Tugboat

open Json

section

variable {D O : Type} {kind : WatchedKind D O}

/-- The change is no update that takes an object out of the selection. -/
def WatchRequest.Stays (request : WatchRequest) (stored : StoredObjects kind)
    (change : StoredChange kind) : Prop :=
  ¬ change.objectChange.Leaves (request.selects kind) stored.objects
  deriving Decidable

/-- What is stored, and the copy of a client that watches it. -/
structure Watching (kind : WatchedKind D O) where
  stored : StoredObjects kind
  copy : String → Option O

namespace Watching

variable (request : WatchRequest)

/-- The client has listed the collection. -/
def start (stored : StoredObjects kind) : Watching kind where
  stored := stored
  copy := request.listed stored

/-- A change is made, and the client follows what it is sent. -/
def step (w : Watching kind) (change : StoredChange kind) : Watching kind where
  stored := w.stored.apply change
  copy := request.follow kind w.copy ⟨change.toChange, w.stored.kvs change.key⟩

/-- The copy has exactly the stored objects that match, as they are now. -/
def Tracked (w : Watching kind) : Prop := w.copy = request.collection w.stored

/-- No object leaves the selection by the change. -/
def Stays (w : Watching kind) (change : StoredChange kind) : Prop := request.Stays w.stored change
  deriving Decidable

variable {request}

/-- One change is tracked exactly if nothing leaves the selection by it. -/
lemma tracked_step_iff {w : Watching kind} (h : w.Tracked request) (change : StoredChange kind) :
    (w.step request change).Tracked request ↔ w.Stays request change := by
  have hcopy : (w.step request change).copy = Report.follow (request.selects kind)
      (select (request.selects kind) w.stored.objects)
        ⟨change.objectChange, w.stored.objects change.key⟩ := by
    rw [step, request.follow_eq, h]
    rfl
  rw [Tracked, hcopy, WatchRequest.collection, step, StoredObjects.objects_apply]
  exact Report.follow_select_iff _ _ change.objectChange

/-- **A filtered watch tracks the filtered collection exactly as long as nothing is updated out of
it.**  For every kind, request and sequence of changes, the client's copy has after each of them
exactly the stored objects that match, if and only if no update replaces an object that matches by
one that does not. -/
theorem tracked_iff_stays (stored : StoredObjects kind) (changes : List (StoredChange kind)) :
    Run.AllStates (step request) (Tracked request) (start request stored) changes ↔
      Run.AllSteps (step request) (Stays request) (start request stored) changes :=
  Run.allStates_iff_allSteps (I := fun _ => True) (fun _ _ _ _ _ => trivial)
    (fun _ change _ h => tracked_step_iff h change) _ _ trivial
    (request.listed_eq_collection stored)

end Watching

/-! ## The objects of a built-in kind -/

variable {T : Type} [Resource T]

def StoredObjects.ofCollection (emptyData : T) (s : Collection T) :
    StoredObjects (WatchedKind.builtin emptyData) where
  kvs := s.kvs
  keys := s.keys
  mem_keys := s.mem_keys
  shown key c h := ⟨c.applyRevision, rfl, ResourceStore.keyOf_applyRevision (s.keyed key c h)⟩

/-- The change a put makes. -/
def StoredChange.ofPut (emptyData : T) (request : PutRequest T) (revision : ℕ) :
    StoredChange (WatchedKind.builtin emptyData) where
  key := request.key
  revision := revision
  data := some request.value
  shown d hd := by
    cases hd
    exact ⟨_, rfl, ResourceStore.keyOf_applyRevision request.keyed⟩

/-- The change a removal makes. -/
def StoredChange.ofErase (emptyData : T) (key : String) (revision : ℕ) :
    StoredChange (WatchedKind.builtin emptyData) where
  key := key
  revision := revision
  data := none
  shown d hd := by cases hd

/-- A call of the store makes one such change, under the next revision, or none. -/
lemma exists_changes_of_exec (emptyData : T) (s : ResourceStore T) (access : Access)
    (op : StoreOp T) : ∃ changes : List (StoredChange (WatchedKind.builtin emptyData)),
      (StoreOp.exec s access op).1.kvs = replay s.kvs (changes.map StoredChange.toChange) ∧
        (changes = [] ∧ (StoreOp.exec s access op).1.revision = s.revision ∨
          ∃ c, changes = [c] ∧ c.revision = s.revision + 1 ∧
            (StoreOp.exec s access op).1.revision = s.revision + 1) := by
  rcases StoreOp.exec_world s access op with hw | ⟨request, -, hw⟩ | ⟨key, -, hw⟩
  · exact ⟨[], by rw [hw]; rfl, .inl ⟨rfl, by rw [hw]⟩⟩
  · refine ⟨[.ofPut emptyData request (s.revision + 1)], by rw [hw]; rfl, .inr ⟨_, rfl, rfl, ?_⟩⟩
    rw [hw]
    rfl
  · cases hkey : s.kvs key with
    | none =>
      refine ⟨[], ?_, .inl ⟨rfl, ?_⟩⟩
      · rw [hw]
        exact (congrArg _ hkey.symm).trans (Function.update_eq_self key s.kvs)
      · simp [hw, ResourceStore.erase, hkey]
    | some c =>
      refine ⟨[.ofErase emptyData key (s.revision + 1)], by rw [hw]; rfl, .inr ⟨_, rfl, rfl, ?_⟩⟩
      simp [hw, ResourceStore.erase, hkey]

/-- **Runs of the store are histories.**  What any sequence of calls leaves, whichever of them are
refused, fail or lose their answers, is what a list of changes makes of the store, and their
revisions increase, from the first of the store to at most the last. -/
theorem exists_changes_of_run (emptyData : T) (s : ResourceStore T)
    (calls : List (Access × StoreOp T)) :
    let s' := Run.exec (fun s (call : Access × StoreOp T) => (call.2.exec s call.1).1) s calls
    ∃ changes : List (StoredChange (WatchedKind.builtin emptyData)),
      s'.kvs = replay s.kvs (changes.map StoredChange.toChange) ∧
        (s.revision :: changes.map (·.revision)).Pairwise (· < ·) ∧
        ∀ r ∈ s.revision :: changes.map (·.revision), r ≤ s'.revision := by
  induction calls generalizing s with
  | nil => exact ⟨[], rfl, List.pairwise_singleton _ _, by simp [Run.exec]⟩
  | cons call calls ih =>
    obtain ⟨changes, hkvs, hpairwise, hle⟩ := ih (StoreOp.exec s call.1 call.2).1
    obtain ⟨made, hmade, hcases⟩ := exists_changes_of_exec emptyData s call.1 call.2
    rw [hmade] at hkvs
    rcases hcases with ⟨rfl, hrevision⟩ | ⟨c, rfl, hc, hrevision⟩
    · rw [hrevision] at hpairwise hle
      exact ⟨changes, hkvs, hpairwise, hle⟩
    · rw [hrevision, ← hc] at hpairwise hle
      have hc : s.revision < c.revision := hc ▸ Nat.lt_succ_self _
      refine ⟨c :: changes, hkvs, List.pairwise_cons.2 ⟨fun r hr => ?_, hpairwise⟩, fun r hr => ?_⟩
      · rcases List.mem_cons.1 hr with rfl | hr
        · exact hc
        · exact Nat.lt_trans hc (List.rel_of_pairwise_cons hpairwise hr)
      · rcases List.mem_cons.1 hr with rfl | hr
        · exact Nat.le_of_lt (Nat.lt_of_lt_of_le hc (hle _ (List.mem_cons_self ..)))
        · exact hle r hr

end

/-! ## An object that stops matching -/

namespace Watching

namespace Sample

open Fixture

def configMap (track : String) : ConfigMap where
  objectMeta := some {
    name := some "demo", «namespace» := some "default", labels := [("track", track)] }

def key : String := "/tugboat/registry/core/configmaps/default/demo"

abbrev configMaps : WatchedKind ConfigMap ConfigMap := .builtin {}

def onStableTrack : StoredObjects configMaps :=
  .ofCollection _ (.single (configMap "stable") key rfl (by decide))

def stable : WatchRequest where
  watchKey := Collection.createWatchKey ConfigMap (some "default")
  labelSelector := some [.equal "track" "stable"]

def creation : StoredChange configMaps := .ofPut _ ⟨key, configMap "stable", none, rfl⟩ 2

/-- The config map is put on another track, and then removed. -/
def changes : List (StoredChange configMaps) :=
  [.ofPut _ ⟨key, configMap "canary", none, rfl⟩ 2, .ofErase _ key 3]

end Sample

open Fixture Sample in
/-- A config map that leaves the selection stays in the copy, even after it is removed. -/
theorem copy_keeps_object_that_left :
    let final := Run.exec (step stable) (start stable onStableTrack) changes
    (final.copy key).isSome = true ∧ final.stored.kvs key = none ∧
      ¬ Run.AllStates (step stable) (Tracked stable) (start stable onStableTrack) changes := by
  refine ⟨by decide, by decide, fun h => ?_⟩
  obtain ⟨-, htracked, -⟩ := h
  -- the copy and the collection already differ after the first change
  have hkey := congrFun htracked key
  revert hkey
  decide

end Watching

end Tugboat
