import Tugboat.Lib.History
import Tugboat.Store.ResourceStore

/-!
# Watching the store

What `tugboat-resource-store` makes of the key-value store's watch: `transformEvent` turns its
events into `WatchEvent`s, and `WatchMuxAggregator.get` turns a resource version into the revision
to start from.

The key-value store is described by what it reports.  Every change of a key is an event
(`EtcdEvent.ofReport`), a put carrying the new version and a removal the version that is gone; and a
watch is told of the changes from its start revision on (`watchedFrom`), where none, and zero, mean
the next one.
-/

namespace Tugboat

/-! ## Events of the key-value store -/

/-- A key in an event of the key-value store.  A key that was removed has no value. -/
structure EtcdKeyValue (D : Type) where
  key : String
  value : Option D
  modRevision : ℕ
  /-- The number of writes since the key was created. -/
  version : ℕ
  deriving DecidableEq, Repr

inductive EventType
  | put
  | delete
  deriving DecidableEq, Repr

structure EtcdEvent (D : Type) where
  eventType : EventType
  kv : Option (EtcdKeyValue D)
  prevKv : Option (EtcdKeyValue D)
  deriving DecidableEq, Repr

structure KeyValue (D : Type) where
  key : String
  value : Option D
  revision : ℕ
  deriving DecidableEq, Repr

/-- What happened to an object.  The store's events are about keys, those of the API server about
objects. -/
inductive WatchEvent (A : Type)
  | added (content : A)
  | modified (content : A)
  | deleted (content : A)
  deriving DecidableEq, Repr

def WatchEvent.content {A : Type} : WatchEvent A → A
  | .added a | .modified a | .deleted a => a

/-- The same event about something else. -/
def WatchEvent.withContent {A B : Type} (b : B) : WatchEvent A → WatchEvent B
  | .added _ => .added b
  | .modified _ => .modified b
  | .deleted _ => .deleted b

section

variable {D : Type}

/-- A put adds a key if it is the first one since the key was created.  A removal is reported with
the previous version, which the watch asks for; without it, with what else is known of the key. -/
def transformEvent (event : EtcdEvent D) : Option (WatchEvent (KeyValue D)) :=
  match event.eventType with
  | .put => event.kv.map fun kv =>
    let out : KeyValue D := ⟨kv.key, kv.value, kv.modRevision⟩
    if kv.version = 1 then .added out else .modified out
  | .delete => (event.prevKv.or event.kv).map fun kv =>
    .deleted ⟨kv.key, kv.value, kv.modRevision⟩

abbrev StoreReport (D : Type) : Type := Report String (ContentData D)

/-- The event of a change.  Of the version only matters whether it is the first; removing a key
that is not there is no event. -/
def EtcdEvent.ofReport (r : StoreReport D) : Option (EtcdEvent D) :=
  let prevKv := r.previous.map fun c =>
    (⟨r.change.key, some c.data, c.revision, 1⟩ : EtcdKeyValue D)
  match r.change.entry, r.previous with
  | some c, none => some ⟨.put, some ⟨r.change.key, some c.data, c.revision, 1⟩, prevKv⟩
  | some c, some _ => some ⟨.put, some ⟨r.change.key, some c.data, c.revision, 2⟩, prevKv⟩
  | none, some _ => some ⟨.delete, some ⟨r.change.key, none, r.change.revision, 0⟩, prevKv⟩
  | none, none => none

/-- What a watcher of the store is told of a change. -/
def Report.storeEvent (r : StoreReport D) : Option (WatchEvent (KeyValue D)) :=
  (EtcdEvent.ofReport r).bind transformEvent

/-- The version an event of the store carries. -/
def KeyValue.ofContent (key : String) (c : ContentData D) : KeyValue D :=
  ⟨key, some c.data, c.revision⟩

section Report

variable {r : StoreReport D} {c c' : ContentData D}

lemma Report.storeEvent_of_added (hentry : r.change.entry = some c)
    (hprevious : r.previous = none) :
    r.storeEvent = some (.added (.ofContent r.change.key c)) := by
  simp [storeEvent, EtcdEvent.ofReport, hentry, hprevious, transformEvent, KeyValue.ofContent]

lemma Report.storeEvent_of_modified (hentry : r.change.entry = some c)
    (hprevious : r.previous = some c') :
    r.storeEvent = some (.modified (.ofContent r.change.key c)) := by
  simp [storeEvent, EtcdEvent.ofReport, hentry, hprevious, transformEvent, KeyValue.ofContent]

lemma Report.storeEvent_of_deleted (hentry : r.change.entry = none)
    (hprevious : r.previous = some c) :
    r.storeEvent = some (.deleted (.ofContent r.change.key c)) := by
  simp [storeEvent, EtcdEvent.ofReport, hentry, hprevious, transformEvent, KeyValue.ofContent]

lemma Report.storeEvent_of_none (hentry : r.change.entry = none) (hprevious : r.previous = none) :
    r.storeEvent = none := by
  simp [storeEvent, EtcdEvent.ofReport, hentry, hprevious]

lemma Report.storeEvent_of_shown (h : r.shown = some c) :
    ∃ event, r.storeEvent = some event ∧ event.content = .ofContent r.change.key c := by
  cases hentry : r.change.entry with
  | some new =>
    rw [shown, hentry, Option.some_or] at h
    cases h
    cases hprevious : r.previous with
    | none => exact ⟨_, storeEvent_of_added hentry hprevious, rfl⟩
    | some old => exact ⟨_, storeEvent_of_modified hentry hprevious, rfl⟩
  | none =>
    rw [shown, hentry, Option.none_or] at h
    exact ⟨_, storeEvent_of_deleted hentry h, rfl⟩

end Report

/-! ## Where a watch starts -/

namespace WatchMuxAggregator

def parseResourceVersion : Option String → Except StoreError (Option Int)
  | none => .ok none
  | some value =>
    match Decimal.parseInt64 value with
    | none => .error (.invalidField "resourceVersion" "must be a valid integer")
    | some revision =>
      if revision < 0 then .error (.invalidField "resourceVersion" "must not be negative")
      else .ok (some revision)

def maxRevision : ℕ := 2 ^ 63 - 1

/-- The revision after `revision`, if there is one. -/
def nextRevision (revision : Int) : Int :=
  if revision < maxRevision then revision + 1 else maxRevision

def getFromStartRevision (startRevision : Option Int) : Except StoreError (Option Int) :=
  if startRevision.any (· < 0) then
    .error (.invalidField "startRevision" "must not be negative")
  else .ok startRevision

def get (resourceVersion : Option String) : Except StoreError (Option Int) := do
  getFromStartRevision ((← parseResourceVersion resourceVersion).map nextRevision)

lemma parseResourceVersion_toString (n : ℕ) : parseResourceVersion (some (toString n)) =
      if n ≤ maxRevision then .ok (some (n : Int))
      else .error (.invalidField "resourceVersion" "must be a valid integer") := by
  have hbound : n ≤ maxRevision ↔ n < 2 ^ 63 := by
    unfold maxRevision
    omega
  have hnonneg : ¬ (n : Int) < 0 := by omega
  rw [parseResourceVersion, Decimal.parseInt64_toString]
  by_cases hn : n ≤ maxRevision
  · rw [if_pos hn, if_pos (hbound.1 hn)]
    exact if_neg hnonneg
  · rw [if_neg hn, if_neg (mt hbound.2 hn)]

lemma get_of_parseResourceVersion {resourceVersion : Option String} {revision : Option Int}
    (h : parseResourceVersion resourceVersion = .ok revision) :
    get resourceVersion = getFromStartRevision (revision.map nextRevision) := by
  rw [get, h]
  rfl

lemma getFromStartRevision_of_nonneg {start : Int} (h : 0 ≤ start) :
    getFromStartRevision (some start) = .ok (some start) := by
  rw [getFromStartRevision, if_neg]
  simpa using h

end WatchMuxAggregator

/-- The first revision a watch is told of that is set up when the last revision is `now`. -/
def firstWatched (startRevision : Option Int) (now : ℕ) : ℕ :=
  match startRevision with
  | none => now + 1
  | some start => if start = 0 then now + 1 else start.toNat

lemma firstWatched_natCast (n now : ℕ) :
    firstWatched (some (n : Int)) now = if n = 0 then now + 1 else n := by
  rw [firstWatched]
  by_cases hzero : n = 0
  · rw [if_pos hzero, if_pos (by omega)]
  · rw [if_neg hzero, if_neg (by omega), Int.toNat_natCast]

/-- What a watch is told of all that is ever reported. -/
def watchedFrom (startRevision : Option Int) (now : ℕ)
    (history : List (StoreReport D)) : List (StoreReport D) :=
  history.filter fun r => firstWatched startRevision now ≤ r.change.revision

def changesFrom (first : ℕ) (history : List (StoreReport D)) :
    List (StoreReport D) :=
  history.filter fun r => first ≤ r.change.revision

lemma changesFrom_append (first : ℕ) (history changes : List (StoreReport D)) :
    changesFrom first (history ++ changes) =
      changesFrom first history ++ changesFrom first changes :=
  List.filter_append ..

lemma changesFrom_eq_nil {history : List (StoreReport D)} {now first : ℕ}
    (hwritten : ∀ r ∈ history, r.change.revision ≤ now) (h : now < first) :
    changesFrom first history = [] := by
  refine List.filter_eq_nil_iff.2 fun r hr => ?_
  have hle := hwritten r hr
  simp only [decide_eq_true_eq]
  omega

end

end Tugboat
