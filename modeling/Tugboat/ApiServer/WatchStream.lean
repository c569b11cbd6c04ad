import Tugboat.ApiServer.Watch
import Tugboat.Lib.Run

/-!
# What a watch sends

The changes of stored objects as the key-value store reports them (`storeReports`), and what a
watch sends of them (`WatchRequest.sendAll`): nothing of a change that shows no object the request
selects, and otherwise one event, with the object and its resource version.
-/

namespace Tugboat

variable {D O : Type} {kind : WatchedKind D O}

/-- What the key-value store reports of changes. -/
def storeReports (stored : StoredObjects kind) (changes : List (StoredChange kind)) :
    List (StoreReport D) :=
  reports stored.kvs (changes.map StoredChange.toChange)

lemma storeReports_cons (stored : StoredObjects kind) (change : StoredChange kind)
    (changes : List (StoredChange kind)) : storeReports stored (change :: changes) =
      ⟨change.toChange, stored.kvs change.key⟩ :: storeReports (stored.apply change) changes := rfl

lemma storeReports_append (stored : StoredObjects kind)
    (changes changes' : List (StoredChange kind)) :
    storeReports stored (changes ++ changes') = storeReports stored changes ++
      storeReports (Run.exec StoredObjects.apply stored changes) changes' := by
  induction changes generalizing stored with
  | nil => rfl
  | cons change changes ih =>
    rw [List.cons_append, storeReports_cons, ih, storeReports_cons, List.cons_append,
      Run.exec_cons]

lemma shown_of_change (stored : StoredObjects kind) (change : StoredChange kind) :
    ∀ c, Report.shown ⟨change.toChange, stored.kvs change.key⟩ = some c →
      kind.Shown change.key c := by
  intro c hc
  cases hdata : change.data with
  | some d =>
    rw [Report.shown, StoredChange.toChange, hdata, Option.map_some, Option.some_or] at hc
    cases hc
    exact change.shown d hdata
  | none =>
    rw [Report.shown, StoredChange.toChange, hdata, Option.map_none, Option.none_or] at hc
    exact stored.shown change.key c hc

namespace WatchRequest

section

variable (kind)

/-- The watch is about the change: it shows an object the request selects. -/
def concerns (request : WatchRequest) (r : StoreReport D) : Bool :=
  r.shown.any fun c => (kind.object c).any (request.selects kind r.change.key)

/-- What is sent for changes. -/
def sendAll (request : WatchRequest) (rs : List (StoreReport D)) :
    List (Except StatusResponse (WatchEvent O)) :=
  rs.filterMap (request.send kind)

end

variable {r : StoreReport D}

lemma send_of_view {c : ContentData D} {object : O} (request : WatchRequest)
    (hshown : r.shown = some c) (hview : kind.view (some c.data) c.revision = .ok object) :
    ∃ event : WatchEvent O, event.content = object ∧ request.send kind r =
        if request.selects kind r.change.key object then some (.ok event) else none := by
  obtain ⟨event, hevent, hcontent⟩ := Report.storeEvent_of_shown hshown
  have hobject : kind.view event.content.value event.content.revision = .ok object := by
    rw [hcontent]
    exact hview
  refine ⟨event.withContent object, by cases event <;> rfl, ?_⟩
  rw [send, hevent, Option.bind_some, serveEvent_eq hobject]
  by_cases hwatch : request.watchKey.toList <+: r.change.key.toList <;> simp [selects, hwatch]

lemma concerns_of_view {c : ContentData D} {object : O} (request : WatchRequest)
    (hshown : r.shown = some c) (hview : kind.view (some c.data) c.revision = .ok object) :
    request.concerns kind r = request.selects kind r.change.key object := by
  simp [concerns, hshown, WatchedKind.object, hview, Except.toOption]

/-- What is sent for a report the watch is about: an event with the revision of the version that
is shown. -/
lemma send_of_concerns {request : WatchRequest}
    (hr : ∀ c, r.shown = some c → kind.Shown r.change.key c)
    (hconcerns : request.concerns kind r = true) :
    ∃ c event, r.shown = some c ∧ request.send kind r = some (.ok event) ∧
      kind.resourceVersion event.content = some (toString c.revision) := by
  obtain ⟨c, hshown, -⟩ := (Option.any_eq_true _ _).1 hconcerns
  obtain ⟨object, hview, -⟩ := hr c hshown
  obtain ⟨event, hcontent, hsend⟩ := send_of_view request hshown hview
  rw [concerns_of_view request hshown hview] at hconcerns
  rw [if_pos hconcerns] at hsend
  exact ⟨c, event, hshown, hsend, hcontent ▸ kind.resourceVersion_view hview⟩

lemma send_eq_none {request : WatchRequest} (hr : ∀ c, r.shown = some c → kind.Shown r.change.key c)
    (hconcerns : request.concerns kind r = false) :
    request.send kind r = none := by
  cases hshown : r.shown with
  | none =>
    rw [Report.shown, Option.or_eq_none_iff] at hshown
    rw [send, Report.storeEvent_of_none hshown.1 hshown.2, Option.bind_none, ite_self]
  | some c =>
    obtain ⟨object, hview, -⟩ := hr c hshown
    obtain ⟨event, -, hsend⟩ := send_of_view request hshown hview
    rw [concerns_of_view request hshown hview] at hconcerns
    rw [hsend, hconcerns]
    rfl

end WatchRequest

end Tugboat
