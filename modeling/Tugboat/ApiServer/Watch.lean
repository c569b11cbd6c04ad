import Tugboat.ApiServer.Selector
import Tugboat.ApiServer.Status
import Tugboat.Store.Watch

/-!
# Lists and watches of the API server

How `watch_utils.rs` and `custom_resources/watch.rs` serve a watch, and the lists next to it.
Built-in kinds and custom resources go through different code with one shape: a stored value is
turned into the object clients see, with its revision as resource version, and the object is shown
if it matches the selectors.  `WatchedKind` is what the shape leaves open; `WatchedKind.builtin`
and `WatchedKind.custom` fill it in.

On the other side is a client that keeps a copy of a collection: it starts from the items of a list
and follows the events of a watch.
-/

namespace Tugboat

open Json

/-! ## Kinds -/

inductive WatchEndpoint
  | builtin
  | custom
  deriving DecidableEq, Repr

/-- The start revision that a watch request with a given resource version passes to the key-value
store. -/
def WatchEndpoint.startRevision :
    WatchEndpoint → Option String → Except StatusResponse (Option Int)
  | .builtin, resourceVersion =>
    (WatchMuxAggregator.get resourceVersion).mapError StatusResponse.ofStoreError
  | .custom, none => .ok none
  | .custom, some resourceVersion =>
    match Decimal.parseInt64 resourceVersion with
    | none => .error (.badRequest "resourceVersion must be a valid integer")
    | some revision =>
      (WatchMuxAggregator.getFromStartRevision (some revision)).mapError
        StatusResponse.ofStoreError

/-- A kind as it is listed and watched: data `D` is stored, objects `O` are shown. -/
structure WatchedKind (D O : Type) where
  endpoint : WatchEndpoint
  /-- The object clients see of stored data and its revision.  No data is what is left of a key
  that is reported without its value. -/
  view : Option D → ℕ → Except StatusResponse O
  /-- The key an object is stored under. -/
  keyOf : O → Except StoreError String
  /-- Whether an object matches field and label selectors. -/
  matchesSelectors : Option (List Selector) → Option (List Selector) → O → Bool
  /-- The resource version clients find in an object. -/
  resourceVersion : O → Option String
  resourceVersion_view : ∀ {data revision object}, view data revision = .ok object →
    resourceVersion object = some (toString revision)

namespace WatchedKind

/-- A built-in kind.  `emptyData` is the object the decoder reads from no bytes at all. -/
def builtin {T : Type} [Resource T] (emptyData : T) : WatchedKind T T where
  endpoint := .builtin
  view data revision := .ok (ContentData.mk (data.getD emptyData) revision).applyRevision
  keyOf := ResourceStore.keyOf
  matchesSelectors fieldSelector labelSelector :=
    checkSelector (fieldSelector.map (·.map FieldSelector.ofSelector)) labelSelector
  resourceVersion object := (Resource.objectMeta object).bind (·.resourceVersion)
  resourceVersion_view h := by
    cases h
    rw [ContentData.objectMeta_applyRevision, Option.bind_some]

end WatchedKind

namespace CustomResource

variable [TimeCodec]

/-- The metadata of a custom resource.  The decoder's own error text, which the source puts into
the details, is left out. -/
def extractMetadata (value : Value) : Except StatusResponse ObjectMeta :=
  match value.get "metadata" with
  | none => .error (.badRequest "metadata is required")
  | some metadata =>
    match ObjectMeta.fromValue metadata with
    | none => .error (.badRequest "metadata is invalid")
    | some m => .ok m

def setMetadata (value : Value) (m : ObjectMeta) : Except StatusResponse Value :=
  match value with
  | .object fields =>
    match m.toValue with
    | none => .error .jsonError
    | some metadata => .ok (.object (Map.insert "metadata" metadata fields))
  | _ => .error (.badRequest "custom resource body must be a JSON object")

def injectResourceVersion (value : Value) (revision : ℕ) : Except StatusResponse Value := do
  let m ← extractMetadata value
  setMetadata value { m with resourceVersion := some (toString revision) }

def matchesSelectors (fieldSelector labelSelector : Option (List Selector)) (value : Value) :
    Bool :=
  fieldSelector.all (fun fs =>
    (fs.map FieldSelector.ofSelector).all (FieldSelector.isMatch value)) &&
  labelSelector.all fun ls =>
    match extractMetadata value with
    | .error _ => false
    | .ok m => ls.all (Selector.isLabelMatch m)

/-- The resource version in the metadata, as `resource_version_as_revision` finds it. -/
def resourceVersion (value : Value) : Option String :=
  (value.get "metadata").bind (·.get "resourceVersion") |>.bind (·.asStr)

lemma resourceVersion_setMetadata {value value' : Value} {m : ObjectMeta}
    (h : setMetadata value m = .ok value') : resourceVersion value' = m.resourceVersion := by
  unfold setMetadata at h
  split at h
  · split at h
    · cases h
    rename_i fields _ metadata hmeta
    cases h
    have hfield : (Value.object (Map.insert "metadata" metadata fields)).get "metadata" =
        some metadata := Map.get_insert_self "metadata" metadata fields
    rw [resourceVersion, hfield, Option.bind_some, (ObjectMeta.get_of_toValue hmeta).1]
    cases m.resourceVersion with
    | none | some rv => rfl
  · cases h

lemma resourceVersion_injectResourceVersion {value shown : Value} {revision : ℕ}
    (h : injectResourceVersion value revision = .ok shown) :
    resourceVersion shown = some (toString revision) := by
  obtain ⟨m, -, hset⟩ := bind_eq_ok_iff.1 h
  exact resourceVersion_setMetadata hset

/-- The key of a custom resource, from its own metadata. -/
def keyOf (group plural : String) (value : Value) : Except StoreError String :=
  match extractMetadata value with
  | .error _ => .error (.fieldMissing "metadata")
  | .ok m =>
    match m.name with
    | none => .error (.fieldMissing "metadata.name")
    | some name => .ok (createCustomKey group plural m.namespace name)

end CustomResource

/-- The resources of a CRD.  They are stored as JSON, in an envelope that is left out here. -/
def WatchedKind.custom [TimeCodec] (group plural : String) : WatchedKind Value Value where
  endpoint := .custom
  view
    | none, _ => .error .jsonError
    | some value, revision => CustomResource.injectResourceVersion value revision
  keyOf := CustomResource.keyOf group plural
  matchesSelectors := CustomResource.matchesSelectors
  resourceVersion := CustomResource.resourceVersion
  resourceVersion_view {data revision object} h := by
    cases data with
    | none => cases h
    | some value => exact CustomResource.resourceVersion_injectResourceVersion h

/-! ## Serving -/

section

variable {D O : Type} (kind : WatchedKind D O)

def listItems (fieldSelector labelSelector : Option (List Selector))
    (stored : List (ContentData D)) : Except StatusResponse (List O) := do
  let items ← stored.mapM fun c => kind.view (some c.data) c.revision
  return items.filter (kind.matchesSelectors fieldSelector labelSelector)

/-- What becomes of an event of the store: the event with the object, an error, or nothing if the
object does not match. -/
def serveEvent (fieldSelector labelSelector : Option (List Selector))
    (event : WatchEvent (KeyValue D)) : Option (Except StatusResponse (WatchEvent O)) :=
  match kind.view event.content.value event.content.revision with
  | .error e => some (.error e)
  | .ok object =>
    if kind.matchesSelectors fieldSelector labelSelector object then
      some (.ok (event.withContent object))
    else none

variable {kind} in
lemma serveEvent_eq {event : WatchEvent (KeyValue D)} {object : O}
    (h : kind.view event.content.value event.content.revision = .ok object)
    (fieldSelector labelSelector : Option (List Selector)) :
    serveEvent kind fieldSelector labelSelector event =
      if kind.matchesSelectors fieldSelector labelSelector object then
        some (.ok (event.withContent object))
      else none := by
  simp only [serveEvent, h]

/-! ## What is stored -/

/-- The object clients see of a stored version. -/
def WatchedKind.object (c : ContentData D) : Option O :=
  (kind.view (some c.data) c.revision).toOption

/-- A stored version is shown as an object of its own key. -/
def WatchedKind.Shown (key : String) (c : ContentData D) : Prop :=
  ∃ object, kind.view (some c.data) c.revision = .ok object ∧ kind.keyOf object = .ok key

/-- The objects of a kind, with the keys in use. -/
structure StoredObjects where
  kvs : String → Option (ContentData D)
  keys : List String
  mem_keys : ∀ key c, kvs key = some c → key ∈ keys
  shown : ∀ key c, kvs key = some c → kind.Shown key c

/-- A change of a stored object: new data, or none if it is removed. -/
structure StoredChange where
  key : String
  revision : ℕ
  data : Option D
  shown : ∀ d, data = some d → kind.Shown key ⟨d, revision⟩

end

section

variable {D O : Type} {kind : WatchedKind D O}

def StoredChange.toChange (change : StoredChange kind) : Change String (ContentData D) where
  key := change.key
  revision := change.revision
  entry := change.data.map (⟨·, change.revision⟩)

/-- The change as clients see it. -/
def StoredChange.objectChange (change : StoredChange kind) : Change String O where
  key := change.key
  revision := change.revision
  entry := change.data.bind fun d => kind.object ⟨d, change.revision⟩

namespace StoredObjects

def apply (stored : StoredObjects kind) (change : StoredChange kind) : StoredObjects kind where
  kvs := change.toChange.apply stored.kvs
  keys := change.key :: stored.keys
  mem_keys := by
    intro key c hc
    rcases of_update_eq_some hc with ⟨rfl, -⟩ | ⟨-, hc⟩
    · exact List.mem_cons_self
    · exact List.mem_cons_of_mem _ (stored.mem_keys key c hc)
  shown := by
    intro key c hc
    rcases of_update_eq_some hc with ⟨rfl, hnew⟩ | ⟨-, hc⟩
    · obtain ⟨d, hd, rfl⟩ := Option.map_eq_some_iff.1 hnew
      exact change.shown d hd
    · exact stored.shown key c hc

lemma kvs_apply_self (stored : StoredObjects kind) (change : StoredChange kind) :
    (stored.apply change).kvs change.key = change.toChange.entry := by
  show change.toChange.apply stored.kvs change.toChange.key = _
  rw [Change.apply, Function.update_self]

lemma kvs_apply_of_ne (stored : StoredObjects kind) {change : StoredChange kind} {key : String}
    (h : key ≠ change.key) : (stored.apply change).kvs key = stored.kvs key := by
  show change.toChange.apply stored.kvs key = _
  rw [Change.apply, Function.update_of_ne (show key ≠ change.toChange.key from h)]

def list (stored : StoredObjects kind) (watchKey : String) : List (ContentData D) :=
  (stored.keys.filter fun key => watchKey.toList <+: key.toList).filterMap stored.kvs

def objects (stored : StoredObjects kind) : String → Option O :=
  fun key => (stored.kvs key).bind kind.object

lemma exists_object (stored : StoredObjects kind) {key : String} {c : ContentData D}
    (h : stored.kvs key = some c) :
    ∃ object, kind.object c = some object ∧ kind.keyOf object = .ok key := by
  obtain ⟨object, hview, hkey⟩ := stored.shown key c h
  exact ⟨object, by rw [WatchedKind.object, hview]; rfl, hkey⟩

lemma objects_apply (stored : StoredObjects kind) (change : StoredChange kind) :
    (stored.apply change).objects = change.objectChange.apply stored.objects := by
  funext key
  by_cases hkey : key = change.key
  · subst hkey
    rw [objects, kvs_apply_self, Change.apply,
      show change.key = change.objectChange.key from rfl, Function.update_self]
    cases hdata : change.data with
    | none | some d => simp [StoredChange.toChange, StoredChange.objectChange, hdata]
  · rw [objects, kvs_apply_of_ne stored hkey, Change.apply,
      Function.update_of_ne (show key ≠ change.objectChange.key from hkey), objects]

lemma mem_list {stored : StoredObjects kind} {watchKey : String} {c : ContentData D} :
    c ∈ stored.list watchKey ↔
      ∃ key, watchKey.toList <+: key.toList ∧ stored.kvs key = some c := by
  constructor
  · intro h
    obtain ⟨key, hfilter, hkvs⟩ := List.mem_filterMap.1 h
    exact ⟨key, of_decide_eq_true (List.mem_filter.1 hfilter).2, hkvs⟩
  · rintro ⟨key, hwatch, hkvs⟩
    exact List.mem_filterMap.2 ⟨key, List.mem_filter.2
      ⟨stored.mem_keys key c hkvs, decide_eq_true hwatch⟩, hkvs⟩

end StoredObjects

end

/-! ## A client's copy -/

section

variable {D O : Type} (kind : WatchedKind D O)

def insertObject (copy : String → Option O) (object : O) : String → Option O :=
  match kind.keyOf object with
  | .ok key => Function.update copy key (some object)
  | .error _ => copy

def removeObject (copy : String → Option O) (object : O) : String → Option O :=
  match kind.keyOf object with
  | .ok key => Function.update copy key none
  | .error _ => copy

def collect (items : List O) : String → Option O := items.foldl (insertObject kind) fun _ => none

/-- Additions and modifications overwrite, deletions remove.  An error changes nothing. -/
def followEvent (copy : String → Option O) :
    Except StatusResponse (WatchEvent O) → String → Option O
  | .ok (.added object) | .ok (.modified object) => insertObject kind copy object
  | .ok (.deleted object) => removeObject kind copy object
  | .error _ => copy

variable {kind} {key : String}

lemma insertObject_of_keyOf {object : O} (h : kind.keyOf object = .ok key)
    (copy : String → Option O) :
    insertObject kind copy object = Function.update copy key (some object) := by
  simp only [insertObject, h]

/-- Objects that are all found in `f` are inserted: the copy is as `f` under their keys, and as
before under the others. -/
lemma foldl_insertObject {items : List O} {f : String → Option O} (copy : String → Option O)
    (hitems : ∀ object ∈ items, ∃ key, kind.keyOf object = .ok key ∧ f key = some object)
    (key : String) :
    items.foldl (insertObject kind) copy key = f key ∨
      (items.foldl (insertObject kind) copy key = copy key ∧
        ∀ object ∈ items, kind.keyOf object ≠ .ok key) := by
  induction items generalizing copy with
  | nil => exact .inr ⟨rfl, by simp⟩
  | cons first items ih =>
    obtain ⟨firstKey, hfirst, hf⟩ := hitems first List.mem_cons_self
    rw [List.foldl_cons, insertObject_of_keyOf hfirst]
    rcases ih (Function.update copy firstKey (some first))
      (fun o ho => hitems o (List.mem_cons_of_mem _ ho)) with hin | ⟨hcopy, hnone⟩
    · exact .inl hin
    rw [hcopy]
    by_cases hkey : key = firstKey
    · subst hkey
      exact .inl ((Function.update_self ..).trans hf.symm)
    · refine .inr ⟨Function.update_of_ne hkey .., List.forall_mem_cons.2 ⟨fun h => hkey ?_, hnone⟩⟩
      exact Except.ok.inj (h.symm.trans hfirst)

end

/-! ## Watches -/

/-- What a list or a watch is asked for. -/
structure WatchRequest where
  watchKey : String
  fieldSelector : Option (List Selector) := none
  labelSelector : Option (List Selector) := none
  deriving DecidableEq, Repr

namespace WatchRequest

section

variable {D O : Type} (kind : WatchedKind D O)

def selects (request : WatchRequest) (key : String) (object : O) : Bool :=
  request.watchKey.toList <+: key.toList &&
    kind.matchesSelectors request.fieldSelector request.labelSelector object

def send (request : WatchRequest) (r : StoreReport D) :
    Option (Except StatusResponse (WatchEvent O)) :=
  if request.watchKey.toList <+: r.change.key.toList then
    r.storeEvent.bind (serveEvent kind request.fieldSelector request.labelSelector)
  else none

/-- The copy of a client after it has seen what the watch sends. -/
def follow (request : WatchRequest) (copy : String → Option O)
    (r : StoreReport D) : String → Option O :=
  match request.send kind r with
  | none => copy
  | some event => followEvent kind copy event

variable {kind}

/-- The copy of a client that has listed the collection. -/
def listed (request : WatchRequest) (stored : StoredObjects kind) : String → Option O :=
  match listItems kind request.fieldSelector request.labelSelector
      (stored.list request.watchKey) with
  | .ok items => collect kind items
  | .error _ => fun _ => none

/-- The part of what is stored that a request is about. -/
def collection (request : WatchRequest) (stored : StoredObjects kind) : String → Option O :=
  select (request.selects kind) stored.objects

/-- A list goes through: its items are the objects of the stored versions that match. -/
lemma listItems_list (request : WatchRequest) (stored : StoredObjects kind) :
    listItems kind request.fieldSelector request.labelSelector (stored.list request.watchKey) =
      .ok (((stored.list request.watchKey).filterMap kind.object).filter
        (kind.matchesSelectors request.fieldSelector request.labelSelector)) := by
  have hmap : ∀ cs : List (ContentData D), (∀ c ∈ cs, ∃ object,
      kind.view (some c.data) c.revision = .ok object) →
        (cs.mapM fun c => kind.view (some c.data) c.revision) = .ok (cs.filterMap kind.object) := by
    intro cs hcs
    induction cs with
    | nil => rfl
    | cons c cs ih =>
      obtain ⟨object, hobject⟩ := hcs c List.mem_cons_self
      have hsome : kind.object c = some object := by rw [WatchedKind.object, hobject]; rfl
      rw [List.mapM_cons, ih fun c hc => hcs c (List.mem_cons_of_mem _ hc), hobject,
        List.filterMap_cons_some hsome]
      rfl
  rw [listItems, hmap]
  · rfl
  intro c hc
  obtain ⟨key, -, hkvs⟩ := StoredObjects.mem_list.1 hc
  obtain ⟨object, hobject, -⟩ := stored.shown key c hkvs
  exact ⟨object, hobject⟩

lemma listed_eq_collection (request : WatchRequest) (stored : StoredObjects kind) :
    request.listed stored = request.collection stored := by
  have hcollect : request.listed stored = collect kind
      (((stored.list request.watchKey).filterMap kind.object).filter
        (kind.matchesSelectors request.fieldSelector request.labelSelector)) := by
    simp only [listed, listItems_list]
  -- an item is the object of a stored version under a key the list goes through
  have hitems : ∀ object ∈ ((stored.list request.watchKey).filterMap kind.object).filter
      (kind.matchesSelectors request.fieldSelector request.labelSelector),
      ∃ key, kind.keyOf object = .ok key ∧ request.collection stored key = some object := by
    intro object hmem
    obtain ⟨hmem, hmatch⟩ := List.mem_filter.1 hmem
    obtain ⟨c, hc, hobject⟩ := List.mem_filterMap.1 hmem
    obtain ⟨key, hwatch, hkvs⟩ := StoredObjects.mem_list.1 hc
    obtain ⟨object', hobject', hkey⟩ := stored.exists_object hkvs
    cases hobject.symm.trans hobject'
    refine ⟨key, hkey, ?_⟩
    simp [collection, select, selects, StoredObjects.objects, hkvs, hobject, hwatch, hmatch]
  funext key
  rw [hcollect, collect]
  rcases foldl_insertObject (fun _ => none) hitems key with heq | ⟨heq, hnone⟩
  · exact heq
  rw [heq]
  refine (Option.eq_none_iff_forall_not_mem.2 fun object h => ?_).symm
  obtain ⟨hobjects, hselects⟩ := Option.filter_eq_some_iff.1 h
  obtain ⟨c, hkvs, hobject⟩ := Option.bind_eq_some_iff.1 hobjects
  obtain ⟨object', hobject', hkey⟩ := stored.exists_object hkvs
  cases hobject.symm.trans hobject'
  obtain ⟨hwatch, hmatch⟩ := Bool.and_eq_true_iff.1 hselects
  refine hnone object (List.mem_filter.2 ⟨List.mem_filterMap.2 ⟨c, ?_, hobject⟩, hmatch⟩) hkey
  exact StoredObjects.mem_list.2 ⟨key, of_decide_eq_true hwatch, hkvs⟩

lemma follow_of_storeEvent {request : WatchRequest} {r : StoreReport D}
    {event : WatchEvent (KeyValue D)} {object : O} (copy : String → Option O)
    (hwatch : request.watchKey.toList <+: r.change.key.toList) (hevent : r.storeEvent = some event)
    (hview : kind.view event.content.value event.content.revision = .ok object) :
    request.follow kind copy r =
      if request.selects kind r.change.key object then
        followEvent kind copy (.ok (event.withContent object))
      else copy := by
  have hselects : request.selects kind r.change.key object =
      kind.matchesSelectors request.fieldSelector request.labelSelector object := by
    simp [selects, hwatch]
  have hsend : request.send kind r =
      if kind.matchesSelectors request.fieldSelector request.labelSelector object then
        some (.ok (event.withContent object))
      else none := by
    rw [send, if_pos hwatch, hevent, Option.bind_some, serveEvent_eq hview]
  rw [hselects, follow, hsend]
  by_cases hmatch : kind.matchesSelectors request.fieldSelector request.labelSelector object = true
  · rw [if_pos hmatch, if_pos hmatch]
  · rw [if_neg hmatch, if_neg hmatch]

/-- **Following a watch is following the collection**: what a client does with what it is sent is
what a replica does with the change, as clients see it. -/
lemma follow_eq (request : WatchRequest) (stored : StoredObjects kind)
    (change : StoredChange kind) (copy : String → Option O) :
    request.follow kind copy ⟨change.toChange, stored.kvs change.key⟩ =
      Report.follow (request.selects kind) copy
        ⟨change.objectChange, stored.objects change.key⟩ := by
  by_cases hwatch : request.watchKey.toList <+: change.key.toList
  · -- what is told of a change is told with the object that the change shows
    have hfollow : ∀ {previous event object},
        Report.storeEvent ⟨change.toChange, previous⟩ = some event →
        kind.view event.content.value event.content.revision = .ok object →
        Report.shown ⟨change.objectChange, stored.objects change.key⟩ = some object →
        followEvent kind copy (.ok (event.withContent object)) = change.objectChange.apply copy →
        request.follow kind copy ⟨change.toChange, previous⟩ =
          Report.follow (request.selects kind) copy
            ⟨change.objectChange, stored.objects change.key⟩ := by
      intro previous event object hevent hview hshown hcopy
      rw [follow_of_storeEvent copy hwatch hevent hview, hcopy, Report.follow, hshown,
        Option.any_some]
      rfl
    cases hdata : change.data with
    | some d =>
      -- a put is shown with the new version, whether it adds or modifies
      obtain ⟨object, hview, hkey⟩ := change.shown d hdata
      have hentry : change.objectChange.entry = some object := by
        simp only [StoredChange.objectChange, hdata, Option.bind_some, WatchedKind.object, hview]
        rfl
      have hput : change.toChange.entry = some ⟨d, change.revision⟩ := by
        simp only [StoredChange.toChange, hdata, Option.map_some]
      have hshown :
          Report.shown ⟨change.objectChange, stored.objects change.key⟩ = some object := by
        rw [Report.shown, hentry, Option.some_or]
      have hcopy : insertObject kind copy object = change.objectChange.apply copy := by
        rw [insertObject_of_keyOf hkey, Change.apply, hentry]
        rfl
      cases hprevious : stored.kvs change.key with
      | none => exact hfollow (Report.storeEvent_of_added hput rfl) hview hshown hcopy
      | some c => exact hfollow (Report.storeEvent_of_modified hput rfl) hview hshown hcopy
    | none =>
      have hentry : change.objectChange.entry = none := by
        simp only [StoredChange.objectChange, hdata, Option.bind_none]
      have hremoved : change.toChange.entry = none := by
        simp only [StoredChange.toChange, hdata, Option.map_none]
      cases hprevious : stored.kvs change.key with
      | none =>
        have hobjects : stored.objects change.key = none := by
          simp only [StoredObjects.objects, hprevious, Option.bind_none]
        have hsend : request.send kind ⟨change.toChange, none⟩ = none := by
          rw [send, Report.storeEvent_of_none hremoved rfl, Option.bind_none, ite_self]
        rw [follow, hsend, hobjects, Report.follow, Report.shown, hentry]
        rfl
      | some c =>
        -- a removal is shown with the version that is gone
        obtain ⟨object, hview, hkey⟩ := stored.shown change.key c hprevious
        refine hfollow (Report.storeEvent_of_deleted hremoved rfl) hview ?_ ?_
        · simp only [Report.shown, hentry, StoredObjects.objects, hprevious, Option.none_or,
            Option.bind_some, WatchedKind.object, hview]
          rfl
        · have hremove : removeObject kind copy object = Function.update copy change.key none := by
            simp only [removeObject, hkey]
          rw [Change.apply, hentry]
          exact hremove
  · -- the change is none of those the watch is about
    have hsend : request.send kind ⟨change.toChange, stored.kvs change.key⟩ = none := if_neg hwatch
    have hnot : ∀ object, request.selects kind change.key object = false := by
      intro object
      simp [selects, hwatch]
    rw [follow, hsend, Report.follow, if_neg]
    show ¬ Option.any (request.selects kind change.key) _ = true
    rw [show request.selects kind change.key = fun _ => false from funext hnot]
    simp

end

end WatchRequest

end Tugboat
