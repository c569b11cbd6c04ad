import Tugboat.ApiServer.FilteredWatch
import Tugboat.ApiServer.WatchStream

/-!
# Listing and then watching

`Api::reflector` lists a collection, opens a watch from the resource version of the list, and hands
on the items and then the events.  A client that folds what it is handed should have the collection,
at most some way behind.

The API server makes every list with default metadata, without a resource version, so the watch
starts where the caller's parameters say, or when it is set up.  What happens between the list and
that moment is never heard of.  And as in any filtered watch, an object that stops matching stays,
and of a transaction over several objects the client sees one after the other.
-/

namespace Tugboat

open StoredObjects

/-! ## List responses -/

/-- The response to a list request. -/
structure ResourceList (O : Type) where
  objectMeta : ObjectMeta
  items : List O

def ResourceList.fromRawItems {O : Type} (items : List O) : ResourceList O where
  objectMeta := {}
  items := items

section

variable {D O : Type} {kind : WatchedKind D O}

def listResources (request : WatchRequest) (stored : StoredObjects kind) :
    Except StatusResponse (ResourceList O) := do
  let items ← listItems kind request.fieldSelector request.labelSelector
    (stored.list request.watchKey)
  return .fromRawItems items

lemma listResources_eq (request : WatchRequest) (stored : StoredObjects kind) :
    ∃ response, listResources request stored = .ok response ∧
      response.objectMeta.resourceVersion = none ∧
      collect kind response.items = request.collection stored := by
  have hlisted := request.listed_eq_collection stored
  have hitems := request.listItems_list stored
  rw [WatchRequest.listed, hitems] at hlisted
  refine ⟨.fromRawItems _, ?_, rfl, hlisted⟩
  rw [listResources, hitems]
  rfl

end

/-- The resource version a watch is opened with. -/
def applyListResourceVersion (watchParams listResourceVersion : Option String) : Option String :=
  match listResourceVersion with
  | some resourceVersion => some resourceVersion
  | none => watchParams

/-! ## Reflectors -/

/-- How far `reflector` has got. -/
inductive ReflectorPhase (O : Type)
  | start
  /-- The list is there, and was `seen` when it was made. -/
  | listed (response : ResourceList O) (seen : String → Option O)
  /-- The watch is open, from `first` on. -/
  | watching (first : ℕ)

/-- A collection and a client that reflects it.  `history` is what was reported of the collection so
far, and `past` how it has looked after every transaction, now included. -/
structure Reflector {D O : Type} (kind : WatchedKind D O) where
  stored : StoredObjects kind
  now : ℕ
  history : List (StoreReport D)
  past : List (String → Option O)
  phase : ReflectorPhase O := .start
  /-- What the watch is told and the client has not yet folded. -/
  queue : List (StoreReport D) := []
  /-- What the client has folded. -/
  copy : String → Option O := fun _ => none

/-- What happens: transactions of any writers, and the client going on. -/
inductive Reflector.Event {D O : Type} (kind : WatchedKind D O)
  | write (changes : List (StoredChange kind))
  | list
  | watch
  | fold

namespace Reflector

variable {D O : Type} {kind : WatchedKind D O} (request : WatchRequest)
  (watchParams : Option String)

/-- A client that is about to start. -/
def init (stored : StoredObjects kind) (now : ℕ) (history : List (StoreReport D)) :
    Reflector kind :=
  { stored, now, history, past := [request.collection stored] }

/-- After a transaction. -/
def written (s : Reflector kind) (changes : List (StoredChange kind)) : Reflector kind :=
  { s with
    stored := Run.exec StoredObjects.apply s.stored changes
    now := s.now + 1
    history := s.history ++ storeReports s.stored changes
    past := request.collection (Run.exec StoredObjects.apply s.stored changes) :: s.past
    queue := match s.phase with
      | .watching first => s.queue ++ changesFrom first (storeReports s.stored changes)
      | _ => s.queue }

/-- With a watch from a start revision.  The items of the list are folded first. -/
def opened (s : Reflector kind) (response : ResourceList O) (start : Option Int) : Reflector kind :=
  { s with
    phase := .watching (firstWatched start s.now)
    queue := watchedFrom start s.now s.history
    copy := collect kind response.items }

/-- After the first of the events in the queue was folded. -/
def folded (s : Reflector kind) (r : StoreReport D)
    (queue : List (StoreReport D)) : Reflector kind :=
  { s with queue, copy := request.follow kind s.copy r }

def step (s : Reflector kind) : Event kind → Reflector kind
  | .write changes =>
    if ∀ change ∈ changes, change.revision = s.now + 1 then s.written request changes else s
  | .list =>
    match s.phase, listResources request s.stored with
    | .start, .ok response =>
      { s with phase := .listed response (request.collection s.stored) }
    | _, _ => s
  | .watch =>
    match s.phase with
    | .listed response _ =>
      match kind.endpoint.startRevision
          (applyListResourceVersion watchParams response.objectMeta.resourceVersion) with
      | .ok start => s.opened response start
      | .error _ => { s with phase := .start }
    | _ => s
  | .fold =>
    match s.phase, s.queue with
    | .watching _, r :: queue => s.folded request r queue
    | _, _ => s

/-- The client has the collection as it was at some time, and as it is if nothing is left to be
sent. -/
def Reconstructs (s : Reflector kind) : Prop :=
  ∀ first, s.phase = .watching first → s.copy ∈ s.past ∧
    (request.sendAll kind s.queue = [] → s.copy = request.collection s.stored)

/-- What a reflector needs.  When the watch is opened, it is without a resource version and the
collection is as it was listed; and then every transaction changes at most one object of the
collection, and none stops matching. -/
def Steady (s : Reflector kind) : Event kind → Prop
  | .write changes => ∀ first, s.phase = .watching first →
      ((storeReports s.stored changes).filter (request.concerns kind)).length ≤ 1 ∧
        Run.AllSteps StoredObjects.apply request.Stays s.stored changes
  | .watch => ∀ response seen, s.phase = .listed response seen →
      watchParams = none ∧ request.collection s.stored = seen
  | _ => True

/-! ## Changes and the collection -/

section

variable {request} {stored : StoredObjects kind} {change : StoredChange kind}

lemma follow_collection (hstays : request.Stays stored change) :
    request.follow kind (request.collection stored) ⟨change.toChange, stored.kvs change.key⟩ =
      request.collection (stored.apply change) :=
  (Watching.tracked_step_iff (w := ⟨stored, request.collection stored⟩) rfl change).2 hstays

variable {changes : List (StoredChange kind)}

lemma collection_exec_of_sendAll
    (hstays : Run.AllSteps apply request.Stays stored changes)
    (hsend : request.sendAll kind (storeReports stored changes) = []) :
    request.collection (Run.exec apply stored changes) =
      request.collection stored := by
  induction changes generalizing stored with
  | nil => rfl
  | cons change changes ih =>
    have hnone := List.filterMap_eq_nil_iff.1 hsend
    have hsend : request.send kind ⟨change.toChange, stored.kvs change.key⟩ = none :=
      hnone _ List.mem_cons_self
    rw [Run.exec_cons, ih hstays.2, ← follow_collection hstays.1, WatchRequest.follow, hsend]
    exact List.filterMap_eq_nil_iff.2 fun r hr => hnone r (List.mem_cons_of_mem _ hr)

lemma sendAll_eq_nil (h : (storeReports stored changes).filter (request.concerns kind) = []) :
    request.sendAll kind (storeReports stored changes) = [] := by
  induction changes generalizing stored with
  | nil => rfl
  | cons change changes ih =>
    rw [storeReports_cons] at h ⊢
    have hhead : request.concerns kind ⟨change.toChange, stored.kvs change.key⟩ = false := by
      simpa using List.filter_eq_nil_iff.1 h _ List.mem_cons_self
    have htail :
        (storeReports (stored.apply change) changes).filter (request.concerns kind) = [] :=
      List.filter_eq_nil_iff.2 fun r hr =>
        List.filter_eq_nil_iff.1 h r (List.mem_cons_of_mem _ hr)
    rw [WatchRequest.sendAll, List.filterMap_cons_none
      (WatchRequest.send_eq_none (shown_of_change stored change) hhead)]
    exact ih htail

/-- In the middle of a transaction that changes one object of the collection, the collection is as
it is before or after. -/
lemma collection_of_split {before after : List (StoredChange kind)}
    (hone : ((storeReports stored (before ++ after)).filter (request.concerns kind)).length ≤ 1)
    (hstays : Run.AllSteps apply request.Stays stored (before ++ after)) :
    request.collection (Run.exec apply stored before) = request.collection stored ∨
      request.collection (Run.exec apply stored before) =
        request.collection (Run.exec apply stored (before ++ after)) := by
  obtain ⟨hbefore, hafter⟩ := (Run.allSteps_append _ _ _).1 hstays
  rw [storeReports_append, List.filter_append, List.length_append] at hone
  by_cases hnone : ((storeReports stored before).filter (request.concerns kind)).length = 0
  · have hnil := List.length_eq_zero_iff.1 hnone
    exact .inl (collection_exec_of_sendAll hbefore (sendAll_eq_nil hnil))
  · have hnil := List.length_eq_zero_iff.1
      (show ((storeReports (Run.exec apply stored before) after).filter
        (request.concerns kind)).length = 0 by omega)
    rw [Run.exec_append]
    exact .inr (collection_exec_of_sendAll hafter (sendAll_eq_nil hnil)).symm

end

/-! ## The invariant -/

/-- The client is behind the collection by the changes in its queue, and has seen nothing that was
not there. -/
structure Behind (s : Reflector kind) (snapshot : StoredObjects kind)
    (pending : List (StoredChange kind)) : Prop where
  copy : s.copy = request.collection snapshot
  queue : s.queue = storeReports snapshot pending
  stored : Run.exec StoredObjects.apply snapshot pending = s.stored
  stays : Run.AllSteps StoredObjects.apply request.Stays snapshot pending
  past : ∀ before after, pending = before ++ after →
    request.collection (Run.exec StoredObjects.apply snapshot before) ∈ s.past

structure Sound (s : Reflector kind) : Prop where
  written : ∀ r ∈ s.history, r.change.revision ≤ s.now
  present : request.collection s.stored ∈ s.past
  listed : ∀ response seen, s.phase = .listed response seen →
    response.objectMeta.resourceVersion = none ∧ collect kind response.items = seen
  watching : ∀ first, s.phase = .watching first →
    first ≤ s.now + 1 ∧ ∃ snapshot pending, s.Behind request snapshot pending

section

variable {request watchParams} {s : Reflector kind}

lemma reconstructs_of_sound (h : s.Sound request) : s.Reconstructs request := by
  intro first hphase
  obtain ⟨-, snapshot, pending, hbehind⟩ := h.watching first hphase
  refine ⟨?_, fun hsent => ?_⟩
  · rw [hbehind.copy]
    exact hbehind.past [] pending rfl
  · rw [hbehind.queue] at hsent
    rw [hbehind.copy, ← hbehind.stored, collection_exec_of_sendAll hbehind.stays hsent]

variable {changes : List (StoredChange kind)}

lemma revision_of_mem {revision : ℕ} (hchanges : ∀ change ∈ changes, change.revision = revision) :
    ∀ r ∈ storeReports s.stored changes, r.change.revision = revision := by
  intro r hr
  have hmem : r.change ∈ (storeReports s.stored changes).map (·.change) := List.mem_map_of_mem hr
  rw [storeReports, map_change_reports] at hmem
  obtain ⟨change, hchange, heq⟩ := List.mem_map.1 hmem
  rw [← heq]
  exact hchanges change hchange

variable {snapshot : StoredObjects kind} {pending : List (StoredChange kind)}

lemma Behind.write (h : s.Behind request snapshot pending) {first : ℕ}
    (hphase : s.phase = .watching first) (hpresent : request.collection s.stored ∈ s.past)
    (hfirst : ∀ r ∈ storeReports s.stored changes, first ≤ r.change.revision)
    (hone : ((storeReports s.stored changes).filter (request.concerns kind)).length ≤ 1)
    (hstays : Run.AllSteps apply request.Stays s.stored changes) :
    (s.written request changes).Behind request snapshot (pending ++ changes) where
  copy := h.copy
  queue := by
    have hall : changesFrom first (storeReports s.stored changes) =
        storeReports s.stored changes :=
      List.filter_eq_self.2 fun r hr => decide_eq_true (hfirst r hr)
    simp only [written, hphase]
    rw [storeReports_append, h.stored, h.queue, hall]
  stored := by
    rw [Run.exec_append, h.stored]
    rfl
  stays := by
    rw [Run.allSteps_append, h.stored]
    exact ⟨h.stays, hstays⟩
  past := by
    intro before after hsplit
    rcases List.append_eq_append_iff.1 hsplit with ⟨inside, rfl, hafter⟩ | ⟨rest, rfl, -⟩
    · -- in the middle of the new transaction
      rw [Run.exec_append, h.stored]
      rw [hafter] at hone hstays ⊢
      rcases collection_of_split hone hstays with hsame | hsame
      · rw [hsame]
        exact List.mem_cons_of_mem _ hpresent
      · rw [hsame]
        exact List.mem_cons_self
    · exact List.mem_cons_of_mem _ (h.past before rest rfl)

lemma Sound.write (h : s.Sound request) (hsteady : s.Steady request watchParams (.write changes))
    (hchanges : ∀ change ∈ changes, change.revision = s.now + 1) :
    (s.written request changes).Sound request where
  written := by
    intro r hr
    rcases List.mem_append.1 hr with hr | hr
    · exact Nat.le_succ_of_le (h.written r hr)
    · exact Nat.le_of_eq (revision_of_mem hchanges r hr)
  present := List.mem_cons_self
  listed := h.listed
  watching := by
    intro first hphase
    obtain ⟨hfirst, snapshot, pending, hbehind⟩ := h.watching first hphase
    obtain ⟨hone, hstays⟩ := hsteady first hphase
    refine ⟨Nat.le_succ_of_le hfirst, snapshot, pending ++ changes, ?_⟩
    refine hbehind.write hphase h.present (fun r hr => ?_) hone hstays
    rw [revision_of_mem hchanges r hr]
    exact hfirst

lemma Behind.fold (h : s.Behind request snapshot pending) {r : StoreReport D}
    {queue : List (StoreReport D)} (hqueue : s.queue = r :: queue) :
    ∃ snapshot' pending', (s.folded request r queue).Behind request snapshot' pending' := by
  cases pending with
  | nil =>
    have hnil := h.queue
    cases hqueue.symm.trans hnil
  | cons change pending =>
    have hcons := h.queue
    rw [hqueue, storeReports_cons] at hcons
    cases hcons
    refine ⟨snapshot.apply change, pending, ?_, rfl, h.stored, h.stays.2, ?_⟩
    · show request.follow kind s.copy _ = _
      rw [h.copy]
      exact follow_collection h.stays.1
    · intro before after hsplit
      exact h.past (change :: before) after (by rw [hsplit, List.cons_append])

lemma startRevision_none (endpoint : WatchEndpoint) : endpoint.startRevision none = .ok none := by
  cases endpoint with
  | builtin | custom => rfl

lemma Sound.open (h : s.Sound request) {response : ResourceList O} {seen : String → Option O}
    (hphase : s.phase = .listed response seen) (hseen : request.collection s.stored = seen) :
    (s.opened response none).Sound request where
  written := h.written
  present := h.present
  listed := by
    intro _ _ hlisted
    cases hlisted
  watching := by
    intro first hwatching
    cases hwatching
    refine ⟨Nat.le_refl _, s.stored, [], ?_, ?_, rfl, trivial, ?_⟩
    · show collect kind response.items = _
      rw [(h.listed response seen hphase).2, hseen]
    · exact changesFrom_eq_nil h.written (Nat.lt_succ_self _)
    intro before after hsplit
    obtain ⟨rfl, -⟩ := List.append_eq_nil_iff.1 hsplit.symm
    exact h.present

lemma Sound.step (h : s.Sound request) {event : Event kind}
    (hsteady : s.Steady request watchParams event) :
    (s.step request watchParams event).Sound request := by
  cases event with
  | write changes =>
    by_cases hchanges : ∀ change ∈ changes, change.revision = s.now + 1
    · rw [Reflector.step, if_pos hchanges]
      exact h.write hsteady hchanges
    · rwa [Reflector.step, if_neg hchanges]
  | list =>
    obtain ⟨response, hlist, hversion, hitems⟩ := listResources_eq request s.stored
    cases hphase : s.phase with
    | start =>
      simp only [Reflector.step, hphase, hlist]
      refine ⟨h.written, h.present, fun response' seen hlisted => ?_, fun first hwatching => ?_⟩
      · cases hlisted
        exact ⟨hversion, hitems⟩
      · cases hwatching
    | listed response' seen | watching first => simpa only [Reflector.step, hphase] using h
  | watch =>
    cases hphase : s.phase with
    | start | watching first => simpa only [Reflector.step, hphase] using h
    | listed response seen =>
      obtain ⟨hparams, hseen⟩ := hsteady response seen hphase
      have hversion := (h.listed response seen hphase).1
      simp only [Reflector.step, hphase, hversion, hparams, applyListResourceVersion,
        startRevision_none]
      exact h.open hphase hseen
  | fold =>
    cases hphase : s.phase with
    | start | listed response seen => simpa only [Reflector.step, hphase] using h
    | watching first =>
      cases hqueue : s.queue with
      | nil => simpa only [Reflector.step, hphase, hqueue] using h
      | cons r queue =>
        obtain ⟨hfirst, snapshot, pending, hbehind⟩ := h.watching first hphase
        simp only [Reflector.step, hphase, hqueue]
        refine ⟨h.written, h.present, h.listed, fun first' hwatching => ?_⟩
        cases hphase.symm.trans hwatching
        exact ⟨hfirst, hbehind.fold hqueue⟩

end

/-! ## Runs -/

/-- **When listing and then watching gives the collection.**  For every kind, collection and run of
transactions and of a client that lists, opens the watch and folds: if the watch is opened without a
resource version while the collection is as it was listed, and from then on every transaction
changes at most one object of it and none stops matching, then the client always has the collection
as it was at some time, and as it is once it has folded all that is sent. -/
theorem reconstructs {stored : StoredObjects kind} {now : ℕ}
    {history : List (Report String (ContentData D))} {events : List (Event kind)}
    (hwritten : ∀ r ∈ history, r.change.revision ≤ now)
    (hsteady : Run.AllSteps (step request watchParams) (Steady request watchParams)
      (init request stored now history) events) :
    Run.AllStates (step request watchParams) (Reconstructs request)
      (init request stored now history) events := by
  refine Run.AllStates.of_invariant (I := Sound request) (fun _ _ h => h.step)
    (fun _ h => reconstructs_of_sound h) _ events ?_ hsteady
  refine ⟨hwritten, List.mem_singleton_self _, fun _ _ hlisted => ?_, fun _ hwatching => ?_⟩
  · cases hlisted
  · cases hwatching

namespace Missed

open Fixture Watching.Sample

def createdLater : List (Event configMaps) := [.list, .watch, .write [creation], .fold]

/-- A config map is created between the list and the watch. -/
def createdBetween : List (Event configMaps) := [.list, .write [creation], .watch, .fold]

def client : Reflector configMaps := init stable (.ofCollection _ .empty) 1 []

end Missed

open Fixture Watching.Sample Missed in
/-- A config map that is created after the watch is open is found by the client. -/
theorem reconstructs_createdLater :
    Run.AllStates (step stable none) (Reconstructs stable) client createdLater ∧
      ((Run.exec (step stable none) client createdLater).copy key).isSome = true := by
  refine ⟨reconstructs stable none (by decide) ?_, by decide +kernel⟩
  refine ⟨trivial, fun _ _ hlisted => ?_, fun _ _ => ⟨by decide, by decide⟩, trivial, trivial⟩
  cases hlisted
  exact ⟨rfl, rfl⟩

open Fixture Watching.Sample Missed in
/-- One that is created between the list, which is empty, and the watch is not. -/
theorem creation_between_list_and_watch_is_missed :
    let final := Run.exec (step stable none) client createdBetween
    final.copy key = none ∧ final.queue = [] ∧ (stable.collection final.stored key).isSome = true ∧
      ¬ final.Reconstructs stable := by
  have hcopy : (Run.exec (step stable none) client createdBetween).copy key = none := by
    decide +kernel
  have hstored : (stable.collection (Run.exec (step stable none) client createdBetween).stored
      key).isSome = true := by decide +kernel
  refine ⟨hcopy, by decide, hstored, fun h => ?_⟩
  -- the watch is open and has nothing more to send
  have hsame := (h 3 rfl).2 (by decide)
  rw [hsame] at hcopy
  simp [hcopy] at hstored

end Reflector

end Tugboat
