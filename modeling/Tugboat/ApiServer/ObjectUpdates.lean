import Tugboat.ApiServer.ResourceHandlers
import Tugboat.Resources.ConfigMap
import Tugboat.Store.Versions

/-!
# Concurrent updates of stored objects

PATCH, status PATCH and status PUT read an object, compute its successor in memory and put it back.
This file runs any number of them side by side, together with arbitrary other users of the store,
and asks when such a request replaces exactly the version it read.

A put is safe when it is conditional on the revision that was read (`ReplacesVersion`).  The status
endpoints and the kinds that keep the current resource version always put that way.  The kinds whose
PATCH takes over the *client's* resource version do so only if the client named the revision the
server is about to read.
-/

namespace Tugboat

open Json Resource Program

/-! ## Requests -/

/-- What a kind's PATCH endpoint adds to the generic one: a check before the read, and the
step between computing the patched object and putting it.  That step does not touch the
metadata. -/
structure PatchEndpoint (T : Type) [Resource T] where
  /-- The check of the body against the name in the URL. -/
  precheck : Map → String → Except StatusResponse Unit
  /-- Defaulting and validation of the patched object. -/
  finish : T → T → Except StatusResponse T
  finish_objectMeta : ∀ {current patched updated : T},
    finish current patched = .ok updated → objectMeta updated = objectMeta patched

/-- The endpoint of the kinds that only validate: `patch_resource_with_validation`. -/
def PatchEndpoint.ofCheck {T : Type} [Resource T] (check : T → Except StatusResponse Unit) :
    PatchEndpoint T where
  precheck := validatePatchName
  finish := validated check
  finish_objectMeta h := by rw [eq_of_validated h]

/-- A request on the objects of one kind.  `other` is any other use of the store. -/
inductive Request (T : Type)
  | patch (ns : Option String) (name : String) (body : Map)
  | statusPatch (ns : Option String) (name : String) (body : Map)
  | statusReplace (ns : Option String) (name : String) (body : T)
  | other (handler : Handler T (Response T))

variable {T : Type} [Resource T]

/-- The update a request computes in memory from the current object. -/
def Request.update (endpoint : PatchEndpoint T) :
    Request T → Option (T → Except StatusResponse T)
  | .patch _ _ body =>
    (patchOptions (resourceKind T)).map fun options => patched body options endpoint.finish
  | .statusPatch _ _ body => some (patched body {} (validated validateResource))
  | .statusReplace _ _ body => some (statusReplaced body)
  | .other _ => none

/-- The handler of a request.  A kind without PATCH has no route for it. -/
def Request.handler [DecidableEq T] (endpoint : PatchEndpoint T) :
    Request T → Handler T (Response T)
  | .patch ns name body =>
    match patchOptions (resourceKind T) with
    | none => throw (.notFound "Not Found")
    | some options => do
      Handler.ofExcept (endpoint.precheck body name)
      readModifyWrite ns name (patched body options endpoint.finish)
  | .statusPatch ns name body => statusPatchResource ns name body
  | .statusReplace ns name body => statusReplaceResource ns name body
  | .other handler => handler

/-- The client named `revision` in the body, where the kind asks clients for it. -/
def Request.AgreesWith (revision : ℕ) : Request T → Prop
  | .patch _ _ body => ∀ options ∈ patchOptions (resourceKind T),
      options.useClientResourceVersion = true →
        (clientResourceVersion (body.get "metadata")).bind Decimal.parseInt64 =
          some (revision : Int)
  | .statusPatch .. | .statusReplace .. | .other _ => True

instance (revision : ℕ) : ∀ request : Request T, Decidable (request.AgreesWith revision) := by
  intro request
  unfold Request.AgreesWith
  split <;> infer_instance

/-! ## Puts that replace the version that was read -/

variable {current : ContentData T} {value : T}

/-- An update with enforced metadata replaces the version it started from, if the resource
version it ends with is that version's revision. -/
lemma replacesVersion_of_enforced {options : ReplaceOptions} {patchMetadata : Option Value}
    {updated : T} (h : ResourceUpdater.Enforced options patchMetadata current.applyRevision updated)
    (hmeta : objectMeta value = objectMeta updated)
    (hversion : options.useClientResourceVersion = true →
      (clientResourceVersion patchMetadata).bind Decimal.parseInt64 =
        some (current.revision : Int)) :
    ReplacesVersion current value := by
  rcases h with h | ⟨contentChanged, c, u, hc, hu⟩
  · -- without metadata there is nothing to put
    intro request hrequest
    obtain ⟨-, m, hm, -⟩ := ResourceStore.preparePut_eq_ok hrequest
    simp [hmeta, h] at hm
  rw [current.objectMeta_applyRevision] at hc
  cases hc
  refine replacesVersion_of_objectMeta (hmeta.trans hu) rfl rfl fun expected hexpected => ?_
  -- the expected revision is read from the resource version that was enforced
  cases hclient : options.useClientResourceVersion with
  | true =>
    obtain ⟨rv, hrv, hparse⟩ := Option.bind_eq_some_iff.1 (hversion hclient)
    obtain ⟨r, hr, hsome⟩ := ResourceStore.expectedRevision_of_some rv
      (by simp [ResourceUpdater.enforcedMeta, hclient, hrv]) hexpected
    rw [hsome, ← hr, hparse]
  | false =>
    exact ResourceStore.expectedRevision_toString
      (by simp [ResourceUpdater.enforcedMeta, hclient]) hexpected

lemma replacesVersion_of_statusPatched {patch : Map}
    (h : patched patch {} (validated validateResource) current.applyRevision = .ok value) :
    ReplacesVersion current value := by
  obtain ⟨updated, hpatch, hfinish⟩ := bind_eq_ok_iff.1 h
  exact replacesVersion_of_enforced
    (ResourceUpdater.enforced_applyPatch current.objectMeta_applyRevision hpatch)
    (by rw [eq_of_validated hfinish]) (by simp)

lemma replacesVersion_of_statusReplaced {replacement : T}
    (h : statusReplaced replacement current.applyRevision = .ok value) :
    ReplacesVersion current value := by
  simp only [statusReplaced, bind_eq_ok_iff] at h
  obtain ⟨bodyValue, -, updated, hstatus, -, -, h⟩ := h
  cases h
  exact replacesVersion_of_enforced
    (ResourceUpdater.enforced_applyStatusUpdate current.objectMeta_applyRevision hstatus) rfl
    (by simp)

/-- Every update replaces the version it started from, provided the client agrees with it where
it is asked. -/
lemma Request.replacesVersion {endpoint : PatchEndpoint T} {request : Request T}
    {update : T → Except StatusResponse T} (hupdate : request.update endpoint = some update)
    (hagrees : request.AgreesWith current.revision)
    (hvalue : update current.applyRevision = .ok value) : ReplacesVersion current value := by
  cases request with
  | other handler => cases hupdate
  | patch ns name body =>
    obtain ⟨options, hoptions, rfl⟩ := Option.map_eq_some_iff.1 hupdate
    obtain ⟨updated, hpatch, hfinish⟩ := bind_eq_ok_iff.1 hvalue
    exact replacesVersion_of_enforced
      (ResourceUpdater.enforced_applyPatch current.objectMeta_applyRevision hpatch)
      (endpoint.finish_objectMeta hfinish) (hagrees options hoptions)
  | statusPatch ns name body =>
    cases hupdate
    exact replacesVersion_of_statusPatched hvalue
  | statusReplace ns name body =>
    cases hupdate
    exact replacesVersion_of_statusReplaced hvalue

/-! ## Interleaved requests -/

/-- What is known about the handling of a request: the request itself, and the version its last
read returned. -/
structure Seen (T : Type) where
  request : Request T
  read : Option (ContentData T) := none

namespace Seen

/-- A successful read is remembered. -/
def observe (g : Seen T) : (op : StoreOp T) → Except StoreError op.Result → Seen T
  | .get _ _, .ok (some current) => { g with read := some current }
  | _, _ => g

/-- The client agrees with what is read. -/
def Agrees (g : Seen T) : (op : StoreOp T) → Except StoreError op.Result → Prop
  | .get _ _, .ok (some current) => g.request.AgreesWith current.revision
  | _, _ => True

/-- An update puts what it computed from what it read, in the place of what it read. -/
def MayCall (endpoint : PatchEndpoint T) (g : Seen T) : StoreOp T → Prop
  | .put value => ∀ update, g.request.update endpoint = some update →
      ∃ current, g.read = some current ∧ update current.applyRevision = .ok value ∧
        ReplacesVersion current value
  | _ => True

def protocol (endpoint : PatchEndpoint T) : Protocol (StoreOp.interface T) (Seen T) where
  allowed := MayCall endpoint
  assumes := Agrees
  observe := observe

/-- What was read is a version of the past: if the store still has an object of that revision
under the key, it is that object. -/
def Current (s : ResourceStore T) (g : Seen T) : Prop :=
  ∀ current, g.read = some current →
    (0 < current.revision ∧ current.revision ≤ s.revision) ∧
      ∀ key, ResourceStore.keyOf current.data = .ok key →
        ∀ c, s.kvs key = some c → c.revision = current.revision → c = current

end Seen

lemma wp_of_update_eq_none {α : Type} (endpoint : PatchEndpoint T) :
    ∀ (p : Program (StoreOp.interface T) α) (g : Seen T), g.request.update endpoint = none →
      p.wp (Seen.protocol endpoint) g fun _ _ => True
  | .done _, _, _ => trivial
  | .call op next, g, h => by
    refine ⟨?_, fun r _ => wp_of_update_eq_none endpoint (next r) _ ?_⟩
    · show Seen.MayCall endpoint g op
      unfold Seen.MayCall
      split
      · intro update hupdate
        cases h.symm.trans hupdate
      · trivial
    · show (Seen.observe g op r).request.update endpoint = none
      unfold Seen.observe
      split <;> exact h

lemma wp_handler [DecidableEq T] (endpoint : PatchEndpoint T) (request : Request T) :
    (request.handler endpoint).run.wp (Seen.protocol endpoint) { request } fun _ _ => True := by
  have hrmw : ∀ (ns : Option String) (name : String) (update : T → Except StatusResponse T),
      request.update endpoint = some update →
        (readModifyWrite ns name update).run.wp (Seen.protocol endpoint) { request }
          fun _ _ => True := by
    intro ns name update hupdate
    refine wp_readModifyWrite trivial fun current updated hagrees hvalue => ?_
    intro update' hupdate'
    have hsame : update' = update := Option.some.inj (hupdate'.symm.trans hupdate)
    subst hsame
    exact ⟨current, rfl, hvalue, request.replacesVersion hupdate hagrees hvalue⟩
  cases request with
  | other handler => exact wp_of_update_eq_none endpoint _ _ rfl
  | statusReplace ns name body => exact hrmw ns name _ rfl
  | statusPatch ns name body =>
    simp only [Request.handler, statusPatchResource]
    split
    · trivial
    · exact hrmw ns name _ rfl
  | patch ns name body =>
    simp only [Request.handler]
    split
    · trivial
    rename_i options hoptions
    rw [wp_run_bind, Handler.wp_ofExcept]
    split
    · exact hrmw ns name _ (by simp only [Request.update, hoptions, Option.map_some])
    · trivial

variable {s : ResourceStore T} {g : Seen T}

lemma Seen.Current.exec (h : g.Current s) (access : Access) (op : StoreOp T) :
    g.Current (StoreOp.exec s access op).1 := by
  intro current hread
  exact ResourceStore.Past.exec (h current hread) access op

omit [Resource T] in
lemma Seen.read_observe (g : Seen T) (op : StoreOp T) (r : Except StoreError op.Result) :
    (g.observe op r).read = StoreOp.lastRead g.read op r := by
  cases op with
  | get ns name => rcases r with e | _ | current <;> rfl
  | put value | putIfNotExists value | delete ns name => rfl

lemma Seen.Current.observe (h : g.Current s) (access : Access) (op : StoreOp T) :
    (g.observe op (StoreOp.exec s access op).2).Current (StoreOp.exec s access op).1 := by
  intro current hread
  rw [g.read_observe] at hread
  exact StoreOp.past_lastRead h access op current hread

/-! ## The system -/

variable {κ : Type} [DecidableEq κ] [DecidableEq T]

/-- Requests being handled over one store. -/
abbrev Serving (κ T : Type) [Resource T] : Type :=
  Config (StoreOp.interface T) κ (ResourceStore T) (Seen T) (Except StatusResponse (Response T))

/-- No request has been looked at yet. -/
def Serving.start (endpoint : PatchEndpoint T) (store : ResourceStore T)
    (requests : κ → Request T) : Serving κ T where
  world := store
  thread k := ((requests k).handler endpoint).run
  seen k := { request := requests k }

/-- One store call of one request. -/
def Serving.step (endpoint : PatchEndpoint T) (c : Serving κ T) (e : Event κ Access Empty) :
    Serving κ T :=
  Config.step StoreOp.exec (fun s _ => s) (Seen.protocol endpoint) c e

/-- The version request `k` is about to read. -/
def Serving.toRead (c : Serving κ T) (k : κ) : Option (ContentData T) :=
  match c.thread k with
  | .call (.get ns name) _ => (c.world.get ns name).toOption.join
  | _ => none

/-- The object request `k` is about to put, if it is going to be told that the put succeeded. -/
def Serving.toPut (c : Serving κ T) (k : κ) (access : Access) : Option T :=
  match c.thread k with
  | .call (.put value) _ => (StoreOp.exec c.world access (.put value)).2.toOption.map fun _ => value
  | _ => none

variable {c : Serving κ T}

omit [DecidableEq κ] [DecidableEq T] in
lemma Serving.of_mem_toPut {k : κ} {access : Access} (h : value ∈ c.toPut k access) :
    ∃ next stored, c.thread k = .call (.put value) next ∧
      (StoreOp.exec c.world access (.put value)).2 = .ok stored := by
  unfold Serving.toPut at h
  split at h
  next value' next hk =>
    cases hput : (StoreOp.exec c.world access (.put value')).2 with
    | error e =>
      rw [hput] at h
      cases h
    | ok stored =>
      rw [hput] at h
      cases h
      exact ⟨next, stored, hk, hput⟩
  · cases h

/-- The condition on a step: a PATCH that takes over the client's resource version reads an
object only while that version is stored. -/
def Serving.ClientAgrees (c : Serving κ T) : Event κ Access Empty → Prop
  | .call k _ => ∀ current ∈ c.toRead k, (c.seen k).request.AgreesWith current.revision

/-- If a step is a successful put of an update, the version it replaces is the one the update
read, and the new object is the update of that version. -/
def Serving.AtomicPut (endpoint : PatchEndpoint T) (c : Serving κ T) :
    Event κ Access Empty → Prop
  | .call k access =>
    ∀ value ∈ c.toPut k access, ∀ update ∈ (c.seen k).request.update endpoint,
      ∃ current ∈ (c.seen k).read, ∃ key ∈ (ResourceStore.keyOf value).toOption,
        c.world.kvs key = some current ∧
          (update current.applyRevision).toOption = some value

instance (c : Serving κ T) : ∀ e, Decidable (c.ClientAgrees e)
  | .call k _ => inferInstanceAs (Decidable (∀ current ∈ c.toRead k,
      (c.seen k).request.AgreesWith current.revision))

instance (endpoint : PatchEndpoint T) (c : Serving κ T) : ∀ e, Decidable (c.AtomicPut endpoint e)
  | .call k access => inferInstanceAs (Decidable (∀ value ∈ c.toPut k access,
      ∀ update ∈ (c.seen k).request.update endpoint,
        ∃ current ∈ (c.seen k).read, ∃ key ∈ (ResourceStore.keyOf value).toOption,
          c.world.kvs key = some current ∧
            (update current.applyRevision).toOption = some value))

/-- The invariant: every request keeps to the protocol, and what it has read is a version of
the past. -/
def Serving.Inv (endpoint : PatchEndpoint T) (c : Serving κ T) : Prop :=
  c.Keeps (Seen.protocol endpoint) fun s g => g.Current s

omit [DecidableEq κ] in
lemma Serving.inv_start (endpoint : PatchEndpoint T) (store : ResourceStore T)
    (requests : κ → Request T) : (Serving.start endpoint store requests).Inv endpoint := by
  intro k
  refine ⟨?_, wp_handler endpoint (requests k)⟩
  intro current hread
  cases hread

omit [DecidableEq T] in
lemma Serving.inv_step {endpoint : PatchEndpoint T} {e : Event κ Access Empty} (h : c.Inv endpoint)
    (hagrees : c.ClientAgrees e) :
    (c.step endpoint e).Inv endpoint := by
  refine Config.Keeps.step h e (fun k access op next he hk _ => ?_) (fun x => x.elim)
  refine ⟨?_, (h k).1.observe access op, fun j _ => (h j).1.exec access op⟩
  show (c.seen k).Agrees op (StoreOp.exec c.world access op).2
  cases op with
  | put value | putIfNotExists value | delete ns name => trivial
  | get ns name =>
    cases hreply : (StoreOp.exec c.world access (.get ns name)).2 with
    | error e => trivial
    | ok found =>
      cases found with
      | none => trivial
      | some current =>
        subst he
        refine hagrees current ?_
        simp only [Serving.toRead, hk, StoreOp.get_of_exec_get hreply]
        rfl

/-- **Server-side updates are atomic where clients agree.**  In every interleaving of requests over
any store, whenever a PATCH, status PATCH or status PUT is told that its put succeeded, the version
it replaces is the version it read, and the new object is its update of that version: provided every
PATCH that takes over the client's resource version reads its object at that version. -/
theorem Serving.atomicPut_of_clientAgrees (endpoint : PatchEndpoint T) (store : ResourceStore T)
    (requests : κ → Request T) (events : List (Event κ Access Empty))
    (h : Run.AllSteps (Serving.step endpoint) Serving.ClientAgrees
      (Serving.start endpoint store requests) events) :
    Run.AllSteps (Serving.step endpoint) (Serving.AtomicPut endpoint)
      (Serving.start endpoint store requests) events := by
  refine Run.AllSteps.of_invariant (I := Serving.Inv endpoint)
    (fun c e hI hG => Serving.inv_step hI hG) ?_ _ _
    (Serving.inv_start endpoint store requests) h
  rintro c (⟨k, access⟩ | ⟨⟨⟩⟩) hI _ value hvalue update hupdate
  obtain ⟨next, stored, hk, hput⟩ := Serving.of_mem_toPut hvalue
  obtain ⟨current, hread, hresult, hreplaces⟩ := Config.Keeps.allowed hI hk update hupdate
  obtain ⟨request, hrequest, hholds⟩ := StoreOp.holds_of_exec_put hput
  refine ⟨current, hread, request.key, ?_,
    hreplaces.kvs_of_holds ((hI k).1 current hread) hrequest hholds, ?_⟩
  · rw [ResourceStore.keyOf_of_preparePut hrequest]
    rfl
  · rw [hresult]
    rfl

/-! ## Two patches of one object -/

namespace TwoPatches

open Fixture

/-- An empty config map, as it is when it has just been created. -/
def configMap : ConfigMap where
  typeMeta := some { apiVersion := some "v1", kind := some "ConfigMap" }
  objectMeta := some {
    name := some "demo", «namespace» := some "default", uid := some "uid-1"
    generation := some 1, creationTimestamp := some ⟨1700000000, 0⟩ }

/-- A store that holds it, at revision 1. -/
def store : ResourceStore ConfigMap := (ResourceStore.empty.putIfNotExists configMap).1

/-- The key it is stored under. -/
def key : String := "/tugboat/registry/core/configmaps/default/demo"

def endpoint : PatchEndpoint ConfigMap := .ofCheck validateResource

/-- Two patches, each adding an entry of its own; `metadata` is what else their bodies say. -/
def patches (metadata : Map) : Bool → Request ConfigMap
  | false => .patch (some "default") "demo" (("data", .object [("a", .string "1")]) :: metadata)
  | true => .patch (some "default") "demo" (("data", .object [("b", .string "2")]) :: metadata)

/-- Both are read before either is put. -/
def bothRead : List (Event Bool Access Empty) :=
  [.call false .answered, .call true .answered, .call false .answered, .call true .answered]

/-- The requests before the run. -/
def initial (metadata : Map) : Serving Bool ConfigMap :=
  Serving.start endpoint store (patches metadata)

/-- The answer to a request that has been handled. -/
def succeeded (c : Serving Bool ConfigMap) (k : Bool) : Bool :=
  match c.thread k with
  | .done (.ok _) => true
  | _ => false

end TwoPatches

open Fixture TwoPatches in
theorem Serving.atomicPut_two_patches :
    Run.AllSteps (Serving.step endpoint) (Serving.AtomicPut endpoint)
      (initial [("metadata", .object [("resourceVersion", .string "1")])]) bothRead :=
  Serving.atomicPut_of_clientAgrees endpoint store _ bothRead (by decide +kernel)

open Fixture TwoPatches in
/-- Without a resource version in the bodies both patches succeed, the second replaces a version
it has not read, and the entry of the first is lost. -/
theorem Serving.patch_lost_without_resourceVersion :
    let final := Run.exec (Serving.step endpoint) (initial []) bothRead
    succeeded final false = true ∧ succeeded final true = true ∧
      (final.world.kvs key).map (·.data.data) = some [("b", "2")] ∧
      ¬ Run.AllSteps (Serving.step endpoint) (Serving.AtomicPut endpoint) (initial [])
        bothRead := by
  decide +kernel

end Tugboat
