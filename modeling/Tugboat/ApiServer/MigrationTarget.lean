import Tugboat.ApiServer.ShipEndpoints
import Tugboat.Lib.Concurrent

/-!
# Active migrations and their targets

A Ship whose migration is under way should have a target: it cannot be changed while the phase is
active, and it is the target that an abort clears.  This file runs the requests that write Ships
side by side and asks when every stored Ship in an active phase has its target set.

PUT and PATCH keep the phase and check the target, an abort leaves the phase `Failed`, a drain sets
a target: each of them stores a Ship that has its target if the Ship it read had it.  The status
endpoints do not look at the spec.  They are safe exactly as far as an active phase is only ever
written to a Ship with a target.
-/

namespace Tugboat

open Json Resource Program

/-! ## The property -/

/-- If a migration of the Ship is under way, the Ship has a target. -/
def Ship.ActiveHasTarget (ship : Ship) : Prop :=
  ship.hasActiveMigration = true → ship.targetNodeName.isSome = true
  deriving Decidable

/-- A Ship no request can move on: a new target is refused because a migration is in progress,
and an abort because there is no target. -/
def Ship.Stuck (ship : Ship) : Prop :=
  (∃ updated, validateShipTargetNodeNameUpdate ship updated = .error migrationInProgress) ∧
    ∀ now, abortShipMigration now ship = .error noPendingTarget

lemma Ship.ActiveHasTarget.not_stuck {ship : Ship} (h : ship.ActiveHasTarget) : ¬ ship.Stuck := by
  rintro ⟨⟨updated, hupdate⟩, habort⟩
  have hactive : ship.hasActiveMigration = true := by
    unfold validateShipTargetNodeNameUpdate at hupdate
    split at hupdate
    · exact absurd (Except.error.inj hupdate) (by decide)
    split at hupdate
    · exact absurd (Except.error.inj hupdate) (by decide)
    split at hupdate
    next hchange =>
      exact hchange.2
    · cases hupdate
  obtain ⟨target, htarget⟩ := Option.isSome_iff_exists.1 (h hactive)
  have := habort ⟨0, 0⟩
  simp only [abortShipMigration, htarget] at this
  cases this

lemma Ship.ActiveHasTarget.congr {ship ship' : Ship} (h : ship.ActiveHasTarget)
    (hphase : ship'.phase = ship.phase) (hspec : ship'.spec = ship.spec) :
    ship'.ActiveHasTarget := by
  intro hactive
  rw [Ship.hasActiveMigration, hphase] at hactive
  rw [Ship.targetNodeName, hspec]
  exact h hactive

lemma Ship.ActiveHasTarget.applyRevision {current : ContentData Ship}
    (h : current.data.ActiveHasTarget) : current.applyRevision.ActiveHasTarget :=
  h.congr rfl rfl

/-- An accepted PUT or PATCH cannot take the target of an active migration away. -/
lemma Ship.ActiveHasTarget.of_acceptedUpdate {current updated : Ship}
    (h : current.ActiveHasTarget) (haccept : AcceptedUpdate current updated) :
    updated.ActiveHasTarget := by
  intro hactive
  rw [Ship.hasActiveMigration, haccept.1] at hactive
  rw [(of_validateShipTargetNodeNameUpdate haccept.2).2 hactive]
  exact h hactive

/-! ## Requests -/

section

variable [TimeCodec]

/-- The requests that write Ships.  The agents write through `statusPatch` and `statusReplace`. -/
inductive ShipRequest
  | create (ns : String) (ship : Ship) (namespaceExists : Bool)
      (defaults : Except StatusResponse Unit) (uid : String) (now : Time)
      (suffixes : Fin 5 → String)
  | replace (ns name : String) (body : Ship) (defaults : Except StatusResponse Unit)
  | patch (ns name : String) (body : Map) (defaults : Except StatusResponse Unit)
  | abort (ns name : String) (now : Time)
  | drain (ns name target : String)
  | statusPatch (ns name : String) (body : Map)
  | statusReplace (ns name : String) (body : Ship)

namespace ShipRequest

def handler : ShipRequest → Handler Ship (Response Ship)
  | .create ns ship namespaceExists defaults uid now suffixes =>
    createShipWithDefaults ns ship namespaceExists defaults uid now suffixes
  | .replace ns name body defaults => handleShipReplace ns name body defaults
  | .patch ns name body defaults => handleShipPatch ns name body defaults
  | .abort ns name now => handleShipMigrationAbort ns name now
  | .drain ns name target => drainShip ns name target
  | .statusPatch ns name body => handleShipStatusPatch ns name body
  | .statusReplace ns name body => handleShipStatusReplace ns name body

/-- What a status write makes of the Ship it reads. -/
def statusUpdate : ShipRequest → Option (Ship → Except StatusResponse Ship)
  | .statusPatch _ _ body => some (patched body {} (validated validateResource))
  | .statusReplace _ _ body => some (statusReplaced body)
  | _ => none

/-- A created Ship that says it is migrating also says where to. -/
def CreatesTargeted : ShipRequest → Prop
  | .create _ ship _ _ _ _ _ => ship.ActiveHasTarget
  | _ => True

instance : DecidablePred CreatesTargeted := by
  intro e
  unfold CreatesTargeted
  split <;> infer_instance

/-- A status write that makes an active phase of what it reads reads a Ship with a target. -/
def WritesTargeted (request : ShipRequest) (current : ContentData Ship) : Prop :=
  ∀ update ∈ request.statusUpdate, ∀ updated ∈ (update current.applyRevision).toOption,
    updated.hasActiveMigration = true → current.data.targetNodeName.isSome = true
  deriving Decidable

end ShipRequest

/-! ## What each request stores -/

/-- Requests store Ships with targets only, given that what they read has its target and that
status writes are made where there is one. -/
def ShipRequest.protocol : Protocol (StoreOp.interface Ship) ShipRequest where
  allowed _ op := ∀ value, op.stores = some value → value.ActiveHasTarget
  assumes
    | request, .get _ _, .ok (some current) =>
      current.data.ActiveHasTarget ∧ request.WritesTargeted current
    | _, _, _ => True
  observe request _ _ := request

section Wp

variable {request : ShipRequest}

/-- An update of the current Ship keeps to the protocol if its result has its target whenever
what it read does. -/
lemma wp_readModifyWrite_of_update {ns : Option String} {name : String}
    {update : Ship → Except StatusResponse Ship}
    (h : ∀ current : ContentData Ship, current.data.ActiveHasTarget →
      request.WritesTargeted current → ∀ updated, update current.applyRevision = .ok updated →
        updated.ActiveHasTarget) :
    (readModifyWrite ns name update).run.wp ShipRequest.protocol request fun _ _ => True := by
  refine wp_readModifyWrite (by rintro value ⟨⟩) fun current updated hassume hupdate => ?_
  rintro value ⟨⟩
  exact h current hassume.1 hassume.2 updated hupdate

/-- The same for a request that reads and puts without comparing, whatever it reads. -/
lemma wp_getCurrent_put_of_update {ns : Option String} {name : String}
    (update : Ship → Except StatusResponse Ship)
    (h : ∀ current : Ship, ∀ updated, update current = .ok updated → updated.ActiveHasTarget) : (do
      let current ← getCurrent ns name
      let updated ← Handler.ofExcept (update current)
      return Response.updated (← Handler.store (.put updated)).applyRevision :
        Handler Ship (Response Ship)).run.wp ShipRequest.protocol request fun _ _ => True := by
  refine wp_getCurrent_put update (by rintro value ⟨⟩) fun current updated _ hupdate => ?_
  rintro value ⟨⟩
  exact h _ _ hupdate

end Wp

lemma ShipRequest.wp_handler (request : ShipRequest) (h : request.CreatesTargeted) :
    request.handler.run.wp protocol request fun _ _ => True := by
  cases request with
  | create ns ship namespaceExists defaults uid now suffixes =>
    simp only [handler, createShipWithDefaults]
    split
    · trivial
    split
    · trivial
    simp only [wp_run_bind, Handler.wp_ofExcept]
    split
    · split
      · -- a created Ship differs from the one in the request in its metadata only
        refine wp_createObject (fun _ t m value hvalue => ?_) _ _ _ _ _
        cases hvalue
        exact h.congr rfl rfl
      · trivial
    · trivial
  | replace ns name body defaults =>
    refine wp_readModifyWrite_of_update fun current hcurrent _ updated hupdate => ?_
    exact hcurrent.applyRevision.of_acceptedUpdate (acceptedUpdate_of_shipReplaced hupdate)
  | patch ns name body defaults =>
    refine wp_readModifyWrite_of_update fun current hcurrent _ updated hupdate => ?_
    exact hcurrent.applyRevision.of_acceptedUpdate (acceptedUpdate_of_shipPatched hupdate)
  | abort ns name now =>
    refine wp_getCurrent_put_of_update (abortShipMigration now)
      fun current aborted habort hactive => ?_
    rw [Ship.hasActiveMigration, phase_of_abortShipMigration habort] at hactive
    cases hactive
  | drain ns name target =>
    refine wp_getCurrent_put_of_update (fun current => .ok (prepareShipForDrain current target))
      fun current updated hupdate => ?_
    cases hupdate
    intro _
    simp [prepareShipForDrain, Ship.targetNodeName]
  | statusPatch ns name body =>
    simp only [handler, handleShipStatusPatch, statusPatchResource]
    split
    · trivial
    rename_i hall
    refine wp_readModifyWrite_of_update fun current hcurrent hwrites updated hupdate => ?_
    intro hactive
    rw [Ship.targetNodeName, spec_of_statusPatched (not_not.1 hall) hupdate]
    exact hwrites _ rfl updated (by rw [hupdate]; rfl) hactive
  | statusReplace ns name body =>
    refine wp_readModifyWrite_of_update fun current hcurrent hwrites updated hupdate => ?_
    intro hactive
    rw [Ship.targetNodeName, spec_of_statusReplaced hupdate]
    exact hwrites _ rfl updated (by rw [hupdate]; rfl) hactive

/-! ## The system -/

variable {κ : Type} [DecidableEq κ]

abbrev ShipServing (κ : Type) : Type :=
  Config (StoreOp.interface Ship) κ (ResourceStore Ship) ShipRequest
    (Except StatusResponse (Response Ship))

namespace ShipServing

/-- No request has been looked at yet. -/
def start (store : ResourceStore Ship) (requests : κ → ShipRequest) : ShipServing κ where
  world := store
  thread k := (requests k).handler.run
  seen := requests

def step (c : ShipServing κ) (e : Event κ Access Empty) : ShipServing κ :=
  Config.step StoreOp.exec (fun s _ => s) ShipRequest.protocol c e

def toRead (c : ShipServing κ) (k : κ) : Option (ContentData Ship) :=
  match c.thread k with
  | .call (.get ns name) _ => (c.world.get ns name).toOption.join
  | _ => none

/-- The condition on a step: a status write that is going to write an active phase reads a Ship
with a target. -/
def WritesTargeted (c : ShipServing κ) : Event κ Access Empty → Prop
  | .call k _ => ∀ current ∈ c.toRead k, (c.seen k).WritesTargeted current

instance (c : ShipServing κ) : ∀ e, Decidable (c.WritesTargeted e) := by
  intro e
  unfold WritesTargeted
  split
  infer_instance

/-- Every stored Ship has its target, and none is stuck. -/
def Targeted (c : ShipServing κ) : Prop :=
  ∀ key stored, c.world.kvs key = some stored →
    stored.data.ActiveHasTarget ∧ ¬ stored.data.Stuck

/-- Every stored Ship in an active phase has its target. -/
def StoredTargeted (s : ResourceStore Ship) : Prop :=
  ∀ key stored, s.kvs key = some stored → stored.data.ActiveHasTarget

/-- The invariant: the stored Ships have their targets, and every request keeps to the
protocol. -/
def Inv (c : ShipServing κ) : Prop :=
  StoredTargeted c.world ∧ c.Keeps ShipRequest.protocol fun s _ => StoredTargeted s

omit [TimeCodec] in
/-- Stored Ships have their targets after a call that only stores Ships with targets. -/
lemma storedTargeted_exec {s : ResourceStore Ship} {op : StoreOp Ship} (h : StoredTargeted s)
    (hop : ∀ value, op.stores = some value → value.ActiveHasTarget) (access : Access) :
    StoredTargeted (StoreOp.exec s access op).1 := by
  intro key stored hstored
  rcases StoreOp.exec_world s access op with hw | ⟨request, hrequest, hw⟩ | ⟨key', -, hw⟩
  · rw [hw] at hstored
    exact h key stored hstored
  · rw [hw] at hstored
    rcases ResourceStore.writeAll_cases (s.revision + 1) [request] s.kvs key with
      hk | ⟨r, hr, -, hk⟩
    · exact h key stored (hk ▸ hstored)
    have hsome : some (ContentData.mk r.value (s.revision + 1)) = some stored :=
      hk.symm.trans hstored
    cases hsome
    rw [List.mem_singleton.1 hr]
    exact hop _ hrequest
  · rw [hw] at hstored
    exact h key stored (of_update_none_eq_some hstored)

omit [DecidableEq κ] in
lemma inv_start {store : ResourceStore Ship} {requests : κ → ShipRequest}
    (hstore : StoredTargeted store) (hcreate : ∀ k, (requests k).CreatesTargeted) :
    (start store requests).Inv :=
  ⟨hstore, fun k => ⟨hstore, (requests k).wp_handler (hcreate k)⟩⟩

lemma inv_step {c : ShipServing κ} {e : Event κ Access Empty} (h : c.Inv)
    (hwrites : c.WritesTargeted e) : (c.step e).Inv := by
  have hkeeps : (c.step e).Keeps ShipRequest.protocol fun s _ => StoredTargeted s := by
    refine Config.Keeps.step h.2 e (fun k access op next he hk hallowed => ?_) (fun x => x.elim)
    have hworld := storedTargeted_exec h.1 hallowed access
    refine ⟨?_, hworld, fun j _ => hworld⟩
    cases op with
    | put value | putIfNotExists value | delete ns name => trivial
    | get ns name =>
      cases hreply : (StoreOp.exec c.world access (.get ns name)).2 with
      | error e => trivial
      | ok found =>
        cases found with
        | none => trivial
        | some current =>
          have hget := StoreOp.get_of_exec_get hreply
          obtain ⟨key, -, hkey⟩ := ResourceStore.kvs_of_get hget
          refine ⟨h.1 key current hkey, ?_⟩
          subst he
          refine hwrites current ?_
          simp only [toRead, hk, hget]
          rfl
  rcases e with ⟨k, access⟩ | ⟨⟨⟩⟩
  exact ⟨(hkeeps k).1, hkeeps⟩

/-- **Active migrations keep their targets where status writes respect them.**  In every
interleaving of requests, every stored Ship in an active phase has a target, and none is stuck
between a refused target and a refused abort: provided created Ships have it so, and every status
write that is going to write an active phase reads a Ship with a target. -/
theorem targeted_of_writesTargeted (store : ResourceStore Ship) (requests : κ → ShipRequest)
    (events : List (Event κ Access Empty)) (hstore : StoredTargeted store)
    (hcreate : ∀ k, (requests k).CreatesTargeted)
    (h : Run.AllSteps step WritesTargeted (start store requests) events) :
    Run.AllStates step Targeted (start store requests) events := by
  refine Run.AllStates.of_invariant (I := Inv) (fun c e hI hG => inv_step hI hG) ?_ _ _
    (inv_start hstore hcreate) h
  intro c hI key stored hstored
  have htarget := hI.1 key stored hstored
  exact ⟨htarget, htarget.not_stuck⟩

end ShipServing

end

/-! ## An abort and a late status write -/

namespace ShipServing

namespace Sample

open Fixture

/-- A Ship on its way from one node to another; no agent has written a status yet. -/
def ship : Ship := vessel (some "node-b")

/-- A store that holds it, at revision 1. -/
def store : ResourceStore Ship := (ResourceStore.empty.putIfNotExists ship).1

/-- The key it is stored under. -/
def key : String := "/tugboat/registry/core/ships/default/vm"

/-- What the target agent writes once its receiver listens. -/
def receiverReady : Map :=
  [("status", .object
    [("migration", .object
      [("message", .string
          "Target VM is ready to accept incoming migration with the same guest NIC identity"),
       ("phase", .string "Ready"),
       ("sourceNodeName", .string "node-a"),
       ("targetAddress", .string "10.0.0.2"),
       ("targetNodeName", .string "node-b"),
       ("targetPort", .number (.int 49152)),
       ("timestamp", .string "2023-11-14T22:13:20+00:00")])])]

/-- An abort, and the write of the target agent. -/
def requests : Bool → ShipRequest
  | false => .abort "default" "vm" ⟨1700000000, 0⟩
  | true => .statusPatch "default" "vm" receiverReady

/-- One request after the other, `first` being the first. -/
def inTurn (first : Bool) : List (Event Bool Access Empty) :=
  [.call first .answered, .call first .answered, .call (!first) .answered,
    .call (!first) .answered]

def final (first : Bool) : Option Ship :=
  ((Run.exec step (start store requests) (inTurn first)).world.kvs key).map (·.data)

end Sample

open Fixture Sample in
theorem targeted_ready_then_abort :
    (final true).map (fun s => (s.phase, s.targetNodeName)) = some (some .failed, none) ∧
      Run.AllStates step Targeted (start store requests) (inTurn true) := by
  refine ⟨by decide +kernel, targeted_of_writesTargeted store requests _ ?_ (by decide)
    (by decide +kernel)⟩
  have hempty : StoredTargeted ResourceStore.empty := by
    rintro key stored ⟨⟩
  have hship : ∀ value, (StoreOp.putIfNotExists ship).stores = some value →
      value.ActiveHasTarget := by
    rintro value ⟨⟩
    decide
  exact storedTargeted_exec hempty hship .answered

open Fixture Sample in
/-- A receiver that reports to be ready after the abort leaves a Ship that is migrating without a
target: a new target is refused, and so is an abort. -/
theorem ready_after_abort_is_stuck :
    ∃ s, final false = some s ∧ s.phase = some .ready ∧ s.targetNodeName = none ∧ s.Stuck := by
  have hfinal : (final false).map (fun s => (s.phase, s.targetNodeName)) =
      some (some .ready, none) := by decide +kernel
  obtain ⟨s, hs, hpair⟩ := Option.map_eq_some_iff.1 hfinal
  obtain ⟨hphase, htarget⟩ := Prod.mk.inj hpair
  have hactive : s.hasActiveMigration = true := by
    rw [Ship.hasActiveMigration, hphase]
    rfl
  refine ⟨s, hs, hphase, htarget, ⟨{ spec := some { targetNodeName := some "node" } }, ?_⟩,
    fun now => ?_⟩
  · rw [validateShipTargetNodeNameUpdate, htarget, if_neg (by decide), if_neg (by decide),
      if_pos ⟨by decide, hactive⟩]
  · simp only [abortShipMigration, htarget]

end ShipServing

end Tugboat
