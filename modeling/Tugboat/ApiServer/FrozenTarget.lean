import Tugboat.ApiServer.MigrationTarget
import Tugboat.ApiServer.ObjectUpdates

/-!
# The target of a running migration

While a migration is under way its target must stay where it is: PUT and PATCH check that, and a
drain plans to move only Ships that are not moving.  Both check a Ship they have *read*, and what
counts is the version they *replace*.

This file looks at every write that changes the target of a stored Ship.  A status write is
conditional on the version it read and leaves the spec as it is.  A PUT or PATCH is checked against
the version it read, which is the one it replaces only if the body names its revision.  A drain is
conditional, but on a version it reads after planning and does not look at again.

An abort may change the target of a migration.  The cutover clears the target of a Ship it has read
as `Completed`; that is no migration under way, if the Ship is still `Completed` when it is
replaced.
-/

namespace Tugboat

open Json Resource Program

/-- The target of a completed migration is cleared. -/
def Ship.CutoverTo (read written : Ship) : Prop :=
  read.phase = some .completed ∧ read.targetNodeName.isSome = true ∧ written.targetNodeName = none
  deriving Decidable

/-- The target is the same, or there was no migration to disturb. -/
def Ship.KeepsTarget (before after : Ship) : Prop :=
  after.targetNodeName = before.targetNodeName ∨ before.hasActiveMigration = false
  deriving Decidable

lemma Ship.keepsTarget_of_spec {before after : Ship} (h : after.spec = before.spec) :
    before.KeepsTarget after := by
  left
  rw [Ship.targetNodeName, Ship.targetNodeName, h]

section

variable [TimeCodec]

/-! ## When a request replaces what it has checked -/

namespace ShipRequest

/-- What a PUT or PATCH makes of the Ship it reads. -/
def specUpdate : ShipRequest → Option (Ship → Except StatusResponse Ship)
  | .replace _ name body defaults => some (shipReplaced name body defaults)
  | .patch _ _ body defaults => some (shipPatched body defaults)
  | _ => none

def clientVersion : ShipRequest → Option String
  | .replace _ _ body _ => clientResourceVersion (ResourceUpdater.bodyMetadata body)
  | .patch _ _ body _ => clientResourceVersion (body.get "metadata")
  | _ => none

def drainTarget : ShipRequest → Option String
  | .drain _ _ target => some target
  | _ => none

def isAbort : ShipRequest → Bool
  | .abort .. => true
  | _ => false

/-- The version a request reads is the one its checks are good for: an accepted PUT or PATCH
names its revision or is a cutover, and a drain finds no migration other than its own. -/
def ChecksVersion (request : ShipRequest) (current : ContentData Ship) : Prop :=
  (∀ update ∈ request.specUpdate, ∀ updated ∈ (update current.applyRevision).toOption,
    current.data.CutoverTo updated ∨
      request.clientVersion.bind Decimal.parseInt64 = some (current.revision : Int)) ∧
  ∀ target ∈ request.drainTarget,
    current.data.hasActiveMigration = false ∨ current.data.targetNodeName = some target
  deriving Decidable

end ShipRequest

/-! ## What each request puts -/

/-- What is known about the handling of a request: the request itself, and the version its last
read returned. -/
structure TargetSeen where
  request : ShipRequest
  read : Option (ContentData Ship) := none

namespace TargetSeen

/-- Every put but that of an abort is a cutover, or replaces the version that was read and keeps
its target. -/
def MayCall (g : TargetSeen) : StoreOp Ship → Prop
  | .put value => g.request.isAbort = true ∨ ∃ current, g.read = some current ∧
      (current.data.CutoverTo value ∨
        ReplacesVersion current value ∧ current.data.KeepsTarget value)
  | _ => True

/-- The protocol of the requests.  What they read is a version their checks are good for. -/
def protocol : Protocol (StoreOp.interface Ship) TargetSeen where
  allowed := MayCall
  assumes g := StoreOp.OnRead g.request.ChecksVersion
  observe g op r := { g with read := StoreOp.lastRead g.read op r }

end TargetSeen

section Wp

variable {request : ShipRequest} {update : Ship → Except StatusResponse Ship}

/-- An update of the current Ship keeps to the protocol if what it computes is a cutover, or
replaces the version it read and keeps its target. -/
lemma wp_readModifyWrite_of_checked {ns : Option String} {name : String}
    (h : ∀ current : ContentData Ship, request.ChecksVersion current →
      ∀ updated, update current.applyRevision = .ok updated → current.data.CutoverTo updated ∨
          ReplacesVersion current updated ∧ current.data.KeepsTarget updated) :
    (readModifyWrite ns name update).run.wp TargetSeen.protocol { request } fun _ _ => True :=
  wp_readModifyWrite trivial fun current updated hchecks hupdate =>
    .inr ⟨current, rfl, h current hchecks updated hupdate⟩

/-- A PUT or PATCH that names the version it reads replaces that version and keeps its target. -/
lemma of_specUpdate {current : ContentData Ship} {patchMetadata : Option Value}
    {updated replaced : Ship}
    (hchecks : request.ChecksVersion current) (hupdate : request.specUpdate = some update)
    (hvalue : update current.applyRevision = .ok updated)
    (hclient : request.clientVersion = clientResourceVersion patchMetadata)
    (henforced : ResourceUpdater.Enforced shipOptions patchMetadata current.applyRevision replaced)
    (hmeta : objectMeta updated = objectMeta replaced)
    (haccept : AcceptedUpdate current.applyRevision updated) : current.data.CutoverTo updated ∨
      ReplacesVersion current updated ∧ current.data.KeepsTarget updated := by
  rcases hchecks.1 update hupdate updated (by rw [hvalue]; rfl) with hcutover | hnames
  · exact .inl hcutover
  refine .inr ⟨replacesVersion_of_enforced henforced hmeta fun _ => ?_, ?_⟩
  · rw [← hclient]
    exact hnames
  by_cases hactive : current.data.hasActiveMigration = true
  · exact .inl ((of_validateShipTargetNodeNameUpdate haccept.2).2 hactive)
  · exact .inr (by simpa using hactive)

lemma TargetSeen.wp_handler (request : ShipRequest) :
    request.handler.run.wp protocol { request } fun _ _ => True := by
  cases request with
  | create ns ship namespaceExists defaults uid now suffixes =>
    simp only [ShipRequest.handler, createShipWithDefaults]
    split
    · trivial
    split
    · trivial
    simp only [wp_run_bind, Handler.wp_ofExcept]
    split
    · split
      · exact wp_createObject (fun _ _ _ => trivial) _ _ _ _ _
      · trivial
    · trivial
  | replace ns name body defaults =>
    refine wp_readModifyWrite_of_checked fun current hchecks updated hupdate => ?_
    have hvalue := hupdate
    simp only [shipReplaced, bind_eq_ok_iff] at hvalue
    obtain ⟨⟨⟩, -, replaced, hreplaced, hcheck⟩ := hvalue
    obtain ⟨rfl, -⟩ := checkShipUpdate_eq_ok hcheck
    exact of_specUpdate hchecks rfl hupdate rfl
      (ResourceUpdater.enforced_applyReplacement current.objectMeta_applyRevision hreplaced) rfl
      (acceptedUpdate_of_shipReplaced hupdate)
  | patch ns name body defaults =>
    refine wp_readModifyWrite_of_checked fun current hchecks updated hupdate => ?_
    have hvalue := hupdate
    simp only [shipPatched, bind_eq_ok_iff] at hvalue
    obtain ⟨patched, hpatched, hcheck⟩ := hvalue
    obtain ⟨rfl, -⟩ := checkShipUpdate_eq_ok hcheck
    exact of_specUpdate hchecks rfl hupdate rfl
      (ResourceUpdater.enforced_applyPatch current.objectMeta_applyRevision hpatched) rfl
      (acceptedUpdate_of_shipPatched hupdate)
  | abort ns name now =>
    exact wp_getCurrent_put (abortShipMigration now) trivial fun current updated _ _ => .inl rfl
  | drain ns name target =>
    refine wp_getCurrent_put (fun current => .ok (prepareShipForDrain current target)) trivial
      fun current updated hchecks hupdate => .inr ⟨current, rfl, .inr ?_⟩
    cases hupdate
    -- the Ship is put back with the metadata it was read with, its generation apart
    refine ⟨replacesVersion_of_objectMeta rfl rfl rfl fun _ hexpected =>
      ResourceStore.expectedRevision_toString rfl hexpected, ?_⟩
    rcases hchecks.2 target rfl with hinactive | hsame
    · exact .inr hinactive
    left
    rw [hsame]
    simp [prepareShipForDrain, Ship.targetNodeName]
  | statusPatch ns name body =>
    simp only [ShipRequest.handler, handleShipStatusPatch, statusPatchResource]
    split
    · trivial
    rename_i hall
    refine wp_readModifyWrite_of_checked fun current _ updated hupdate => .inr ⟨?_, ?_⟩
    · exact replacesVersion_of_statusPatched hupdate
    · have hspec := spec_of_statusPatched (not_not.1 hall) hupdate
      exact Ship.keepsTarget_of_spec hspec
  | statusReplace ns name body =>
    refine wp_readModifyWrite_of_checked fun current _ updated hupdate => .inr ⟨?_, ?_⟩
    · exact replacesVersion_of_statusReplaced hupdate
    · have hspec := spec_of_statusReplaced hupdate
      exact Ship.keepsTarget_of_spec hspec

end Wp

/-! ## The system -/

variable {κ : Type} [DecidableEq κ]

/-- Requests for Ships being handled over one store, with the versions they have read. -/
abbrev TargetServing (κ : Type) : Type :=
  Config (StoreOp.interface Ship) κ (ResourceStore Ship) TargetSeen
    (Except StatusResponse (Response Ship))

namespace TargetServing

/-- No request has been looked at yet. -/
def start (store : ResourceStore Ship) (requests : κ → ShipRequest) : TargetServing κ where
  world := store
  thread k := (requests k).handler.run
  seen k := { request := requests k }

/-- One store call of one request. -/
def step (c : TargetServing κ) (e : Event κ Access Empty) : TargetServing κ :=
  Config.step StoreOp.exec (fun s _ => s) TargetSeen.protocol c e

/-- A cutover that is about to be put finds the Ship still completed. -/
def CutoverInTime (c : TargetServing κ) (k : κ) : Prop :=
  ∀ value ∈ c.nextPut k, ∀ read ∈ (c.seen k).read, read.data.CutoverTo value →
    ∀ key ∈ (ResourceStore.keyOf value).toOption, ∀ before ∈ c.world.kvs key,
      before.data.phase = some .completed
  deriving Decidable

/-- The condition on a step: a PUT or PATCH that is going to be put names the revision it is about
to read, unless it is a cutover, which is put in time, and a drain is about to read a Ship that is
not moving elsewhere. -/
def ChecksVersion (c : TargetServing κ) : Event κ Access Empty → Prop
  | .call k _ => (∀ current ∈ c.nextRead k, (c.seen k).request.ChecksVersion current) ∧
      c.CutoverInTime k

instance (c : TargetServing κ) : ∀ e, Decidable (c.ChecksVersion e)
  | .call k _ => inferInstanceAs (Decidable ((∀ current ∈ c.nextRead k,
      (c.seen k).request.ChecksVersion current) ∧ c.CutoverInTime k))

/-- If a step changes the target of a stored Ship, no migration was under way in the version it
replaced, or the step is an abort. -/
def Frozen (c : TargetServing κ) : Event κ Access Empty → Prop
  | .call k access => ∀ key before after, c.world.kvs key = some before →
      (c.step (.call k access)).world.kvs key = some after →
      after.data.targetNodeName ≠ before.data.targetNodeName →
        before.data.hasActiveMigration = false ∨ (c.seen k).request.isAbort = true

/-- The invariant: every request keeps to the protocol, and what it has read is a version of the
past. -/
def Inv (c : TargetServing κ) : Prop :=
  c.Keeps TargetSeen.protocol fun s g => ∀ current, g.read = some current → s.Past current

omit [DecidableEq κ] in
lemma inv_start (store : ResourceStore Ship) (requests : κ → ShipRequest) :
    (start store requests).Inv := by
  intro k
  refine ⟨?_, TargetSeen.wp_handler (requests k)⟩
  rintro current ⟨⟩

lemma inv_step {c : TargetServing κ} {e : Event κ Access Empty} (h : c.Inv)
    (hchecks : c.ChecksVersion e) : (c.step e).Inv := by
  refine Config.Keeps.step h e (fun k access op next he hk _ => ?_) (fun x => x.elim)
  subst he
  exact ⟨Config.onRead_exec hk hchecks.1 access, StoreOp.past_lastRead (h k).1 access op,
    fun j _ current hread => ((h j).1 current hread).exec access op⟩

/-- In the invariant only aborts touch the target of a running migration. -/
lemma Inv.frozen {c : TargetServing κ} (h : c.Inv) {e : Event κ Access Empty}
    (hchecks : c.ChecksVersion e) : c.Frozen e := by
  rcases e with ⟨k, access⟩ | ⟨⟨⟩⟩
  intro key before after hbefore hafter hne
  cases hk : c.thread k with
  | done r =>
    rw [step, Config.step_call_of_done access hk, hbefore] at hafter
    cases hafter
    exact absurd rfl hne
  | call op next =>
    rw [step, Config.step_call_of_call access hk] at hafter
    obtain ⟨value, request, rfl, hrequest, hholds, hkey, hvalue⟩ :=
      StoreOp.put_of_replaces hbefore hafter (fun heq => hne (by rw [heq]))
    subst hvalue
    rcases h.allowed hk with habort | ⟨read, hread, hcutover | ⟨hreplaces, hkeeps⟩⟩
    · exact .inr habort
    · have hcompleted := hchecks.2 value (by rw [Config.nextPut, hk]; rfl) read hread hcutover
        request.key (by rw [ResourceStore.keyOf_of_preparePut hrequest]; rfl) before
        (hkey ▸ hbefore)
      exact .inl (by rw [Ship.hasActiveMigration, hcompleted]; rfl)
    -- the put is conditional, so what it replaces is what was checked
    have hsame := hreplaces.kvs_of_holds ((h k).1 read hread) hrequest hholds
    rw [hkey, hbefore] at hsame
    cases hsame
    rcases hkeeps with htarget | hinactive
    · exact absurd htarget hne
    · exact .inl hinactive

/-- **The target of a running migration is frozen where the checks are about what is replaced.**  In
every interleaving of requests, a write changes the target of a stored Ship only if no migration is
under way in the version it replaces, or if it is an abort: provided every PUT and PATCH names the
revision it reads, or is a cutover of a Ship that is still completed when it is put, and no drain
reads a Ship that is moving to another node. -/
theorem frozen_of_checksVersion (store : ResourceStore Ship) (requests : κ → ShipRequest)
    (events : List (Event κ Access Empty))
    (h : Run.AllSteps step ChecksVersion (start store requests) events) :
    Run.AllSteps step Frozen (start store requests) events :=
  Run.AllSteps.of_invariant (I := Inv) (fun _ _ hI hG => inv_step hI hG)
    (fun _ _ hI hG => hI.frozen hG) _ _ (inv_start store requests) h

end TargetServing

end

/-! ## A target that moves under a running migration -/

namespace TargetServing

namespace TwoTargets

open Fixture

/-- A store that holds a Ship that is not moving, at revision 1. -/
def store : ResourceStore Ship := (ResourceStore.empty.putIfNotExists (vessel none)).1

/-- A PATCH that sends the Ship to `node`; `metadata` is what else the body says. -/
def moveTo (node : String) (metadata : Map) : ShipRequest :=
  .patch "default" "vm" (("spec", .object [("targetNodeName", .string node)]) :: metadata) (.ok ())

def firstRevision : Map := [("metadata", .object [("resourceVersion", .string "1")])]

/-- What the source agent writes when it sees the target. -/
def pending : Map :=
  [("status", .object
    [("migration", .object
      [("message", .string "Waiting for target node to prepare migration receiver"),
       ("phase", .string "Pending"),
       ("sourceNodeName", .string "node-a"),
       ("targetNodeName", .string "node-b"),
       ("timestamp", .string "2023-11-14T22:13:20+00:00")])])]

/-- A migration to `node-b` is started while another request wants the Ship elsewhere. -/
def requests (other : ShipRequest) : Fin 3 → ShipRequest
  | 0 => moveTo "node-b" firstRevision
  | 1 => .statusPatch "default" "vm" pending
  | 2 => other

/-- The migration is started, and its agent reports it. -/
def starts : List (Event (Fin 3) Access Empty) :=
  [.call 0 .answered, .call 0 .answered, .call 1 .answered, .call 1 .answered]

/-- The state after `events`. -/
def reached (other : ShipRequest) (events : List (Event (Fin 3) Access Empty)) :
    TargetServing (Fin 3) :=
  Run.exec step (start store (requests other)) events

def view (c : TargetServing (Fin 3)) : Option (Option String × Bool) :=
  (c.world.kvs "/tugboat/registry/core/ships/default/vm").map fun stored =>
    (stored.data.targetNodeName, stored.data.hasActiveMigration)

end TwoTargets

open Fixture TwoTargets

theorem frozen_patch_with_resourceVersion :
    Run.AllSteps step Frozen (start store (requests (moveTo "node-c" firstRevision)))
      ([.call 2 .answered] ++ starts ++ [.call 2 .answered]) :=
  frozen_of_checksVersion store _ _ (by decide +kernel)

/-- A step that moves the target of a migrating Ship is not frozen, if it is no abort. -/
lemma not_frozen_of_view {c : TargetServing (Fin 3)} {k : Fin 3} {target target' : Option String}
    (hbefore : view c = some (target, true))
    (hafter : (view (c.step (.call k .answered))).map Prod.fst = some target')
    (hne : target' ≠ target) (habort : (c.seen k).request.isAbort = false) :
    ¬ c.Frozen (.call k .answered) := by
  intro h
  obtain ⟨before, hkvs, hpair⟩ := Option.map_eq_some_iff.1 hbefore
  obtain ⟨htarget, hactive⟩ := Prod.mk.inj hpair
  obtain ⟨⟨target'', active⟩, hview, rfl⟩ := Option.map_eq_some_iff.1 hafter
  obtain ⟨after, hkvs', hpair'⟩ := Option.map_eq_some_iff.1 hview
  obtain ⟨htarget', -⟩ := Prod.mk.inj hpair'
  rcases h _ before after hkvs hkvs' (by rw [htarget, htarget']; exact hne) with
    hinactive | habort'
  · cases hactive.symm.trans hinactive
  · cases habort.symm.trans habort'

/-- A PATCH without resource version that was checked before the migration started, and a drain
that reads the Ship only after it started, both replace the target of the running migration. -/
theorem running_target_replaced :
    let patching := reached (moveTo "node-c" []) ([.call 2 .answered] ++ starts)
    let draining := reached (.drain "default" "vm" "node-c") (starts ++ [.call 2 .answered])
    (view patching = some (some "node-b", true) ∧
      view (patching.step (.call 2 .answered)) = some (some "node-c", false) ∧
      ¬ patching.Frozen (.call 2 .answered)) ∧
    (view draining = some (some "node-b", true) ∧
      view (draining.step (.call 2 .answered)) = some (some "node-c", true) ∧
      ¬ draining.Frozen (.call 2 .answered)) := by
  intro patching draining
  obtain ⟨hpatch, hpatch', habort⟩ : view patching = some (some "node-b", true) ∧
      view (patching.step (.call 2 .answered)) = some (some "node-c", false) ∧
      (patching.seen 2).request.isAbort = false := by
    decide +kernel
  obtain ⟨hdrain, hdrain', habort'⟩ : view draining = some (some "node-b", true) ∧
      view (draining.step (.call 2 .answered)) = some (some "node-c", true) ∧
      (draining.seen 2).request.isAbort = false := by
    decide +kernel
  refine ⟨⟨hpatch, hpatch', ?_⟩, hdrain, hdrain', ?_⟩
  · exact not_frozen_of_view hpatch (by rw [hpatch']; rfl) (by decide) habort
  · exact not_frozen_of_view hdrain (by rw [hdrain']; rfl) (by decide) habort'

end TargetServing

end Tugboat
