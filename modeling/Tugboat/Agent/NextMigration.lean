import Tugboat.Agent.Discipline
import Tugboat.ApiServer.ShipEndpoints

/-!
# A migration after a migration

A migration ends with the phase `Completed` or `Failed`, and the phase stays in the status.  The API
server accepts a new target for such a Ship.  The source agent runs the preflight only for a Ship
that has no migration status at all, so no accepted target of a Ship that has migrated before is
ever taken up by a preflight.
-/

namespace Tugboat

open Program Json

section

variable [TimeCodec]

/-- `updated` is what the API server stores for a Ship `current` when it accepts a PUT, a PATCH or a
drain. -/
inductive AcceptsTarget (current : Ship) : Ship → Prop
  | put {name : String} {body updated : Ship} {defaults : Except StatusResponse Unit}
      (h : shipReplaced name body defaults current = .ok updated) : AcceptsTarget current updated
  | patch {body : Map} {updated : Ship} {defaults : Except StatusResponse Unit}
      (h : shipPatched body defaults current = .ok updated) : AcceptsTarget current updated
  | drain (target : String) : AcceptsTarget current (prepareShipForDrain current target)

lemma AcceptsTarget.phase_eq {current updated : Ship} (h : AcceptsTarget current updated) :
    updated.phase = current.phase := by
  cases h with
  | put h => exact (acceptedUpdate_of_shipReplaced h).1
  | patch h => exact (acceptedUpdate_of_shipPatched h).1
  | drain target =>
    rw [prepareShipForDrain, Ship.phase, Ship.migration, status_bumpGeneration]
    rfl

end

/-! ## The next reconcile -/

section

variable {ω ι : Type} (exec : Semantics AgentCall.interface ω ι) (choice : ℕ → ι) (w : ω)

/-- The reconcile of `ship` by the agent of `node` runs the preflight for `target`, and writes its
outcome: the phase `Pending`, or `Failed`. -/
def RestartsMigration (node : String) (ship : Ship) (target : String) : Prop :=
  let calls := ((reconcileModified node ship).run.calls exec choice w).map Prod.snd
  ⟨node, .preflightMigration ship target⟩ ∈ calls ∧
    ∃ ns name patch conditions, ⟨node, .patchStatus ns name patch conditions⟩ ∈ calls ∧
      (patch.phase = .pending ∨ patch.phase = .failed)

/-- A reconcile runs the preflight only for a Ship without a migration status. -/
lemma migration_eq_none_of_preflight {node target : String} {ship ship' : Ship}
    {c : ω × AgentCall} (hc : c ∈ (reconcileModified node ship).run.calls exec choice w)
    (hop : c.2.op = .preflightMigration ship' target) : ship.migration = none := by
  -- the knowledge is about `ship` all along, since nothing else is delivered
  have hstep : Complies discipline exec (fun _ _ => True)
      fun _ g => g.delivered = true ∧ g.ship = ship := by
    intro w g i op _ hg hallowed
    obtain ⟨hdelivered, hship⟩ := Knowledge.ship_learn hg.1 hallowed.2 (exec w i op).2
    exact ⟨trivial, hdelivered, hship.trans hg.2⟩
  obtain ⟨g, ⟨-, hship⟩, -, hpermits⟩ :=
    allowed_of_mem_calls hstep _ _ choice w (fun _ => trivial) ⟨rfl, rfl⟩
      (wp_reconcileModified node ship) c hc
  rw [hop] at hpermits
  rw [← hship]
  exact hpermits

/-- **An accepted target of a Ship that has migrated before is not taken up.**  Whatever the
migration status of a Ship in a terminal phase says and however its new target was accepted, the
next reconcile by the agent of its node does not run the preflight for it, whatever the agent is
told. -/
theorem not_restartsMigration_of_terminal [TimeCodec] {current updated : Ship}
    (hphase : current.phase = some .completed ∨ current.phase = some .failed)
    (haccepts : AcceptsTarget current updated) (node target : String) :
    ¬ RestartsMigration exec choice w node updated target := by
  rintro ⟨hcall, -⟩
  obtain ⟨c, hc, hop⟩ := List.mem_map.1 hcall
  have hnone := migration_eq_none_of_preflight exec choice w hc (congrArg AgentCall.op hop)
  have hphase' : updated.phase = none := by
    rw [Ship.phase, hnone]
    rfl
  rw [haccepts.phase_eq] at hphase'
  rcases hphase with h | h
  · cases h.symm.trans hphase'
  · cases h.symm.trans hphase'

end

/-! ## A new target after a failure -/

namespace NextMigration.Sample

open Fixture

/-- A Ship whose migration was refused by the preflight; its target has been cleared since. -/
def current : Ship where
  typeMeta := some { apiVersion := some "v1", kind := some "Ship" }
  objectMeta := some {
    name := some "vm", «namespace» := some "default", uid := some "uid-1"
    resourceVersion := some "7", generation := some 3 }
  spec := some { image := "linux", shipClass := "small", nodeName := some "node-a" }
  status := some {
    migration := some {
      phase := .failed, sourceNodeName := some "node-a", targetNodeName := some "node-b"
      message := "Migration preflight failed: node is not ready. " ++
        "Source VM remains on the source node."
      timestamp := some ⟨1700000000, 0⟩ } }

/-- A PATCH with a new target. -/
def body : Map := [("spec", .object [("targetNodeName", .string "node-c")])]

/-- The Ship that is stored when it is accepted. -/
def updated : Ship :=
  { current with
    objectMeta := current.objectMeta.map fun m =>
      ({ m with resourceVersion := none, generation := some 4 } : ObjectMeta)
    spec := some {
      image := "linux", shipClass := "small", nodeName := some "node-a"
      targetNodeName := some "node-c" } }

/-- The agent has the virtual machine, its spec has changed, and every call succeeds. -/
def exec : Semantics AgentCall.interface Unit Unit := fun w _ c =>
  (w, c.op.successReply true updated ⟨1700000000, 0⟩)

end NextMigration.Sample

open Fixture NextMigration.Sample in
theorem not_restartsMigration_after_failure :
    shipPatched body (.ok ()) current = .ok updated ∧
      ¬ RestartsMigration exec (fun _ => ()) () "node-a" updated "node-c" := by
  have haccepted : shipPatched body (.ok ()) current = .ok updated := by decide
  exact ⟨haccepted,
    not_restartsMigration_of_terminal exec _ () (.inr rfl) (.patch haccepted) "node-a" "node-c"⟩

open Fixture NextMigration.Sample in
/-- The accepted target of a Ship whose last migration failed: the source agent is done with it
after it has seen that the spec has changed. -/
theorem target_ignored_after_failure :
    shipPatched body (.ok ()) current = .ok updated ∧
      ((reconcileModified "node-a" updated).run.run exec (fun _ => ()) ()).2 = .ok () ∧
      ((reconcileModified "node-a" updated).run.calls exec (fun _ => ()) ()).map (·.2.op) =
        [.hasShip "uid-1", .matchesFingerprints "uid-1" (updated.spec.getD {})] := by
  decide

end Tugboat
