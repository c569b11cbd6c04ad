import Tugboat.Agent.Discipline
import Tugboat.Lib.Run

/-!
# What a migration leaves on the source

To add a Ship, an agent publishes volumes, attaches networks, writes the mounted volumes to
directories and makes a virtual machine; `Holdings` is what a node holds of one Ship.  Deleting the
Ship on the node gives all of that back.  The cutover of a migration does not:
`finish_source_migration` stops the virtual machine and forgets it, and the patch of the Ship takes
it out of both watches of the source.

The events of `SourceNode.step` are the turns of the source on the versions its watches deliver,
restarts of its agent and a cutover made by the target.  Whatever is answered, a turn that makes the
cutover changes nothing but the virtual machine (`settles_reconcileModified`), and a turn after it
changes nothing at all (`held_turn_of_leaving`).
-/

namespace Tugboat

open Program Agent

/-! ## What a node holds of a Ship -/

/-- The virtual machine of the Ship on the node. -/
inductive LocalVm
  | absent
  /-- It is there, but the agent does not know of it. -/
  | unregistered
  | registered
  deriving DecidableEq, Repr

/-- What a node holds of a Ship. -/
structure Holdings where
  vm : LocalVm := .absent
  volumes : List PublishedVolume := []
  networks : List String := []
  /-- The directories below `.materialized`. -/
  materialized : List String := []
  deriving DecidableEq, Repr

/-- What a turn finds around it: the volumes and networks of the version it is about, whether the
classes of the networks are found, and what is left by the calls that are not looked into. -/
structure Surroundings where
  volumes : List PublishedVolume := []
  networks : List String := []
  materialized : List String := []
  networksFound : Bool := true
  leaves : AgentOp → Holdings → Holdings := fun _ h => h

namespace Holdings

/-- Nothing of the Ship is left. -/
def Released (h : Holdings) : Prop :=
  h.vm = .absent ∧ h.volumes = [] ∧ h.networks = [] ∧ h.materialized = []
  deriving Decidable

/-- The virtual machine is switched off and forgotten, if the agent knows of it. -/
def finished (h : Holdings) : Holdings :=
  if h.vm = .registered then { h with vm := .absent } else h

/-- The agent forgets its virtual machines when it is restarted. -/
def restarted (h : Holdings) : Holdings :=
  if h.vm = .registered then { h with vm := .unregistered } else h

/-- What is held after a call. -/
def after (t : Surroundings) (h : Holdings) : (op : AgentOp) → op.Reply → Holdings
  | .create _ _, .ok () => { h with vm := .registered }
  | .registerExisting _, _ => if h.vm = .absent then h else { h with vm := .registered }
  -- volumes that were published for something else are given back, and so are all directories
  | .planVolumes _, .ok () =>
    { h with volumes := if h.volumes = t.volumes then h.volumes else [], materialized := [] }
  | .setupVolumes _, .ok () => { h with volumes := t.volumes, materialized := t.materialized }
  -- the loopback interface comes first
  | .addNetworks _, .ok () => { h with networks := "lo" :: t.networks }
  | .finishSourceMigration _, .ok () => h.finished
  -- the networks are taken down if their classes are found
  | .reconcileDeleted _, .ok () => { networks := if t.networksFound then [] else h.networks }
  | .planVolumes ship, .error _ => t.leaves (.planVolumes ship) h
  | .reconcileDeleted ship, .error _ => t.leaves (.reconcileDeleted ship) h
  | .tryReconcileHotplug ship, _ => t.leaves (.tryReconcileHotplug ship) h
  | .refreshMaterializedVolumes ship, _ => t.leaves (.refreshMaterializedVolumes ship) h
  | .cleanup id, _ => t.leaves (.cleanup id) h
  | _, _ => h

/-- The replies of a node on which the runtime and the plugins of volumes and networks always
succeed; `reply` are the answers of everything else. -/
def answer (h : Holdings) (reply : (op : AgentOp) → op.Reply) : (op : AgentOp) → op.Reply
  | .hasShip _ => h.vm = .registered
  | .isPresent _ => .ok (h.vm ≠ .absent)
  | .create .. | .start _ | .migrate .. | .cancelMigration _ | .finishSourceMigration _ => .ok ()
  | .setupVolumes _ | .addNetworks _ => .ok ()
  | op => reply op

/-- The agent is told the truth about the virtual machines it knows of. -/
def Says (h : Holdings) : (op : AgentOp) → op.Reply → Prop
  | .hasShip _, known => known = decide (h.vm = .registered)
  | _, _ => True

lemma says_answer (h : Holdings) (reply : (op : AgentOp) → op.Reply) (op : AgentOp) :
    h.Says op (h.answer reply op) := by
  unfold Says
  split
  · rfl
  · trivial

/-- Stopping the virtual machine leaves nothing exactly if there was nothing else, and no virtual
machine the agent does not know of. -/
lemma released_finished (h : Holdings) : h.finished.Released ↔
      h.vm ≠ .unregistered ∧ h.volumes = [] ∧ h.networks = [] ∧ h.materialized = [] := by
  unfold finished Released
  cases hvm : h.vm with
  | absent | unregistered => simp [hvm]
  | registered => simp

lemma restarted_of_released {h : Holdings} (hreleased : h.Released) : h.restarted = h := by
  rw [restarted, if_neg]
  rw [hreleased.1]
  decide

end Holdings

/-! ## The source node -/

/-- The node a Ship is moved away from. -/
structure SourceNode where
  held : Holdings := {}
  /-- The Ship was patched to run on another node. -/
  handedOver : Bool := false
  deriving DecidableEq

/-- The calls that neither change what is held nor hand the Ship over. -/
def AgentOp.inert : AgentOp → Bool
  | .create .. | .registerExisting _ | .planVolumes _ | .setupVolumes _ | .addNetworks _
  | .finishSourceMigration _ | .reconcileDeleted _ | .tryReconcileHotplug _
  | .refreshMaterializedVolumes _ | .cleanup _ | .patchShip .. => false
  | _ => true

def AgentOp.patchesShip : AgentOp → Bool
  | .patchShip .. => true
  | _ => false

/-- The calls that make the cutover to another node. -/
def AgentOp.handsOver (node : String) : (op : AgentOp) → op.Reply → Bool
  | .patchShip _ _ nodeName, .ok () => nodeName ≠ node
  | _, _ => false

namespace SourceNode

variable (node : String) (t : Surroundings)

def after (s : SourceNode) (op : AgentOp) (r : op.Reply) : SourceNode where
  held := s.held.after t op r
  handedOver := s.handedOver || op.handsOver node r

def exec : Semantics AgentCall.interface SourceNode ((op : AgentOp) → op.Reply) :=
  fun s reply c =>
    (s.after node t c.op (s.held.answer reply c.op), s.held.answer reply c.op)

def turn (s : SourceNode) (ship : Ship) (reply : ℕ → (op : AgentOp) → op.Reply) : SourceNode :=
  (Program.run (exec node t) (reconcileModified node ship).run reply s).1

/-- The two watches of an agent: the Ships that run on its node, and those that move there. -/
def watched (ship : Ship) : Bool :=
  ship.nodeName = some node || ship.targetNodeName = some node

/-- The Ship moves away from this node, and its status says how far. -/
def leaving (ship : Ship) : Bool :=
  ship.nodeName = some node && ship.targetNodeName ≠ some node && hasMigrationState ship

end SourceNode

inductive SourceEvent
  /-- The agent reconciles a version of the Ship; `reply n` are the answers at the `n`-th call. -/
  | turn (ship : Ship) (t : Surroundings) (reply : ℕ → (op : AgentOp) → op.Reply)
  | restart
  /-- The target makes the cutover, and the source has reconciled all it was delivered. -/
  | handover

namespace SourceNode

/-- One step of the source node.  Versions are reconciled in their order, so those that are left
when the cutover has been made belong to the migration; the version of the cutover is watched no
more. -/
def step (node : String) (s : SourceNode) : SourceEvent → SourceNode
  | .turn ship t reply =>
    if watched node ship ∧ (s.handedOver → leaving node ship) then s.turn node t ship reply else s
  | .restart => { s with held := s.held.restarted }
  | .handover => { s with handedOver := true }

/-- Once the Ship is handed over, nothing of it is left. -/
def LeavesNothing (s : SourceNode) : Prop := s.handedOver → s.held.Released
  deriving Decidable

/-- What may be held when an event makes the cutover.  A turn of the source stops the virtual
machine its agent knows of; the cutover of the target changes nothing here. -/
def HoldsLittle (h : Holdings) : SourceEvent → Prop
  | .turn .. => h.vm ≠ .unregistered ∧ h.volumes = [] ∧ h.networks = [] ∧ h.materialized = []
  | .restart | .handover => h.Released

/-- The event does not make the cutover, or it does so on a node that holds little. -/
def CutsOverClean (node : String) (s : SourceNode) (e : SourceEvent) : Prop :=
  s.handedOver = false → (s.step node e).handedOver = true → HoldsLittle s.held e

/-! ## Rules -/

section Rules

variable {node : String} {t : Surroundings} {α β : Type} {op : AgentOp} {x : Agent α}
  {k : α → Agent β}

/-- A turn, seen from the program: the calls change the node as they do. -/
def protocol (node : String) (t : Surroundings) : Protocol AgentCall.interface SourceNode where
  allowed _ _ := True
  assumes s c r := s.held.Says c.op r
  observe s c r := s.after node t c.op r

lemma turn_of_wp {s : SourceNode} {ship : Ship} {Q : SourceNode → Prop}
    (h : (reconcileModified node ship).run.wp (protocol node t) s fun s' _ => Q s')
    (reply : ℕ → (op : AgentOp) → op.Reply) : Q (s.turn node t ship reply) := by
  have hstep : Complies (protocol node t) (exec node t) (fun _ _ => True) Eq := by
    rintro w g i c - rfl -
    exact ⟨w.held.says_answer i c.op, rfl⟩
  obtain ⟨s', hs', hQ⟩ := run_of_wp hstep (reconcileModified node ship).run s reply s
    (fun _ => trivial) rfl h
  rw [turn, hs']
  exact hQ

/-- A call that has nothing to do with what the node holds. -/
lemma after_of_inert (h : op.inert = true) (s : SourceNode) (r : op.Reply) :
    s.after node t op r = s := by
  have hheld : s.held.after t op r = s.held := by
    cases op <;> first | rfl | cases h
  have hhandsOver : op.handsOver node r = false := by
    cases op <;> first | rfl | cases h
  rw [after, hheld, hhandsOver, Bool.or_false]

lemma passes_of_inert (h : op.inert = true) (s : SourceNode) : Passes (protocol node t) s node op :=
  ⟨trivial, after_of_inert h s⟩

/-- The rule for a call that leaves the node as it is. -/
lemma wp_ask_bind {k : op.Reply → Agent β} {s : SourceNode}
    {Q : SourceNode → Except ReconcileError β → Prop} (h : op.inert = true)
    (hk : ∀ r, s.held.Says op r → (k r).run.wp (protocol node t) s Q) :
    (ask node op >>= k).run.wp (protocol node t) s Q := by
  rw [wp_run_bind]
  refine ⟨trivial, fun r hr => ?_⟩
  show (k r).run.wp (protocol node t) (s.after node t op r) Q
  rw [after_of_inert h]
  exact hk r hr

/-- `x` leaves the node as it is, or with its virtual machine stopped; what it returns has the
property `Q`. -/
def Ends (node : String) (t : Surroundings) (Q : α → Prop) (x : Agent α) : Prop :=
  ∀ s, x.run.wp (protocol node t) s fun s' r =>
    (s' = s ∨ s'.held = s.held.finished) ∧ ∀ a, r = .ok a → Q a

variable {Q : β → Prop}

lemma ends_pure {b : β} (hb : Q b) : Ends node t Q (pure b : Agent β) :=
  fun _ => ⟨.inl rfl, fun _ h => Except.ok.inj h ▸ hb⟩

lemma ends_throw (e : ReconcileError) : Ends node t Q (throw e : Agent β) :=
  fun _ => ⟨.inl rfl, fun _ h => by cases h⟩

lemma ends_of_stays (hx : ∀ s, Stays (protocol node t) s x) (hk : ∀ a, Ends node t Q (k a)) :
    Ends node t Q (x >>= k) := by
  intro s
  rw [wp_run_bind]
  refine wp_mono (fun s' r hs => ?_) s x.run (hx s)
  obtain rfl : s' = s := hs
  cases r with
  | ok a => exact hk a s'
  | error e => exact ⟨.inl rfl, fun _ h => by cases h⟩

lemma ends_call {k : op.Reply → Agent β} (h : op.inert = true) (hk : ∀ r, Ends node t Q (k r)) :
    Ends node t Q (ask node op >>= k) :=
  ends_of_stays (fun s => stays_ask (passes_of_inert h s)) hk

lemma ends_last {b : β} (hx : ∀ s, Stays (protocol node t) s x) (hb : Q b) :
    Ends node t Q (do let _ ← x; return b) :=
  ends_of_stays hx fun _ => ends_pure hb

lemma ends_return {b : β} (hx : Ends node t (fun _ => True) x) (hb : Q b) :
    Ends node t Q (do let _ ← x; return b) := by
  intro s
  rw [wp_run_bind]
  refine wp_mono (fun s' r hs => ?_) s x.run (hx s)
  cases r with
  | ok a => exact ⟨hs.1, fun _ h => Except.ok.inj h ▸ hb⟩
  | error e => exact ⟨hs.1, fun _ h => by cases h⟩

end Rules

/-! ## The source side of the state machine -/

section Source

variable {node : String} {t : Surroundings} {ship : Ship} {shipSpec : ShipSpec}
  {shipId ns name targetNodeName targetAddress status message : String} {address : Option String}
  {targetPort : ℕ} {port : Option ℕ} {m : ShipMigrationStatus}

lemma stays_updateMigrationStatus (s : SourceNode) :
    Stays (protocol node t) s (updateMigrationStatus node ns name m status message) :=
  stays_checked (passes_of_inert rfl s) fun _ => stays_call (passes_of_inert rfl s) fun _ =>
    stays_call (passes_of_inert rfl s) stays_orFail

lemma stays_cancelAndFail (s : SourceNode) : Stays (protocol node t) s
      (cancelAndFail node shipId ns name targetNodeName address port message) := by
  refine stays_bind ?_ fun _ => ?_
  · exact stays_call (passes_of_inert rfl s) fun _ => stays_pure ()
  · exact stays_call (passes_of_inert rfl s) fun now => stays_updateMigrationStatus s

lemma stays_isMigrationTimedOut {timestamp : Option Time} {timeoutSecs : Int} (s : SourceNode) :
    Stays (protocol node t) s (isMigrationTimedOut node timestamp timeoutSecs) := by
  unfold isMigrationTimedOut
  split
  · exact stays_pure false
  · exact stays_call (passes_of_inert rfl s) fun now => stays_pure _

lemma wp_finishIfPresent (s : SourceNode) :
    (finishIfPresent node shipId).run.wp (protocol node t) s fun s' r =>
      match r with
      | .ok _ => s'.held = s.held.finished
      | .error _ => s' = s := by
  refine wp_ask_bind rfl fun known hknown => ?_
  replace hknown : known = decide (s.held.vm = .registered) := hknown
  split
  · rw [wp_run_bind]
    refine ⟨trivial, fun stopped _ => ?_⟩
    cases stopped with
    | ok _ => rfl
    | error err =>
      show mk s.held (s.handedOver || false) = s
      rw [Bool.or_false]
  next hunknown =>
    rw [hknown, decide_eq_true_eq] at hunknown
    rw [wp_pure, Holdings.finished, if_neg hunknown]

/-- The cutover stops the virtual machine, and gives nothing else back. -/
lemma ends_finalizeCompletedSourceMigration :
    Ends node t (fun _ => True) (finalizeCompletedSourceMigration node shipId ns name targetNodeName
      targetAddress targetPort) := by
  refine ends_call rfl fun now => ?_
  refine ends_of_stays stays_updateMigrationStatus fun _ => ?_
  intro s
  rw [wp_run_bind]
  refine wp_mono (fun s' r hs => ?_) s _ (wp_finishIfPresent s)
  cases r with
  | ok _ =>
    rw [wp_run_bind]
    exact ⟨trivial, fun patched _ => ⟨.inr hs, fun _ _ => trivial⟩⟩
  | error err => exact ⟨.inl hs, fun _ _ => trivial⟩

lemma ends_handleSourceReadyPhase : Ends node t (· = true)
      (handleSourceReadyPhase node ship shipId ns name targetNodeName m) := by
  unfold handleSourceReadyPhase
  split
  · refine ends_call rfl fun reply => ?_
    cases reply with
    | error err => exact ends_pure rfl
    | ok status =>
      dsimp only
      cases status.phase with
      | none =>
        refine ends_of_stays stays_isMigrationTimedOut fun timedOut => ?_
        split
        · exact ends_last stays_cancelAndFail rfl
        · refine ends_call rfl fun params => ?_
          refine ends_call rfl fun started => ?_
          split
          · exact ends_of_stays stays_cancelAndFail fun _ => ends_throw _
          · refine ends_call rfl fun now => ?_
            exact ends_last stays_updateMigrationStatus rfl
      | setup | active =>
        refine ends_call rfl fun now => ?_
        exact ends_last stays_updateMigrationStatus rfl
      | completed =>
        exact ends_return ends_finalizeCompletedSourceMigration rfl
      | failed | cancelled =>
        exact ends_last stays_cancelAndFail rfl
  · exact ends_pure rfl

lemma ends_handleSourceMigratingPhase : Ends node t (· = true)
      (handleSourceMigratingPhase node shipId ns name targetNodeName m) := by
  unfold handleSourceMigratingPhase
  split
  · refine ends_call rfl fun reply => ?_
    cases reply with
    | error err => exact ends_pure rfl
    | ok status =>
      dsimp only
      cases status.phase with
      | completed =>
        exact ends_return ends_finalizeCompletedSourceMigration rfl
      | failed | cancelled =>
        exact ends_of_stays stays_cancelAndFail fun _ => ends_throw _
      | none | setup | active =>
        refine ends_of_stays stays_updateMigrationStatus fun _ => ?_
        refine ends_of_stays stays_isMigrationTimedOut fun timedOut => ?_
        split
        · exact ends_of_stays stays_cancelAndFail fun _ => ends_throw _
        · exact ends_pure rfl
  · exact ends_pure rfl

lemma ends_handleSourceCompletedPhase : Ends node t (· = true)
      (handleSourceCompletedPhase node shipId shipSpec ns name targetNodeName m) := by
  unfold handleSourceCompletedPhase
  split
  · split
    · exact ends_return ends_finalizeCompletedSourceMigration rfl
    · exact ends_pure rfl
  · exact ends_pure rfl

/-- **The source side of the state machine gives back the virtual machine at most**, and leaves
nothing to do. -/
lemma ends_tryReconcileSourceSide : Ends node t (· = true)
      (tryReconcileSourceSide node ship shipId shipSpec targetNodeName) := by
  unfold tryReconcileSourceSide
  split
  · exact ends_throw _
  cases ship.migration with
  | none =>
    refine ends_call rfl fun preflight => ?_
    refine ends_of_stays (fun _ => stays_orFail preflight) fun preflight => ?_
    split
    · refine ends_call rfl fun now => ?_
      exact ends_last stays_updateMigrationStatus rfl
    · refine ends_call rfl fun now => ?_
      exact ends_last stays_updateMigrationStatus rfl
  | some m =>
    dsimp only
    cases m.phase with
    | pending =>
      refine ends_of_stays stays_isMigrationTimedOut fun timedOut => ?_
      split
      · exact ends_last stays_cancelAndFail rfl
      · exact ends_pure rfl
    | ready => exact ends_handleSourceReadyPhase
    | migrating => exact ends_handleSourceMigratingPhase
    | completed => exact ends_handleSourceCompletedPhase
    | failed | other text unnamed => exact ends_pure rfl

end Source

/-! ## Everything else -/

section Rest

variable {node : String} {ship : Ship} {spec : ShipSpec} {shipId : String} {m : ShipMigrationStatus}

/-- A turn, as far as the cutover goes. -/
def handovers (node : String) : Protocol AgentCall.interface Bool where
  allowed _ _ := True
  assumes _ _ _ := True
  observe handedOver c r := handedOver || c.op.handsOver node r

/-- `x` does not make the cutover. -/
abbrev Quiet {α : Type} (node : String) (x : Agent α) : Prop :=
  ∀ handedOver, Stays (handovers node) handedOver x

lemma passes_of_not_patchesShip {op : AgentOp} (h : op.patchesShip = false) (handedOver : Bool) :
    Passes (handovers node) handedOver node op := by
  refine ⟨trivial, fun r => ?_⟩
  have hhandsOver : op.handsOver node r = false := by
    cases op <;> first | rfl | cases h
  exact (congrArg _ hhandsOver).trans (Bool.or_false handedOver)

lemma quiet_recoverTarget : Quiet node (recoverTarget node ship spec m) := by
  intro b
  have hpasses {op : AgentOp} (h : op.patchesShip = false) : Passes (handovers node) b node op :=
    passes_of_not_patchesShip h b
  unfold recoverTarget
  split
  · exact stays_throw _
  refine stays_call (hpasses rfl) fun now => stays_bind ?_ fun _ => ?_
  · exact stays_checked (hpasses rfl) fun _ => stays_call (hpasses rfl) fun _ =>
      stays_call (hpasses rfl) stays_orFail
  · refine stays_call ⟨trivial, fun patched => ?_⟩ stays_orFail
    cases patched with
    | ok _ => simp [handovers, AgentOp.handsOver]
    | error err => exact Bool.or_false b

lemma quiet_tryReconcileTargetSide :
    Quiet node (tryReconcileTargetSide node ship shipId spec) := by
  intro b
  refine stays_call (passes_of_not_patchesShip rfl b) fun present => ?_
  split
  · exact stays_pure _
  rename_i m hm
  cases m.phase with
  | failed =>
    dsimp only
    split
    · exact stays_call (passes_of_not_patchesShip rfl b) fun _ => stays_pure true
    · exact stays_pure true
  | ready | migrating | completed =>
    dsimp only
    split
    · refine stays_checkedRuntime (passes_of_not_patchesShip rfl b) fun status => ?_
      split
      · exact stays_bind (quiet_recoverTarget b) fun _ => stays_pure _
      · exact stays_pure _
    · exact stays_pure _
  | pending | other text unnamed => exact stays_pure _

lemma passes_adding (handedOver : Bool) (op : AgentOp) (h : op.Adds node ship) :
    Passes (handovers node) handedOver node op :=
  passes_of_not_patchesShip (by cases op <;> first | rfl | cases h) handedOver

end Rest

/-! ## A turn -/

section Turn

variable {node : String} {t : Surroundings}

/-- The Ship runs on this node and is to move to another one. -/
def MovesAway (node : String) (ship : Ship) : Prop :=
  ship.nodeName = some node ∧ ∃ target, ship.targetNodeName = some target ∧ target ≠ node

variable {ship : Ship}

lemma ends_tryReconcile (h : MovesAway node ship) (shipId : String) :
    Ends node t (· = true) (tryReconcile node ship shipId) := by
  obtain ⟨hnode, target, htarget, hne⟩ := h
  unfold tryReconcile
  split
  · exact ends_throw _
  rename_i shipSpec hspec
  replace htarget : shipSpec.targetNodeName = some target := by
    rw [← htarget, Ship.targetNodeName, hspec]
    rfl
  replace hnode : shipSpec.nodeName = some node := by
    rw [← hnode, Ship.nodeName, hspec]
    rfl
  rw [htarget]
  dsimp only
  rw [if_neg hne, if_neg (not_not.2 hnode)]
  exact ends_tryReconcileSourceSide

lemma quiet_tryReconcile (h : ¬ MovesAway node ship) (shipId : String) :
    Quiet node (tryReconcile node ship shipId) := by
  intro b
  unfold tryReconcile
  split
  · exact stays_throw _
  rename_i shipSpec hspec
  split
  · exact stays_pure false
  rename_i target htarget
  split
  · exact quiet_tryReconcileTargetSide b
  next hne =>
    split
    · exact stays_pure false
    next hnode =>
      refine absurd ⟨?_, target, ?_, hne⟩ h
      · rw [Ship.nodeName, hspec]
        exact not_not.1 hnode
      · rw [Ship.targetNodeName, hspec]
        exact htarget

/-- A turn makes no cutover, or it changes nothing but the virtual machine. -/
def Settles {α : Type} (node : String) (t : Surroundings) (x : Agent α) : Prop :=
  ∀ s, x.run.wp (protocol node t) s fun s' _ =>
    s'.handedOver = s.handedOver ∨ s'.held = s.held.finished

lemma wp_of_handovers {α : Type} {Q : Bool → α → Prop} : ∀ (p : Program AgentCall.interface α)
    (s : SourceNode), p.wp (handovers node) s.handedOver Q →
      p.wp (protocol node t) s fun s' a => Q s'.handedOver a
  | .done _, _, h => h
  | .call _ next, _, h => ⟨trivial, fun r _ => wp_of_handovers (next r) _ (h.2 r trivial)⟩

lemma settles_of_quiet {α : Type} {x : Agent α} (h : Quiet node x) : Settles node t x :=
  fun s => wp_mono (fun _ _ hs => .inl hs) s x.run (wp_of_handovers x.run s (h s.handedOver))

lemma Ends.settles {α : Type} {Q : α → Prop} {x : Agent α} (h : Ends node t Q x) :
    Settles node t x := by
  refine fun s => wp_mono (fun s' _ hs => ?_) s x.run (h s)
  obtain ⟨rfl | hheld, -⟩ := hs
  · exact .inl rfl
  · exact .inr hheld

/-- Nothing is done after a part that leaves nothing to do. -/
lemma ends_unless {x : Agent Bool} (hx : Ends node t (· = true) x) (rest : Agent Unit) :
    Ends node t (fun _ => True) (do if ← x then return () else rest) := by
  intro s
  rw [wp_run_bind]
  refine wp_mono (fun s' r hs => ?_) s x.run (hx s)
  cases r with
  | error e => exact ⟨hs.1, fun _ _ => trivial⟩
  | ok done =>
    obtain rfl : done = true := hs.2 done rfl
    exact ⟨hs.1, fun _ _ => trivial⟩

lemma quiet_unless {x : Agent Bool} (hx : Quiet node x) {rest : Agent Unit}
    (hrest : Quiet node rest) : Quiet node (do if ← x then return () else rest) := by
  refine fun b => stays_bind (hx b) fun done => ?_
  split
  · exact stays_pure ()
  · exact hrest b

lemma settles_executeRuntimeReconfigurePlan (ship : Ship) (shipId : String) (specChanged : Bool) :
    Settles node t (executeRuntimeReconfigurePlan node ship shipId specChanged) := by
  have hreconfigure : Quiet node (reconfigure node ship) := fun b =>
    stays_reconfigure (passes_adding b)
  unfold executeRuntimeReconfigurePlan
  split
  · by_cases haway : MovesAway node ship
    · exact (ends_unless (ends_tryReconcile haway shipId) _).settles
    · exact settles_of_quiet (quiet_unless (quiet_tryReconcile haway shipId) hreconfigure)
  · exact settles_of_quiet hreconfigure

lemma settles_reconcilePresent (ship : Ship) (shipId : String) :
    Settles node t (reconcilePresent node ship shipId) := by
  unfold reconcilePresent
  split
  · exact settles_of_quiet fun _ => stays_throw _
  refine fun s => wp_ask_bind rfl fun same _ => ?_
  cases same with
  | error err => exact .inl rfl
  | ok same =>
    rw [wp_run_bind, wp_orFail]
    dsimp only
    split
    · exact settles_executeRuntimeReconfigurePlan _ _ _ s
    split
    · exact settles_of_quiet (fun b => stays_call (passes_of_not_patchesShip rfl b) stays_orFail) s
    · exact settles_of_quiet (fun b => stays_ask (passes_of_not_patchesShip rfl b)) s

lemma settles_reconcileAbsent (ship : Ship) (shipId : String) :
    Settles node t (reconcileAbsent node ship shipId) := by
  have hadd : Quiet node (addUnlessFailedTarget node ship) := fun b =>
    stays_addUnlessFailedTarget (passes_adding b)
  by_cases haway : MovesAway node ship
  · unfold reconcileAbsent
    split
    · exact (ends_unless (ends_tryReconcile haway shipId) _).settles
    unfold finishCutoverOrAdd
    split
    · exact (ends_unless (ends_tryReconcile haway shipId) _).settles
    · exact settles_of_quiet hadd
  · have hquiet : Quiet node (tryReconcile node ship shipId) := quiet_tryReconcile haway shipId
    have hfinish : Quiet node (finishCutoverOrAdd node ship shipId) := by
      unfold finishCutoverOrAdd
      split
      · exact quiet_unless hquiet hadd
      · exact hadd
    unfold reconcileAbsent
    split
    · exact settles_of_quiet (quiet_unless hquiet hfinish)
    · exact settles_of_quiet hfinish

/-- **A turn makes no cutover, or it gives back the virtual machine at most.** -/
lemma settles_reconcileModified (ship : Ship) : Settles node t (reconcileModified node ship) := by
  unfold reconcileModified
  split
  · exact settles_of_quiet fun _ => stays_throw _
  split
  · exact settles_of_quiet fun _ => stays_throw _
  refine fun s => wp_ask_bind rfl fun present _ => ?_
  split
  · exact settles_reconcilePresent _ _ s
  · exact settles_reconcileAbsent _ _ s

lemma movesAway_of_leaving (h : leaving node ship = true) :
    MovesAway node ship ∧ hasMigrationState ship = true := by
  simp only [leaving, Bool.and_eq_true, decide_eq_true_eq] at h
  obtain ⟨⟨hnode, htarget⟩, hstate⟩ := h
  obtain ⟨target, hsome⟩ := Option.isSome_iff_exists.1 (Bool.and_eq_true_iff.1 hstate).1
  refine ⟨⟨hnode, target, hsome, ?_⟩, hstate⟩
  rintro rfl
  exact htarget hsome

/-- A turn on a Ship that leaves, by an agent that does not know of its virtual machine, changes
nothing. -/
lemma held_turn_of_leaving (h : leaving node ship = true) {s : SourceNode}
    (hvm : s.held.vm ≠ .registered) (reply : ℕ → (op : AgentOp) → op.Reply) :
    (s.turn node t ship reply).held = s.held := by
  obtain ⟨haway, hstate⟩ := movesAway_of_leaving h
  have hfinished : s.held.finished = s.held := if_neg hvm
  refine turn_of_wp (Q := fun s' => s'.held = s.held) ?_ reply
  unfold reconcileModified
  split
  · rfl
  split
  · rfl
  refine wp_ask_bind rfl fun known hknown => ?_
  obtain rfl : known = false := Eq.trans hknown (decide_eq_false hvm)
  rw [if_neg Bool.false_ne_true]
  unfold reconcileAbsent
  rw [if_pos hstate]
  refine wp_mono (fun s' _ hs => ?_) s _ (ends_unless (ends_tryReconcile haway _) _ s)
  obtain ⟨rfl | hheld, -⟩ := hs
  · rfl
  · rw [hheld, hfinished]

end Turn

/-! ## Runs -/

lemma held_step_of_cutover {node : String} {s : SourceNode} {ship : Ship} {t : Surroundings}
    {reply : ℕ → (op : AgentOp) → op.Reply} (hbefore : s.handedOver = false)
    (hafter : (s.step node (.turn ship t reply)).handedOver = true) :
    (s.step node (.turn ship t reply)).held = s.held.finished := by
  by_cases hturn : watched node ship ∧ (s.handedOver → leaving node ship)
  · have hstep : s.step node (.turn ship t reply) = s.turn node t ship reply := if_pos hturn
    rw [hstep] at hafter ⊢
    refine (turn_of_wp (settles_reconcileModified ship s) reply).resolve_left fun hsame => ?_
    simp [hsame, hbefore] at hafter
  · have hstep : s.step node (.turn ship t reply) = s := if_neg hturn
    simp [hstep, hbefore] at hafter

/-- After the cutover nothing is taken or given back. -/
lemma held_step_of_handedOver {node : String} {s : SourceNode} (hover : s.handedOver = true)
    (hreleased : s.held.Released) (e : SourceEvent) : (s.step node e).held = s.held := by
  cases e with
  | turn ship t reply =>
    by_cases hturn : watched node ship ∧ (s.handedOver → leaving node ship)
    · have hstep : s.step node (.turn ship t reply) = s.turn node t ship reply := if_pos hturn
      rw [hstep]
      refine held_turn_of_leaving (hturn.2 hover) ?_ reply
      rw [hreleased.1]
      decide
    · have hstep : s.step node (.turn ship t reply) = s := if_neg hturn
      rw [hstep]
  | restart => exact Holdings.restarted_of_released hreleased
  | handover => rfl

lemma leavesNothing_step_iff (node : String) (s : SourceNode) (e : SourceEvent)
    (h : s.LeavesNothing) : (s.step node e).LeavesNothing ↔ s.CutsOverClean node e := by
  by_cases hover : s.handedOver = true
  · have hreleased : s.held.Released := h hover
    refine iff_of_true (fun _ => ?_) fun hbefore => ?_
    · rw [held_step_of_handedOver hover hreleased]
      exact hreleased
    · cases hover.symm.trans hbefore
  · have hbefore : s.handedOver = false := Bool.eq_false_iff.2 hover
    -- what is left is to be compared only if this event makes the cutover
    refine ⟨fun hs _ hafter => ?_, fun hs hafter => ?_⟩
    · have hreleased : (s.step node e).held.Released := hs hafter
      cases e with
      | turn ship t reply =>
        rw [held_step_of_cutover hbefore hafter] at hreleased
        exact s.held.released_finished.1 hreleased
      | restart => exact absurd hafter hover
      | handover => exact hreleased
    · have hlittle : HoldsLittle s.held e := hs hbefore hafter
      cases e with
      | turn ship t reply =>
        rw [held_step_of_cutover hbefore hafter]
        exact s.held.released_finished.2 hlittle
      | restart => exact absurd hafter hover
      | handover => exact hlittle

/-- **A migration leaves nothing on the source exactly if there was little to leave.**  Whatever
happens to a Ship on a node that holds nothing of it at first: once the Ship is handed over the node
holds nothing, exactly if the event that made the cutover found no published volume, no network, no
directory of the Ship, and no virtual machine it would not stop. -/
theorem leavesNothing_iff (node : String) (events : List SourceEvent) :
    Run.AllStates (step node) LeavesNothing {} events ↔
      Run.AllSteps (step node) (CutsOverClean node) {} events :=
  Run.allStates_iff_allSteps (I := fun _ => True) (fun _ _ _ _ _ => trivial)
    (fun s e _ => leavesNothing_step_iff node s e) {} events trivial nofun

/-! ## A Ship with a volume, a network and a mounted volume -/

namespace Moved

/-- A version of the Ship, as the watch of `node-a` delivers it. -/
def version (target : Option String) (migration : Option ShipMigrationStatus) : Ship where
  objectMeta := some { name := some "web", uid := some "u1" }
  spec := some { nodeName := some "node-a", targetNodeName := target }
  status := migration.map fun m => { migration := some m }

def volume : PublishedVolume where
  claimName := "data"
  volumeId := "vol-1"
  targetPath := "/var/lib/tugboat/u1/data.block"
  controllerPublished := true

/-- The volume, the network and the mounted volume of the Ship. -/
def around : Surroundings where
  volumes := [volume]
  networks := ["net0"]
  materialized := ["config"]

/-- Everything succeeds, and the transfer is as far as `phase`. -/
def replies (ship : Ship) (phase : VmMigrationPhase) : (op : AgentOp) → op.Reply
  | .checkMigrationStatus _ => .ok { phase }
  | op => op.successReply true ship { seconds := 60, nanos := 0 }

/-- The status the target publishes. -/
def ready : ShipMigrationStatus where
  phase := .ready
  targetAddress := some "10.0.0.2"
  targetPort := some 49152

/-- A turn of `node-a` on a version of the Ship. -/
def reconciled (target : Option String) (migration : Option ShipMigrationStatus)
    (phase : VmMigrationPhase) : SourceEvent :=
  .turn (version target migration) around fun _ => replies (version target migration) phase

/-- The Ship is added on `node-a`, a target is set and waited for, the target is ready, the transfer
runs, and it is completed. -/
def events : List SourceEvent :=
  [reconciled none none .none,
    reconciled (some "node-b") none .none,
    reconciled (some "node-b") (some { phase := .pending }) .none,
    reconciled (some "node-b") (some ready) .none,
    reconciled (some "node-b") (some { ready with phase := .migrating }) .active,
    reconciled (some "node-b") (some { ready with phase := .migrating }) .completed,
    reconciled (some "node-b") (some { ready with phase := .completed }) .completed]

end Moved

/-- All calls succeed and the virtual machine is stopped, and the volume, the networks and the
directory of the Ship stay on `node-a`. -/
theorem volume_and_network_stay :
    Run.exec (step "node-a") {} Moved.events =
        { held :=
            { volumes := [Moved.volume]
              networks := ["lo", "net0"]
              materialized := ["config"] }
          handedOver := true } ∧
      ¬ Run.AllStates (step "node-a") LeavesNothing {} Moved.events := by
  decide +kernel

end SourceNode

end Tugboat
