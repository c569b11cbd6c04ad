import Tugboat.Agent.Reconcile

/-!
# What a reconcile may call when

One protocol for everything an agent does in one turn.  `Knowledge` is what the agent has learned in
this turn: the Ship its watch delivered, what its runtime last said about the transfer and whether
its own virtual machine was seen running.  `Knowledge.Permits` lists the calls that matter to a
migration, each with the knowledge it is made on.

`follows_reconcileNext` says that a turn keeps to the protocol.  Everything about runs of agents is
derived from it.
-/

namespace Tugboat

open Program Agent

/-! ## Knowledge -/

/-- What an agent knows in the course of one turn. -/
structure Knowledge where
  /-- The node of the agent. -/
  node : String
  /-- The watch has delivered a Ship. -/
  delivered : Bool := false
  /-- The Ship that is reconciled. -/
  ship : Ship := {}
  /-- What the runtime last said about the transfer. -/
  reported : Option VmMigrationPhase := none
  /-- The virtual machine on this node was seen running. -/
  running : Bool := false
  /-- The runtime was told to give up the transfer. -/
  cancelled : Bool := false

namespace Knowledge

/-- What is known when the watch has delivered `ship`. -/
def of (node : String) (ship : Ship) : Knowledge := { node, delivered := true, ship }

def SourceOf (g : Knowledge) (target : String) : Prop :=
  g.ship.nodeName = some g.node ∧ g.ship.targetNodeName = some target ∧ target ≠ g.node

def IsTarget (g : Knowledge) : Prop := g.ship.targetNodeName = some g.node

/-- The agent takes the transfer for completed: because the status says so, or because the
runtime does while the status says that a transfer is possible. -/
def Transferred (g : Knowledge) : Prop :=
  g.ship.phase = some .completed ∨
    (g.ship.phase = some .ready ∨ g.ship.phase = some .migrating) ∧ g.reported = some .completed

def completedMessage : String :=
  "Live migration completed successfully with preserved guest NIC identity"

/-- What each write of a migration status says, by the phase it writes. -/
def PermitsPatch (g : Knowledge) (patch : MigrationPatch) : Prop :=
  match patch.phase with
  | .pending => g.ship.migration = none ∧ ∃ target, g.SourceOf target
  | .ready => g.IsTarget ∧ patch.targetNodeName = some g.node ∧
      ∃ address, ∃ port : UInt16,
        patch.targetAddress = some address ∧ patch.targetPort = some port.toNat
  | .migrating => ∃ target m, g.SourceOf target ∧ g.ship.migration = some m ∧
      (m.phase = .ready ∨ m.phase = .migrating) ∧ m.targetAddress.isSome ∧ m.targetPort.isSome ∧
      patch.targetAddress = m.targetAddress ∧ patch.targetPort = m.targetPort
  | .completed =>
    (∃ target, g.SourceOf target) ∧ g.Transferred ∧ patch.message = some completedMessage ∨
      g.IsTarget ∧ g.running = true ∧ patch.message ≠ some completedMessage ∧
        patch.message.isSome
  | .failed => g.cancelled = true ∨ g.ship.migration = none ∨ g.IsTarget
  | .other _ _ => False

/-- The calls that may be made. -/
def Permits (g : Knowledge) : AgentOp → Prop
  | .nextShip => g.delivered = false
  | .preflightMigration _ _ => g.ship.migration = none
  | .migrate _ address port _ => ∃ target m p, g.SourceOf target ∧ g.ship.migration = some m ∧
      m.phase = .ready ∧ m.targetAddress = some address ∧ m.targetPort = some p ∧
      port = UInt16.ofNat p
  | .finishSourceMigration _ => (∃ target, g.SourceOf target) ∧ g.Transferred
  | .patchStatus _ _ patch _ => g.PermitsPatch patch
  | .patchShip _ _ _ => (∃ target, g.SourceOf target) ∧ g.Transferred ∨
      g.IsTarget ∧ g.running = true
  | .replaceStatus ship => ship.migration = g.ship.migration
  | .reconcileDeleted ship => ship = g.ship
  | _ => True

def learn (g : Knowledge) : (op : AgentOp) → op.Reply → Knowledge
  | .nextShip, ship => .of g.node ship
  | .checkMigrationStatus _, .ok status => { g with reported := some status.phase }
  | .localRuntimeStatus _, .ok (some .running) => { g with running := true }
  | .cancelMigration _, _ => { g with cancelled := true }
  | _, _ => g

end Knowledge

/-- The protocol of a turn.  Nothing is assumed about replies. -/
def discipline : Protocol AgentCall.interface Knowledge where
  allowed g c := c.node = g.node ∧ g.Permits c.op
  assumes _ _ _ := True
  observe g c r := g.learn c.op r

variable {g : Knowledge} {op : AgentOp}

lemma Knowledge.ship_learn (hdelivered : g.delivered = true) (hop : g.Permits op) (r : op.Reply) :
    (g.learn op r).delivered = true ∧ (g.learn op r).ship = g.ship := by
  unfold learn
  split
  · simp [Permits, hdelivered] at hop
  · exact ⟨hdelivered, rfl⟩
  · exact ⟨hdelivered, rfl⟩
  · exact ⟨hdelivered, rfl⟩
  · exact ⟨hdelivered, rfl⟩

@[simp] lemma Knowledge.node_learn (g : Knowledge) (op : AgentOp) (r : op.Reply) :
    (g.learn op r).node = g.node := by
  unfold learn
  split <;> rfl

/-- A call may be made with what its reply teaches. -/
lemma Knowledge.permits_learn (hdelivered : g.delivered = true) (hop : g.Permits op)
    (r : op.Reply) : (g.learn op r).Permits op := by
  unfold learn
  split
  · cases hdelivered.symm.trans hop
  · trivial
  · trivial
  · trivial
  · exact hop

/-- The calls that may be made on any knowledge and teach nothing. -/
def AgentOp.plain : AgentOp → Bool
  | .nextShip | .preflightMigration .. | .migrate .. | .finishSourceMigration _ | .patchStatus ..
  | .patchShip .. | .replaceStatus _ | .reconcileDeleted _ | .checkMigrationStatus _
  | .localRuntimeStatus _ | .cancelMigration _ => false
  | _ => true

lemma Knowledge.permits_of_plain (h : op.plain = true) : g.Permits op := by
  cases op <;> trivial

lemma Knowledge.learn_of_plain (h : op.plain = true) (r : op.Reply) : g.learn op r = g := by
  cases op <;> first | rfl | cases h

lemma Knowledge.learn_localRuntimeStatus (g : Knowledge) (id : String) :
    ∀ r, ∃ running, g.learn (.localRuntimeStatus id) r = { g with running }
  | .ok (some .running) => ⟨true, rfl⟩
  | .error _ | .ok none | .ok (some .paused) | .ok (some .shutdown) | .ok (some .suspended)
  | .ok (some .panicked) | .ok (some .error) | .ok (some .prelaunch) => ⟨g.running, rfl⟩

/-! ## Rules -/

namespace Agent

section Stays

variable {γ α β : Type} {P : Protocol AgentCall.interface γ} {g : γ} {node : String} {op : AgentOp}
  {x : Agent α} {f : α → Agent β}

/-- The call may be made, and teaches nothing. -/
def Passes (P : Protocol AgentCall.interface γ) (g : γ) (node : String) (op : AgentOp) : Prop :=
  P.allowed g ⟨node, op⟩ ∧ ∀ r, P.observe g ⟨node, op⟩ r = g

/-- `x` keeps to the protocol, and learns nothing. -/
def Stays (P : Protocol AgentCall.interface γ) (g : γ) (x : Agent α) : Prop :=
  x.run.wp P g fun g' _ => g' = g

lemma stays_pure (a : α) : Stays P g (pure a : Agent α) := rfl

lemma stays_throw (e : ReconcileError) : Stays P g (throw e : Agent α) := rfl

lemma stays_orFail (r : Except ReconcileError α) : Stays P g (orFail r) := rfl

lemma stays_orFailRuntime (r : Except RuntimeError α) : Stays P g (orFailRuntime r) := rfl

lemma stays_attempt (h : Stays P g x) : Stays P g (attempt x) := (wp_bind _ _ _ _).2 h

lemma stays_bind (hx : Stays P g x) (hf : ∀ a, Stays P g (f a)) : Stays P g (x >>= f) := by
  rw [Stays, wp_run_bind]
  refine wp_mono (fun g' r hg => ?_) g x.run hx
  subst hg
  cases r with
  | ok a => exact hf a
  | error e => rfl

lemma stays_ask (h : Passes P g node op) : Stays P g (ask node op) := ⟨h.1, fun r _ => h.2 r⟩

lemma stays_call {f : op.Reply → Agent β} (h : Passes P g node op) (hf : ∀ r, Stays P g (f r)) :
    Stays P g (ask node op >>= f) :=
  stays_bind (stays_ask h) hf

lemma stays_checked {r : op.Reply → Except ReconcileError α} (h : Passes P g node op)
    (hf : ∀ a, Stays P g (f a)) : Stays P g (ask node op >>= fun reply => orFail (r reply) >>= f) :=
  stays_call h fun _ => stays_bind (stays_orFail _) hf

lemma stays_checkedRuntime {r : op.Reply → Except RuntimeError α} (h : Passes P g node op)
    (hf : ∀ a, Stays P g (f a)) :
    Stays P g (ask node op >>= fun reply => orFailRuntime (r reply) >>= f) :=
  stays_call h fun _ => stays_bind (stays_orFailRuntime _) hf

end Stays

variable {α β : Type} {g : Knowledge} {x : Agent α} {f : α → Agent β} {op : AgentOp}

/-- The two know the same about the Ship. -/
def SameShip (g g' : Knowledge) : Prop := g'.node = g.node ∧ g'.ship = g.ship

/-- `x` keeps to the protocol, and learns nothing. -/
abbrev Steady (g : Knowledge) (x : Agent α) : Prop := Stays discipline g x

/-- `x` keeps to the protocol, and stays with its Ship. -/
def Follows (g : Knowledge) (x : Agent α) : Prop := x.run.wp discipline g fun g' _ => SameShip g g'

lemma Stays.follows (h : Steady g x) : Follows g x :=
  wp_mono (fun _ _ hg => by subst hg; exact ⟨rfl, rfl⟩) g x.run h

lemma passes (hop : g.Permits op) (hlearn : ∀ r, g.learn op r = g) :
    Passes discipline g g.node op :=
  ⟨⟨rfl, hop⟩, hlearn⟩

lemma steady_plain (h : op.plain = true) : Steady g (ask g.node op) :=
  stays_ask (passes (Knowledge.permits_of_plain h) (Knowledge.learn_of_plain h))

/-- The rule for a call that may be made on any knowledge and teaches nothing. -/
lemma steady_call {f : op.Reply → Agent β} (h : op.plain = true) (hf : ∀ r, Steady g (f r)) :
    Steady g (ask g.node op >>= f) :=
  stays_bind (steady_plain h) hf

lemma follows_bind (hx : Follows g x) (hf : ∀ g' a, SameShip g g' → Follows g' (f a)) :
    Follows g (x >>= f) := by
  rw [Follows, wp_run_bind]
  refine wp_mono (fun g' r hg => ?_) g x.run hx
  cases r with
  | ok a =>
    refine wp_mono (fun g'' _ hg' => ?_) g' (f a).run (hf g' a hg)
    exact ⟨hg'.1.trans hg.1, hg'.2.trans hg.2⟩
  | error e => exact hg

/-- The rule for a first part that learns nothing. -/
lemma follows_of_steady (hx : Steady g x) (hf : ∀ a, Follows g (f a)) : Follows g (x >>= f) := by
  rw [Follows, wp_run_bind]
  refine wp_mono (fun g' r hg => ?_) g x.run hx
  subst hg
  cases r with
  | ok a => exact hf a
  | error e => exact ⟨rfl, rfl⟩

/-- The rest is done only if the first part leaves something to do. -/
lemma follows_unless {x : Agent Bool} (rest : String → Ship → Agent Unit) (hx : Follows g x)
    (hrest : ∀ g' : Knowledge, Follows g' (rest g'.node g'.ship)) :
    Follows g (do if ← x then return () else rest g.node g.ship) := by
  refine follows_bind hx fun g' done hg => ?_
  split
  · exact (stays_pure ()).follows
  · rw [← hg.1, ← hg.2]
    exact hrest g'

end Agent

/-! ## The parts of the state machine -/

section

variable {g : Knowledge} {shipId ns name targetNodeName targetAddress message status : String}
  {shipSpec : ShipSpec} {m : ShipMigrationStatus} {address : Option String} {port : Option ℕ}
  {targetPort : ℕ}

lemma steady_updateMigrationStatus (h : g.PermitsPatch (.ofStatus m)) :
    Steady g (updateMigrationStatus g.node ns name m status message) :=
  steady_call rfl fun _ => stays_bind (stays_orFail _) fun _ => steady_call rfl fun _ =>
    stays_call (passes h fun _ => rfl) stays_orFail

lemma follows_cancelAndFail :
    Follows g (cancelAndFail g.node shipId ns name targetNodeName address port message) := by
  simp only [Follows, cancelAndFail, bestEffortCancel, wp_run_bind, wp_pure]
  refine ⟨⟨rfl, trivial⟩, fun _ _ => ?_⟩
  refine (steady_call (g := { g with cancelled := true }) rfl fun now =>
    steady_updateMigrationStatus ?_).follows
  exact .inl rfl

lemma follows_cancelAndFail_bind {β : Type} {f : Unit → Agent β} (hf : ∀ g', Steady g' (f ())) :
    Follows g (do
      f (← cancelAndFail g.node shipId ns name targetNodeName address port message)) :=
  follows_bind follows_cancelAndFail fun g' _ _ => (hf g').follows

lemma steady_finalizeCompletedSourceMigration (hsource : ∃ target, g.SourceOf target)
    (htransferred : g.Transferred) :
    Steady g (finalizeCompletedSourceMigration g.node shipId ns name targetNodeName targetAddress
      targetPort) := by
  refine steady_call rfl fun now => stays_bind ?_ fun _ => stays_bind ?_ fun _ => ?_
  · refine steady_updateMigrationStatus ?_
    exact .inl ⟨hsource, htransferred, rfl⟩
  · refine steady_call rfl fun present => ?_
    split
    · exact stays_call (passes ⟨hsource, htransferred⟩ fun _ => rfl) stays_orFailRuntime
    · exact stays_pure ()
  · exact stays_call (passes (.inl ⟨hsource, htransferred⟩) fun _ => rfl) stays_orFail

lemma steady_isMigrationTimedOut {timestamp : Option Time} {timeoutSecs : Int} :
    Steady g (isMigrationTimedOut g.node timestamp timeoutSecs) := by
  unfold isMigrationTimedOut
  split
  · exact stays_pure false
  · exact steady_call rfl fun now => stays_pure _

lemma steady_handleSourceInitialPhase {target : String} (hsource : g.SourceOf target)
    (hnone : g.ship.migration = none) :
    Steady g (handleSourceInitialPhase g.node g.ship shipSpec ns name targetNodeName) := by
  refine stays_call (passes hnone fun _ => rfl) fun r =>
    stays_bind (stays_orFail r) fun preflight => ?_
  split
  · refine steady_call rfl fun now => stays_bind (steady_updateMigrationStatus ?_) fun _ =>
      stays_pure true
    exact .inr (.inl hnone)
  · refine steady_call rfl fun now => stays_bind (steady_updateMigrationStatus ?_) fun _ =>
      stays_pure true
    exact ⟨hnone, target, hsource⟩

section Phases

variable {target : String} {ship : Ship}

lemma follows_check {α : Type}
    {f : Except RuntimeError VmMigrationStatusResponse → Agent α}
    (herror : ∀ err, Follows g (f (.error err)))
    (hok : ∀ status, Follows { g with reported := some status.phase } (f (.ok status))) :
    Follows g (ask g.node (.checkMigrationStatus shipId) >>= f) := by
  rw [Follows, wp_run_bind]
  refine ⟨⟨rfl, trivial⟩, fun reply _ => ?_⟩
  cases reply with
  | error err => exact herror err
  | ok status => exact hok status

section

variable (hsource : g.SourceOf target) (hm : g.ship.migration = some m)

include hsource hm

/-- The status `Migrating` names the receiver of the status it follows. -/
lemma permitsPatch_migrating (hphase : m.phase = .ready ∨ m.phase = .migrating)
    (haddress : m.targetAddress = some targetAddress) (hport : m.targetPort = some targetPort)
    {patch : MigrationPatch} (hpatch : patch.phase = .migrating)
    (hpatchAddress : patch.targetAddress = some targetAddress)
    (hpatchPort : patch.targetPort = some targetPort) : g.PermitsPatch patch := by
  simp only [Knowledge.PermitsPatch, hpatch]
  refine ⟨target, m, hsource, hm, hphase, ?_, ?_, ?_, ?_⟩
  · rw [haddress]
    rfl
  · rw [hport]
    rfl
  · rw [hpatchAddress, haddress]
  · rw [hpatchPort, hport]

lemma follows_startTransfer
    (hphase : m.phase = .ready) (haddress : m.targetAddress = some targetAddress)
    (hport : m.targetPort = some targetPort) :
    Follows g (startTransfer g.node ship shipId ns name targetNodeName targetAddress
      targetPort) := by
  refine follows_of_steady (steady_plain rfl) fun params => ?_
  refine follows_of_steady (stays_ask (passes ?_ fun _ => rfl)) fun started => ?_
  · exact ⟨target, m, targetPort, hsource, hm, hphase, haddress, hport, rfl⟩
  split
  · exact follows_cancelAndFail_bind (fun _ => stays_throw _)
  refine (steady_call rfl fun now => stays_bind (steady_updateMigrationStatus ?_) fun _ =>
    stays_pure true).follows
  exact permitsPatch_migrating hsource hm (.inl hphase) haddress hport rfl rfl rfl

lemma follows_handleSourceReadyPhase (hphase : m.phase = .ready) :
    Follows g (handleSourceReadyPhase g.node ship shipId ns name targetNodeName m) := by
  unfold handleSourceReadyPhase
  split
  next targetAddress targetPort haddress hport =>
    have hlearned (reported) : Knowledge.SourceOf { g with reported } target := hsource
    refine follows_check (fun err => (stays_pure true).follows) fun status => ?_
    dsimp only
    cases hstatus : status.phase with
    | none =>
      refine follows_of_steady steady_isMigrationTimedOut fun timedOut => ?_
      split
      · exact follows_cancelAndFail_bind (fun _ => stays_pure true)
      · exact follows_startTransfer (hlearned _) (by exact hm) hphase haddress hport
    | setup | active =>
      refine (steady_call rfl fun now => stays_bind (steady_updateMigrationStatus ?_) fun _ =>
        stays_pure true).follows
      exact permitsPatch_migrating (hlearned _) (by exact hm) (.inl hphase) haddress hport rfl rfl
        rfl
    | completed =>
      refine (stays_bind (steady_finalizeCompletedSourceMigration ⟨target, hlearned _⟩ ?_)
        fun _ => stays_pure true).follows
      refine .inr ⟨.inl ?_, rfl⟩
      simp [Ship.phase, hm, hphase]
    | failed | cancelled => exact follows_cancelAndFail_bind (fun _ => stays_pure true)
  · exact (stays_pure true).follows

lemma follows_handleSourceMigratingPhase (hphase : m.phase = .migrating) :
    Follows g (handleSourceMigratingPhase g.node shipId ns name targetNodeName m) := by
  unfold handleSourceMigratingPhase
  split
  next targetAddress targetPort haddress hport =>
    have hlearned (reported) : Knowledge.SourceOf { g with reported } target := hsource
    refine follows_check (fun err => (stays_pure true).follows) fun status => ?_
    dsimp only
    cases hstatus : status.phase with
    | completed =>
      refine (stays_bind (steady_finalizeCompletedSourceMigration ⟨target, hlearned _⟩ ?_)
        fun _ => stays_pure true).follows
      refine .inr ⟨.inr ?_, rfl⟩
      simp [Ship.phase, hm, hphase]
    | failed | cancelled => exact follows_cancelAndFail_bind (fun _ => stays_throw _)
    | none | setup | active =>
      refine follows_of_steady (steady_updateMigrationStatus ?_) fun _ => ?_
      · exact permitsPatch_migrating (hlearned _) (by exact hm) (.inr hphase) haddress hport rfl rfl
          rfl
      refine follows_of_steady steady_isMigrationTimedOut fun timedOut => ?_
      split
      · exact follows_cancelAndFail_bind (fun _ => stays_throw _)
      · exact (stays_pure true).follows
  · exact (stays_pure true).follows

lemma steady_handleSourceCompletedPhase (hphase : m.phase = .completed) :
    Steady g (handleSourceCompletedPhase g.node shipId shipSpec ns name targetNodeName m) := by
  unfold handleSourceCompletedPhase
  split
  · split
    · refine stays_bind (steady_finalizeCompletedSourceMigration ⟨target, hsource⟩ ?_)
        fun _ => stays_pure true
      refine .inl ?_
      simp [Ship.phase, hm, hphase]
    · exact stays_pure true
  · exact stays_pure true

end

lemma follows_tryReconcileSourceSide (hsource : g.SourceOf target) :
    Follows g (tryReconcileSourceSide g.node g.ship shipId shipSpec targetNodeName) := by
  unfold tryReconcileSourceSide
  split
  · exact (stays_throw _).follows
  cases hm : g.ship.migration with
  | none => exact (steady_handleSourceInitialPhase hsource hm).follows
  | some m =>
    dsimp only
    cases hphase : m.phase with
    | pending =>
      refine follows_of_steady steady_isMigrationTimedOut fun timedOut => ?_
      split
      · exact follows_cancelAndFail_bind (fun _ => stays_pure true)
      · exact (stays_pure true).follows
    | ready => exact follows_handleSourceReadyPhase hsource hm hphase
    | migrating => exact follows_handleSourceMigratingPhase hsource hm hphase
    | completed => exact (steady_handleSourceCompletedPhase hsource hm hphase).follows
    | failed | other text unnamed => exact (stays_pure true).follows

end Phases

lemma steady_recoverTarget (htarget : g.IsTarget) (hrunning : g.running = true) :
    Steady g (recoverTarget g.node g.ship shipSpec m) := by
  unfold recoverTarget
  split
  · exact stays_throw _
  refine steady_call rfl fun now => stays_bind (steady_updateMigrationStatus ?_) fun _ => ?_
  · refine .inr ⟨htarget, hrunning, ?_, ?_⟩
    · simp [MigrationPatch.ofStatus, Knowledge.completedMessage]
    · simp [MigrationPatch.ofStatus]
  · exact stays_call (passes (.inr ⟨htarget, hrunning⟩) fun _ => rfl) stays_orFail

/-- The rule for asking the runtime about the virtual machine. -/
lemma follows_localRuntimeStatus {α : Type} {f : Option VmStatus → Agent α}
    (hf : ∀ status running, (status = some .running → running = true) →
      Follows { g with running } (f status)) :
    Follows g (do f (← orFailRuntime (← ask g.node (.localRuntimeStatus shipId)))) := by
  simp only [Follows, wp_run_bind, wp_orFailRuntime]
  refine ⟨⟨rfl, trivial⟩, fun reply _ => ?_⟩
  rcases reply with err | _ | status
  · exact ⟨rfl, rfl⟩
  · exact hf none g.running (by simp)
  cases status with
  | running => exact hf (some .running) true fun _ => rfl
  | paused | shutdown | suspended | panicked | error | prelaunch =>
    exact hf _ g.running (by simp)

lemma follows_tryReconcileTargetSide (htarget : g.IsTarget) :
    Follows g (tryReconcileTargetSide g.node g.ship shipId shipSpec) := by
  refine follows_of_steady (steady_plain rfl) fun present => ?_
  split
  · exact (stays_pure present).follows
  rename_i migration hmigration
  cases hphase : migration.phase with
  | failed =>
    dsimp only
    split
    · refine (stays_call (passes ?_ fun _ => rfl) fun _ => stays_pure true).follows
      exact rfl
    · exact (stays_pure true).follows
  | ready | migrating | completed =>
    dsimp only
    split
    · refine follows_localRuntimeStatus fun status running hrunning => ?_
      split
      · exact (stays_bind (steady_recoverTarget (g := { g with running }) htarget
          (hrunning rfl)) fun _ => stays_pure present).follows
      · exact (stays_pure present).follows
    · exact (stays_pure present).follows
  | pending | other text unnamed => exact (stays_pure present).follows

lemma follows_tryReconcile (shipId : String) : Follows g (tryReconcile g.node g.ship shipId) := by
  unfold tryReconcile
  split
  · exact (stays_throw _).follows
  rename_i shipSpec hspec
  split
  · exact (stays_pure false).follows
  rename_i target htarget
  have htargetName : g.ship.targetNodeName = some target := by
    rw [Ship.targetNodeName, hspec]
    exact htarget
  split
  next heq =>
    refine follows_tryReconcileTargetSide ?_
    rw [Knowledge.IsTarget, htargetName, heq]
  next hne =>
    split
    · exact (stays_pure false).follows
    next hsource =>
      have hsourceOf : g.SourceOf target := by
        refine ⟨?_, htargetName, hne⟩
        rw [Ship.nodeName, hspec]
        exact not_not.1 hsource
      exact follows_tryReconcileSourceSide hsourceOf

/-! ## Adding a Ship -/

def AgentOp.Adds (node : String) (ship : Ship) : AgentOp → Prop
  | .patchStatus _ _ patch _ => ship.targetNodeName = some node ∧
      (patch.phase = .failed ∨ patch.phase = .ready ∧ patch.targetNodeName = some node ∧
        ∃ address, ∃ port : UInt16,
          patch.targetAddress = some address ∧ patch.targetPort = some port.toNat)
  | .replaceStatus updated => updated.migration = ship.migration
  | .reconcileDeleted deleted => deleted = ship
  | op => op.plain = true

lemma passes_of_adds {op : AgentOp} (h : op.Adds g.node g.ship) :
    Passes discipline g g.node op := by
  cases op with
  | patchStatus ns name patch conditions =>
    refine passes ?_ fun _ => rfl
    obtain ⟨htarget, hfailed | ⟨hready, hpatch⟩⟩ := h
    · simp only [Knowledge.Permits, Knowledge.PermitsPatch, hfailed]
      exact .inr (.inr htarget)
    · simp only [Knowledge.Permits, Knowledge.PermitsPatch, hready]
      exact ⟨htarget, hpatch⟩
  | replaceStatus updated | reconcileDeleted deleted => exact passes h fun _ => rfl
  | _ => exact passes (Knowledge.permits_of_plain h) (Knowledge.learn_of_plain h)

lemma migration_appendStatus (ship : Ship) (condition : ShipCondition) :
    (appendStatus ship condition).migration = ship.migration := by
  unfold appendStatus
  split
  next hnone =>
    simp [Ship.migration, hnone]
  next status hsome =>
    simp [Ship.migration, hsome]

section Adding

-- any protocol that lets these calls pass
variable {γ : Type} {P : Protocol AgentCall.interface γ} {g : γ} {node : String} {ship : Ship}
  {spec : ShipSpec} (hP : ∀ op : AgentOp, op.Adds node ship → Passes P g node op)

include hP

lemma stays_markMigrationTargetReady (htarget : ship.targetNodeName = some node) (port : UInt16) :
    Stays P g (markMigrationTargetReady node ship port) := by
  refine stays_bind (stays_orFail _) fun key => ?_
  refine stays_checked (hP _ rfl) fun address => stays_checked (hP _ rfl) fun found => ?_
  refine stays_call (hP _ rfl) fun now => stays_call (hP _ rfl) fun timestamp =>
    stays_call (hP _ ?_) stays_orFail
  exact ⟨htarget, .inr ⟨rfl, rfl, address, port, rfl, rfl⟩⟩

lemma stays_markMigrationTargetFailed (htarget : ship.targetNodeName = some node)
    (message : String) :
    Stays P g (markMigrationTargetFailed node ship message) := by
  refine stays_bind (stays_orFail _) fun key => stays_checked (hP _ rfl) fun found => ?_
  refine stays_call (hP _ rfl) fun now => stays_call (hP _ rfl) fun timestamp =>
    stays_call (hP _ ?_) stays_orFail
  exact ⟨htarget, .inl rfl⟩

lemma stays_replaceStatusWith (status message : String) :
    Stays P g (replaceStatusWith node ship status message) :=
  stays_call (hP _ rfl) fun _ => stays_call (hP _ (migration_appendStatus _ _)) stays_orFail

lemma stays_resolveRestore (ns : String) : Stays P g (resolveRestore node ship ns) := by
  unfold resolveRestore
  split
  · exact stays_pure ()
  · exact stays_checked (hP _ rfl) fun _ => stays_replaceStatusWith hP ..

lemma stays_incomingPort_bind {β : Type} {f : Option UInt16 → Agent β}
    (hspec : ship.spec = some spec) (hf : ∀ port : Option UInt16,
      (port.isSome → ship.targetNodeName = some node) → Stays P g (f port)) :
    Stays P g (incomingPort node spec >>= f) := by
  by_cases htarget : spec.targetNodeName = some node
  · refine stays_bind ?_ fun port => hf port fun _ => by
      rw [Ship.targetNodeName, hspec]
      exact htarget
    rw [incomingPort, if_pos htarget]
    exact stays_checked (hP _ rfl) fun port => stays_pure _
  · rw [incomingPort, if_neg htarget]
    exact hf none nofun

variable {port : Option UInt16} (hport : port.isSome → ship.targetNodeName = some node)

include hport

lemma stays_bringUp (shipId : String) : Stays P g (bringUp node ship shipId port) := by
  refine stays_checkedRuntime (hP _ rfl) fun _ => stays_checked (hP _ rfl) fun _ =>
    stays_checkedRuntime (hP _ rfl) fun _ => ?_
  split
  · exact stays_pure ()
  · exact stays_markMigrationTargetReady hP (hport rfl) _

omit hport

variable (hspec : ship.spec = some spec)

include hspec

lemma stays_registerOrCreate (shipId : String) :
    Stays P g (registerOrCreate node ship shipId spec) := by
  refine stays_checkedRuntime (hP _ rfl) fun present => ?_
  split
  · exact stays_checked (hP _ rfl) fun _ => stays_ask (hP _ rfl)
  · refine stays_checked (hP _ rfl) fun _ => stays_bind (stays_replaceStatusWith hP ..) fun _ => ?_
    refine stays_checked (hP _ rfl) fun _ => stays_incomingPort_bind hP hspec fun port hport => ?_
    refine stays_bind (stays_attempt (stays_bringUp hP hport shipId)) fun result => ?_
    split
    · exact stays_pure ()
    · refine stays_call (hP _ rfl) fun _ => ?_
      split
      · exact stays_throw _
      · exact stays_bind (stays_attempt (stays_markMigrationTargetFailed hP (hport rfl) _))
          fun _ => stays_throw _

lemma stays_addShip (shipId : String) : Stays P g (addShip node ship shipId spec) := by
  refine stays_checked (hP _ rfl) fun _ => stays_bind (stays_resolveRestore hP _) fun _ => ?_
  refine stays_checked (hP _ rfl) fun _ => stays_checkedRuntime (hP _ rfl) fun present => ?_
  split
  · split
    · exact stays_call (hP _ rfl) stays_orFail
    · exact stays_call (hP _ rfl) fun r => stays_bind (stays_orFail r) fun _ =>
        stays_registerOrCreate hP hspec shipId
    · exact stays_registerOrCreate hP hspec shipId
  · exact stays_registerOrCreate hP hspec shipId

omit hspec

lemma stays_reconcileAdded : Stays P g (reconcileAdded node ship) := by
  unfold reconcileAdded
  split
  · exact stays_throw _
  split
  · exact stays_throw _
  · exact stays_throw _
  · exact stays_throw _
  next hspec =>
    exact stays_addShip hP hspec _

lemma stays_addUnlessFailedTarget : Stays P g (addUnlessFailedTarget node ship) := by
  unfold addUnlessFailedTarget
  split
  · exact stays_pure ()
  · exact stays_reconcileAdded hP

lemma stays_reconfigure : Stays P g (reconfigure node ship) := by
  unfold reconfigure
  split
  · exact stays_pure ()
  refine stays_checked (hP _ rfl) fun plugged => ?_
  split
  · exact stays_pure ()
  · exact stays_call (hP _ rfl) fun r => stays_bind (stays_orFail r) fun _ =>
      stays_reconcileAdded hP

end Adding

/-! ## A turn -/

lemma follows_addUnlessFailedTarget (g : Knowledge) :
    Follows g (addUnlessFailedTarget g.node g.ship) :=
  (stays_addUnlessFailedTarget fun _ => passes_of_adds).follows

lemma follows_finishCutoverOrAdd (shipId : String) (g : Knowledge) :
    Follows g (finishCutoverOrAdd g.node g.ship shipId) := by
  unfold finishCutoverOrAdd
  split
  · exact follows_unless addUnlessFailedTarget (follows_tryReconcile shipId)
      follows_addUnlessFailedTarget
  · exact follows_addUnlessFailedTarget g

lemma follows_reconcileAbsent (shipId : String) :
    Follows g (reconcileAbsent g.node g.ship shipId) := by
  unfold reconcileAbsent
  split
  · exact follows_unless (finishCutoverOrAdd · · shipId) (follows_tryReconcile shipId)
      (follows_finishCutoverOrAdd shipId)
  · exact follows_finishCutoverOrAdd shipId g

lemma follows_reconfigure (g : Knowledge) : Follows g (reconfigure g.node g.ship) :=
  (stays_reconfigure fun _ => passes_of_adds).follows

lemma follows_executeRuntimeReconfigurePlan (shipId : String) (specChanged : Bool) :
    Follows g (executeRuntimeReconfigurePlan g.node g.ship shipId specChanged) := by
  unfold executeRuntimeReconfigurePlan
  split
  · exact follows_unless reconfigure (follows_tryReconcile shipId) follows_reconfigure
  · exact follows_reconfigure g

lemma follows_reconcileModified : Follows g (reconcileModified g.node g.ship) := by
  unfold reconcileModified
  split
  · exact (stays_throw _).follows
  split
  · exact (stays_throw _).follows
  refine follows_of_steady (steady_plain rfl) fun present => ?_
  split
  · unfold reconcilePresent
    split
    · exact (stays_throw _).follows
    refine follows_of_steady (steady_plain rfl) fun r => ?_
    refine follows_of_steady (stays_orFail r) fun same => ?_
    dsimp only
    split
    · exact follows_executeRuntimeReconfigurePlan ..
    split
    · exact (steady_call rfl stays_orFail).follows
    · exact (steady_plain rfl).follows
  · exact follows_reconcileAbsent _

lemma wp_reconcileModified (node : String) (ship : Ship) :
    (reconcileModified node ship).run.wp discipline (.of node ship) fun g' _ =>
      SameShip (.of node ship) g' :=
  follows_reconcileModified (g := .of node ship)

/-- **A turn keeps to the protocol.** -/
theorem follows_reconcileNext (node : String) :
    (reconcileNext node).run.wp discipline { node } fun _ _ => True := by
  rw [reconcileNext, wp_run_bind]
  refine ⟨⟨rfl, rfl⟩, fun ship _ => ?_⟩
  exact wp_mono (fun _ _ _ => trivial) _ _ (wp_reconcileModified node ship)

end

end Tugboat
