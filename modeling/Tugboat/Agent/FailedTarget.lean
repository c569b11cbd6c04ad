import Tugboat.Agent.Cutover
import Tugboat.Lib.Concurrent

/-!
# The target of a failed migration

When a migration has failed, the agent of the target removes the virtual machine it has prepared.
That is right as long as the guest still runs on the source.  This file runs the agents of all nodes
side by side, one call at a time, with transfers, aborts and changes of the target in between, and
asks when every such removal is right.

The source cancels before it declares a migration failed, and does not look whether that had an
effect: a transfer that completes between its last look and the cancel is declared failed all the
same.  So the condition is one on the order of events: a cancel comes before the transfer has
completed, and stops it.  And the source may delete its virtual machine itself, to replace it by one
that fits a changed spec; that must not happen before the guest has arrived elsewhere.
-/

namespace Tugboat

open Program

/-- How far the transfer of the guest is. -/
inductive Transfer
  | idle
  | running
  | completed
  /-- It has failed, or was given up. -/
  | ended
  deriving DecidableEq, Repr

/-- The migration of the Ship has failed, and the Ship still has its target. -/
def Ship.FailedTarget (ship : Ship) : Prop :=
  ship.phase = some .failed ∧ ship.targetNodeName.isSome = true
  deriving Decidable

/-- A Ship that is moved away from one node, with every version of it that was ever stored. -/
structure Moving where
  /-- The node the guest runs on before the migration. -/
  source : String
  /-- The versions of the Ship, the newest first. -/
  versions : List Ship
  /-- How far the runtime of the source is with sending the guest. -/
  transfer : Transfer := .idle
  /-- The virtual machine of the source was stopped at the end of a migration. -/
  stopped : Bool := false
  /-- The virtual machine of the source was deleted otherwise: to be replaced, or after a failure to
  make it. -/
  deleted : Bool := false

namespace Moving

def current (w : Moving) : Ship := w.versions.headD {}

/-- The versions the watches of a node let through: those that run on it or are to move to it. -/
def watched (w : Moving) (node : String) : List Ship :=
  w.versions.filter fun ship => ship.nodeName = some node || ship.targetNodeName = some node

/-- No transfer is on its way or completed. -/
def Resting (w : Moving) : Prop := w.transfer = .idle ∨ w.transfer = .ended
  deriving Decidable

/-- The source still runs the guest. -/
def SourceRuns (w : Moving) : Prop :=
  w.transfer ≠ .completed ∧ w.stopped = false ∧ w.deleted = false
  deriving Decidable

/-! ## The calls -/

/-- What the outside decides about a call: whether it takes effect, which version a watch delivers,
and the reply. -/
structure Outcome where
  takesEffect : Bool := true
  version : ℕ := 0
  reply : (op : AgentOp) → op.Reply

/-- The version a call stores. -/
def stores (w : Moving) : AgentOp → Option Ship
  | .patchStatus _ _ patch conditions =>
    some { w.current with
      status := some { conditions, migration := some (patch.apply w.current.migration) } }
  | .replaceStatus ship => some { w.current with status := ship.status }
  | .patchShip _ _ nodeName =>
    match validateShipTargetNodeNameUpdate w.current (Cutover.handedOver w.current nodeName) with
    | .ok () => some (Cutover.handedOver w.current nodeName)
    | .error _ => none
  | _ => none

/-- What a call of the source does to the transfer.  Nothing undoes a completed one. -/
def transferAfter (w : Moving) (op : AgentOp) : Transfer :=
  match w.transfer, op with
  | .completed, _ => .completed
  | _, .migrate .. => .running
  | _, .cancelMigration _ => .ended
  | transfer, _ => transfer

/-- The call deletes the virtual machine of its node. -/
def removes : AgentOp → Bool
  | .reconcileDeleted _ | .cleanup _ => true
  | _ => false

/-- What a call does when it takes effect. -/
def effect (w : Moving) (node : String) (op : AgentOp) : Moving :=
  { w with
    versions := (w.stores op).toList ++ w.versions
    transfer := if node = w.source then w.transferAfter op else w.transfer
    stopped := w.stopped || (node = w.source && Cutover.stopsSource op)
    deleted := w.deleted || (node = w.source && removes op) }

/-- The reply to a call.  The runtime of the source reports a transfer as completed only if it is,
and on another node the guest runs only after that. -/
def reply (w : Moving) (node : String) (outcome : Outcome) : (op : AgentOp) → op.Reply
  | .nextShip => (w.watched node).getD outcome.version {}
  | .checkMigrationStatus id =>
    (outcome.reply (.checkMigrationStatus id)).map fun status =>
      if node = w.source ∧ w.transfer ≠ .completed ∧ status.phase = .completed then
        { status with phase := .active }
      else status
  | .localRuntimeStatus id =>
    (outcome.reply (.localRuntimeStatus id)).map fun status =>
      if node ≠ w.source ∧ w.transfer ≠ .completed ∧ status = some .running then some .prelaunch
      else status
  | op => outcome.reply op

def exec : Semantics AgentCall.interface Moving Outcome := fun w outcome c =>
  (if outcome.takesEffect then w.effect c.node c.op else w, w.reply c.node outcome c.op)

/-! ## What happens between the calls -/

/-- The transfer goes on by itself, and requests come in: an abort, or a PUT or PATCH of the target.
A request is about the version it has read. -/
inductive Tick
  | complete
  | fail
  | abort (version : ℕ) (now : Time)
  | retarget (version : ℕ) (target : Option String)
  deriving DecidableEq, Repr

def retargeted (ship : Ship) (target : Option String) : Ship :=
  { ship with spec := some { ship.spec.getD {} with targetNodeName := target } }

def tickStores (w : Moving) : Tick → Option Ship
  | .abort version now => w.versions[version]?.bind fun ship =>
    (abortShipMigration now ship).toOption
  | .retarget version target => w.versions[version]?.bind fun ship =>
    match validateShipTargetNodeNameUpdate ship (retargeted ship target) with
    | .ok () => some (retargeted ship target)
    | .error _ => none
  | .complete | .fail => none

def transferTick (w : Moving) : Tick → Transfer
  | .complete => if w.transfer = .running then .completed else w.transfer
  | .fail => if w.transfer = .running then .ended else w.transfer
  | .abort .. | .retarget .. => w.transfer

def tick (w : Moving) (t : Tick) : Moving :=
  { w with versions := (w.tickStores t).toList ++ w.versions, transfer := w.transferTick t }

/-! ## The condition on a call -/

/-- The call cancels a transfer. -/
def cancels : AgentOp → Bool
  | .cancelMigration _ => true
  | _ => false

/-- The call starts a transfer. -/
def starts : AgentOp → Bool
  | .migrate .. => true
  | _ => false

/-- The condition on a call of an agent with the knowledge `g`.  A failure is declared by a source
that has cancelled, or while no transfer is on its way or completed; a cancel of the source stops
the transfer before it has completed; and no transfer is started after a cancel or failure. -/
structure Timely (w : Moving) (g : Knowledge) (outcome : Outcome) (c : AgentCall) : Prop where
  declares : ∀ ship ∈ w.stores c.op, ship.FailedTarget →
    g.cancelled = true ∧ g.node = w.source ∨ w.Resting
  cancels : c.node = w.source → cancels c.op = true →
    w.transfer ≠ .completed ∧ outcome.takesEffect = true
  starts : c.node = w.source → starts c.op = true →
    w.transfer = .idle ∧ ∀ ship ∈ w.versions, ¬ ship.FailedTarget

instance (w : Moving) (g : Knowledge) (outcome : Outcome) (c : AgentCall) :
    Decidable (w.Timely g outcome c) :=
  decidable_of_iff
    ((∀ ship ∈ w.stores c.op, ship.FailedTarget →
        g.cancelled = true ∧ g.node = w.source ∨ w.Resting) ∧
      (c.node = w.source → Moving.cancels c.op = true →
        w.transfer ≠ .completed ∧ outcome.takesEffect = true) ∧
      (c.node = w.source → Moving.starts c.op = true →
        w.transfer = .idle ∧ ∀ ship ∈ w.versions, ¬ ship.FailedTarget))
    ⟨fun h => ⟨h.1, h.2.1, h.2.2⟩, fun h => ⟨h.declares, h.cancels, h.starts⟩⟩

/-- The condition on the source's own virtual machine: it is not deleted before the guest has
arrived elsewhere. -/
def KeepsSource (w : Moving) (c : AgentCall) : Prop :=
  c.node = w.source → removes c.op = true → w.transfer = .completed
  deriving Decidable

/-! ## The invariant -/

/-- Where the Ship is: on the source and not to move there, or the transfer is completed. -/
def Placed (w : Moving) (ship : Ship) : Prop :=
  ship.nodeName = some w.source ∧ ship.targetNodeName ≠ some w.source ∨ w.transfer = .completed

/-- What holds of everything that was stored. -/
structure Inv (w : Moving) : Prop where
  placed : ∀ ship ∈ w.versions, w.Placed ship
  completed : ∀ ship ∈ w.versions, ship.phase = some .completed → w.transfer = .completed
  failed : ∀ ship ∈ w.versions, ship.FailedTarget → w.Resting
  stopped : w.stopped = true → w.transfer = .completed

/-- What an agent knows is true, and stays so. -/
structure Known (w : Moving) (g : Knowledge) : Prop where
  read : g.ship = {} ∨ g.ship ∈ w.versions ∧
    (g.ship.nodeName = some g.node ∨ g.ship.targetNodeName = some g.node)
  reported : g.reported = some .completed → g.node = w.source → w.transfer = .completed
  running : g.running = true → g.node ≠ w.source → w.transfer = .completed
  cancelled : g.cancelled = true → g.node = w.source → w.transfer = .ended

/-- Versions are added, and a transfer that is over stays over. -/
structure Advances (w w' : Moving) : Prop where
  source : w'.source = w.source
  versions : w.versions ⊆ w'.versions
  completed : w.transfer = .completed → w'.transfer = .completed
  ended : w.transfer = .ended → w'.transfer = .ended

section Invariant

variable {w w' : Moving} {g : Knowledge} {ship : Ship}

lemma Advances.refl (w : Moving) : w.Advances w :=
  ⟨rfl, List.Subset.refl _, id, id⟩

lemma Known.mono (h : w.Known g) (hw : w.Advances w') : w'.Known g where
  read := h.read.imp_right fun hread => ⟨hw.versions hread.1, hread.2⟩
  reported hreported hnode := hw.completed (h.reported hreported (hnode.trans hw.source))
  running hrunning hnode :=
    hw.completed (h.running hrunning fun heq => hnode (heq.trans hw.source.symm))
  cancelled hcancelled hnode := hw.ended (h.cancelled hcancelled (hnode.trans hw.source))

lemma Placed.mono (h : w.Placed ship) (hw : w.Advances w') : w'.Placed ship := by
  rw [Placed, hw.source]
  exact h.imp_right hw.completed

lemma Known.mem_versions (h : w.Known g) (hship : g.ship ≠ {}) : g.ship ∈ w.versions :=
  (h.read.resolve_left hship).1

lemma completed_of_transferred (hinv : w.Inv) (h : w.Known g)
    (hsource : ∃ target, g.SourceOf target) (htransferred : g.Transferred) :
    w.transfer = .completed := by
  obtain ⟨target, hnode, htarget, -⟩ := hsource
  have hmem : g.ship ∈ w.versions := by
    refine h.mem_versions fun heq => ?_
    rw [heq] at hnode
    cases hnode
  rcases hinv.placed g.ship hmem with ⟨hplaced, -⟩ | hcompleted
  · have hself : g.node = w.source := Option.some.inj (hnode.symm.trans hplaced)
    rcases htransferred with hphase | ⟨-, hreported⟩
    · exact hinv.completed g.ship hmem hphase
    · exact h.reported hreported hself
  · exact hcompleted

lemma completed_of_running (hinv : w.Inv) (h : w.Known g) (htarget : g.IsTarget)
    (hrunning : g.running = true) : w.transfer = .completed := by
  have hmem : g.ship ∈ w.versions := by
    refine h.mem_versions fun heq => ?_
    rw [Knowledge.IsTarget, heq] at htarget
    cases htarget
  by_cases hself : g.node = w.source
  · rcases hinv.placed g.ship hmem with ⟨-, hne⟩ | hcompleted
    · exact absurd (hself ▸ htarget) hne
    · exact hcompleted
  · exact h.running hrunning hself

/-! ### What is stored -/

lemma Inv.placed_current (hinv : w.Inv) (hversions : w.versions ≠ []) : w.Placed w.current := by
  refine hinv.placed _ ?_
  cases hv : w.versions with
  | nil => exact absurd hv hversions
  | cons ship rest =>
    rw [current, hv]
    exact List.mem_cons_self

variable {op : AgentOp}

lemma placed_stores (hinv : w.Inv) (h : w.Known g) (hversions : w.versions ≠ [])
    (hop : g.Permits op) (hship : ship ∈ w.stores op) : w.Placed ship := by
  cases op with
  | patchStatus ns name patch conditions | replaceStatus replaced =>
    cases hship
    exact hinv.placed_current hversions
  | patchShip ns name nodeName =>
    -- whoever hands the Ship over knows that the transfer is completed
    rcases hop with ⟨hsource, htransferred⟩ | ⟨htarget, hrunning⟩
    · exact .inr (completed_of_transferred hinv h hsource htransferred)
    · exact .inr (completed_of_running hinv h htarget hrunning)
  | _ => cases hship

/-- Who writes `Completed` is right. -/
lemma completed_stores (hinv : w.Inv) (h : w.Known g) (hop : g.Permits op)
    (hship : ship ∈ w.stores op) (hphase : ship.phase = some .completed) :
    w.transfer = .completed := by
  cases op with
  | patchStatus ns name patch conditions =>
    cases hship
    have hpatch : patch.phase = .completed := Option.some.inj hphase
    simp only [Knowledge.Permits, Knowledge.PermitsPatch, hpatch] at hop
    rcases hop with ⟨hsource, htransferred, -⟩ | ⟨htarget, hrunning, -⟩
    · exact completed_of_transferred hinv h hsource htransferred
    · exact completed_of_running hinv h htarget hrunning
  | replaceStatus replaced =>
    cases hship
    have hread : g.ship.phase = some .completed := by
      rw [Ship.phase, ← hop]
      exact hphase
    refine hinv.completed g.ship (h.mem_versions fun heq => ?_) hread
    rw [heq] at hread
    cases hread
  | patchShip ns name nodeName =>
    rcases hop with ⟨hsource, htransferred⟩ | ⟨htarget, hrunning⟩
    · exact completed_of_transferred hinv h hsource htransferred
    · exact completed_of_running hinv h htarget hrunning
  | _ => cases hship

/-! ### One call -/

lemma transferAfter_of_not (hcancels : cancels op = false) (hstarts : starts op = false) :
    w.transferAfter op = w.transfer := by
  unfold transferAfter
  split
  next h =>
    exact h.symm
  · cases hstarts
  · cases hcancels
  · rfl

variable {node : String}

/-- Nothing undoes a completed transfer. -/
lemma completed_effect (h : w.transfer = .completed) (node : String) (op : AgentOp) :
    (w.effect node op).transfer = .completed := by
  simp only [effect, transferAfter, h, ite_self]

lemma advances_effect (hstarts : node = w.source → starts op = true → w.transfer = .idle) :
    w.Advances (w.effect node op) where
  source := rfl
  versions := List.subset_append_right _ _
  completed hcompleted := completed_effect hcompleted node op
  ended hended := by
    simp only [effect]
    split
    next hnode =>
      unfold transferAfter
      split
      next hcompleted =>
        cases hended.symm.trans hcompleted
      · cases hended.symm.trans (hstarts hnode rfl)
      · rfl
      · exact hended
    · exact hended

lemma Resting.effect (h : w.Resting) (hstarts : node = w.source → starts op = false) :
    (w.effect node op).Resting := by
  by_cases hnode : node = w.source
  · cases hcancels : cancels op with
    | false =>
      rw [Resting, Moving.effect, if_pos hnode, transferAfter_of_not hcancels (hstarts hnode)]
      exact h
    | true =>
      right
      rw [Moving.effect, if_pos hnode]
      cases op with
      | cancelMigration id =>
        rcases h with h | h <;> simp only [transferAfter, h]
      | _ => cases hcancels
  · rw [Resting, Moving.effect, if_neg hnode]
    exact h

lemma Inv.effect (hinv : w.Inv) (h : w.Known g) (hversions : w.versions ≠ []) {outcome : Outcome}
    (hop : g.Permits op) (htimely : w.Timely g outcome ⟨g.node, op⟩) :
    (w.effect g.node op).Inv := by
  have hadv : w.Advances (w.effect g.node op) :=
    advances_effect fun hnode hstarts => (htimely.starts hnode hstarts).1
  have hmem : ∀ ship ∈ (w.effect g.node op).versions, ship ∈ w.stores op ∨ ship ∈ w.versions := by
    intro ship hship
    exact (List.mem_append.1 hship).imp_left Option.mem_toList.1
  constructor
  · intro ship hship
    rcases hmem ship hship with hnew | hold
    · exact (placed_stores hinv h hversions hop hnew).mono hadv
    · exact (hinv.placed ship hold).mono hadv
  · intro ship hship hphase
    rcases hmem ship hship with hnew | hold
    · exact hadv.completed (completed_stores hinv h hop hnew hphase)
    · exact hadv.completed (hinv.completed ship hold hphase)
  · intro ship hship hfailed
    rcases hmem ship hship with hnew | hold
    · have hresting : w.Resting := by
        rcases htimely.declares ship hnew hfailed with ⟨hcancelled, hself⟩ | hresting
        · exact .inr (h.cancelled hcancelled hself)
        · exact hresting
      refine hresting.effect fun _ => ?_
      cases op with
      | migrate id address port params => cases hnew
      | _ => rfl
    · refine (hinv.failed ship hold hfailed).effect fun hself => ?_
      cases hstarts : starts op with
      | false => rfl
      | true => exact absurd hfailed ((htimely.starts hself hstarts).2 ship hold)
  · intro hstopped
    rcases Bool.or_eq_true_iff.1 hstopped with hold | hnew
    · exact hadv.completed (hinv.stopped hold)
    have hstops : Cutover.stopsSource op = true := (Bool.and_eq_true_iff.1 hnew).2
    cases op with
    | finishSourceMigration id =>
      exact hadv.completed (completed_of_transferred hinv h hop.1 hop.2)
    | _ => cases hstops

lemma known_of_watched {version : ℕ} (hversion : version < (w.watched node).length) :
    w.Known (.of node ((w.watched node).getD version {})) where
  read := by
    have hmem : (w.watched node).getD version {} ∈ w.watched node := by
      rw [List.getD_eq_getElem?_getD, List.getElem?_eq_getElem hversion]
      exact List.getElem_mem hversion
    obtain ⟨hread, hselected⟩ := List.mem_filter.1 hmem
    refine .inr ⟨hread, ?_⟩
    simpa [Knowledge.of] using hselected
  reported := nofun
  running := nofun
  cancelled := nofun

lemma Known.check (h : w.Known g) (outcome : Outcome) (id : String) :
    w.Known (g.learn (.checkMigrationStatus id)
      (w.reply g.node outcome (.checkMigrationStatus id))) := by
  cases hchosen : outcome.reply (.checkMigrationStatus id) with
  | error e =>
    simp only [reply, hchosen]
    exact h
  | ok status =>
    simp only [reply, hchosen]
    refine { h with reported := fun hreported hself => ?_ }
    by_contra hne
    have hphase : (if g.node = w.source ∧ w.transfer ≠ .completed ∧ status.phase = .completed then
        { status with phase := .active } else status).phase = .completed :=
      Option.some.inj hreported
    split at hphase
    · cases hphase
    next hcond =>
      exact hcond ⟨hself, hne, hphase⟩

/-- A virtual machine that runs on another node has the guest. -/
lemma Known.localRuntimeStatus (h : w.Known g) (outcome : Outcome) (id : String) :
    w.Known (g.learn (.localRuntimeStatus id)
      (w.reply g.node outcome (.localRuntimeStatus id))) := by
  obtain ⟨running, hlearn⟩ := g.learn_localRuntimeStatus id
    (w.reply g.node outcome (.localRuntimeStatus id))
  by_cases hcompleted : w.transfer = .completed
  · rw [hlearn]
    exact { h with running := fun _ _ => hcompleted }
  · cases hchosen : outcome.reply (.localRuntimeStatus id) with
    | error e =>
      simp only [reply, hchosen]
      exact h
    | ok status =>
      by_cases hself : g.node = w.source
      · rw [hlearn]
        exact { h with running := fun _ hne => absurd hself hne }
      · -- the guest has not arrived, so what is seen is not running
        simp only [reply, hchosen]
        by_cases hrunning : status = some .running
        · simp only [Except.map, hself, hcompleted, hrunning, ne_eq, not_false_eq_true, and_self,
            if_true]
          exact h
        · simp only [Except.map, hrunning, and_false, if_false]
          match status, hrunning with
          | some .running, hrunning => exact absurd rfl hrunning
          | none, _ | some .paused, _ | some .shutdown, _ | some .suspended, _
          | some .panicked, _ | some .error, _ | some .prelaunch, _ => exact h

lemma Known.exec (h : w.Known g) (outcome : Outcome) (htimely : w.Timely g outcome ⟨g.node, op⟩)
    (hdelivers : op = .nextShip → outcome.version < (w.watched g.node).length) :
    (exec w outcome ⟨g.node, op⟩).1.Known
      (g.learn op (exec w outcome ⟨g.node, op⟩).2) := by
  have hadv : w.Advances (Moving.exec w outcome ⟨g.node, op⟩).1 := by
    simp only [Moving.exec]
    split
    · exact advances_effect fun hnode hstarts => (htimely.starts hnode hstarts).1
    · exact .refl w
  cases op with
  | nextShip => exact (known_of_watched (hdelivers rfl)).mono hadv
  | checkMigrationStatus id => exact (h.check outcome id).mono hadv
  | localRuntimeStatus id => exact (h.localRuntimeStatus outcome id).mono hadv
  | cancelMigration id =>
    refine { h.mono hadv with cancelled := fun _ hnode => ?_ }
    have hself : g.node = w.source := hnode.trans hadv.source
    obtain ⟨hcompleted, heffect⟩ := htimely.cancels hself rfl
    simp only [exec, heffect, if_true, effect, hself, transferAfter]
  | _ => exact h.mono hadv

lemma Inv.exec (hinv : w.Inv) (h : w.Known g) (hversions : w.versions ≠ []) (outcome : Outcome)
    (hop : g.Permits op) (htimely : w.Timely g outcome ⟨g.node, op⟩) :
    (exec w outcome ⟨g.node, op⟩).1.Inv := by
  simp only [Moving.exec]
  split
  · exact hinv.effect h hversions hop htimely
  · exact hinv

lemma kept_exec (h : w.deleted = true → w.transfer = .completed) (outcome : Outcome)
    {c : AgentCall} (hc : w.KeepsSource c) (hdeleted : (exec w outcome c).1.deleted = true) :
    (exec w outcome c).1.transfer = .completed := by
  unfold Moving.exec at hdeleted ⊢
  by_cases heffect : outcome.takesEffect = true
  · simp only [heffect, if_true] at hdeleted ⊢
    refine completed_effect ?_ c.node c.op
    rcases Bool.or_eq_true_iff.1 hdeleted with hold | hnew
    · exact h hold
    · obtain ⟨hnode, hremoves⟩ := Bool.and_eq_true_iff.1 hnew
      exact hc (of_decide_eq_true hnode) hremoves
  · simp only [heffect] at hdeleted ⊢
    exact h hdeleted

/-! ### Between the calls -/

lemma advances_tick (w : Moving) (t : Tick) : w.Advances (w.tick t) where
  source := rfl
  versions := List.subset_append_right _ _
  completed hcompleted := by
    cases t with
    | complete | fail => simp [tick, transferTick, hcompleted]
    | abort version now | retarget version target => exact hcompleted
  ended hended := by
    cases t with
    | complete | fail => simp [tick, transferTick, hended]
    | abort version now | retarget version target => exact hended

lemma Resting.tick (h : w.Resting) (t : Tick) : (w.tick t).Resting := by
  have hidle : w.transfer ≠ .running := by
    rcases h with h | h <;> rw [h] <;> decide
  cases t with
  | complete | fail => simpa [Resting, Moving.tick, transferTick, hidle] using h
  | abort version now | retarget version target => exact h

lemma of_mem_tickStores {t : Tick} (h : ship ∈ w.tickStores t) :
    ∃ read ∈ w.versions, (∃ now, abortShipMigration now read = .ok ship) ∨
      ∃ target, ship = retargeted read target ∧
        validateShipTargetNodeNameUpdate read ship = .ok () := by
  cases t with
  | complete | fail => cases h
  | abort version now =>
    obtain ⟨read, hread, hstored⟩ := Option.bind_eq_some_iff.1 h
    exact ⟨read, List.mem_of_getElem? hread, .inl ⟨now, toOption_eq_some_iff.1 hstored⟩⟩
  | retarget version target =>
    obtain ⟨read, hread, hstored⟩ := Option.bind_eq_some_iff.1 h
    refine ⟨read, List.mem_of_getElem? hread, .inr ⟨target, ?_⟩⟩
    split at hstored
    next hvalid =>
      cases hstored
      exact ⟨rfl, hvalid⟩
    · cases hstored

lemma Inv.tick (hinv : w.Inv) {t : Tick}
    (htimely : ∀ ship ∈ w.tickStores t, ship.FailedTarget → w.Resting) : (w.tick t).Inv := by
  have hadv := advances_tick w t
  have hmem : ∀ ship ∈ (w.tick t).versions, ship ∈ w.tickStores t ∨ ship ∈ w.versions := by
    intro ship hship
    exact (List.mem_append.1 hship).imp_left Option.mem_toList.1
  constructor
  · intro ship hship
    rcases hmem ship hship with hnew | hold
    · obtain ⟨read, hread, ⟨now, habort⟩ | ⟨target, rfl, hvalid⟩⟩ := of_mem_tickStores hnew
      · refine Placed.mono ?_ hadv
        refine (hinv.placed read hread).imp_left fun hplaced => ?_
        rw [nodeName_of_abortShipMigration habort, targetNodeName_of_abortShipMigration habort]
        exact ⟨hplaced.1, by rintro ⟨⟩⟩
      · refine Placed.mono ?_ hadv
        refine (hinv.placed read hread).imp_left fun hplaced => ?_
        have hnode : (retargeted read target).nodeName = some w.source := by
          rw [← hplaced.1]
          cases hspec : read.spec with
          | none | some spec => simp [retargeted, Ship.nodeName, hspec]
        refine ⟨hnode, fun heq => ?_⟩
        have hdiffer := (of_validateShipTargetNodeNameUpdate hvalid).1 (by rw [heq]; rfl)
        exact hdiffer (heq.trans hnode.symm)
    · exact (hinv.placed ship hold).mono hadv
  · intro ship hship hphase
    rcases hmem ship hship with hnew | hold
    · obtain ⟨read, hread, ⟨now, habort⟩ | ⟨target, rfl, hvalid⟩⟩ := of_mem_tickStores hnew
      · simp [phase_of_abortShipMigration habort] at hphase
      · exact hadv.completed (hinv.completed read hread hphase)
    · exact hadv.completed (hinv.completed ship hold hphase)
  · intro ship hship hfailed
    rcases hmem ship hship with hnew | hold
    · exact (htimely ship hnew hfailed).tick t
    · exact (hinv.failed ship hold hfailed).tick t
  · exact fun hstopped => hadv.completed (hinv.stopped hstopped)

end Invariant

end Moving

/-! ## The system -/

abbrev Migrating (κ : Type) : Type :=
  Config AgentCall.interface κ Moving Knowledge (Except ReconcileError Unit)

namespace Migrating

open Moving

variable {κ : Type} [DecidableEq κ]

/-- No agent has begun its turn; the Ship has never been moved. -/
def start (source : String) (ship : Ship) (nodes : κ → String) : Migrating κ where
  world := { source, versions := [ship] }
  thread k := (reconcileNext (nodes k)).run
  seen k := { node := nodes k }

def next (c : Migrating κ) (k : κ) : Option AgentCall :=
  match c.thread k with
  | .done _ => none
  | .call op _ => some op

/-- An agent begins its turn only when its watch has something to deliver. -/
def Possible (c : Migrating κ) : Event κ Moving.Outcome Tick → Prop
  | .call k outcome => ∀ call ∈ c.next k, call.op = .nextShip →
      outcome.version < (c.world.watched call.node).length
  | .tick _ => True

instance (c : Migrating κ) : DecidablePred c.Possible := by
  intro e
  unfold Possible
  split <;> infer_instance

/-- One call of one agent, or something that happens in between. -/
def step (c : Migrating κ) (e : Event κ Moving.Outcome Tick) : Migrating κ :=
  if c.Possible e then Config.step Moving.exec Moving.tick discipline c e else c

/-- The condition on a step. -/
def InTime (c : Migrating κ) : Event κ Moving.Outcome Tick → Prop
  | .call k outcome => ∀ call ∈ c.next k,
      c.world.Timely (c.seen k) outcome call ∧ c.world.KeepsSource call
  | .tick t => ∀ ship ∈ c.world.tickStores t, ship.FailedTarget → c.world.Resting

instance (c : Migrating κ) : DecidablePred c.InTime := by
  intro e
  unfold InTime
  split <;> infer_instance

/-- The reasons for which an agent gives up the virtual machine it has prepared: its migration has
failed, or the Ship is on another node and not to move any more. -/
def GivesUp (node : String) (ship : Ship) : Prop :=
  ship.targetNodeName = some node ∧ ship.phase = some .failed ∨
    ship.targetNodeName = none ∧ ∃ other ∈ ship.nodeName, other ≠ node
  deriving Decidable

/-- The Ship whose virtual machine a call deletes. -/
def deletes : AgentOp → Option Ship
  | .reconcileDeleted ship => some ship
  | _ => none

/-- The property of a step: a virtual machine that is given up is one the guest does not need. -/
def DeletesUnneeded (c : Migrating κ) : Event κ Moving.Outcome Tick → Prop
  | .call k _ => ∀ call ∈ c.next k, ∀ ship ∈ deletes call.op, GivesUp call.node ship →
      c.world.SourceRuns
  | .tick _ => True

instance (c : Migrating κ) : DecidablePred c.DeletesUnneeded := by
  intro e
  unfold DeletesUnneeded
  split <;> infer_instance

/-- The invariant. -/
structure Sound (c : Migrating κ) : Prop where
  inv : c.world.Inv
  kept : c.world.deleted = true → c.world.transfer = .completed
  versions : c.world.versions ≠ []
  keeps : c.Keeps discipline Known

omit [DecidableEq κ] in
lemma sound_start {source : String} {ship : Ship} (hnode : ship.nodeName = some source)
    (htarget : ship.targetNodeName ≠ some source) (hmigration : ship.migration = none)
    (nodes : κ → String) : (start source ship nodes).Sound where
  inv := by
    have hphase : ship.phase = none := by
      rw [Ship.phase, hmigration]
      rfl
    constructor
    · intro s hs
      rw [List.mem_singleton.1 hs]
      exact .inl ⟨hnode, htarget⟩
    · intro s hs hcompleted
      simp [List.mem_singleton.1 hs, hphase] at hcompleted
    · intro s hs hfailed
      rw [List.mem_singleton.1 hs, Ship.FailedTarget, hphase] at hfailed
      cases hfailed.1
    · rintro ⟨⟩
  kept := by rintro ⟨⟩
  versions := List.cons_ne_nil _ _
  keeps k := by
    refine ⟨⟨.inl rfl, ?_, ?_, ?_⟩, follows_reconcileNext (nodes k)⟩
    · rintro ⟨⟩
    · rintro ⟨⟩
    · rintro ⟨⟩

variable {c : Migrating κ}

omit [DecidableEq κ] in
lemma next_of_call {k : κ} {op : AgentCall}
    {rest : op.op.Reply → Program AgentCall.interface (Except ReconcileError Unit)}
    (h : c.thread k = .call op rest) : c.next k = some op := by
  rw [next, h]

variable {e : Event κ Moving.Outcome Tick}

lemma sound_configStep (h : c.Sound) (hpossible : c.Possible e) (htime : c.InTime e) :
    Sound (Config.step exec tick discipline c e) := by
  have hkeeps : (Config.step exec tick discipline c e).Keeps discipline Known := by
    refine h.keeps.step e (fun k outcome call rest he hk hallowed => ?_) fun t he k => ?_
    · subst he
      have hnext := next_of_call hk
      have htimely := (htime call hnext).1
      obtain ⟨node, op⟩ := call
      obtain ⟨rfl, hop⟩ := hallowed
      refine ⟨trivial, ?_, fun j _ => ?_⟩
      · exact (h.keeps k).1.exec outcome htimely (hpossible _ hnext)
      refine (h.keeps j).1.mono ?_
      simp only [exec]
      split
      · exact advances_effect fun hnode hstarts => (htimely.starts hnode hstarts).1
      · exact .refl _
    · exact (h.keeps k).1.mono (advances_tick c.world t)
  cases e with
  | tick t =>
    refine ⟨h.inv.tick htime, fun hdeleted => ?_, ?_, hkeeps⟩
    · exact (advances_tick c.world t).completed (h.kept hdeleted)
    exact List.append_ne_nil_of_right_ne_nil _ h.versions
  | call k outcome =>
    cases hk : c.thread k with
    | done a =>
      rw [Config.step_call_of_done outcome hk] at hkeeps ⊢
      exact h
    | call call rest =>
      have hallowed := h.keeps.allowed hk
      obtain ⟨htimely, hsource⟩ := htime call (next_of_call hk)
      rw [Config.step_call_of_call outcome hk] at hkeeps ⊢
      obtain ⟨node, op⟩ := call
      obtain ⟨hnode, hop⟩ := hallowed
      have hnode : node = (c.seen k).node := hnode
      subst hnode
      refine ⟨h.inv.exec (h.keeps k).1 h.versions outcome hop htimely, ?_, ?_, hkeeps⟩
      · exact kept_exec h.kept outcome hsource
      simp only [Config.advance, exec]
      split
      · exact List.append_ne_nil_of_right_ne_nil _ h.versions
      · exact h.versions

lemma sound_step (h : c.Sound) (htime : c.InTime e) : (c.step e).Sound := by
  unfold step
  split
  next hpossible =>
    exact sound_configStep h hpossible htime
  · exact h

omit [DecidableEq κ] in
/-- A virtual machine is given up on a Ship that was read, and no transfer goes with such a Ship. -/
lemma deletesUnneeded_of_sound (h : c.Sound) (e : Event κ Outcome Tick) :
    c.DeletesUnneeded e := by
  cases e with
  | tick t => trivial
  | call k outcome =>
    intro call hcall ship hship hgivesUp
    cases hk : c.thread k with
    | done a =>
      simp [next, hk] at hcall
    | call op rest =>
      rw [next_of_call hk] at hcall
      cases hcall
      obtain ⟨hnode, hop⟩ := h.keeps.allowed hk
      have hdeleted : ship = (c.seen k).ship := by
        cases hcallOp : call.op with
        | reconcileDeleted deleted =>
          rw [hcallOp] at hship hop
          cases hship
          exact hop
        | _ =>
          rw [hcallOp] at hship
          cases hship
      rcases (h.keeps k).1.read with hempty | ⟨hmem, hselected⟩
      · rw [hdeleted, hempty] at hgivesUp
        rcases hgivesUp with ⟨htarget, -⟩ | ⟨-, other, hother, -⟩
        · cases htarget
        · cases hother
      · rw [← hdeleted, ← hnode] at hselected
        rcases hgivesUp with ⟨htarget, hphase⟩ | ⟨hnone, other, hother, hne⟩
        · have hresting := h.inv.failed ship (hdeleted ▸ hmem) ⟨hphase, by rw [htarget]; rfl⟩
          have hcompleted : c.world.transfer ≠ .completed := by
            rcases hresting with hidle | hended
            · rw [hidle]
              decide
            · rw [hended]
              decide
          refine ⟨hcompleted, ?_, ?_⟩
          · exact Bool.eq_false_iff.2 fun hstopped => hcompleted (h.inv.stopped hstopped)
          · exact Bool.eq_false_iff.2 fun hremoved => hcompleted (h.kept hremoved)
        · -- the watches of a node do not let such a Ship through
          rcases hselected with hself | htarget
          · exact absurd (Option.some.inj (hother.symm.trans hself)) hne
          · cases hnone.symm.trans htarget

namespace Sample

open Fixture

/-- A Ship on `node-a` that is to move to `node-b`. -/
def ship : Ship := vessel (some "node-b")

/-- The turns, by their nodes: the preflight, the receiver, the start of the transfer, the timeout
and the cleanup. -/
def nodes (k : Fin 5) : String := if k = 1 ∨ k = 4 then "node-b" else "node-a"

/-- A call that succeeds, by what the runtime says about the transfer, whether the virtual machine
is there and the time in seconds. -/
def reply (phase : VmMigrationPhase) (present : Bool) (seconds : Int) : Moving.Outcome where
  reply
    | .checkMigrationStatus _ => .ok { phase }
    | op => op.successReply present ship ⟨seconds, 0⟩

/-- The turns up to the start of the transfer. -/
def started : List (Event (Fin 5) Moving.Outcome Tick) :=
  List.replicate 24 (.call 0 (reply .none true 1700000000)) ++
    List.replicate 24 (.call 1 (reply .none false 1700000000)) ++
    List.replicate 24 (.call 2 (reply .none true 1700000000))

/-- The source looks at the transfer, finds it active and declares the migration failed, since it
has taken more than half an hour; `between` happens after the look. -/
def timedOut (between : List (Event (Fin 5) Moving.Outcome Tick)) :
    List (Event (Fin 5) Moving.Outcome Tick) :=
  List.replicate 4 (.call 3 (reply .active true 1700002000)) ++ between ++
    List.replicate 20 (.call 3 (reply .active true 1700002000))

/-- The target reads the failed Ship, up to the call that deletes its virtual machine. -/
def cleanup : List (Event (Fin 5) Moving.Outcome Tick) :=
  List.replicate 4 (.call 4 (reply .none true 1700002001))

/-- The agents before the target deletes its virtual machine. -/
def reached (between : List (Event (Fin 5) Moving.Outcome Tick)) : Migrating (Fin 5) :=
  Run.exec step (start "node-a" ship nodes) (started ++ timedOut between ++ cleanup)

/-- What the target is about to delete. -/
def deleted (c : Migrating (Fin 5)) : Option (String × Option MigrationPhase) :=
  (c.next 4).bind fun call => (deletes call.op).map fun ship => (call.node, ship.phase)

end Sample

end Migrating

end Tugboat
