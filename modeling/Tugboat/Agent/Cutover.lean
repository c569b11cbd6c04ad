import Tugboat.Agent.Discipline
import Tugboat.ApiServer.ShipEndpoints
import Tugboat.Lib.Run

/-!
# The cutover of the source

At the end of a migration the source agent stops its virtual machine and hands the Ship over.  It
should do so only after its runtime has reported that the transfer to the node the Ship is to move
to is completed.  This file follows one Ship through updates of its spec, drains, aborts and turns
of agents, in any order; a turn may be about any version that was ever stored.

The agent takes the transfer for completed when the status says so, and the status is that of the
last migration, whatever the target was then.  `Backed` is the invariant: what the status of a
version says about the receiver and about completed transfers is true of the target *that version*
has.  Turns of agents keep it if the version they are about has the target and the node of now, and
so does an update of the spec that gives the Ship no other target or node on top of what the last
migration has left behind.
-/

namespace Tugboat

open Program

/-- Where a target listens for a guest. -/
structure Receiver where
  address : String
  port : UInt16
  deriving DecidableEq, Repr

/-- The receiver that the fields of a status name. -/
def Receiver.named : Option String → Option ℕ → Option Receiver
  | some address, some port => some ⟨address, .ofNat port⟩
  | _, _ => none

def ShipMigrationStatus.receiver (m : ShipMigrationStatus) : Option Receiver :=
  Receiver.named m.targetAddress m.targetPort

/-! ## One Ship and the runtimes -/

/-- A Ship, and what the runtimes have done about its migrations. -/
structure Cutover where
  /-- The Ship as it is stored. -/
  ship : Ship
  /-- The versions before that one, the newest first. -/
  past : List Ship := []
  /-- The receivers that were announced, each with the node that announced it. -/
  receivers : List (String × Receiver) := []
  /-- The transfers the runtimes have been told to make and still know of, each with its source. -/
  transfers : List (String × Receiver) := []
  /-- The transfers a runtime has reported to be completed, each with its source. -/
  completed : List (String × Receiver) := []
  deriving DecidableEq

namespace Cutover

/-- What the outside decides about a call: whether it takes effect, and the reply. -/
structure Outcome where
  takesEffect : Bool := true
  reply : (op : AgentOp) → op.Reply

/-- All versions of the Ship, the newest first: a watch may deliver any of them. -/
def versions (w : Cutover) : List Ship := w.ship :: w.past

def store (w : Cutover) (ship : Ship) : Cutover := { w with ship, past := w.versions }

/-- The virtual machine of the node is gone, and what its runtime knew with it. -/
def forget (w : Cutover) (node : String) : Cutover :=
  { w with transfers := w.transfers.filter (·.1 ≠ node) }

/-- The Ship after the patch that ends a migration. -/
def handedOver (ship : Ship) (nodeName : String) : Ship :=
  { ship with
    spec := some { ship.spec.getD {} with nodeName := some nodeName, targetNodeName := none } }

/-- What a call does when it takes effect. -/
def effect (w : Cutover) (node : String) : AgentOp → Cutover
  | .patchStatus _ _ patch conditions =>
    { w.store { w.ship with
        status := some { conditions, migration := some (patch.apply w.ship.migration) } } with
      receivers :=
        if patch.phase = .ready then
          match Receiver.named patch.targetAddress patch.targetPort with
          | some receiver => (node, receiver) :: w.receivers
          | none => w.receivers
        else w.receivers }
  | .replaceStatus ship => w.store { w.ship with status := ship.status }
  | .patchShip _ _ nodeName =>
    match validateShipTargetNodeNameUpdate w.ship (handedOver w.ship nodeName) with
    | .ok () => w.store (handedOver w.ship nodeName)
    | .error _ => w
  | .migrate _ address port _ =>
    { w.forget node with transfers := (node, ⟨address, port⟩) :: (w.forget node).transfers }
  | .create .. | .finishSourceMigration _ | .reconcileDeleted _ | .cleanup _ => w.forget node
  | _ => w

/-- The reply to a call.  A runtime that knows of no transfer reports none. -/
def reply (w : Cutover) (node : String) (outcome : Outcome) : (op : AgentOp) → op.Reply
  | .nextShip => w.ship
  | .checkMigrationStatus id =>
    (outcome.reply (.checkMigrationStatus id)).map fun status =>
      if (w.transfers.lookup node).isSome then status else { status with phase := .none }
  | op => outcome.reply op

/-- Keep record of what a runtime reports. -/
def record (w : Cutover) (node : String) : (op : AgentOp) → op.Reply → Cutover
  | .checkMigrationStatus _, .ok status =>
    match status.phase, w.transfers.lookup node with
    | .completed, some receiver => { w with completed := (node, receiver) :: w.completed }
    | _, _ => w
  | _, _ => w

def exec : Semantics AgentCall.interface Cutover Outcome := fun w outcome c =>
  let r := w.reply c.node outcome c.op
  let w := w.record c.node c.op r
  (if outcome.takesEffect then w.effect c.node c.op else w, r)

/-! ## Runs -/

/-- What can happen to the Ship: an update of its spec by PUT or PATCH, a drain, an abort, or a
turn of the agent of some node on the version its watch has delivered. -/
inductive Move
  | update (spec : ShipSpec)
  | drain (target : String)
  | abort (now : Time)
  | reconcile (node : String) (version : ℕ) (outcomes : ℕ → Outcome)

/-- What a request to the API server stores. -/
def stored (w : Cutover) : Move → Option Ship
  | .update spec =>
    match validateShipTargetNodeNameUpdate w.ship { w.ship with spec := some spec } with
    | .ok () => some { w.ship with spec := some spec }
    | .error _ => none
  | .drain target => some (prepareShipForDrain w.ship target)
  | .abort now => (abortShipMigration now w.ship).toOption
  | .reconcile _ _ _ => none

/-- The step function. -/
def step (w : Cutover) : Move → Cutover
  | .reconcile node version outcomes =>
    match w.versions[version]? with
    | some ship => ((reconcileModified node ship).run.run exec outcomes w).1
    | none => w
  | move => ((w.stored move).map w.store).getD w

/-- The runtime of `node` has reported that a transfer to a receiver on `target` is completed. -/
def Sent (w : Cutover) (node target : String) : Prop :=
  ∃ entry ∈ w.receivers, entry.1 = target ∧ (node, entry.2) ∈ w.completed
  deriving Decidable

/-- The call stops the virtual machine of a source. -/
def stopsSource : AgentOp → Bool
  | .finishSourceMigration _ => true
  | _ => false

/-- The property of a step: a source that is stopped was sent to the target of the Ship the turn is
about. -/
def StopsSent (w : Cutover) : Move → Prop
  | .reconcile node version outcomes => ∀ ship ∈ w.versions[version]?,
    ∀ c ∈ (reconcileModified node ship).run.calls exec outcomes w, stopsSource c.2.op = true →
      ∃ target ∈ ship.targetNodeName, c.1.Sent c.2.node target
  | _ => True

instance (w : Cutover) : DecidablePred w.StopsSent := by
  intro e
  unfold StopsSent
  split <;> infer_instance

/-! ## The condition -/

/-- An update does not meet what a migration has left behind: another target is set only while no
migration is under way and no runtime knows of a transfer, and in the phase `Completed` neither the
target nor the node changes. -/
def Fresh (w : Cutover) (updated : Ship) : Prop :=
  updated.targetNodeName.isSome = true →
    (updated.targetNodeName ≠ w.ship.targetNodeName →
      w.ship.hasActiveMigration = false ∧ w.transfers = []) ∧
    (w.ship.phase = some .completed →
      updated.targetNodeName = w.ship.targetNodeName ∧ updated.nodeName = w.ship.nodeName)
  deriving Decidable

/-- If the Ship is to move away from `node` and its status says `Completed`, then it was the source
who wrote that, and not a target that has found itself running. -/
def OwnCompletion (ship : Ship) (node : String) : Prop :=
  ship.nodeName = some node → ∀ m ∈ ship.migration, m.phase = .completed →
    m.message = Knowledge.completedMessage
  deriving Decidable

/-- A version has the target the Ship has now, and if that is one, also the node. -/
def Current (w : Cutover) (ship : Ship) : Prop :=
  ship.targetNodeName = w.ship.targetNodeName ∧
    (ship.targetNodeName.isSome = true → ship.nodeName = w.ship.nodeName)
  deriving Decidable

/-- The condition on a step. -/
def Undisturbed (w : Cutover) : Move → Prop
  | .reconcile node version _ => ∀ ship ∈ w.versions[version]?, w.Current ship ∧
    (ship.targetNodeName.isSome = true → OwnCompletion ship node)
  | move => ∀ updated ∈ w.stored move, w.Fresh updated

instance (w : Cutover) : DecidablePred w.Undisturbed := by
  intro e
  unfold Undisturbed
  split <;> infer_instance

/-! ## The invariant -/

/-- What the status of `ship` says is true of its target: its receiver is one of the target, and
where the source has written `Completed`, its runtime has reported that. -/
structure Backed (w : Cutover) (ship : Ship) : Prop where
  listening : ∀ m ∈ ship.migration, ∀ target ∈ ship.targetNodeName, ∀ receiver ∈ m.receiver,
    (m.phase = .ready ∨ m.phase = .migrating) → (target, receiver) ∈ w.receivers
  sent : ∀ m ∈ ship.migration, ∀ node ∈ ship.nodeName, ∀ target ∈ ship.targetNodeName,
    m.phase = .completed → m.message = Knowledge.completedMessage → w.Sent node target

/-- All transfers a runtime knows of are to the target of `ship`. -/
def Towards (w : Cutover) (ship : Ship) : Prop :=
  ∀ entry ∈ w.transfers, ∀ target ∈ ship.targetNodeName, (target, entry.2) ∈ w.receivers

/-- The invariant. -/
structure Inv (w : Cutover) : Prop where
  backed : ∀ ship ∈ w.versions, w.Backed ship
  towards : w.Towards w.ship

/-- Records of receivers and reports are only added to, and runtimes learn of no new transfer. -/
structure Extends (w w' : Cutover) : Prop where
  receivers : w.receivers ⊆ w'.receivers
  completed : w.completed ⊆ w'.completed
  transfers : w'.transfers ⊆ w.transfers

section Invariant

variable {w w' : Cutover} {ship ship' : Ship} {node target : String}

lemma Extends.refl (w : Cutover) : w.Extends w :=
  ⟨List.Subset.refl _, List.Subset.refl _, List.Subset.refl _⟩

lemma Sent.mono (h : w.Sent node target) (hreceivers : w.receivers ⊆ w'.receivers)
    (hcompleted : w.completed ⊆ w'.completed) : w'.Sent node target := by
  obtain ⟨entry, hentry, htarget, hsent⟩ := h
  exact ⟨entry, hreceivers hentry, htarget, hcompleted hsent⟩

lemma Backed.mono (h : w.Backed ship) (hreceivers : w.receivers ⊆ w'.receivers)
    (hcompleted : w.completed ⊆ w'.completed) : w'.Backed ship where
  listening m hm target htarget receiver hreceiver hphase :=
    hreceivers (h.listening m hm target htarget receiver hreceiver hphase)
  sent m hm node hnode target htarget hphase hmessage :=
    (h.sent m hm node hnode target htarget hphase hmessage).mono hreceivers hcompleted

lemma Towards.mono (h : w.Towards ship) (hw : w.Extends w') : w'.Towards ship :=
  fun entry hentry target htarget => hw.receivers (h entry (hw.transfers hentry) target htarget)

lemma Backed.of_target_none (h : ship.targetNodeName = none) : w.Backed ship where
  listening m _ target htarget := absurd (h.symm.trans htarget) nofun
  sent m _ node _ target htarget := absurd (h.symm.trans htarget) (by rintro ⟨⟩)

lemma Backed.congr (h : w.Backed ship) (hmigration : ship'.migration = ship.migration)
    (hnode : ship'.nodeName = ship.nodeName)
    (htarget : ship'.targetNodeName = ship.targetNodeName) : w.Backed ship' := by
  constructor
  · rw [hmigration, htarget]
    exact h.listening
  · rw [hmigration, hnode, htarget]
    exact h.sent

lemma extends_forget (w : Cutover) (node : String) : w.Extends (w.forget node) :=
  ⟨List.Subset.refl _, List.Subset.refl _, List.filter_subset_self _⟩

lemma extends_record (w : Cutover) (node : String) (op : AgentOp) (r : op.Reply) :
    w.Extends (w.record node op r) := by
  unfold record
  split
  · split
    · exact ⟨List.Subset.refl _, List.subset_cons_self _ _, List.Subset.refl _⟩
    · exact .refl w
  · exact .refl w

end Invariant

/-! ## A turn -/

/-- What an agent relies on during its turn: the Ship it reconciles and all versions are backed, the
Ship and the stored one agree on their nodes unless the latter has no target, all transfers are to
the target, and what the runtime has reported is on record. -/
structure Relied (w : Cutover) (g : Knowledge) : Prop where
  delivered : g.delivered = true
  versions : ∀ ship ∈ w.versions, w.Backed ship
  read : w.Backed g.ship
  towards : w.Towards g.ship
  agree : w.ship.targetNodeName = none ∨
    w.ship.nodeName = g.ship.nodeName ∧ w.ship.targetNodeName = g.ship.targetNodeName
  told : g.reported = some .completed → ∀ target ∈ g.ship.targetNodeName, w.Sent g.node target
  own : g.ship.targetNodeName.isSome = true → OwnCompletion g.ship g.node

section Turn

variable {w : Cutover} {g : Knowledge} {node target : String}

/-- An agent that takes the transfer for completed has been told so by its runtime, in this turn or
an earlier one. -/
lemma Relied.sent_of_transferred (h : w.Relied g) (hsource : g.SourceOf target)
    (htransferred : g.Transferred) : w.Sent g.node target := by
  rcases htransferred with hphase | ⟨-, hreported⟩
  · obtain ⟨m, hm, hphase⟩ := Option.map_eq_some_iff.1 hphase
    have hown := h.own (by rw [hsource.2.1]; rfl) hsource.1 m hm hphase
    exact h.read.sent m hm g.node hsource.1 target hsource.2.1 hphase hown
  · exact h.told hreported target hsource.2.1

/-- What is relied on survives a change that only adds to the records, if what is stored is backed
and the nodes stay as they are or the target goes. -/
lemma Relied.of_extends (h : w.Relied g) {w' : Cutover} (hw : w.Extends w')
    (hversions : ∀ ship ∈ w'.versions, ship ∈ w.versions ∨ w'.Backed ship)
    (hagree : w'.ship.targetNodeName = none ∨
      w'.ship.nodeName = w.ship.nodeName ∧ w'.ship.targetNodeName = w.ship.targetNodeName) :
    w'.Relied g where
  delivered := h.delivered
  versions ship hship := by
    rcases hversions ship hship with hold | hnew
    · exact (h.versions ship hold).mono hw.receivers hw.completed
    · exact hnew
  read := h.read.mono hw.receivers hw.completed
  towards := h.towards.mono hw
  agree := by
    rcases hagree with hnone | ⟨hnode, htarget⟩
    · exact .inl hnone
    · rw [hnode, htarget]
      exact h.agree
  told hreported target htarget :=
    (h.told hreported target htarget).mono hw.receivers hw.completed
  own := h.own

/-- Among the versions after a write only the one that was written is new. -/
lemma of_mem_versions_store {ship version : Ship} {p : Prop} (h : version ∈ (w.store ship).versions)
    (hship : version = ship → p) : version ∈ w.versions ∨ p :=
  (List.mem_cons.1 h).symm.imp_right hship

lemma Relied.target_mem (h : w.Relied g) (htarget : target ∈ w.ship.targetNodeName) :
    target ∈ g.ship.targetNodeName ∧ w.ship.nodeName = g.ship.nodeName := by
  rcases h.agree with hnone | ⟨hnode, heq⟩
  · simp [hnone] at htarget
  · exact ⟨heq ▸ htarget, hnode⟩

/-! ### The calls that have effects -/

variable {patch : MigrationPatch}

lemma receiver_apply {address : String} {port : ℕ} (haddress : patch.targetAddress = some address)
    (hport : patch.targetPort = some port) (m : Option ShipMigrationStatus) :
    (patch.apply m).receiver = some ⟨address, .ofNat port⟩ := by
  simp only [ShipMigrationStatus.receiver, MigrationPatch.apply, haddress, hport, Option.some_or]
  rfl

/-- The receiver in a patched status that says `Ready` or `Migrating` is one of the target. -/
lemma Relied.listening_apply (h : w.Relied g) (hpermits : g.PermitsPatch patch)
    (hphase : patch.phase = .ready ∨ patch.phase = .migrating)
    {receiver : Receiver} (hreceiver : receiver ∈ (patch.apply w.ship.migration).receiver)
    (htarget : target ∈ g.ship.targetNodeName) : (target, receiver) ∈ w.receivers ∨
      patch.phase = .ready ∧ target = g.node ∧
        Receiver.named patch.targetAddress patch.targetPort = some receiver := by
  rcases hphase with hphase | hphase
  · simp only [Knowledge.PermitsPatch, hphase] at hpermits
    obtain ⟨hisTarget, -, address, port, haddress, hport⟩ := hpermits
    rw [receiver_apply haddress hport] at hreceiver
    refine .inr ⟨hphase, Option.some.inj (htarget.symm.trans hisTarget), ?_⟩
    rw [haddress, hport]
    exact hreceiver
  · simp only [Knowledge.PermitsPatch, hphase] at hpermits
    obtain ⟨-, m, -, hm, hmphase, hsomeAddress, hsomePort, haddress, hport⟩ := hpermits
    obtain ⟨address, hmAddress⟩ := Option.isSome_iff_exists.1 hsomeAddress
    obtain ⟨port, hmPort⟩ := Option.isSome_iff_exists.1 hsomePort
    rw [receiver_apply (haddress.trans hmAddress) (hport.trans hmPort)] at hreceiver
    refine .inl (h.read.listening m hm target htarget receiver ?_ hmphase)
    rw [ShipMigrationStatus.receiver, hmAddress, hmPort]
    exact hreceiver

lemma Relied.patchStatus (h : w.Relied g) {ns name : String} {conditions : List ShipCondition}
    (hpermits : g.PermitsPatch patch) :
    (w.effect g.node (.patchStatus ns name patch conditions)).Relied g := by
  have hreceivers : w.receivers ⊆
      (w.effect g.node (.patchStatus ns name patch conditions)).receivers := by
    simp only [effect]
    split
    · split
      · exact List.subset_cons_self _ _
      · exact List.Subset.refl _
    · exact List.Subset.refl _
  refine h.of_extends ⟨hreceivers, List.Subset.refl _, List.Subset.refl _⟩
    (fun ship hship => of_mem_versions_store hship ?_) (.inr ⟨rfl, rfl⟩)
  rintro rfl
  constructor
  · rintro m ⟨⟩ target htarget receiver hreceiver hphase
    rcases h.listening_apply hpermits hphase hreceiver (h.target_mem htarget).1 with
      hold | ⟨hready, rfl, hnamed⟩
    · exact hreceivers hold
    · simp only [effect, if_pos hready, hnamed]
      exact List.mem_cons_self
  rintro m ⟨⟩ node hnode target htarget hphase hmessage
  have hknown := h.target_mem htarget
  refine Sent.mono ?_ hreceivers (List.Subset.refl _)
  -- the source's `Completed` is written by a source that was told so
  have hnode' : node ∈ g.ship.nodeName := hknown.2 ▸ hnode
  replace hphase : patch.phase = .completed := hphase
  simp only [Knowledge.PermitsPatch, hphase] at hpermits
  rcases hpermits with ⟨⟨target', hsource⟩, htransferred, -⟩ | ⟨-, -, hne, hsome⟩
  · have hsent := h.sent_of_transferred hsource htransferred
    rw [Option.some.inj (hnode'.symm.trans hsource.1),
      Option.some.inj (hknown.1.symm.trans hsource.2.1)]
    exact hsent
  · obtain ⟨message, hsome⟩ := Option.isSome_iff_exists.1 hsome
    rw [MigrationPatch.apply, hsome] at hmessage
    exact absurd (hsome.trans (congrArg some hmessage)) hne

lemma Relied.replaceStatus (h : w.Relied g) {ship : Ship}
    (hship : ship.migration = g.ship.migration) :
    (w.effect node (.replaceStatus ship)).Relied g := by
  refine h.of_extends ⟨List.Subset.refl _, List.Subset.refl _, List.Subset.refl _⟩
    (fun version hversion => of_mem_versions_store hversion ?_) (.inr ⟨rfl, rfl⟩)
  rintro rfl
  rcases h.agree with hnone | ⟨hnode, htarget⟩
  · exact .of_target_none hnone
  have hread : (w.effect node (.replaceStatus ship)).Backed g.ship :=
    h.read.mono (List.Subset.refl _) (List.Subset.refl _)
  exact hread.congr hship hnode htarget

lemma Relied.patchShip (h : w.Relied g) (ns name nodeName : String) :
    (w.effect node (.patchShip ns name nodeName)).Relied g := by
  simp only [effect]
  split
  · refine h.of_extends ⟨List.Subset.refl _, List.Subset.refl _, List.Subset.refl _⟩
      (fun version hversion => of_mem_versions_store hversion ?_) (.inl rfl)
    rintro rfl
    exact .of_target_none rfl
  · exact h

lemma Relied.migrate (h : w.Relied g) {id address : String} {port : UInt16}
    {params : VmMigrationParams} (hpermits : g.Permits (.migrate id address port params)) :
    (w.effect node (.migrate id address port params)).Relied g := by
  obtain ⟨-, m, p, -, hm, hphase, haddress, hport, rfl⟩ := hpermits
  have hkeeps {ship : Ship} (hship : w.Backed ship) :
      (w.effect node (.migrate id address (.ofNat p) params)).Backed ship :=
    hship.mono (List.Subset.refl _) (List.Subset.refl _)
  refine {
    delivered := h.delivered
    versions := fun ship hship => hkeeps (h.versions ship hship)
    read := hkeeps h.read
    towards := fun entry hentry target htarget => ?_
    agree := h.agree
    told := h.told
    own := h.own }
  rcases List.mem_cons.1 hentry with rfl | hentry
  · -- the agent sends to the receiver its Ship names
    refine h.read.listening m hm target htarget _ ?_ (.inl hphase)
    rw [ShipMigrationStatus.receiver, haddress, hport]
    rfl
  · exact h.towards entry (List.mem_filter.1 hentry).1 target htarget

lemma Relied.forget (h : w.Relied g) (node : String) : (w.forget node).Relied g :=
  h.of_extends (extends_forget w node) (fun _ hship => .inl hship) (.inr ⟨rfl, rfl⟩)

lemma Relied.effect (h : w.Relied g) {op : AgentOp} (hop : g.Permits op) :
    (w.effect g.node op).Relied g := by
  cases op with
  | patchStatus ns name patch conditions => exact h.patchStatus hop
  | replaceStatus ship => exact h.replaceStatus hop
  | patchShip ns name nodeName => exact h.patchShip ns name nodeName
  | migrate id address port params => exact h.migrate hop
  | create id port | finishSourceMigration id | reconcileDeleted ship | cleanup id =>
    exact h.forget g.node
  | _ => exact h

/-- A runtime reports only on a transfer it knows of, and that transfer is one to the target. -/
lemma Relied.check (h : w.Relied g) (outcome : Outcome) (id : String) :
    (w.record g.node (.checkMigrationStatus id)
        (w.reply g.node outcome (.checkMigrationStatus id))).Relied
      (g.learn (.checkMigrationStatus id) (w.reply g.node outcome (.checkMigrationStatus id))) := by
  have hextends := extends_record w g.node _ (w.reply g.node outcome (.checkMigrationStatus id))
  cases hreply : w.reply g.node outcome (.checkMigrationStatus id) with
  | error e => exact h
  | ok status =>
    rw [hreply] at hextends
    have hversions :
        (w.record g.node (.checkMigrationStatus id) (.ok status)).versions = w.versions := by
      simp only [record]
      split <;> rfl
    have hship : (w.record g.node (.checkMigrationStatus id) (.ok status)).ship = w.ship :=
      (List.cons.inj hversions).1
    have hrelied := h.of_extends hextends (fun _ hversion => .inl (hversions ▸ hversion))
      (.inr (by rw [hship]; exact ⟨rfl, rfl⟩))
    refine { hrelied with told := fun hreported target htarget => ?_ }
    have hphase : status.phase = .completed := Option.some.inj hreported
    -- a completed transfer is one the runtime knows of
    cases hlookup : w.transfers.lookup g.node with
    | none =>
      cases hchosen : outcome.reply (.checkMigrationStatus id) with
      | error e => simp [reply, hchosen, Except.map] at hreply
      | ok chosen =>
        simp only [reply, hchosen, hlookup, Except.map] at hreply
        rw [← Except.ok.inj hreply] at hphase
        cases hphase
    | some receiver =>
      obtain ⟨before, after, htransfers, -⟩ := List.lookup_eq_some_iff.1 hlookup
      have hmem : (g.node, receiver) ∈ w.transfers := by
        rw [htransfers]
        simp
      refine ⟨(target, receiver), ?_, rfl, ?_⟩
      · exact hextends.receivers (h.towards _ hmem target htarget)
      · simp only [record, hphase, hlookup]
        exact List.mem_cons_self

lemma Relied.record (h : w.Relied g) (outcome : Outcome) {op : AgentOp} (hop : g.Permits op) :
    (w.record g.node op (w.reply g.node outcome op)).Relied
      (g.learn op (w.reply g.node outcome op)) := by
  cases op with
  | nextShip => exact absurd (h.delivered.symm.trans hop) (by decide)
  | checkMigrationStatus id => exact h.check outcome id
  | localRuntimeStatus id =>
    obtain ⟨running, hlearn⟩ := g.learn_localRuntimeStatus id
      (w.reply g.node outcome (.localRuntimeStatus id))
    rw [hlearn]
    exact { h with }
  | cancelMigration id => exact { h with }
  | _ => exact h

lemma Relied.exec (h : w.Relied g) (outcome : Outcome) {c : AgentCall}
    (hallowed : discipline.allowed g c) : (exec w outcome c).1.Relied
      (discipline.observe g c (exec w outcome c).2) := by
  obtain ⟨node, op⟩ := c
  obtain ⟨rfl, hop⟩ := hallowed
  have hrecord := h.record outcome hop
  simp only [Cutover.exec, discipline]
  split
  · have heffect := hrecord.effect (Knowledge.permits_learn h.delivered hop _)
    rw [Knowledge.node_learn] at heffect
    exact heffect
  · exact hrecord

section

variable {ship : Ship} (hinv : w.Inv) (hship : ship ∈ w.versions) (hcurrent : w.Current ship)
  (hown : ship.targetNodeName.isSome = true → OwnCompletion ship node)

include hinv hship hcurrent hown

lemma relied_of : w.Relied (.of node ship) where
  delivered := rfl
  versions := hinv.backed
  read := hinv.backed ship hship
  towards entry hentry target htarget :=
    hinv.towards entry hentry target (hcurrent.1 ▸ htarget)
  agree := by
    by_cases hsome : ship.targetNodeName.isSome = true
    · exact .inr ⟨(hcurrent.2 hsome).symm, hcurrent.1.symm⟩
    · exact .inl (hcurrent.1.symm.trans (Option.not_isSome_iff_eq_none.1 hsome))
  told := by rintro ⟨⟩
  own := hown

lemma stopsSent_turn (outcomes : ℕ → Outcome) :
    ∀ c ∈ (reconcileModified node ship).run.calls exec outcomes w, stopsSource c.2.op = true →
      ∃ target ∈ ship.targetNodeName, c.1.Sent c.2.node target := by
  intro c hc hstops
  -- the knowledge stays about the Ship the turn began with
  have hstep : Complies discipline exec (fun _ _ => True)
      fun w' g => w'.Relied g ∧ g.ship = ship := by
    rintro w' g outcome c - ⟨h, hsame⟩ hallowed
    refine ⟨trivial, h.exec outcome hallowed, ?_⟩
    exact (Knowledge.ship_learn h.delivered hallowed.2 _).2.trans hsame
  obtain ⟨g, ⟨hrelied, hsame⟩, hnode, hpermits⟩ :=
    allowed_of_mem_calls hstep _ _ outcomes w (fun _ => trivial)
      ⟨relied_of hinv hship hcurrent hown, rfl⟩ (wp_reconcileModified node ship) c hc
  cases hop : c.2.op with
  | finishSourceMigration id =>
    rw [hop] at hpermits
    obtain ⟨⟨target, hsource⟩, htransferred⟩ := hpermits
    rw [hnode, ← hsame]
    exact ⟨target, hsource.2.1, hrelied.sent_of_transferred hsource htransferred⟩
  | _ =>
    rw [hop] at hstops
    cases hstops

lemma inv_turn (outcomes : ℕ → Outcome) :
    ((reconcileModified node ship).run.run exec outcomes w).1.Inv := by
  have hstep : Complies discipline exec (fun _ _ => True) Relied :=
    fun _ _ outcome _ _ h hallowed => ⟨trivial, h.exec outcome hallowed⟩
  obtain ⟨g, hrelied, -⟩ := run_of_wp hstep _ _ outcomes w (fun _ => trivial)
    (relied_of hinv hship hcurrent hown) (wp_reconcileModified node ship)
  refine ⟨hrelied.versions, fun entry hentry target htarget => ?_⟩
  exact hrelied.towards entry hentry target (hrelied.target_mem htarget).1

end

end Turn

/-! ## Updates -/

section Updates

variable {w : Cutover}

lemma of_mem_stored {move : Move} {updated : Ship} (h : updated ∈ w.stored move) :
    updated.targetNodeName = none ∨ updated.migration = w.ship.migration := by
  cases move with
  | update spec =>
    simp only [stored] at h
    split at h
    · cases h
      exact .inr rfl
    · cases h
  | drain target =>
    cases h
    right
    rw [Ship.migration, prepareShipForDrain, status_bumpGeneration]
    rfl
  | abort now =>
    simp only [stored] at h
    cases habort : abortShipMigration now w.ship with
    | error e => simp [habort, Except.toOption] at h
    | ok aborted =>
      rw [habort] at h
      cases h
      exact .inl (targetNodeName_of_abortShipMigration habort)
  | reconcile node version outcomes => cases h

lemma Fresh.towards {updated : Ship} (hfresh : w.Fresh updated) (h : w.Towards w.ship) :
    w.Towards updated := by
  intro entry hentry target htarget
  by_cases hsame : updated.targetNodeName = w.ship.targetNodeName
  · exact h entry hentry target (hsame ▸ htarget)
  · have hnone := ((hfresh (by rw [htarget]; rfl)).1 hsame).2
    rw [hnone] at hentry
    cases hentry

lemma Fresh.backed {updated : Ship} (hfresh : w.Fresh updated) (h : w.Backed w.ship)
    (hmigration : updated.migration = w.ship.migration) : w.Backed updated := by
  by_cases hsome : updated.targetNodeName.isSome = true
  · obtain ⟨htarget, hcompleted⟩ := hfresh hsome
    by_cases hsame : updated.targetNodeName = w.ship.targetNodeName
    · constructor
      · rw [hmigration, hsame]
        exact h.listening
      · intro m hm node hnode target htarget hphase
        rw [hmigration] at hm
        have hnames := hcompleted (by rw [Ship.phase, hm]; exact congrArg some hphase)
        exact h.sent m hm node (hnames.2 ▸ hnode) target (hsame ▸ htarget) hphase
    · have hinactive := (htarget hsame).1
      constructor
      · intro m hm target _ receiver _ hphase
        rw [hmigration] at hm
        rw [Ship.hasActiveMigration, Ship.phase, hm] at hinactive
        rcases hphase with hphase | hphase <;> simp [hphase, MigrationPhase.isActive] at hinactive
      · intro m hm node _ target _ hphase
        rw [hmigration] at hm
        exact absurd (hcompleted (by rw [Ship.phase, hm]; exact congrArg some hphase)).1 hsame
  · exact .of_target_none (Option.not_isSome_iff_eq_none.1 hsome)

lemma inv_stored {move : Move} {updated : Ship} (hinv : w.Inv) (hstored : updated ∈ w.stored move)
    (hfresh : w.Fresh updated) : (w.store updated).Inv where
  backed ship hship := by
    rcases List.mem_cons.1 hship with rfl | hold
    · refine Backed.mono (w := w) ?_ (List.Subset.refl _) (List.Subset.refl _)
      rcases of_mem_stored hstored with hnone | hmigration
      · exact .of_target_none hnone
      · exact hfresh.backed (hinv.backed _ List.mem_cons_self) hmigration
    · exact (hinv.backed ship hold).mono (List.Subset.refl _) (List.Subset.refl _)
  towards := hfresh.towards hinv.towards

end Updates

/-! ## Every run -/

lemma Inv.step {w : Cutover} {move : Move} (hinv : w.Inv) (hmove : w.Undisturbed move) :
    (w.step move).Inv := by
  cases move with
  | reconcile node version outcomes =>
    simp only [Cutover.step]
    split
    next ship hship =>
      obtain ⟨hcurrent, hown⟩ := hmove ship hship
      exact inv_turn hinv (List.mem_of_getElem? hship) hcurrent hown outcomes
    · exact hinv
  | update spec | drain target | abort now =>
    simp only [Cutover.step]
    cases hstored : w.stored _ with
    | none => exact hinv
    | some updated => exact inv_stored hinv hstored (hmove updated hstored)

namespace Sample

open Fixture

/-- The spec of a Ship, by where it runs and where it should move. -/
def spec (nodeName : String) (targetNodeName : Option String) : ShipSpec where
  image := "linux"
  shipClass := "small"
  nodeName := some nodeName
  targetNodeName

/-- A turn in which every call succeeds, of an agent that has the virtual machine or has not. -/
def turn (node : String) (present : Bool) : Move :=
  .reconcile node 0 fun _ => { reply := AgentOp.successReply present (vessel none) ⟨1700000000, 0⟩ }

/-- A migration to `node-b`: the preflight, the receiver, the transfer and the cutover. -/
def migration : List Move :=
  [.update (spec "node-a" (some "node-b")), turn "node-a" true, turn "node-b" false,
    turn "node-a" true, turn "node-a" true]

def retargeted : Cutover :=
  Run.exec step { ship := vessel none } (migration ++ [.update (spec "node-b" (some "node-c"))])

end Sample

end Cutover

end Tugboat
