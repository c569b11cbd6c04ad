import Tugboat.Resources.Meta

/-!
# Ships, their classes and nodes

The records of the core kinds that the scheduler, the Ship endpoints and the agents work on.  A
Ship is a virtual machine: its class says how much of a node it takes, `spec.nodeName` where it
runs, `spec.targetNodeName` where it should move, and `status.migration` how far the move is.

The phase of a migration is a string in the source.  `MigrationPhase` names the strings the code
tells apart and keeps every other string as it is, so it is the same data.  Fields that no
modelled function reads are left out.
-/

namespace Tugboat

def phaseTexts : List String := ["Pending", "Ready", "Migrating", "Completed", "Failed"]

inductive MigrationPhase
  | pending
  | ready
  | migrating
  | completed
  | failed
  /-- Any other text. -/
  | other (text : String) (unnamed : text ∉ phaseTexts)
  deriving DecidableEq, Repr

namespace MigrationPhase

def text : MigrationPhase → String
  | .pending => "Pending"
  | .ready => "Ready"
  | .migrating => "Migrating"
  | .completed => "Completed"
  | .failed => "Failed"
  | .other text _ => text

def ofText (text : String) : MigrationPhase :=
  if h : text ∉ phaseTexts then .other text h
  else if text = "Pending" then .pending
  else if text = "Ready" then .ready
  else if text = "Migrating" then .migrating
  else if text = "Completed" then .completed
  else .failed

@[simp] lemma ofText_text (p : MigrationPhase) : ofText p.text = p := by
  cases p with
  | other text unnamed => exact dif_pos unnamed
  | pending | ready | migrating | completed | failed => decide

/-- The empty text, which a status without a phase has. -/
def empty : MigrationPhase := .other "" (by decide)

def isActive : MigrationPhase → Bool
  | .pending | .ready | .migrating => true
  | .completed | .failed | .other _ _ => false

end MigrationPhase

structure ShipMigrationStatus where
  phase : MigrationPhase := .empty
  sourceNodeName : Option String := none
  targetNodeName : Option String := none
  targetAddress : Option String := none
  targetPort : Option ℕ := none
  message : String := ""
  timestamp : Option Time := none
  bytesTransferred : Option ℕ := none
  bytesRemaining : Option ℕ := none
  deriving DecidableEq, Repr

/-- An entry of the condition list of a Ship; `status` is its name. -/
structure ShipCondition where
  status : String := ""
  message : String := ""
  timestamp : Option Time := none
  deriving DecidableEq, Repr

structure ShipStatus where
  conditions : List ShipCondition := []
  migration : Option ShipMigrationStatus := none
  deriving DecidableEq, Repr

structure ShipSpec where
  image : String := ""
  shipClass : String := ""
  nodeName : Option String := none
  schedulerName : Option String := none
  targetNodeName : Option String := none
  runtimeClass : Option String := none
  restoreFromSnapshot : Option String := none
  deriving DecidableEq, Repr

structure Ship where
  typeMeta : Option TypeMeta := none
  objectMeta : Option ObjectMeta := none
  spec : Option ShipSpec := none
  status : Option ShipStatus := none
  deriving DecidableEq, Repr

namespace Ship

def name (s : Ship) : Option String := s.objectMeta.bind (·.name)

def «namespace» (s : Ship) : Option String := s.objectMeta.bind (·.namespace)

def nodeName (s : Ship) : Option String := s.spec.bind (·.nodeName)

def targetNodeName (s : Ship) : Option String := s.spec.bind (·.targetNodeName)

def migration (s : Ship) : Option ShipMigrationStatus := s.status.bind (·.migration)

def phase (s : Ship) : Option MigrationPhase := s.migration.map (·.phase)

/-- A migration is under way. -/
def hasActiveMigration (s : Ship) : Bool := s.phase.any (·.isActive)

end Ship

/-! ## Classes and nodes -/

structure CpuSpec where
  architecture : String := ""
  cores : ℕ
  deriving DecidableEq, Repr

/-- What a class asks of a node.  The size of the memory is a text, which the agent and the
scheduler read each in its own way; for the scheduler `Size` is the number of bytes it has read. -/
structure ShipClassSpec (Size : Type) where
  cpu : Option CpuSpec := none
  memory : Option Size := none
  deriving DecidableEq, Repr

structure ShipClass (Size : Type) where
  objectMeta : Option ObjectMeta := none
  spec : Option (ShipClassSpec Size) := none
  deriving DecidableEq, Repr

/-- Whether a part of a running machine can be added and removed. -/
structure HotplugCapabilities where
  add : Bool := false
  remove : Bool := false
  deriving DecidableEq, Repr

structure RuntimeHotplug where
  cpu : Option HotplugCapabilities := none
  memory : Option HotplugCapabilities := none
  nic : Option HotplugCapabilities := none
  storage : Option HotplugCapabilities := none
  deriving DecidableEq, Repr

structure RuntimeClassSpec where
  liveMigration : Bool := false
  hotplug : Option RuntimeHotplug := none
  deriving DecidableEq, Repr

structure RuntimeClass where
  objectMeta : Option ObjectMeta := none
  spec : Option RuntimeClassSpec := none
  deriving DecidableEq, Repr

structure Taint where
  key : String
  value : String
  effect : String
  deriving DecidableEq, Repr

structure NodeSpec where
  /-- CPU and memory of the machine. -/
  resource : Option (ℕ × ℕ) := none
  /-- The overcommit ratios for CPU and memory, as text. -/
  overcommit : Option (String × String) := none
  taints : List Taint := []
  unschedulable : Option Bool := none
  deriving DecidableEq, Repr

structure Node where
  objectMeta : Option ObjectMeta := none
  spec : Option NodeSpec := none
  deriving DecidableEq, Repr

/-! ## Values for concrete runs -/

namespace Fixture

/-- A Ship that runs on `node-a`, by where it should move. -/
def vessel (targetNodeName : Option String) : Ship where
  typeMeta := some { apiVersion := some "v1", kind := some "Ship" }
  objectMeta := some {
    name := some "vm", «namespace» := some "default", uid := some "uid-1"
    generation := some 1, creationTimestamp := some ⟨1700000000, 0⟩ }
  spec := some {
    image := "linux", shipClass := "small", nodeName := some "node-a", targetNodeName }

end Fixture

end Tugboat
