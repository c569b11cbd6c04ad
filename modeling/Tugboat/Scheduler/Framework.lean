import Mathlib.Data.List.Sort
import Tugboat.Lib.Saturating
import Tugboat.Resources.Ship

/-!
# The scheduling framework

The pipeline that picks a node for one Ship: filter plugins rule nodes out, score plugins rank the
rest, and the best one is taken, the first one in case of a tie.  What plugins may look at besides
the Ships and nodes is the type parameter `X`: no function modelled here reads it.

`resourceFitFilter` is the plugin that keeps nodes from being overfull.  How much of a node is
allocatable is computed with floating point ratios in the source and is a parameter here.
-/

namespace Tugboat

open Saturating

/-- The name in the metadata of a node, with the scheduler's fallback. -/
def Node.schedulingName (n : Node) : String := (n.objectMeta.bind (·.name)).getD "unknown"

def findShipClass (classes : List (ShipClass ℕ)) (name : String) : Option (ShipClass ℕ) :=
  classes.find? fun c => c.objectMeta.bind (·.name) = some name

/-- CPU cores and bytes of memory. -/
abbrev Resources : Type := ℕ × ℕ

/-- What a class asks for; what it does not mention counts as nothing. -/
def ShipClass.requests (c : ShipClass ℕ) : Resources :=
  (((c.spec.bind (·.cpu)).map (·.cores)).getD 0, (c.spec.bind (·.memory)).getD 0)

def Ship.className (s : Ship) : String := (s.spec.map (·.shipClass)).getD ""

/-- One round of the loop over the Ships: a Ship on the node adds what its class asks for. -/
def addUsage (classes : List (ShipClass ℕ)) (nodeName : String) (used : Resources) (ship : Ship) :
    Resources :=
  if ship.nodeName ≠ some nodeName then used
  else
    match (findShipClass classes ship.className).bind (·.spec) with
    | none => used
    | some spec =>
      (((spec.cpu.map (·.cores)).map (saturatingAdd used.1)).getD used.1,
        (spec.memory.map (saturatingAdd used.2)).getD used.2)

/-- CPU and memory used by the Ships assigned to a node. -/
def nodeResourceUsage (classes : List (ShipClass ℕ)) (ships : List Ship) (nodeName : String) :
    Resources :=
  ships.foldl (addUsage classes nodeName) (0, 0)

/-! ## Plugins -/

structure SchedulingContext (X : Type) where
  ship : Ship
  shipClass : ShipClass ℕ
  allShips : List Ship
  allNodes : List Node
  allShipClasses : List (ShipClass ℕ)
  allRuntimeClasses : List RuntimeClass
  rest : X

namespace SchedulingContext

variable {X : Type}

def nodeResourceUsage (ctx : SchedulingContext X) (nodeName : String) : Resources :=
  Tugboat.nodeResourceUsage ctx.allShipClasses ctx.allShips nodeName

def requestedResources (ctx : SchedulingContext X) : Resources := ctx.shipClass.requests

end SchedulingContext

inductive FilterResult
  | accept
  | reject (reason : String)
  deriving DecidableEq, Repr

/-- The verdict of a score plugin. -/
inductive ScoreResult
  | score (s : Int)
  | skip
  deriving DecidableEq, Repr

structure FilterPlugin (X : Type) where
  name : String
  filter : SchedulingContext X → Node → FilterResult

structure ScorePlugin (X : Type) where
  name : String
  score : SchedulingContext X → Node → ScoreResult

structure Framework (X : Type) where
  filterPlugins : List (FilterPlugin X)
  scorePlugins : List (ScorePlugin X)

namespace Framework

variable {X : Type}

def filter (fw : Framework X) (ctx : SchedulingContext X) (nodes : List Node) : List Node :=
  nodes.filter fun node => fw.filterPlugins.all fun plugin => plugin.filter ctx node = .accept

/-- The scores of a node, added up exactly. -/
def sumScores (fw : Framework X) (ctx : SchedulingContext X) (node : Node) : Int :=
  (fw.scorePlugins.map fun plugin => match plugin.score ctx node with
    | .score s => s
    | .skip => 0).sum

/-- The total score of a node: the sum, wrapped into 64 bits. -/
def totalScore (fw : Framework X) (ctx : SchedulingContext X) (node : Node) : Int :=
  (fw.sumScores ctx node).bmod 18446744073709551616

/-- The nodes with their total scores, best first; nodes of equal score keep their order. -/
def score (fw : Framework X) (ctx : SchedulingContext X) (nodes : List Node) : List (Node × Int) :=
  (nodes.map fun node => (node, fw.totalScore ctx node)).insertionSort fun a b => b.2 ≤ a.2

def schedule (fw : Framework X) (ctx : SchedulingContext X) (nodes : List Node) : Option Node :=
  let filtered := fw.filter ctx nodes
  if filtered.isEmpty then none
  else (fw.score ctx filtered).head?.map (·.1)

def Accepts (fw : Framework X) (ctx : SchedulingContext X) (node : Node) : Prop :=
  ∀ plugin ∈ fw.filterPlugins, plugin.filter ctx node = .accept
  deriving Decidable

variable {fw : Framework X} {ctx : SchedulingContext X} {nodes : List Node} {node : Node}

lemma mem_filter : node ∈ fw.filter ctx nodes ↔ node ∈ nodes ∧ fw.Accepts ctx node := by
  simp [filter, Accepts]

lemma of_schedule_eq_some (h : fw.schedule ctx nodes = some node) :
    node ∈ nodes ∧ fw.Accepts ctx node := by
  unfold schedule at h
  dsimp only at h
  split at h
  · cases h
  obtain ⟨scored, hscored, rfl⟩ := Option.map_eq_some_iff.1 h
  have hmem : scored ∈ fw.score ctx (fw.filter ctx nodes) := List.mem_of_head? hscored
  rw [score, List.mem_insertionSort] at hmem
  obtain ⟨node, hnode, rfl⟩ := List.mem_map.1 hmem
  exact mem_filter.1 hnode

/-- A stable sort by decreasing keys begins with the first of the elements with the largest key. -/
lemma exists_head?_insertionSort {α : Type} (key : α → Int) : ∀ l : List α, l ≠ [] →
    ∃ before best after, l = before ++ best :: after ∧
      (l.insertionSort fun a b => key b ≤ key a).head? = some best ∧
      (∀ a ∈ before, key a < key best) ∧ ∀ a ∈ after, key a ≤ key best
  | [], h => absurd rfl h
  | [a], _ => ⟨[], a, [], rfl, rfl, by simp, by simp⟩
  | a :: b :: l, _ => by
    obtain ⟨before, best, after, hl, hhead, hbefore, hafter⟩ :=
      exists_head?_insertionSort key (b :: l) (by simp)
    obtain ⟨rest, hrest⟩ := List.head?_eq_some_iff.1 hhead
    rw [List.insertionSort_cons, hrest, List.orderedInsert_cons]
    split
    next hle =>
      -- the first element is as good as the best of the others
      refine ⟨[], a, b :: l, rfl, rfl, by simp, fun c hc => ?_⟩
      rw [hl] at hc
      obtain hc | rfl | hc := by simpa using hc
      · exact (hbefore c hc).le.trans hle
      · exact hle
      · exact (hafter c hc).trans hle
    next hlt =>
      exact ⟨a :: before, best, after, by rw [hl]; rfl, rfl,
        List.forall_mem_cons.2 ⟨lt_of_not_ge hlt, hbefore⟩, hafter⟩

/-- Either every node is rejected and none is chosen, or the first of the accepted nodes with the
largest total is chosen.  Totals that 64 bits hold are the sums of the scores. -/
theorem schedule_best (fw : Framework X) (ctx : SchedulingContext X) (nodes : List Node) :
    (fw.schedule ctx nodes = none ∧ (∀ node ∈ nodes, ¬ fw.Accepts ctx node) ∨
      ∃ before node after, nodes = before ++ node :: after ∧
        fw.schedule ctx nodes = some node ∧ fw.Accepts ctx node ∧
        (∀ other ∈ before, fw.Accepts ctx other →
          fw.totalScore ctx other < fw.totalScore ctx node) ∧
        ∀ other ∈ after, fw.Accepts ctx other →
          fw.totalScore ctx other ≤ fw.totalScore ctx node) ∧
      ∀ node, -9223372036854775808 ≤ fw.sumScores ctx node →
        fw.sumScores ctx node < 9223372036854775808 →
        fw.totalScore ctx node = fw.sumScores ctx node := by
  refine ⟨?_, fun node hlow hhigh => Int.bmod_eq_of_le (by omega) (by omega)⟩
  by_cases hempty : fw.filter ctx nodes = []
  · refine .inl ⟨by simp [schedule, hempty], fun node hnode haccepts => ?_⟩
    have hmem := mem_filter.2 ⟨hnode, haccepts⟩
    rw [hempty] at hmem
    cases hmem
  right
  obtain ⟨before, best, after, hl, hhead, hbefore, hafter⟩ := exists_head?_insertionSort
    (·.2) ((fw.filter ctx nodes).map fun node => (node, fw.totalScore ctx node))
    (by simpa using hempty)
  -- the split of the scored nodes is one of the accepted nodes, and that one of all nodes
  obtain ⟨accepted, rest, hfilter, rfl, hrest⟩ := List.map_eq_append_iff.1 hl
  obtain ⟨node, later, rfl, rfl, rfl⟩ := List.map_eq_cons_iff.1 hrest
  obtain ⟨front, back, rfl, rfl, hback⟩ := List.filter_eq_append_iff.1 hfilter
  obtain ⟨skipped, behind, rfl, hskipped, haccept, rfl⟩ := List.filter_eq_cons_iff.1 hback
  refine ⟨front ++ skipped, node, behind, by simp, ?_, ?_, fun other hother haccepts => ?_,
    fun other hother haccepts => ?_⟩
  · rw [schedule, if_neg (by simpa using hempty), score, hhead]
    rfl
  · simpa [Accepts] using haccept
  · obtain hother | hother := List.mem_append.1 hother
    · exact hbefore _ (List.mem_map_of_mem (mem_filter.2 ⟨hother, haccepts⟩))
    · exact absurd (by simpa [Accepts] using haccepts) (hskipped other hother)
  · exact hafter _ (List.mem_map_of_mem (mem_filter.2 ⟨hother, haccepts⟩))

/-- Scores whose sum does not fit: the node with the larger sum is not chosen. -/
theorem schedule_overflow :
    ∃ (fw : Framework Unit) (ctx : SchedulingContext Unit) (node other : Node),
    fw.schedule ctx [node, other] = some node ∧ fw.Accepts ctx other ∧
      fw.sumScores ctx node < fw.sumScores ctx other := by
  let large : Node := { objectMeta := some { name := some "large" } }
  let given (s : Int) : ScorePlugin Unit :=
    ⟨"Given", fun _ node => if node = large then .score s else .skip⟩
  refine ⟨⟨[], [given 9223372036854775807, given 1]⟩, ⟨{}, {}, [], [], [], [], ()⟩, {}, large, ?_⟩
  decide

end Framework

/-! ## The ResourceFit filter -/

/-- Reject a node that cannot take what the Ship asks for on top of what is used.  Subtraction
saturates at zero. -/
def resourceFitFilter (X : Type) (nodeAllocatable : Node → Resources) : FilterPlugin X where
  name := "ResourceFit"
  filter ctx node :=
    let alloc := nodeAllocatable node
    let used := ctx.nodeResourceUsage node.schedulingName
    let req := ctx.requestedResources
    let availCpu := alloc.1 - used.1
    let availMemory := alloc.2 - used.2
    if req.1 > availCpu then
      .reject ("insufficient CPU: requested=" ++ toString req.1 ++ ", available=" ++
        toString availCpu)
    else if req.2 > availMemory then
      .reject ("insufficient memory: requested=" ++ toString req.2 ++ ", available=" ++
        toString availMemory)
    else .accept

end Tugboat
