import Tugboat.Lib.Text
import Tugboat.Scheduler.Framework

/-!
# One pass of the scheduler, and the capacity of the nodes

The scheduler loads the cluster into a cache, collects the Ships that have no node and schedules
them one after the other.  Every decision of the pass is made on the *same* cache: binding a Ship
updates the stored Ship, so the next Ship does not see what the last one took.

`runPass` is the loop over the unscheduled Ships.  `usage_runPass` says what it does to the usage of
a node: it adds the requests of all Ships that picked the node.  A node picked once is safe, since
`ResourceFit` checked the pick against what the cache shows; so the capacity of all nodes is
respected after the pass if and only if it has room for every group of Ships that picked the same
node.
-/

namespace Tugboat

open Saturating

/-! ## Usage of a node as a sum -/

/-- What a Ship takes from a node it runs on. -/
def Ship.requests (classes : List (ShipClass ℕ)) (s : Ship) : Resources :=
  ((findShipClass classes s.className).map ShipClass.requests).getD (0, 0)

def Ship.share (classes : List (ShipClass ℕ)) (nodeName : String) (s : Ship) : Resources :=
  if s.nodeName = some nodeName then s.requests classes else (0, 0)

lemma addUsage_eq {classes : List (ShipClass ℕ)} {nodeName : String} {used : Resources} (s : Ship)
    (h : used.1 ≤ u64Max ∧ used.2 ≤ u64Max) : addUsage classes nodeName used s =
      (saturatingAdd used.1 (s.share classes nodeName).1,
        saturatingAdd used.2 (s.share classes nodeName).2) := by
  have hsat : ∀ u, u ≤ u64Max → saturatingAdd u 0 = u := fun u hu => by
    simp [saturatingAdd, hu]
  have hopt : ∀ (o : Option ℕ) u, u ≤ u64Max →
      (o.map (saturatingAdd u)).getD u = saturatingAdd u (o.getD 0) := by
    intro o u hu
    cases o with
    | none => exact (hsat u hu).symm
    | some x => rfl
  unfold addUsage Ship.share
  by_cases hnode : s.nodeName = some nodeName
  · simp only [hnode, ne_eq, not_true_eq_false, if_false, if_true, Ship.requests]
    cases hclass : findShipClass classes s.className with
    | none => simp [hsat _ h.1, hsat _ h.2]
    | some c =>
      cases hspec : c.spec with
      | none => simp [ShipClass.requests, hspec, hsat _ h.1, hsat _ h.2]
      | some spec =>
        simp [ShipClass.requests, hspec, -Option.map_map, hopt _ _ h.1, hopt _ _ h.2]
  · simp [hnode, hsat _ h.1, hsat _ h.2]

/-- The usage of a node is the sum of the shares, cut off at the largest value. -/
lemma nodeResourceUsage_eq (classes : List (ShipClass ℕ)) (ships : List Ship) (nodeName : String) :
    nodeResourceUsage classes ships nodeName =
      (min (ships.map fun s => (s.share classes nodeName).1).sum u64Max,
        min (ships.map fun s => (s.share classes nodeName).2).sum u64Max) := by
  have hfold : ∀ (ships : List Ship) (used : Resources),
      used.1 ≤ u64Max ∧ used.2 ≤ u64Max →
      ships.foldl (addUsage classes nodeName) used =
        ((ships.map fun s => (s.share classes nodeName).1).foldl saturatingAdd used.1,
          (ships.map fun s => (s.share classes nodeName).2).foldl saturatingAdd used.2) := by
    intro ships
    induction ships with
    | nil => intro used _; rfl
    | cons s ships ih =>
      intro used h
      rw [List.foldl_cons, addUsage_eq s h, ih _ ⟨min_le_right _ _, min_le_right _ _⟩]
      rfl
  rw [nodeResourceUsage, hfold ships (0, 0) ⟨Nat.zero_le _, Nat.zero_le _⟩,
    foldl_saturatingAdd, foldl_saturatingAdd]

/-! ## The cache and the pass -/

def Ship.identity (s : Ship) : Option String × Option String := (s.namespace, s.name)

/-- The scheduler's copy of the cluster.  The objects come from a store that keeps them by name,
and names are not empty. -/
structure Cache (X : Type) where
  nodes : List Node
  ships : List Ship
  shipClasses : List (ShipClass ℕ)
  runtimeClasses : List RuntimeClass
  rest : X
  nodes_named : ∀ n ∈ nodes, ∃ name, n.objectMeta.bind (·.name) = some name ∧ name ≠ ""
  nodes_nodup : (nodes.map Node.schedulingName).Nodup
  ships_nodup : (ships.map Ship.identity).Nodup

variable {X : Type}

def Ship.requestedRuntimeClass (s : Ship) : Option String :=
  ((s.spec.bind (·.runtimeClass)).map Text.trim).filter (· ≠ "")

inductive Decision
  /-- A class the Ship refers to does not exist; the message goes into its status. -/
  | blocked (message : String)
  | noSuitableNode
  | bind (nodeName : String)
  deriving DecidableEq, Repr

/-- The decision of `schedule_ship`. -/
def decideShip (fw : Framework X) (cache : Cache X) (ship : Ship) : Decision :=
  match findShipClass cache.shipClasses ship.className with
  | none => .blocked ("ShipClass '" ++ ship.className ++ "' not found")
  | some shipClass =>
    let missing := ship.requestedRuntimeClass.filter fun name =>
      cache.runtimeClasses.all fun rc => rc.objectMeta.bind (·.name) ≠ some name
    match missing with
    | some name => .blocked ("RuntimeClass '" ++ name ++ "' not found")
    | none =>
      let ctx : SchedulingContext X := {
        ship, shipClass, allShips := cache.ships, allNodes := cache.nodes
        allShipClasses := cache.shipClasses, allRuntimeClasses := cache.runtimeClasses
        rest := cache.rest }
      match fw.schedule ctx cache.nodes with
      | none => .noSuitableNode
      | some node => .bind node.schedulingName

def Ship.bindTo (nodeName : String) (s : Ship) : Ship :=
  { s with spec := s.spec.map fun spec => { spec with nodeName := some nodeName } }

/-- Replace a condition of the same name, unless its message is the same; else add it. -/
def upsertShipCondition (condition : ShipCondition) : List ShipCondition → List ShipCondition
  | [] => [condition]
  | c :: cs =>
    if c.status = condition.status then
      if c.message = condition.message then c :: cs else condition :: cs
    else c :: upsertShipCondition condition cs

def Ship.appendCondition (condition : ShipCondition) (s : Ship) : Ship :=
  { s with status := some { s.status.getD {} with
      conditions := upsertShipCondition condition (s.status.getD {}).conditions } }

/-- A write to a Ship, with its body. -/
inductive ShipWrite
  | replaceStatus (ship : Ship)
  | replace (ship : Ship)

/-- What is sent for the decision.  A Ship is bound only if the claims that wait for it could be
annotated. -/
def Decision.write (now : Time) (ship : Ship) (annotated : Bool) : Decision → Option ShipWrite
  | .blocked message => some (.replaceStatus (ship.appendCondition
      { status := "SchedulingBlocked", message, timestamp := some now }))
  | .noSuitableNode => none
  | .bind nodeName => if annotated then some (.replace (ship.bindTo nodeName)) else none

/-- The body of the write, every write succeeding.  It stands for the stored Ship: what the server
fills in besides (generation, resource version, the service account) takes nothing from a node. -/
def carryOut (now : Time) (ship : Ship) : Decision → Ship
  | .blocked message =>
    ship.appendCondition { status := "SchedulingBlocked", message, timestamp := some now }
  | .noSuitableNode => ship
  | .bind nodeName => ship.bindTo nodeName

/-- `schedule_ship`: decide on the cache, write to the stored Ships. -/
def scheduleShip (fw : Framework X) (cache : Cache X) (now : Time) (stored : List Ship)
    (ship : Ship) : List Ship :=
  stored.map fun s =>
    if s.identity = ship.identity then carryOut now ship (decideShip fw cache ship) else s

/-- The Ships this scheduler has to find a node for. -/
def unscheduled (schedulerName : String) (ships : List Ship) : List Ship :=
  ships.filter fun s =>
    s.nodeName.all (· = "") &&
      (s.spec.bind (·.schedulerName)).all fun n => n = "" ∨ n = schedulerName

/-- The writes of one pass of the loop, with the Ships they are for. -/
def passWrites (fw : Framework X) (cache : Cache X) (now : Time) (annotated : Ship → Bool)
    (schedulerName : String) (leaderFor : ℕ) : List (Ship × ShipWrite) :=
  ((unscheduled schedulerName cache.ships).take leaderFor).filterMap fun ship =>
    ((decideShip fw cache ship).write now ship (annotated ship)).map (ship, ·)

/-- One pass of the loop.  It ends early when leadership is lost, after `leaderFor` Ships. -/
def runPass (fw : Framework X) (cache : Cache X) (schedulerName : String) (now : Time)
    (leaderFor : ℕ) : List Ship :=
  ((unscheduled schedulerName cache.ships).take leaderFor).foldl (scheduleShip fw cache now)
    cache.ships

/-! ## What a pass does to the stored Ships -/

section Pass

variable (fw : Framework X) (cache : Cache X) (now : Time)

def placed (ship : Ship) : Ship := carryOut now ship (decideShip fw cache ship)

/-- Scheduling some of the cached Ships one after the other places exactly these. -/
lemma foldl_scheduleShip {processed : List Ship} (hsub : processed.Sublist cache.ships) :
    processed.foldl (scheduleShip fw cache now) cache.ships =
      cache.ships.map fun s => if s ∈ processed then placed fw cache now s else s := by
  -- from any stage in which the Ships of `done` are placed, the rest of the loop places the rest
  have hloop : ∀ (todo done : List Ship), todo ⊆ cache.ships → done ⊆ cache.ships →
      todo.foldl (scheduleShip fw cache now)
          (cache.ships.map fun s => if s ∈ done then placed fw cache now s else s) =
        cache.ships.map fun s => if s ∈ done ++ todo then placed fw cache now s else s := by
    intro todo
    induction todo with
    | nil => intro done _ _; simp
    | cons ship todo ih =>
      intro done htodo hdone
      have hship : ship ∈ cache.ships := htodo List.mem_cons_self
      have hstep : scheduleShip fw cache now
            (cache.ships.map fun s => if s ∈ done then placed fw cache now s else s) ship =
          cache.ships.map fun s =>
            if s ∈ done ++ [ship] then placed fw cache now s else s := by
        unfold scheduleShip
        rw [List.map_map]
        refine List.map_congr_left fun s hs => ?_
        have hsame : s.identity = ship.identity ↔ s = ship :=
          ⟨fun h => List.inj_on_of_nodup_map cache.ships_nodup hs hship h, fun h => h ▸ rfl⟩
        have hinner : (if s ∈ done then placed fw cache now s else s).identity = s.identity := by
          split
          · unfold placed
            cases decideShip fw cache s <;> rfl
          · rfl
        simp only [Function.comp_apply, hinner, hsame, List.mem_append, List.mem_singleton]
        by_cases heq : s = ship
        · subst heq
          simp [placed]
        · simp [heq]
      rw [List.foldl_cons, hstep, ih (done ++ [ship])
        (fun s hs => htodo (List.mem_cons_of_mem ship hs)) ?_]
      · simp [List.append_assoc]
      intro s hs
      rcases List.mem_append.1 hs with hs | hs
      · exact hdone hs
      · rw [List.mem_singleton.1 hs]
        exact hship
  have h := hloop processed [] hsub.subset (List.nil_subset _)
  simpa using h

def chooses (nodeName : String) (ship : Ship) : Bool :=
  ship.spec.isSome && (decideShip fw cache ship = .bind nodeName)

variable {nodeName : String}

lemma share_of_unassigned {classes : List (ShipClass ℕ)} (hname : nodeName ≠ "") {ship : Ship}
    (hship : ship.nodeName.all (· = "") = true) :
    ship.share classes nodeName = (0, 0) := by
  refine if_neg fun h => hname ?_
  rw [h] at hship
  simpa using hship

/-- A Ship without a node takes its requests from the node it is put on, and from no other. -/
lemma share_placed {classes : List (ShipClass ℕ)} (hname : nodeName ≠ "") {ship : Ship}
    (hship : ship.nodeName.all (· = "") = true) :
    (placed fw cache now ship).share classes nodeName =
      if chooses fw cache nodeName ship then ship.requests classes else (0, 0) := by
  have hunassigned : ship.share classes nodeName = (0, 0) := share_of_unassigned hname hship
  unfold placed chooses
  cases hdecision : decideShip fw cache ship with
  | blocked message =>
    have hshare : (carryOut now ship (.blocked message)).share classes nodeName =
        ship.share classes nodeName := rfl
    simp [hshare, hunassigned]
  | noSuitableNode =>
    have hshare : (carryOut now ship .noSuitableNode).share classes nodeName =
        ship.share classes nodeName := rfl
    simp [hshare, hunassigned]
  | bind chosen =>
    cases hspec : ship.spec with
    | none => simp [carryOut, Ship.bindTo, Ship.share, Ship.nodeName, hspec]
    | some spec =>
      by_cases hchosen : chosen = nodeName
      · subst hchosen
        simp [carryOut, Ship.bindTo, Ship.share, Ship.nodeName, Ship.requests, Ship.className,
          hspec]
      · simp [carryOut, Ship.bindTo, Ship.share, Ship.nodeName, hspec, hchosen]

def takers (schedulerName : String) (leaderFor : ℕ) (nodeName : String) : List Ship :=
  ((unscheduled schedulerName cache.ships).take leaderFor).filter (chooses fw cache nodeName)

def totalRequests (classes : List (ShipClass ℕ)) (ships : List Ship) : Resources :=
  ((ships.map fun s => (s.requests classes).1).sum, (ships.map fun s => (s.requests classes).2).sum)

/-- **What a pass adds.**  After the pass a node is used by the Ships that used it before and by
all Ships that were put on it. -/
lemma usage_runPass (schedulerName : String) (leaderFor : ℕ) (hname : nodeName ≠ "")
    (dim : Resources → ℕ) (hdim : dim = Prod.fst ∨ dim = Prod.snd) :
    dim (nodeResourceUsage cache.shipClasses
        (runPass fw cache schedulerName now leaderFor) nodeName) =
      min ((cache.ships.map fun s => dim (s.share cache.shipClasses nodeName)).sum +
          ((takers fw cache schedulerName leaderFor nodeName).map fun s =>
            dim (s.requests cache.shipClasses)).sum) u64Max := by
  have husage : ∀ ships : List Ship, dim (nodeResourceUsage cache.shipClasses ships nodeName) =
      min (ships.map fun s => dim (s.share cache.shipClasses nodeName)).sum u64Max := by
    intro ships
    rw [nodeResourceUsage_eq]
    rcases hdim with rfl | rfl <;> rfl
  have hzero : dim (0, 0) = 0 := by
    rcases hdim with rfl | rfl <;> rfl
  have hsub : ((unscheduled schedulerName cache.ships).take leaderFor).Sublist cache.ships :=
    (List.take_sublist _ _).trans List.filter_sublist
  have hnodup : cache.ships.Nodup := List.Nodup.of_map _ cache.ships_nodup
  -- each Ship contributes what it did before, plus its requests if the pass puts it on the node
  have hshare : ∀ s ∈ cache.ships,
      dim ((if s ∈ (unscheduled schedulerName cache.ships).take leaderFor then
          placed fw cache now s else s).share cache.shipClasses nodeName) =
        dim (s.share cache.shipClasses nodeName) +
          if s ∈ (unscheduled schedulerName cache.ships).take leaderFor then
            (if chooses fw cache nodeName s then dim (s.requests cache.shipClasses) else 0)
          else 0 := by
    intro s _
    split
    next hmem =>
      have hunassigned : s.nodeName.all (· = "") = true := by
        have h := (List.mem_filter.1 (List.mem_of_mem_take hmem)).2
        exact (Bool.and_eq_true_iff.1 h).1
      rw [share_placed fw cache now hname hunassigned, share_of_unassigned hname hunassigned,
        hzero, Nat.zero_add]
      split
      · rfl
      · exact hzero
    · rfl
  rw [husage, runPass, foldl_scheduleShip fw cache now hsub, List.map_map]
  congr 1
  calc ((cache.ships.map _).sum : ℕ)
      = (cache.ships.map fun s => dim (s.share cache.shipClasses nodeName) +
          if s ∈ (unscheduled schedulerName cache.ships).take leaderFor then
            (if chooses fw cache nodeName s then dim (s.requests cache.shipClasses) else 0)
          else 0).sum := congrArg List.sum (List.map_congr_left hshare)
    _ = _ := by
        rw [List.sum_map_add, sum_map_ite_mem _ hsub hnodup, List.sum_map_ite]
        simp [takers]

variable {fw cache} in
lemma of_decideShip_eq_bind {ship : Ship} {nodeName : String}
    (h : decideShip fw cache ship = .bind nodeName) :
    ∃ (ctx : SchedulingContext X) (node : Node), ctx.ship = ship ∧
      findShipClass cache.shipClasses ship.className = some ctx.shipClass ∧
        ctx.allShips = cache.ships ∧ ctx.allShipClasses = cache.shipClasses ∧
        fw.schedule ctx cache.nodes = some node ∧ node.schedulingName = nodeName := by
  unfold decideShip at h
  split at h
  · cases h
  rename_i shipClass hclass
  dsimp only at h
  split at h
  · cases h
  split at h
  · cases h
  next node hnode =>
    refine ⟨_, node, rfl, hclass, rfl, rfl, hnode, ?_⟩
    simpa using h

end Pass

/-! ## Capacity -/

section Capacity

variable (fw : Framework X) (nodeAllocatable : Node → Resources) (cache : Cache X)

/-- No node is used beyond what is allocatable on it. -/
def WithinCapacity (ships : List Ship) : Prop :=
  ∀ n ∈ cache.nodes,
    (nodeResourceUsage cache.shipClasses ships n.schedulingName).1 ≤ (nodeAllocatable n).1 ∧
      (nodeResourceUsage cache.shipClasses ships n.schedulingName).2 ≤ (nodeAllocatable n).2
  deriving Decidable

/-- The node has room for the Ships on top of what the cache shows. -/
def HasRoom (n : Node) (ships : List Ship) : Prop :=
  saturatingAdd (nodeResourceUsage cache.shipClasses cache.ships n.schedulingName).1
      (totalRequests cache.shipClasses ships).1 ≤ (nodeAllocatable n).1 ∧
    saturatingAdd (nodeResourceUsage cache.shipClasses cache.ships n.schedulingName).2
      (totalRequests cache.shipClasses ships).2 ≤ (nodeAllocatable n).2
  deriving Decidable

variable {fw nodeAllocatable cache}

/-- After the pass the node is within capacity exactly if it had room for its takers. -/
lemma usage_runPass_le_iff (schedulerName : String) (now : Time) (leaderFor : ℕ) {n : Node}
    (hn : n ∈ cache.nodes) :
    ((nodeResourceUsage cache.shipClasses (runPass fw cache schedulerName now leaderFor)
          n.schedulingName).1 ≤ (nodeAllocatable n).1 ∧
      (nodeResourceUsage cache.shipClasses (runPass fw cache schedulerName now leaderFor)
          n.schedulingName).2 ≤ (nodeAllocatable n).2) ↔
      HasRoom nodeAllocatable cache n
        (takers fw cache schedulerName leaderFor n.schedulingName) := by
  obtain ⟨name, hname, hne⟩ := cache.nodes_named n hn
  have hne' : n.schedulingName ≠ "" := by
    simpa [Node.schedulingName, hname] using hne
  have h₁ := usage_runPass fw cache now schedulerName leaderFor hne' Prod.fst (.inl rfl)
  have h₂ := usage_runPass fw cache now schedulerName leaderFor hne' Prod.snd (.inr rfl)
  rw [HasRoom, h₁, h₂, nodeResourceUsage_eq]
  simp only [totalRequests, saturatingAdd]
  omega

lemma hasRoom_of_chooses (hfit : resourceFitFilter X nodeAllocatable ∈ fw.filterPlugins) {n : Node}
    (hn : n ∈ cache.nodes) {ship : Ship} (hship : chooses fw cache n.schedulingName ship = true)
    (hcap : WithinCapacity nodeAllocatable cache cache.ships) :
    HasRoom nodeAllocatable cache n [ship] := by
  have hbind : decideShip fw cache ship = .bind n.schedulingName := by
    simpa using (Bool.and_eq_true_iff.1 hship).2
  obtain ⟨ctx, node, -, hclass, hships, hclasses, hschedule, hname⟩ := of_decideShip_eq_bind hbind
  obtain ⟨hnode, haccept⟩ := Framework.of_schedule_eq_some hschedule
  have hsame : node = n := List.inj_on_of_nodup_map cache.nodes_nodup hnode hn hname
  have hreq := haccept _ hfit
  have hused := hcap n hn
  have htotal : totalRequests cache.shipClasses [ship] = ctx.shipClass.requests := by
    simp [totalRequests, Ship.requests, hclass]
  simp only [resourceFitFilter, hsame, SchedulingContext.requestedResources,
    SchedulingContext.nodeResourceUsage, hships, hclasses] at hreq
  rw [HasRoom, htotal]
  simp only [saturatingAdd]
  -- what the filter accepts fits in what is left
  split at hreq
  · cases hreq
  split at hreq
  · cases hreq
  · omega

/-- **A pass respects capacity exactly when there is room for Ships that pick the same node.**
Starting within capacity, with the ResourceFit filter enabled, and whenever leadership is lost:
after the pass all nodes are within capacity if and only if every node that two or more Ships of the
pass are put on had room for all of them. -/
theorem withinCapacity_runPass_iff (hfit : resourceFitFilter X nodeAllocatable ∈ fw.filterPlugins)
    (hcap : WithinCapacity nodeAllocatable cache cache.ships) (schedulerName : String)
    (now : Time) (leaderFor : ℕ) :
    WithinCapacity nodeAllocatable cache (runPass fw cache schedulerName now leaderFor) ↔
      ∀ n ∈ cache.nodes,
        2 ≤ (takers fw cache schedulerName leaderFor n.schedulingName).length →
          HasRoom nodeAllocatable cache n
            (takers fw cache schedulerName leaderFor n.schedulingName) := by
  constructor
  · intro h n hn _
    exact (usage_runPass_le_iff schedulerName now leaderFor hn).1 (h n hn)
  · intro h n hn
    refine (usage_runPass_le_iff schedulerName now leaderFor hn).2 ?_
    rcases htakers : takers fw cache schedulerName leaderFor n.schedulingName with
      _ | ⟨ship, _ | ⟨ship', rest⟩⟩
    · -- nobody picked the node
      have hused := hcap n hn
      simp only [HasRoom, totalRequests, saturatingAdd, List.map_nil, List.sum_nil]
      omega
    · -- one Ship picked it, and was checked against what the cache shows
      have hmem : ship ∈ takers fw cache schedulerName leaderFor n.schedulingName := by
        rw [htakers]
        exact List.mem_singleton.2 rfl
      exact hasRoom_of_chooses hfit hn (List.mem_filter.1 hmem).2 hcap
    · have hroom := h n hn (by rw [htakers]; simp)
      rwa [htakers] at hroom

end Capacity

/-! ## Two Ships and one node -/

namespace TwoShips

def node : Node := { objectMeta := some { name := some "node-a" } }

/-- A class that asks for two cores. -/
def shipClass : ShipClass ℕ where
  objectMeta := some { name := some "small" }
  spec := some { cpu := some { cores := 2 }, memory := some 1 }

/-- An unscheduled Ship of that class. -/
def waitingShip (name : String) : Ship where
  objectMeta := some { name := some name, «namespace» := some "default" }
  spec := some { image := "registry.example.com/vm:v1", shipClass := "small" }

def waitingCluster : Cache Unit where
  nodes := [node]
  ships := [waitingShip "ship-a", waitingShip "ship-b"]
  shipClasses := [shipClass]
  runtimeClasses := []
  rest := ()
  nodes_named := by
    intro n hn
    rw [List.mem_singleton.1 hn]
    exact ⟨"node-a", rfl, by decide⟩
  nodes_nodup := by decide
  ships_nodup := by decide

def fitOnly (cores : ℕ) : Framework Unit where
  filterPlugins := [resourceFitFilter Unit fun _ => (cores, 8)]
  scorePlugins := []

end TwoShips

open TwoShips in
theorem withinCapacity_runPass_four_cores :
    WithinCapacity (fun _ => (4, 8)) waitingCluster
      (runPass (fitOnly 4) waitingCluster "default-scheduler" ⟨0, 0⟩ 2) :=
  (@withinCapacity_runPass_iff Unit (fitOnly 4) (fun _ => (4, 8)) waitingCluster
    (List.mem_singleton.2 rfl) (by decide) _ _ _).2 (by decide)

open TwoShips in
/-- Two Ships of two cores each are both put on a node with three cores. -/
theorem runPass_overcommits_three_cores :
    WithinCapacity (fun _ => (3, 8)) waitingCluster waitingCluster.ships ∧
      ¬ WithinCapacity (fun _ => (3, 8)) waitingCluster
        (runPass (fitOnly 3) waitingCluster "default-scheduler" ⟨0, 0⟩ 2) := by
  decide

end Tugboat
