import Tugboat.ControllerManager.ReplicaSet
import Tugboat.Lib.Keyed

/-!
# Whose Ships a ReplicaSet touches

A ReplicaSet says on every Ship it makes that it is the Ship's controller, by an owner reference
with its kind, name and identifier (`Controls`).  The controller does not look at these references:
when it scales and updates it goes by the labels, and when the ReplicaSet is gone by the identifier
alone.  `ReplicaSetEvent.picks` are the Ships that it asks to delete or to update, one after the
other (`logs_reconcile`), and it keeps to its own Ships exactly if these are its own.
-/

namespace Tugboat.Workload

open Program Controller Keyed Cluster

def Ship.owners (ship : Ship) : List OwnerReference :=
  (ship.objectMeta.map (·.ownerReferences)).getD []

/-- The reference names the ReplicaSet as the controller. -/
def ReplicaSet.IsController (rs : ReplicaSet) (ref : OwnerReference) : Prop :=
  ref.controller = some true ∧ ref.kind = "ReplicaSet" ∧ ref.name = rs.name.getD "" ∧
    some ref.uid = uidOf rs
  deriving Decidable

def Controls (rs : ReplicaSet) (ship : Ship) : Prop := ∃ ref ∈ ship.owners, rs.IsController ref
  deriving Decidable

/-- The Ship has another controller, or an owner of the same kind and name that is not the same. -/
def Foreign (rs : ReplicaSet) (ship : Ship) : Prop :=
  ∃ ref ∈ ship.owners, (ref.controller = some true ∧ ¬ rs.IsController ref) ∨
    (ref.kind = "ReplicaSet" ∧ ref.name = rs.name.getD "" ∧ some ref.uid ≠ uidOf rs)
  deriving Decidable

def ClusterOp.touchedShip : ClusterOp → Option String
  | replaceShip name _ | patchShip name _ | deleteShip name => some name
  | getRuntimeClass _ | listReplicaSets | getReplicaSet _ | createReplicaSet _
  | replaceReplicaSet _ _ | replaceReplicaSetStatus _ _ | deleteReplicaSet _
  | patchDeploymentStatus _ _ | listShips | generateSuffix | createShip _ => none

/-- The Ship is the ReplicaSet's own. -/
def Own (rs : ReplicaSet) (ship : Ship) : Prop := Controls rs ship ∧ ¬ Foreign rs ship
  deriving Decidable

/-! ## The Ships that are picked -/

section Picks

variable (rs : ReplicaSet) (spec : ReplicaSetSpec) (w : Cluster)

def matchingShips : List Ship := sortByName (ownedShips w.ships spec.selector)

/-- The Ships that are too many. -/
def surplus : List Ship := excessShipsToDelete (matchingShips spec w) spec.size.toNat

/-- The Ship is not passed over by the loop that brings Ships up to the template. -/
def isOutdated (templateSpec : ShipSpec) (ship : Ship) : Bool :=
  !(ship.hasActiveMigration || !shipNeedsUpdate ship templateSpec) && ship.name.isSome

/-- The Ships that are brought up to the template, one or all of them. -/
def outdated (templateSpec : ShipSpec) (updateAll : Bool) (ships : List Ship) : List Ship :=
  if updateAll then ships.filter (isOutdated templateSpec)
  else (ships.filter (isOutdated templateSpec)).take 1

/-- The Ships that are updated: none while Ships remain to be deleted or are not ready yet. -/
def updates : List Ship :=
  let ships := matchingShips spec w
  let template := spec.shipTemplate.getD {}
  let templateSpec := template.spec.getD {}
  let kind := shipChangeKind ships template (w.runtimeClass template)
  if (surplus spec w).length < ships.length - spec.size.toNat ∨
      shouldWaitForReadyBeforeUpdate ships templateSpec kind ∨ kind = .noChange then []
  else
    outdated templateSpec (updateStrategy rs = some replicasetUpdateStrategyAll || kind = .hotplug)
      ships

/-- The Ships that a reconcile asks to delete or to update. -/
def ReplicaSetEvent.picks : ReplicaSetEvent → List Ship
  | applied rs =>
    match rs.namespace, rs.spec with
    | some _, some spec => surplus spec w ++ updates rs spec w
    | _, _ => []
  | deleted rs => if rs.namespace.isSome then w.ships.filter (isOwnedByReplicaset · rs) else []

variable {rs spec w} {ship : Ship}

lemma mem_of_mem_excessShipsToDelete {ships : List Ship} {desired : ℕ}
    (h : ship ∈ excessShipsToDelete ships desired) : ship ∈ ships := by
  unfold excessShipsToDelete at h
  split at h
  · cases h
  have hsorted := List.mem_of_mem_take h
  rw [List.mem_insertionSort] at hsorted
  exact List.mem_of_mem_filter hsorted

lemma mem_of_mem_matchingShips (h : ship ∈ matchingShips spec w) : ship ∈ w.ships := by
  rw [matchingShips, sortByName, List.mem_insertionSort] at h
  exact List.mem_of_mem_filter h

lemma mem_of_mem_outdated {templateSpec : ShipSpec} {updateAll : Bool} {ships : List Ship}
    (h : ship ∈ outdated templateSpec updateAll ships) : ship ∈ ships := by
  unfold outdated at h
  split at h
  · exact List.mem_of_mem_filter h
  · exact List.mem_of_mem_filter (List.mem_of_mem_take h)

lemma mem_of_mem_picks {event : ReplicaSetEvent} (h : ship ∈ event.picks w) : ship ∈ w.ships := by
  cases event with
  | deleted rs =>
    simp only [ReplicaSetEvent.picks] at h
    split at h
    · exact List.mem_of_mem_filter h
    · cases h
  | applied rs =>
    simp only [ReplicaSetEvent.picks] at h
    split at h
    · rcases List.mem_append.1 h with hdelete | hupdate
      · exact mem_of_mem_matchingShips (mem_of_mem_excessShipsToDelete hdelete)
      · unfold updates at hupdate
        dsimp only at hupdate
        split at hupdate
        · cases hupdate
        · exact mem_of_mem_matchingShips (mem_of_mem_outdated hupdate)
    · cases h

end Picks

/-! ## The requests of a reconcile -/

section Requests

variable {rules : ShipRules} {classes : List RuntimeClass}

section Exec

variable {w : Cluster} {c : Choice} {op : ClusterOp}

/-- What a request can do to the cluster: nothing, or one write of a ReplicaSet or a Ship. -/
lemma exec_of {p : Cluster → Prop} (h : p w)
    (hreplicaSets : ∀ replicaSets, op.writesReplicaSets = true → p { w with replicaSets })
    (hstatus : ∀ name status, p { w with
      replicaSets := modify ReplicaSet.name (some name) ({ · with status }) w.replicaSets })
    (hcreate : ∀ ship, op = .createShip ship →
      p { w with ships := w.ships ++ [ship.created rules c] })
    (hupdate : ∀ name, ∀ f : Option ShipSpec → Option ShipSpec, op.touchedShip = some name →
      p { w with
        ships := modify Ship.name (some name) (fun s => { s with spec := f s.spec }) w.ships })
    (hdelete : ∀ name, op.touchedShip = some name →
      p { w with ships := deleteNamed c.now name w.ships }) :
    p (exec rules w c op).1 := by
  have hwrite : ∀ {effect : Except ℕ Cluster}, (∀ w', effect = .ok w' → p w') →
      p (c.fate.write w effect).1 := Fate.write_of c.fate h
  have hships : ∀ {name f}, op.touchedShip = some name →
      p (c.fate.write w (w.updateShip name f)).1 := by
    refine fun {name f} hname => hwrite fun w' hw' => ?_
    unfold updateShip at hw'
    split at hw'
    · cases hw'
      exact hupdate name f hname
    · cases hw'
  cases op with
  | generateSuffix => exact h
  | getRuntimeClass | listReplicaSets | getReplicaSet | listShips =>
    obtain ⟨fate, -, -, -⟩ := c
    cases fate with
    | served | refused | lost => exact h
  | patchDeploymentStatus => exact hwrite fun w' hw' => Except.ok.inj hw' ▸ h
  | createReplicaSet | replaceReplicaSet | deleteReplicaSet =>
    refine hwrite fun w' hw' => ?_
    simp only [createReplicaSet, updateReplicaSet, deleteReplicaSet] at hw'
    split at hw'
    all_goals cases hw'
    all_goals exact hreplicaSets _ rfl
  | replaceReplicaSetStatus | createShip | deleteShip =>
    refine hwrite fun w' hw' => ?_
    simp only [updateReplicaSet, createShip, deleteShip] at hw'
    split at hw'
    all_goals cases hw'
    first
      | exact hstatus _ _
      | exact hcreate _ rfl
      | exact hdelete _ rfl
  | replaceShip name ship | patchShip name ship => exact hships rfl

lemma runtimeClasses_exec (w : Cluster) (c : Choice) (op : ClusterOp) :
    (exec rules w c op).1.runtimeClasses = w.runtimeClasses :=
  exec_of (p := (·.runtimeClasses = w.runtimeClasses)) rfl (fun _ _ => rfl) (fun _ _ => rfl)
    (fun _ _ => rfl) (fun _ _ _ => rfl) fun _ _ => rfl

end Exec

/-- The block asks to delete or update the Ships of these names, in a cluster with these runtime
classes. -/
abbrev Touches (rules : ShipRules) (classes : List RuntimeClass) {α : Type} (x : Controller α)
    (names : List String) (R : α → Prop) : Prop :=
  Logs (exec rules) ClusterOp.touchedShip (fun w => w.runtimeClasses = classes) x names R

lemma touches_attempt (op : ClusterOp) :
    Touches rules classes (attempt op) op.touchedShip.toList fun _ => True := by
  intro choice w hw
  refine ⟨(runtimeClasses_exec w _ op).trans hw, ?_⟩
  have hcalls : (calls (exec rules) (attempt op).run choice w).filterMap
      (fun c => c.2.touchedShip) = op.touchedShip.toList := by
    show List.filterMap _ [(w, op)] = _
    cases h : op.touchedShip with
    | none | some name => simp [h]
  exact ⟨hcalls ▸ List.prefix_rfl, fun _ _ => ⟨hcalls, trivial⟩⟩

lemma touches_request (op : ClusterOp) :
    Touches rules classes (request op) op.touchedShip.toList fun _ => True :=
  fun choice w hw => (touches_attempt op choice w hw).imp_right fun h =>
    ⟨h.1, fun _ _ => ⟨(h.2 _ rfl).1, trivial⟩⟩

lemma touches_deleteShips (ships : List Ship) :
    Touches rules classes (deleteShips ships) (ships.filterMap (·.name)) fun _ => True := by
  induction ships with
  | nil => exact .pure trivial
  | cons ship rest ih =>
    unfold deleteShips
    split
    next hname =>
      rw [List.filterMap_cons_none hname]
      exact ih
    next name hname =>
      rw [List.filterMap_cons_some hname]
      have hone : Touches rules classes (deleteShipIgnoreNotFound name) [name] fun _ => True := by
        refine (touches_attempt (.deleteShip name)).last fun r _ => ?_
        split
        · exact .pure trivial
        · exact .pure trivial
        · exact .throw _
      exact hone.bind fun _ _ => ih

lemma touches_createShips (rs : ReplicaSet) (template : ShipTemplateSpec) (n : ℕ) :
    Touches rules classes (createShips rs template n) [] fun _ => True := by
  induction n with
  | zero => exact .pure trivial
  | succ n ih =>
    refine (touches_request .generateSuffix).skip fun suffix _ => ?_
    refine (touches_attempt (.createShip _)).skip fun r _ => ?_
    split
    · exact ih
    · exact ih
    · exact .throw _

lemma touches_reconcileShipCount (rs : ReplicaSet) (spec : ReplicaSetSpec) (ships : List Ship)
    (desired : ℕ) : Touches rules classes (reconcileShipCount rs spec ships desired)
      ((excessShipsToDelete ships desired).filterMap (·.name)) fun action =>
        action.isSome = decide ((excessShipsToDelete ships desired).length <
          ships.length - desired) := by
  refine (touches_createShips _ _ _).skip fun _ _ => ?_
  split
  next hfew =>
    have hnone : excessShipsToDelete ships desired = [] := if_pos hfew
    rw [hnone]
    exact .pure (by simp [Nat.sub_eq_zero_of_le hfew])
  · refine (touches_deleteShips _).last fun _ _ => ?_
    split
    next hrest => exact .pure (by simp [hrest])
    next hrest => exact .pure (by simp [hrest])

lemma touches_writeShip (replace : Bool) (name : String) (updated : Ship) :
    Touches rules classes (writeShip replace name updated) [name] fun _ => True := by
  unfold writeShip
  split
  · exact (touches_request (.replaceShip name updated)).last fun _ _ => .pure trivial
  · exact (touches_request (.patchShip name updated)).last fun _ _ => .pure trivial

variable {templateSpec : ShipSpec}

lemma touches_updateShips (replace updateAll : Bool) (ships : List Ship) :
    Touches rules classes (updateShips templateSpec replace updateAll ships)
      ((outdated templateSpec updateAll ships).filterMap (·.name)) fun _ => True := by
  induction ships with
  | nil =>
    cases updateAll with
    | false | true => exact .pure trivial
  | cons ship rest ih =>
    have hpass : isOutdated templateSpec ship = false →
        outdated templateSpec updateAll (ship :: rest) = outdated templateSpec updateAll rest := by
      intro hpassed
      simp only [outdated, List.filter_cons, hpassed, Bool.false_eq_true, if_false]
    unfold updateShips
    split
    next hskip =>
      rw [hpass (by simp [isOutdated, hskip])]
      exact ih
    next hupdate =>
      split
      next hname =>
        rw [hpass (by simp [isOutdated, hname])]
        exact ih
      next name hname =>
        have houtdated : isOutdated templateSpec ship = true := by
          rw [isOutdated, Bool.eq_false_iff.2 hupdate, hname]
          rfl
        cases updateAll with
        | false =>
          have hone : outdated templateSpec false (ship :: rest) = [ship] := by
            simp [outdated, houtdated]
          rw [hone, List.filterMap_cons_some hname]
          exact (touches_writeShip replace name _).bind fun _ _ => .pure trivial
        | true =>
          have hall : outdated templateSpec true (ship :: rest) =
              ship :: outdated templateSpec true rest := by
            simp [outdated, houtdated]
          rw [hall, List.filterMap_cons_some hname, ← List.append_nil (List.filterMap _ _)]
          refine (touches_writeShip replace name _).bind fun _ _ => ?_
          refine Logs.bind (R := fun _ => True) ?_ fun _ _ => .pure trivial
          rw [← List.append_nil (List.filterMap _ _)]
          exact ih.bind fun _ _ => .pure trivial

lemma touches_applyTemplateUpdates (replace updateAll : Bool) (ships : List Ship) :
    Touches rules classes (applyTemplateUpdates ships templateSpec replace updateAll)
      ((outdated templateSpec updateAll ships).filterMap (·.name)) fun _ => True := by
  rw [← List.append_nil (List.filterMap _ _)]
  refine (touches_updateShips replace updateAll ships).bind fun written _ => ?_
  split <;> exact .pure trivial

lemma touches_reconcileTemplateUpdates (rs : ReplicaSet) (ships : List Ship)
    (kind : TemplateChangeKind) (blocks : Bool) :
    Touches rules classes (reconcileTemplateUpdates rs ships templateSpec kind blocks)
      ((if kind = .noChange then [] else outdated templateSpec
        (updateStrategy rs = some replicasetUpdateStrategyAll || kind = .hotplug) ships).filterMap
          (·.name)) fun _ => True := by
  cases kind with
  | noChange => exact .pure trivial
  | requiresRotation =>
    simpa [reconcileTemplateUpdates] using touches_applyTemplateUpdates true _ ships
  | inPlace | hotplug =>
    rw [← List.append_nil (List.filterMap _ _)]
    refine (touches_applyTemplateUpdates false _ ships).bind fun action _ => ?_
    split <;> exact .pure trivial

lemma touches_resolveRuntimeClass (template : ShipTemplateSpec) :
    Touches rules classes (resolveRuntimeClass template) [] fun rc =>
      rc = Cluster.runtimeClass { runtimeClasses := classes } template := by
  unfold resolveRuntimeClass Cluster.runtimeClass
  split
  next hname =>
    rw [hname]
    exact .pure rfl
  next name hname =>
    rw [hname]
    rintro choice w rfl
    refine ⟨runtimeClasses_exec w _ _, List.prefix_rfl, fun rc hrc => ⟨rfl, ?_⟩⟩
    replace hrc : ((choice 0).fate.read w (w.runtimeClasses.find? _)).2.mapError _ = .ok rc := hrc
    cases hfate : (choice 0).fate with
    | served =>
      rw [hfate] at hrc
      exact (Except.ok.inj hrc).symm
    | refused | lost =>
      rw [hfate] at hrc
      cases hrc

lemma touches_reconcileShips (rs : ReplicaSet) (spec : ReplicaSetSpec) (w : Cluster)
    (hcount : ¬ (surplus spec w).length < (matchingShips spec w).length - spec.size.toNat) :
    Touches rules w.runtimeClasses (reconcileShips rs spec (matchingShips spec w) spec.size.toNat)
      ((updates rs spec w).filterMap (·.name)) fun _ => True := by
  refine (touches_resolveRuntimeClass _).skip fun rc hrc => ?_
  obtain rfl : rc = w.runtimeClass (spec.shipTemplate.getD {}) := hrc
  dsimp only
  unfold updates
  dsimp only
  split
  next hwait =>
    rw [if_pos (.inr (.inl hwait))]
    exact .pure trivial
  next hready =>
    simp only [hcount, hready, Bool.false_eq_true, false_or]
    rw [← List.append_nil (List.filterMap _ _)]
    refine (touches_reconcileTemplateUpdates _ _ _ _).bind fun action _ => ?_
    split
    · exact .pure trivial
    · refine Logs.skip (R := fun _ => True) ?_ fun _ _ => ?_
      · unfold reportStatus
        split
        · exact .pure trivial
        · exact (touches_request (.replaceReplicaSetStatus _ _)).skip fun _ _ => .pure trivial
      · split <;> exact .pure trivial

/-- The Ships are listed first, and found as they are. -/
lemma touched_listShips {α : Type} {f : ClusterOp.listShips.Result → Controller α}
    {names : List String}
    {R : α → Prop} {w : Cluster} (h : Touches rules w.runtimeClasses (f w.ships) names R)
    (choice : ℕ → Choice) :
    (calls (exec rules) (request .listShips >>= f).run choice w).filterMap (·.2.touchedShip) <+:
        names ∧
      ∀ a, (run (exec rules) (request .listShips >>= f).run choice w).2 = .ok a →
        (calls (exec rules) (request .listShips >>= f).run choice w).filterMap (·.2.touchedShip) =
          names := by
  have hread : run (exec rules) (request .listShips).run choice w =
      (w, ((choice 0).fate.read w w.ships).2.mapError .client) := by
    show (((choice 0).fate.read w w.ships).1, ((choice 0).fate.read w w.ships).2.mapError _) = _
    cases (choice 0).fate with
    | served | refused | lost => rfl
  cases hresult : (run (exec rules) (request .listShips).run choice w).2 with
  | error e =>
    rw [run_block_of_error hresult, calls_block_of_error hresult]
    exact ⟨List.nil_prefix, fun _ ha => nomatch ha⟩
  | ok ships =>
    have hships : ships = w.ships := by
      rw [hread] at hresult
      cases hfate : (choice 0).fate with
      | served =>
        rw [hfate] at hresult
        exact (Except.ok.inj hresult).symm
      | refused | lost =>
        rw [hfate] at hresult
        cases hresult
    rw [run_block_of_ok hresult, calls_block_of_ok hresult, hread, hships]
    obtain ⟨-, hlog, hok⟩ := h (choicesAfter (exec rules) (request .listShips).run choice w) w rfl
    exact ⟨hlog, fun a ha => (hok a ha).1⟩

/-- **What a reconcile touches.**  It asks to delete or update the Ships it picks, one after the
other, until a request fails. -/
theorem touched_reconcile (rules : ShipRules) (event : ReplicaSetEvent) (w : Cluster)
    (choice : ℕ → Choice) :
    (calls (exec rules) event.reconcile.run choice w).filterMap (·.2.touchedShip) <+:
        (event.picks w).filterMap (·.name) ∧
      ∀ action, (run (exec rules) event.reconcile.run choice w).2 = .ok action →
        (calls (exec rules) event.reconcile.run choice w).filterMap (·.2.touchedShip) =
          (event.picks w).filterMap (·.name) := by
  cases event with
  | deleted rs =>
    simp only [ReplicaSetEvent.reconcile, reconcileDeletedReplicaset, ReplicaSetEvent.picks]
    cases hns : rs.namespace with
    | none => exact ⟨List.nil_prefix, fun _ ha => by cases ha⟩
    | some ns =>
      refine touched_listShips (R := fun _ => True) ?_ choice
      exact (touches_deleteShips _).last fun _ _ => .pure trivial
  | applied rs =>
    simp only [ReplicaSetEvent.reconcile, reconcileReplicaset, ReplicaSetEvent.picks]
    cases hns : rs.namespace with
    | none => exact ⟨List.nil_prefix, fun _ ha => by cases ha⟩
    | some ns =>
      cases hspec : rs.spec with
      | none => exact ⟨List.nil_prefix, fun _ ha => by cases ha⟩
      | some spec =>
        refine touched_listShips (R := fun _ => True) ?_ choice
        rw [List.filterMap_append]
        refine (touches_reconcileShipCount rs spec (matchingShips spec w) _).bind
          fun action haction => ?_
        cases action with
        | some action =>
          have hcount := of_decide_eq_true haction.symm
          simp only [updates, surplus, hcount, true_or, if_true]
          exact .pure trivial
        | none => exact touches_reconcileShips rs spec w (of_decide_eq_false haction.symm)

/-- What no request is about stays. -/
lemma mem_ships_exec {w : Cluster} {ship : Ship} (hship : ship ∈ w.ships) (c : Choice)
    {op : ClusterOp} (hop : ∀ name, op.touchedShip = some name → ship.name ≠ some name) :
    ship ∈ (exec rules w c op).1.ships := by
  refine exec_of (p := (ship ∈ ·.ships)) hship (fun _ _ => hship) (fun _ _ => hship)
    (fun _ _ => List.mem_append_left _ hship) (fun name f hname => ?_) fun name hname => ?_
  · exact List.mem_map.2 ⟨ship, hship, if_neg (hop name hname)⟩
  · exact List.mem_filterMap.2 ⟨ship, hship, if_pos (hop name hname)⟩

lemma mem_ships_run {α : Type} {p : Program ClusterOp.interface α} {choice : ℕ → Choice}
    {w : Cluster} {ship : Ship} (hship : ship ∈ w.ships)
    (h : ∀ name ∈ (calls (exec rules) p choice w).filterMap (·.2.touchedShip),
      ship.name ≠ some name) : ship ∈ (run (exec rules) p choice w).1.ships := by
  induction p generalizing choice w with
  | done a => exact hship
  | call op next ih =>
    refine ih _ (mem_ships_exec hship _ fun name hname => ?_) fun name hname => ?_
    · exact h name (List.mem_filterMap.2 ⟨(w, op), List.mem_cons_self, hname⟩)
    · obtain ⟨c, hc, hname⟩ := List.mem_filterMap.1 hname
      exact h name (List.mem_filterMap.2 ⟨c, List.mem_cons_of_mem _ hc, hname⟩)

end Requests

/-- **A ReplicaSet touches only its own Ships** exactly if those it picks are its own: so it is in
every reconcile that runs to its end, and whichever request fails, the condition is enough. -/
theorem reconcile_touches_own_iff (rules : ShipRules) (event : ReplicaSetEvent) (w : Cluster)
    (choice : ℕ → Choice) (hdistinct : Distinct Ship.name w.ships) :
    let ownPicks := ∀ ship ∈ event.picks w, ship.name.isSome → Own event.replicaset ship
    let touchesOwn :=
      (∀ c ∈ event.reconcile.run.calls (Cluster.exec rules) choice w, ∀ name,
        c.2.touchedShip = some name →
          ∃ ship ∈ w.ships, ship.name = some name ∧ Own event.replicaset ship) ∧
      ∀ ship ∈ w.ships, ¬ Own event.replicaset ship →
        ship ∈ (event.reconcile.run.run (Cluster.exec rules) choice w).1.ships
    (ownPicks → touchesOwn) ∧
      ∀ action, (event.reconcile.run.run (Cluster.exec rules) choice w).2 = .ok action →
        touchesOwn → ownPicks := by
  intro ownPicks touchesOwn
  obtain ⟨hlog, hall⟩ := touched_reconcile rules event w choice
  refine ⟨fun hown => ?_, fun action haction htouches ship hship hsome => ?_⟩
  · have hpicked : ∀ name ∈ (calls (exec rules) event.reconcile.run choice w).filterMap
        (·.2.touchedShip), ∃ ship ∈ w.ships, ship.name = some name ∧ Own event.replicaset ship := by
      intro name hname
      obtain ⟨ship, hship, hshipName⟩ := List.mem_filterMap.1 (hlog.subset hname)
      exact ⟨ship, mem_of_mem_picks hship, hshipName, hown ship hship (by rw [hshipName]; rfl)⟩
    refine ⟨fun c hc name hname => hpicked name (List.mem_filterMap.2 ⟨c, hc, hname⟩),
      fun ship hship hnot => mem_ships_run hship fun name hname heq => ?_⟩
    obtain ⟨picked, hpicked, hpickedName, hpickedOwn⟩ := hpicked name hname
    obtain rfl := hdistinct.eq_of_key_eq hship hpicked (heq.trans hpickedName.symm)
    exact hnot hpickedOwn
  · obtain ⟨name, hname⟩ := Option.isSome_iff_exists.1 hsome
    have hmem : name ∈ (event.picks w).filterMap (·.name) :=
      List.mem_filterMap.2 ⟨ship, hship, hname⟩
    rw [← hall action haction] at hmem
    obtain ⟨c, hc, htouched⟩ := List.mem_filterMap.1 hmem
    obtain ⟨own, hown, hownName, hisOwn⟩ := htouches.1 c hc name htouched
    obtain rfl := hdistinct.eq_of_key_eq hown (mem_of_mem_picks hship) (hownName.trans hname.symm)
    exact hisOwn

def labelledReplicaset (name : String) (replicas : Int) : ReplicaSet where
  objectMeta := some { name := some name, «namespace» := some "ns", uid := some name }
  spec := some { replicas := some replicas, selector := [("app", "web")] }

def labelledShip (rs : ReplicaSet) (suffix : String) : Ship := buildShip rs {} suffix

def labelledShips (rs : ReplicaSet) : List Ship := [labelledShip rs "1", labelledShip rs "2"]

/-- A ReplicaSet that is scaled to one deletes one of its two Ships, and touches no other. -/
theorem reconcile_touches_own_iff_scaled :
    ((ReplicaSetEvent.applied (labelledReplicaset "a" 1)).reconcile.run.run
        (Cluster.exec ⟨id, fun _ new => new⟩) (fun _ => {})
        { ships := labelledShips (labelledReplicaset "a" 1) }).1.ships.length = 1 ∧
      ∀ c ∈ (ReplicaSetEvent.applied (labelledReplicaset "a" 1)).reconcile.run.calls
        (exec ⟨id, fun _ new => new⟩) (fun _ => {})
        { ships := labelledShips (labelledReplicaset "a" 1) },
      ∀ name, c.2.touchedShip = some name →
        ∃ ship ∈ labelledShips (labelledReplicaset "a" 1),
          ship.name = some name ∧ Own (labelledReplicaset "a" 1) ship :=
  ⟨by decide +kernel,
    ((reconcile_touches_own_iff ⟨id, fun _ new => new⟩ (.applied (labelledReplicaset "a" 1)) _
      (fun _ => {}) (by decide +kernel)).1 (by decide +kernel)).1⟩

/-- The ReplicaSets `a` and `b` have the same selector.  When `b` is scaled to zero, it deletes a
Ship that `a` has made. -/
theorem reconcile_deletes_foreign_ship :
    Foreign (labelledReplicaset "b" 0) (labelledShip (labelledReplicaset "a" 1) "1") ∧
      labelledShip (labelledReplicaset "a" 1) "1" ∉
        ((ReplicaSetEvent.applied (labelledReplicaset "b" 0)).reconcile.run.run
          (Cluster.exec ⟨id, fun _ new => new⟩) (fun _ => {})
          { ships := [labelledShip (labelledReplicaset "a" 1) "1"] }).1.ships := by
  decide +kernel

end Tugboat.Workload
