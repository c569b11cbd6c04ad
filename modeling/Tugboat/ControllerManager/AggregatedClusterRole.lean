import Mathlib.Data.List.Sort
import Tugboat.Auth.Rbac
import Tugboat.ControllerManager.Cluster

/-!
# Aggregated roles

A ClusterRole may have its rules from others: it names label selectors, and a controller gives it
the rules of the roles that one of them selects, in a normal form and each once.  A role that has
these rules already is not written.

`reconcileAll_aggregates` says that the role then permits what the selected roles permit, and that a
second reconcile writes nothing.  A selector with a malformed requirement is to select no role.
`selectorMatches_eq_false_iff` says when it does not: a `NotIn` without values excludes nothing.
-/

namespace Tugboat.AggregatedClusterRole

open Authorization Rbac
open Workload (Action ClientError ControllerError Fate)

/-! ## Selectors -/

section Selectors

variable (labels : List (String × String))

def requirementMatches (requirement : LabelSelectorRequirement) : Bool :=
  if requirement.operator = "In" then
    (labels.lookup requirement.key).any fun value => requirement.values.any (· == value)
  else if requirement.operator = "NotIn" then
    match labels.lookup requirement.key with
    | none => true
    | some value => !requirement.values.any (· == value)
  else if requirement.operator = "Exists" then (labels.lookup requirement.key).isSome
  else if requirement.operator = "DoesNotExist" then !(labels.lookup requirement.key).isSome
  else false

def selectorMatches (selector : LabelSelector) : Bool :=
  if selector.matchLabels.isEmpty && selector.matchExpressions.isEmpty then false
  else if selector.matchLabels.all fun entry => labels.lookup entry.1 == some entry.2 then
    selector.matchExpressions.all (requirementMatches labels)
  else false

def selectorsMatch (selectors : List LabelSelector) : Bool :=
  if selectors.isEmpty then false else selectors.any (selectorMatches labels)

/-- The operator is not known, or it is one that needs values and there are none. -/
def Malformed (requirement : LabelSelectorRequirement) : Prop :=
  requirement.operator ∉ ["In", "NotIn", "Exists", "DoesNotExist"] ∨
    requirement.operator ∈ ["In", "NotIn"] ∧ requirement.values = []

/-- The labels do not have what a well-formed requirement asks for. -/
def Unmet (requirement : LabelSelectorRequirement) : Prop :=
  match labels.lookup requirement.key with
  | none => requirement.operator ∈ ["In", "Exists"]
  | some value =>
    requirement.operator = "In" ∧ value ∉ requirement.values ∨
      requirement.operator = "NotIn" ∧ value ∈ requirement.values ∨
      requirement.operator = "DoesNotExist"

lemma requirementMatches_eq_false_iff (requirement : LabelSelectorRequirement) :
    requirementMatches labels requirement = false ↔
      Malformed requirement ∧ requirement.operator ≠ "NotIn" ∨
        ¬ Malformed requirement ∧ Unmet labels requirement := by
  simp only [requirementMatches, Malformed, Unmet, List.any_beq']
  -- The code's own cases; with no known operator the requirement is malformed.
  by_cases hIn : requirement.operator = "In"
  · cases labels.lookup requirement.key with
    | none => simp [hIn, em]
    | some value =>
      by_cases hvalues : requirement.values = []
      · simp [hIn, hvalues]
      · simp [hIn, hvalues]
  by_cases hNotIn : requirement.operator = "NotIn"
  · cases labels.lookup requirement.key with
    | none => simp [hNotIn]
    | some value =>
      by_cases hvalues : requirement.values = []
      · simp [hNotIn, hvalues]
      · simp [hNotIn, hvalues]
  by_cases hExists : requirement.operator = "Exists"
  · cases labels.lookup requirement.key with
    | none | some value => simp [hExists]
  by_cases hDoesNotExist : requirement.operator = "DoesNotExist"
  · cases labels.lookup requirement.key with
    | none | some value => simp [hDoesNotExist]
  · simp [hIn, hNotIn, hExists, hDoesNotExist]

lemma selectorMatches_eq_true_iff (selector : LabelSelector) :
    selectorMatches labels selector = true ↔
      (selector.matchLabels ≠ [] ∨ selector.matchExpressions ≠ []) ∧
        (∀ entry ∈ selector.matchLabels, labels.lookup entry.1 = some entry.2) ∧
        ∀ requirement ∈ selector.matchExpressions,
          requirementMatches labels requirement = true := by
  unfold selectorMatches
  split
  next hempty => simp_all
  next hentries =>
    have hsome : selector.matchLabels ≠ [] ∨ selector.matchExpressions ≠ [] := by
      simpa [or_iff_not_imp_left] using hentries
    simp [hsome]

/-- A selector with a malformed requirement matches no role with the labels iff it also has one that
is malformed otherwise than as a `NotIn` without values, or asks for what the labels do not have. -/
theorem selectorMatches_eq_false_iff (selector : LabelSelector)
    (hmalformed : ∃ requirement ∈ selector.matchExpressions, Malformed requirement) :
    selectorMatches labels selector = false ↔
      (∃ requirement ∈ selector.matchExpressions,
        Malformed requirement ∧ requirement.operator ≠ "NotIn") ∨
      (∃ entry ∈ selector.matchLabels, labels.lookup entry.1 ≠ some entry.2) ∨
      ∃ requirement ∈ selector.matchExpressions,
        ¬ Malformed requirement ∧ Unmet labels requirement := by
  obtain ⟨malformed, hmem, -⟩ := hmalformed
  have hsome : selector.matchLabels ≠ [] ∨ selector.matchExpressions ≠ [] :=
    Or.inr (List.ne_nil_of_mem hmem)
  have hfails : selectorMatches labels selector = false ↔
      (∃ entry ∈ selector.matchLabels, labels.lookup entry.1 ≠ some entry.2) ∨
        ∃ requirement ∈ selector.matchExpressions,
          requirementMatches labels requirement = false := by
    rw [← Bool.not_eq_true, selectorMatches_eq_true_iff]
    simp only [hsome, true_and, not_and_or, not_forall, exists_prop, Bool.not_eq_true, ne_eq]
  simp only [hfails, requirementMatches_eq_false_iff, and_or_left, exists_or]
  exact or_left_comm

theorem selectorMatches_eq_false_iff_unknown :
    selectorMatches [("tier", "view")] ⟨[], [⟨"tier", "Near", []⟩]⟩ = false :=
  (selectorMatches_eq_false_iff [("tier", "view")] ⟨[], [⟨"tier", "Near", []⟩]⟩
    ⟨_, List.mem_singleton_self _, Or.inl (by decide)⟩).2
    (Or.inl ⟨_, List.mem_singleton_self _, Or.inl (by decide), by decide⟩)

end Selectors

/-! ## Rules -/

section Rules

/-- `Vec::dedup`: of equal neighbours one is kept. -/
def dedup : List String → List String
  | [] => []
  | [a] => [a]
  | a :: b :: l => if a = b then dedup (b :: l) else a :: dedup (b :: l)

def sortedUnique (values : List String) : List String := dedup (values.insertionSort (· ≤ ·))

def normalizeRule (rule : PolicyRule) : PolicyRule where
  apiGroups := sortedUnique rule.apiGroups
  resources := sortedUnique rule.resources
  resourceNames := sortedUnique rule.resourceNames
  verbs := sortedUnique rule.verbs

def addRule (aggregated : List PolicyRule) (rule : PolicyRule) : List PolicyRule :=
  if normalizeRule rule ∈ aggregated then aggregated else aggregated ++ [normalizeRule rule]

def addRules (aggregationRule : AggregationRule) (aggregated : List PolicyRule)
    (child : ClusterRole) : List PolicyRule :=
  if selectorsMatch ((child.objectMeta.map (·.labels)).getD []) aggregationRule.clusterRoleSelectors
  then child.rules.foldl addRule aggregated
  else aggregated

/-- The rules of the selected roles, in the order of the list. -/
def aggregateRules (aggregationRule : AggregationRule) (children : List ClusterRole) :
    List PolicyRule :=
  children.foldl (addRules aggregationRule) []

def rulesEquivalent (current desired : List PolicyRule) : Bool :=
  current.length == desired.length &&
    ((current.map normalizeRule).all (· ∈ desired.map normalizeRule) &&
      (desired.map normalizeRule).all (· ∈ current.map normalizeRule))

/-- A `NotIn` without values selects every role, and its rules are aggregated. -/
theorem notIn_without_values_aggregates :
    Malformed ⟨"tier", "NotIn", []⟩ ∧
      selectorMatches [("tier", "admin")] ⟨[], [⟨"tier", "NotIn", []⟩]⟩ = true ∧
      aggregateRules ⟨[⟨[], [⟨"tier", "NotIn", []⟩]⟩]⟩
        [{ objectMeta := some { name := some "admin", labels := [("tier", "admin")] },
           rules := [{ apiGroups := ["*"], resources := ["*"], verbs := ["*"] }] }] =
        [{ apiGroups := ["*"], resources := ["*"], verbs := ["*"] }] :=
  ⟨Or.inr ⟨by decide, rfl⟩, by decide, by decide⟩

/-- Some rule of the list matches the request. -/
def Permits (rules : List PolicyRule) (request : AuthorizationRequest) : Prop :=
  ∃ rule ∈ rules, ruleMatchesRequest rule request = true

/-- One of the selectors selects the role. -/
def Selected (aggregationRule : AggregationRule) (child : ClusterRole) : Prop :=
  ∃ selector ∈ aggregationRule.clusterRoleSelectors,
    selectorMatches ((child.objectMeta.map (·.labels)).getD []) selector = true

variable {agg : AggregationRule} {aggregated rules rules' : List PolicyRule} {rule : PolicyRule}
  {request : AuthorizationRequest}

lemma mem_dedup {a : String} : ∀ {l : List String}, a ∈ dedup l ↔ a ∈ l
  | [] | [_] => Iff.rfl
  | b :: c :: l => by
    have htail : a ∈ dedup (c :: l) ↔ a ∈ c :: l := mem_dedup
    unfold dedup
    split
    next heq => simp [htail, heq]
    next => simp [htail]

lemma mem_sortedUnique {a : String} {values : List String} :
    a ∈ sortedUnique values ↔ a ∈ values :=
  mem_dedup.trans (List.perm_insertionSort _ _).mem_iff

/-- Which requests a rule matches depends on the values it has, not on their order. -/
lemma ruleMatchesRequest_normalizeRule :
    ruleMatchesRequest (normalizeRule rule) request = ruleMatchesRequest rule request := by
  have hany : ∀ values (p : String → Bool), (sortedUnique values).any p = values.any p := by
    intro values p
    rw [Bool.eq_iff_iff]
    simp [mem_sortedUnique]
  have hempty : ∀ values, (sortedUnique values).isEmpty = values.isEmpty := by
    intro values
    rw [Bool.eq_iff_iff, List.isEmpty_iff, List.isEmpty_iff, List.eq_nil_iff_forall_not_mem,
      List.eq_nil_iff_forall_not_mem]
    simp [mem_sortedUnique]
  simp only [ruleMatchesRequest, matchesValue, matchesResourceName, normalizeRule, hany, hempty]

lemma permits_addRule : Permits (addRule aggregated rule) request ↔
    Permits aggregated request ∨ ruleMatchesRequest rule request = true := by
  unfold addRule
  split
  next hmem =>
    refine (or_iff_left_of_imp fun hmatches => ⟨_, hmem, ?_⟩).symm
    rwa [ruleMatchesRequest_normalizeRule]
  next => simp [Permits, or_and_right, exists_or, ruleMatchesRequest_normalizeRule]

lemma permits_foldl_addRule : Permits (rules.foldl addRule aggregated) request ↔
    Permits aggregated request ∨ Permits rules request := by
  induction rules generalizing aggregated with
  | nil => simp [Permits]
  | cons rule rules ih =>
    rw [List.foldl_cons, ih, permits_addRule]
    simp [Permits, or_assoc]

lemma permits_addRules {child : ClusterRole} :
    Permits (addRules agg aggregated child) request ↔
      Permits aggregated request ∨ Selected agg child ∧ Permits child.rules request := by
  have hselected : selectorsMatch ((child.objectMeta.map (·.labels)).getD [])
      agg.clusterRoleSelectors = true ↔ Selected agg child := by
    cases hselectors : agg.clusterRoleSelectors with
    | nil | cons selector selectors => simp [selectorsMatch, Selected, hselectors]
  unfold addRules
  split
  next hmatch => simp [permits_foldl_addRule, hselected.1 hmatch]
  next hnot => simp [mt hselected.2 hnot]

/-- The aggregated rules permit what the selected roles permit. -/
lemma permits_aggregateRules {children : List ClusterRole} :
    Permits (aggregateRules agg children) request ↔
      ∃ child ∈ children, Selected agg child ∧ Permits child.rules request := by
  have hfold : ∀ aggregated, Permits (children.foldl (addRules agg) aggregated) request ↔
      Permits aggregated request ∨
        ∃ child ∈ children, Selected agg child ∧ Permits child.rules request := by
    induction children with
    | nil => simp
    | cons child children ih => simp [ih, permits_addRules, or_assoc]
  refine (hfold []).trans (or_iff_right ?_)
  simp [Permits]

lemma permits_of_normalized_subset
    (hsubset : ∀ rule ∈ rules, normalizeRule rule ∈ rules'.map normalizeRule)
    (h : Permits rules request) : Permits rules' request := by
  obtain ⟨rule, hrule, hmatches⟩ := h
  obtain ⟨rule', hrule', heq⟩ := List.mem_map.1 (hsubset rule hrule)
  refine ⟨rule', hrule', ?_⟩
  rwa [← ruleMatchesRequest_normalizeRule, heq, ruleMatchesRequest_normalizeRule]

lemma permits_iff_of_rulesEquivalent (h : rulesEquivalent rules rules' = true) :
    Permits rules request ↔ Permits rules' request := by
  simp only [rulesEquivalent, Bool.and_eq_true, List.all_eq_true, decide_eq_true_eq,
    List.forall_mem_map] at h
  exact ⟨permits_of_normalized_subset h.2.1, permits_of_normalized_subset h.2.2⟩

lemma rulesEquivalent_refl : rulesEquivalent rules rules = true := by
  simp only [rulesEquivalent, beq_self_eq_true, Bool.true_and, Bool.and_self, List.all_eq_true]
  exact fun rule hrule => decide_eq_true hrule

end Rules

/-! ## The controller -/

/-- The stored roles by name, and the PUTs so far, each with whether its answer was a success. -/
structure World where
  get : String → Option ClusterRole
  puts : List (String × Bool) := []

/-- The names of the stored roles; each role is stored under its own name. -/
structure RoleStore where
  names : List String
  get : String → Option ClusterRole
  name_get : ∀ name role, get name = some role → role.objectMeta.bind (·.name) = some name

section Controller

-- What the server does to the metadata of the role it stores with the `n`-th PUT.
variable (stamp : ℕ → Option ObjectMeta → Option ObjectMeta)

/-- A PUT, which may be refused, or stored although the answer is an error. -/
def World.put (w : World) (name : String) (role : ClusterRole) (fate : Fate) :
    World × Except ClientError Unit :=
  let stored := { role with objectMeta := stamp w.puts.length role.objectMeta }
  let out := fate.write w.get (.ok (Function.update w.get name (some stored)))
  (⟨out.1, w.puts ++ [(name, out.2.isOk)]⟩, out.2)

/-- A role that is gone or was changed meanwhile is left to the event of that change. -/
def skipOutdated : Except ClientError Unit → Except ControllerError Unit
  | .error (.api code) =>
    if code = 404 ∨ code = 409 then .ok () else .error (.client (.api code))
  | .error e => .error (.client e)
  | .ok _ => .ok ()

/-- The PUT that the loop of `reconcile_all` makes for a role, if there is one to make. -/
def update (children : List ClusterRole) (parent : ClusterRole) : Option (String × ClusterRole) :=
  match parent.objectMeta.bind (·.name), parent.aggregationRule with
  | some name, some aggregationRule =>
    let newRules := aggregateRules aggregationRule children
    if rulesEquivalent parent.rules newRules then none
    else some (name, { parent with rules := newRules })
  | _, _ => none

/-- The loop makes the PUTs one by one, up to the first failure. -/
def replaceAll : List (String × ClusterRole) → (ℕ → Fate) → World →
    World × Except ControllerError Unit
  | [], _, w => (w, .ok ())
  | (name, updated) :: updates, fates, w =>
    let out := w.put stamp name updated (fates 0)
    match skipOutdated out.2 with
    | .ok _ => replaceAll updates (fun n => fates (n + 1)) out.1
    | .error e => (out.1, .error e)

def childrenOf (roles : List ClusterRole) : List ClusterRole :=
  roles.filter (·.aggregationRule.isNone)

/-- The names are those of the list request, which may fail as well. -/
def reconcileAll (names : List String) (list : Fate) (fates : ℕ → Fate) (w : World) :
    World × Except ControllerError Action :=
  match (list.read w (names.filterMap w.get)).2 with
  | .error e => (w, .error (.client e))
  | .ok clusterRoles =>
    let parents := clusterRoles.filter (·.aggregationRule.isSome)
    if parents.isEmpty then (w, .ok .awaitChange)
    else
      let out := replaceAll stamp (parents.filterMap (update (childrenOf clusterRoles))) fates w
      (out.1, out.2.map fun _ => .awaitChange)

end Controller

/-! ## What a reconcile leaves -/

section Reconcile

variable (s : RoleStore)

def RoleStore.roles : List ClusterRole := s.names.filterMap s.get

/-- What a role is to have. -/
def RoleStore.desired (agg : AggregationRule) : List PolicyRule :=
  aggregateRules agg (childrenOf s.roles)

/-- The PUT gives a role the desired rules. -/
def Proper (put : String × ClusterRole) : Prop :=
  ∃ role agg, s.get put.1 = some role ∧ role.aggregationRule = some agg ∧
    put.2 = { role with rules := s.desired agg }

/-- What is stored under a name is what such a PUT has stored, or it is not changed and no PUT to it
was answered with success. -/
def Follows (w : World) (name : String) : Prop :=
  w.get name = s.get name ∧ (name, true) ∉ w.puts ∨
    ∃ role m, Proper s (name, role) ∧ w.get name = some { role with objectMeta := m }

variable {s} {stamp : ℕ → Option ObjectMeta → Option ObjectMeta} {w : World} {name : String}
  {put : String × ClusterRole} {puts : List (String × ClusterRole)} {fate : Fate}

lemma get_put_of_ne (hname : name ≠ put.1) :
    (w.put stamp put.1 put.2 fate).1.get name = w.get name := by
  cases fate with
  | refused e => rfl
  | served | lost e => exact Function.update_of_ne hname ..

lemma follows_put (h : Follows s w name) (hput : Proper s put) :
    Follows s (w.put stamp put.1 put.2 fate).1 name := by
  by_cases hname : name = put.1
  · subst hname
    cases fate with
    | refused e => simpa [Follows, World.put, Fate.write, Except.isOk, Except.toBool] using h
    | served | lost e => exact Or.inr ⟨put.2, _, hput, Function.update_self ..⟩
  · unfold Follows
    rw [get_put_of_ne hname]
    simpa [Follows, World.put, hname] using h

lemma follows_replaceAll (h : Follows s w name) (hputs : ∀ put ∈ puts, Proper s put)
    (fates : ℕ → Fate) : Follows s (replaceAll stamp puts fates w).1 name := by
  induction puts generalizing w fates with
  | nil => exact h
  | cons put puts ih =>
    have hput : Follows s (w.put stamp put.1 put.2 (fates 0)).1 name :=
      follows_put h (hputs put List.mem_cons_self)
    unfold replaceAll
    dsimp only
    split
    next => exact ih hput (fun put hmem => hputs put (List.mem_cons_of_mem _ hmem)) _
    next => exact hput

lemma puts_replaceAll {fates : ℕ → Fate} (hserved : ∀ n, fates n = .served) :
    (replaceAll stamp puts fates w).1.puts = w.puts ++ puts.map fun put => (put.1, true) := by
  induction puts generalizing w fates with
  | nil => simp [replaceAll]
  | cons put puts ih =>
    simp [replaceAll, World.put, hserved, Fate.write, skipOutdated, ih, Except.isOk, Except.toBool]

variable {agg : AggregationRule} {role : ClusterRole}

/-- The PUTs a reconcile makes if it has read these roles. -/
def updates (roles : List ClusterRole) : List (String × ClusterRole) :=
  (roles.filter (·.aggregationRule.isSome)).filterMap (update (childrenOf roles))

lemma world_reconcileAll {names : List String} {fates : ℕ → Fate} (list : Fate) :
    (reconcileAll stamp names list fates w).1 =
      if list = .served then (replaceAll stamp (updates (names.filterMap w.get)) fates w).1
      else w := by
  cases list with
  | refused e | lost e => rfl
  | served =>
    simp only [reconcileAll, Fate.read, updates, if_true]
    split
    next hempty =>
      rw [List.isEmpty_iff.1 hempty]
      rfl
    next => rfl

lemma update_eq_some {children : List ClusterRole} (h : update children role = some put) :
    role.objectMeta.bind (·.name) = some put.1 ∧ ∃ agg, role.aggregationRule = some agg ∧
      put.2 = { role with rules := aggregateRules agg children } := by
  unfold update at h
  split at h
  next name agg hname hagg =>
    dsimp only at h
    split at h
    next => cases h
    next =>
      cases h
      exact ⟨hname, agg, hagg, rfl⟩
  next => cases h

lemma update_of_equivalent {children : List ClusterRole} (hagg : role.aggregationRule = some agg)
    (h : rulesEquivalent role.rules (aggregateRules agg children) = true) :
    update children role = none := by
  unfold update
  split
  next hagg' =>
    obtain rfl := Option.some.inj (hagg.symm.trans hagg')
    exact if_pos h
  next => rfl

lemma proper_of_mem_updates (h : put ∈ updates s.roles) : Proper s put := by
  obtain ⟨role, hrole, hput⟩ := List.mem_filterMap.1 h
  obtain ⟨name, -, hget⟩ := List.mem_filterMap.1 (List.mem_of_mem_filter hrole)
  obtain ⟨hname, agg, hagg, hput⟩ := update_eq_some hput
  obtain rfl := Option.some.inj ((s.name_get name role hget).symm.trans hname)
  exact ⟨role, agg, hget, hagg, hput⟩

lemma follows_reconcileAll (list : Fate) (fates : ℕ → Fate) (name : String) :
    Follows s (reconcileAll stamp s.names list fates ⟨s.get, []⟩).1 name := by
  have hinit : Follows s ⟨s.get, []⟩ name := Or.inl ⟨rfl, List.not_mem_nil⟩
  rw [world_reconcileAll]
  split
  next => exact follows_replaceAll hinit (fun put => proper_of_mem_updates) fates
  next => exact hinit

/-- The reconcile has processed the role of a name: it needs no PUT, or its PUT succeeded. -/
def Processed (s : RoleStore) (w : World) (name : String) (role : ClusterRole)
    (agg : AggregationRule) : Prop :=
  rulesEquivalent role.rules (s.desired agg) = true ∨ (name, true) ∈ w.puts

lemma equivalent_of_processed (h : Follows s w name) (hget : s.get name = some role)
    (hagg : role.aggregationRule = some agg) (hprocessed : Processed s w name role agg) :
    ∃ stored, w.get name = some stored ∧ rulesEquivalent stored.rules (s.desired agg) = true := by
  rcases h with ⟨hkept, hunwritten⟩ | ⟨_, m, ⟨role', agg', hget', hagg', rfl⟩, hstored⟩
  · exact ⟨role, hkept.trans hget, hprocessed.resolve_right hunwritten⟩
  · obtain rfl := Option.some.inj (hget.symm.trans hget')
    obtain rfl := Option.some.inj (hagg.symm.trans hagg')
    exact ⟨_, hstored, rulesEquivalent_refl⟩

lemma childrenOf_eq (h : ∀ name, Follows s w name) :
    childrenOf (s.names.filterMap w.get) = childrenOf s.roles := by
  simp only [childrenOf, RoleStore.roles, List.filter_filterMap]
  refine List.filterMap_congr fun name _ => ?_
  rcases h name with ⟨hkept, -⟩ | ⟨_, m, ⟨role, agg, hget, hagg, rfl⟩, hstored⟩
  · rw [hkept]
  · rw [hget, hstored]
    simp [Option.filter, hagg]

/-- Where every PUT was answered with success, no role needs one any more. -/
lemma updates_eq_nil (h : ∀ name, Follows s w name)
    (hputs : ∀ put ∈ updates s.roles, (put.1, true) ∈ w.puts) :
    updates (s.names.filterMap w.get) = [] := by
  refine List.filterMap_eq_nil_iff.2 fun stored hstored => ?_
  have hmem := List.mem_filter.1 hstored
  obtain ⟨name, hname, hget⟩ := List.mem_filterMap.1 hmem.1
  rw [childrenOf_eq h]
  rcases h name with ⟨hkept, hunwritten⟩ | ⟨_, m, ⟨role, agg, -, hagg, rfl⟩, hwritten⟩
  · rw [hkept] at hget
    refine Option.eq_none_iff_forall_ne_some.2 fun put hput => hunwritten ?_
    obtain rfl := Option.some.inj
      ((s.name_get name stored hget).symm.trans (update_eq_some hput).1)
    exact hputs put (List.mem_filterMap.2
      ⟨stored, List.mem_filter.2 ⟨List.mem_filterMap.2 ⟨_, hname, hget⟩, hmem.2⟩, hput⟩)
  · obtain rfl := Option.some.inj (hwritten.symm.trans hget)
    exact update_of_equivalent hagg rulesEquivalent_refl

end Reconcile

/-- However the requests of a reconcile end, a role that it has processed permits a request iff some
selected role does that is not aggregated itself.  If all requests are served, a second reconcile
makes no PUT. -/
theorem reconcileAll_aggregates (s : RoleStore) (stamp : ℕ → Option ObjectMeta → Option ObjectMeta)
    (list : Fate) (fates : ℕ → Fate) :
    let final := (reconcileAll stamp s.names list fates ⟨s.get, []⟩).1
    (∀ name ∈ s.names, ∀ role agg, s.get name = some role → role.aggregationRule = some agg →
      Processed s final name role agg →
      ∃ stored, final.get name = some stored ∧ ∀ request, Permits stored.rules request ↔
        ∃ child ∈ s.roles, child.aggregationRule = none ∧ Selected agg child ∧
          Permits child.rules request) ∧
    (list = .served → (∀ n, fates n = .served) → ∀ list' fates',
      (reconcileAll stamp s.names list' fates' ⟨final.get, []⟩).1.puts = []) := by
  intro final
  have hfollows : ∀ name, Follows s final name := follows_reconcileAll list fates
  constructor
  · intro name _ role agg hget hagg hprocessed
    obtain ⟨stored, hstored, hequivalent⟩ :=
      equivalent_of_processed (hfollows name) hget hagg hprocessed
    refine ⟨stored, hstored, fun request => ?_⟩
    rw [permits_iff_of_rulesEquivalent hequivalent, RoleStore.desired, permits_aggregateRules]
    simp [childrenOf, and_assoc]
  · rintro rfl hserved list' fates'
    have hputs : final.puts = [] ++ (updates s.roles).map fun put => (put.1, true) :=
      (congrArg World.puts (world_reconcileAll .served)).trans (puts_replaceAll hserved)
    rw [world_reconcileAll, updates_eq_nil hfollows fun put hput => ?_]
    · split <;> rfl
    · rw [hputs]
      exact List.mem_map_of_mem hput

/-- One role is to have the rules of those with the label of the other. -/
def viewRoles : RoleStore where
  names := ["ships", "view"]
  get name :=
    if name = "view" then some
      { objectMeta := some { name := some "view" },
        aggregationRule := some ⟨[⟨[("to", "view")], []⟩]⟩ }
    else if name = "ships" then some
      { objectMeta := some { name := some "ships", labels := [("to", "view")] },
        rules := [{ resources := ["ships"], verbs := ["list", "get"] }] }
    else none
  name_get name role h := by
    split_ifs at h with hview hships
    · obtain rfl := Option.some.inj h
      rw [hview]
      rfl
    · obtain rfl := Option.some.inj h
      rw [hships]
      rfl

theorem reconcileAll_aggregates_view :
    let final := (reconcileAll (fun _ m => m) viewRoles.names .served (fun _ => .served)
      ⟨viewRoles.get, []⟩).1
    final.puts = [("view", true)] ∧ ∃ stored, final.get "view" = some stored ∧ ∀ request,
      Permits stored.rules request ↔ ∃ child ∈ viewRoles.roles, child.aggregationRule = none ∧
        Selected ⟨[⟨[("to", "view")], []⟩]⟩ child ∧ Permits child.rules request :=
  ⟨by decide, (reconcileAll_aggregates viewRoles (fun _ m => m) .served fun _ => .served).1 "view"
    (by decide) _ _ rfl rfl (.inr (by decide))⟩

end Tugboat.AggregatedClusterRole
