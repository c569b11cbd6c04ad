import Tugboat.Lib.Text
import Tugboat.Resources.Authorization
import Tugboat.Store.Collection

/-!
# Role based access control

The authorizer of `rbac_authorizer.rs`: a program that lists the bindings a request can use, fetches
the role of each binding whose subjects match the user, and allows the request if one of the rules
so collected matches it.  Every call to the store can fail, and a failure denies.

`Permits` is the meaning of the stored objects: some binding with a matching subject refers to an
existing role with a matching rule.  `wp_authorizeImplWithStore` connects the two: whenever the
authorizer comes to a decision, it allows exactly what is permitted.  That other namespaces do not
matter is then a fact about `Permits`.
-/

namespace Tugboat

/-! ## Requests -/

inductive UserIdentity
  | anonymous
  | serviceAccount
  | x509
  | oidc
  deriving DecidableEq, Repr

structure UserInfo where
  username : String
  groups : List String
  identity : UserIdentity
  deriving DecidableEq, Repr

def UserInfo.isServiceAccount (user : UserInfo) : Bool := user.identity = .serviceAccount

structure AuthorizationRequest where
  user : UserInfo
  verb : String
  apiGroup : String
  resource : String
  resourceName : Option String
  «namespace» : Option String
  deriving DecidableEq, Repr

inductive AuthorizationDecision
  | allowed
  | denied (reason : String)
  deriving DecidableEq, Repr

/-- The text of a store error.  The text of the client library's own error is left out. -/
def StoreError.text : StoreError → String
  | .fieldMissing field => "Required field missing: field: '" ++ field ++ "'"
  | .invalidField field reason =>
    "Invalid field value: field: '" ++ field ++ "', reason: '" ++ reason ++ "'"
  | .etcd => "Etcd error"
  | .optimisticLockFailed revision => "Optimistic lock error: revision: " ++ toString revision

namespace Rbac

def apiGroup : String := "authorization"

def systemMastersGroup : String := "system:masters"

/-! ## Matching -/

def isSuperuser (user : UserInfo) : Bool := user.groups.any (· == systemMastersGroup)

def parseServiceAccountUsername (username : String) : Option (String × String) := do
  Text.splitOnce ':' (← Text.stripStart "system:serviceaccount:" username)

def serviceAccountSubjectMatchesUser (subject : Subject) (user : UserInfo) : Bool :=
  if !user.isServiceAccount then false
  else
    match parseServiceAccountUsername user.username with
    | none => false
    | some (ns, name) => subject.namespace == some ns && subject.name == name

def subjectMatchesUser (subject : Subject) (user : UserInfo) : Bool :=
  if subject.kind = "User" then subject.name == user.username
  else if subject.kind = "Group" then user.groups.any (· == subject.name)
  else if subject.kind = "ServiceAccount" then serviceAccountSubjectMatchesUser subject user
  else false

def subjectsMatchUser (subjects : List Subject) (user : UserInfo) : Bool :=
  subjects.any (subjectMatchesUser · user)

def matchesValue (values : List String) (requested : String) : Bool :=
  values.any fun value => value == "*" || value == requested

def matchesResourceName (resourceNames : List String) (requested : Option String) : Bool :=
  resourceNames.isEmpty || requested.any fun requested => resourceNames.any (· == requested)

def ruleMatchesRequest (rule : PolicyRule) (request : AuthorizationRequest) : Bool :=
  matchesValue rule.apiGroups request.apiGroup && matchesValue rule.resources request.resource &&
    matchesValue rule.verbs request.verb &&
    matchesResourceName rule.resourceNames request.resourceName

end Rbac

/-! ## The store as the authorizer sees it -/

/-- The stored objects that decide about requests. -/
structure RbacStore where
  clusterRoles : Collection ClusterRole
  clusterRoleBindings : Collection ClusterRoleBinding
  roles : Collection Role
  roleBindings : Collection RoleBinding

/-- One evaluation of the policy: the store, and whether a call to it has failed. -/
structure RbacSession where
  store : RbacStore
  failed : Bool := false

/-- The calls of the authorizer to the store. -/
inductive RbacOp
  | listClusterRoleBindings
  | listRoleBindings («namespace» : String)
  | getClusterRole (name : String)
  | getRole («namespace» name : String)
  deriving DecidableEq, Repr

namespace RbacOp

abbrev Result : RbacOp → Type
  | .listClusterRoleBindings => List (ContentData ClusterRoleBinding)
  | .listRoleBindings _ => List (ContentData RoleBinding)
  | .getClusterRole _ => Option (ContentData ClusterRole)
  | .getRole _ _ => Option (ContentData Role)

abbrev interface : Interface where
  Op := RbacOp
  Reply op := Except StoreError op.Result

/-- The reply to a call that does not fail. -/
def answer (s : RbacStore) : (op : RbacOp) → Except StoreError op.Result
  | .listClusterRoleBindings => .ok (s.clusterRoleBindings.list none)
  | .listRoleBindings ns => .ok (s.roleBindings.list (some ns))
  | .getClusterRole name => s.clusterRoles.get none name
  | .getRole ns name => s.roles.get (some ns) name

/-- The calls only read.  The outside decides whether and how a call fails. -/
def exec : Program.Semantics interface RbacSession (Option StoreError)
  | w, none, op => (w, answer w.store op)
  | w, some e, _ => ({ w with failed := true }, .error e)

end RbacOp

namespace Rbac

/-! ## The authorizer -/

abbrev Reader (α : Type) : Type := ExceptT StoreError (Program RbacOp.interface) α

def fetch (op : RbacOp) : Reader op.Result := ExceptT.mk (.call op .done)

/-- The rules of the role a binding refers to.  The namespace is that of the binding. -/
def resolveRoleRef (roleRef : Option RoleRef) (ns : Option String) : Reader (List PolicyRule) :=
  match roleRef with
  | none => return []
  | some roleRef =>
    if roleRef.apiGroup ≠ "" ∧ roleRef.apiGroup ≠ apiGroup then return []
    else if roleRef.kind = "Role" then
      match ns with
      | none => return []
      | some ns => do
        let role ← fetch (.getRole ns roleRef.name)
        return (role.map fun role => role.applyRevision.rules).getD []
    else if roleRef.kind = "ClusterRole" then do
      let role ← fetch (.getClusterRole roleRef.name)
      return (role.map fun role => role.applyRevision.rules).getD []
    else return []

/-- The body of the loops over bindings: add the binding's rules if it is for the user. -/
def extendRules (user : UserInfo) (ns : Option String) (rules : List PolicyRule)
    (binding : List Subject × Option RoleRef) : Reader (List PolicyRule) := do
  if !subjectsMatchUser binding.1 user then return rules
  else return rules ++ (← resolveRoleRef binding.2 ns)

def clusterRoleRules (user : UserInfo) : Reader (List PolicyRule) := do
  let bindings ← fetch .listClusterRoleBindings
  ((bindings.map (·.applyRevision)).map fun b => (b.subjects, b.roleRef)).foldlM
    (extendRules user none) []

def roleBindingRules (user : UserInfo) (ns : String) : Reader (List PolicyRule) := do
  let bindings ← fetch (.listRoleBindings ns)
  ((bindings.map (·.applyRevision)).map fun b => (b.subjects, b.roleRef)).foldlM
    (extendRules user (some ns)) []

def deniedReason (request : AuthorizationRequest) : String :=
  "RBAC denied " ++ request.verb ++ " access to " ++ request.apiGroup ++ "/" ++ request.resource

def authorizeImplWithStore (request : AuthorizationRequest) : Reader AuthorizationDecision := do
  if isSuperuser request.user then return .allowed
  else
    let rules ← clusterRoleRules request.user
    let more ← (match request.namespace with
      | some ns => roleBindingRules request.user ns
      | none => pure [])
    if (rules ++ more).any (ruleMatchesRequest · request) then return .allowed
    else return .denied (deniedReason request)

/-- An error while evaluating the policy denies. -/
def decisionOf : Except StoreError AuthorizationDecision → AuthorizationDecision
  | .ok decision => decision
  | .error err => .denied ("Failed to evaluate RBAC policy: " ++ err.text)

def authorizeWithStore (request : AuthorizationRequest) :
    Program RbacOp.interface AuthorizationDecision := do
  return decisionOf (← (authorizeImplWithStore request).run)

/-! ## What the stored objects permit -/

section Meaning

variable (s : RbacStore)

/-- The reference is to a stored role, and the rule is one of that role's. -/
def RefersToRule (ns : Option String) (roleRef : RoleRef) (rule : PolicyRule) : Prop :=
  (roleRef.apiGroup = "" ∨ roleRef.apiGroup = apiGroup) ∧
    ((roleRef.kind = "Role" ∧ ∃ role : Role, s.roles.Holds role ∧
        (∃ roleNs, ns = some roleNs ∧ Resource.namespace role = some roleNs) ∧
        Resource.name role = some roleRef.name ∧ rule ∈ role.rules) ∨
      (roleRef.kind = "ClusterRole" ∧ ∃ role : ClusterRole, s.clusterRoles.Holds role ∧
        Resource.name role = some roleRef.name ∧ rule ∈ role.rules))

def GivesRule (ns : Option String) (user : UserInfo) (binding : List Subject × Option RoleRef)
    (rule : PolicyRule) : Prop :=
  subjectsMatchUser binding.1 user = true ∧
    ∃ roleRef, binding.2 = some roleRef ∧ RefersToRule s ns roleRef rule

/-- A cluster role binding gives the rule to the user. -/
def ClusterRule (user : UserInfo) (rule : PolicyRule) : Prop :=
  ∃ b : ClusterRoleBinding, s.clusterRoleBindings.Holds b ∧
    GivesRule s none user (b.subjects, b.roleRef) rule

/-- A role binding of the namespace gives the rule to the user. -/
def NamespaceRule (ns : String) (user : UserInfo) (rule : PolicyRule) : Prop :=
  ∃ b : RoleBinding, s.roleBindings.Holds b ∧ Resource.namespace b = some ns ∧
    GivesRule s (some ns) user (b.subjects, b.roleRef) rule

def Permits (request : AuthorizationRequest) : Prop :=
  isSuperuser request.user = true ∨
    (∃ rule, ClusterRule s request.user rule ∧ ruleMatchesRequest rule request = true) ∨
    ∃ ns, request.namespace = some ns ∧
      ∃ rule, NamespaceRule s ns request.user rule ∧ ruleMatchesRequest rule request = true

/-- The stores differ in role bindings and roles of the namespace only. -/
structure AgreeOutside («namespace» : String) (s s' : RbacStore) : Prop where
  clusterRoles : ∀ role, s.clusterRoles.Holds role ↔ s'.clusterRoles.Holds role
  clusterRoleBindings : ∀ b, s.clusterRoleBindings.Holds b ↔ s'.clusterRoleBindings.Holds b
  roles : ∀ role, Resource.namespace role ≠ some «namespace» →
    (s.roles.Holds role ↔ s'.roles.Holds role)
  roleBindings : ∀ b, Resource.namespace b ≠ some «namespace» →
    (s.roleBindings.Holds b ↔ s'.roleBindings.Holds b)

end Meaning

/-! ## Isolation of namespaces -/

section Isolation

variable {s s' : RbacStore} {foreign : String}

lemma refersToRule_congr (h : AgreeOutside foreign s s') {ns : Option String}
    (hns : ns ≠ some foreign) (roleRef : RoleRef) (rule : PolicyRule) :
    RefersToRule s ns roleRef rule ↔ RefersToRule s' ns roleRef rule := by
  simp only [RefersToRule, h.clusterRoles]
  refine and_congr_right fun _ => or_congr (and_congr_right fun _ => exists_congr fun role => ?_)
    Iff.rfl
  exact and_congr_left fun ⟨⟨roleNs, hin, hrole⟩, _⟩ => h.roles role (hrole ▸ hin ▸ hns)

lemma givesRule_congr (h : AgreeOutside foreign s s') {ns : Option String}
    (hns : ns ≠ some foreign) (user : UserInfo) (binding : List Subject × Option RoleRef)
    (rule : PolicyRule) : GivesRule s ns user binding rule ↔ GivesRule s' ns user binding rule := by
  simp only [GivesRule, refersToRule_congr h hns]

/-- What is permitted does not depend on the role bindings and roles of other namespaces. -/
lemma permits_congr (h : AgreeOutside foreign s s') {request : AuthorizationRequest}
    (hns : request.namespace ≠ some foreign) : Permits s request ↔ Permits s' request := by
  have hcluster : ∀ rule, ClusterRule s request.user rule ↔ ClusterRule s' request.user rule := by
    intro rule
    simp only [ClusterRule, h.clusterRoleBindings,
      givesRule_congr h (Option.some_ne_none foreign).symm]
  have hnamespace : ∀ ns, request.namespace = some ns → ∀ rule,
      (NamespaceRule s ns request.user rule ↔ NamespaceRule s' ns request.user rule) := by
    intro ns hreq rule
    refine exists_congr fun b => ?_
    rw [givesRule_congr h (hreq ▸ hns)]
    exact and_congr_left fun ⟨hb, _⟩ => h.roleBindings b (hb ▸ hreq ▸ hns)
  simp only [Permits, hcluster]
  refine or_congr Iff.rfl (or_congr Iff.rfl (exists_congr fun ns => and_congr_right fun hreq => ?_))
  simp only [hnamespace ns hreq]

end Isolation

/-- What the one store has, the other has too. -/
structure Includes (s s' : RbacStore) : Prop where
  clusterRoles : ∀ role, s.clusterRoles.Holds role → s'.clusterRoles.Holds role
  clusterRoleBindings : ∀ b, s.clusterRoleBindings.Holds b → s'.clusterRoleBindings.Holds b
  roles : ∀ role, s.roles.Holds role → s'.roles.Holds role
  roleBindings : ∀ b, s.roleBindings.Holds b → s'.roleBindings.Holds b

lemma Permits.mono {s s' : RbacStore} (h : Includes s s') {request : AuthorizationRequest}
    (hs : Permits s request) : Permits s' request := by
  have hgives : ∀ {ns binding rule}, GivesRule s ns request.user binding rule →
      GivesRule s' ns request.user binding rule := by
    rintro ns binding rule ⟨hsubjects, roleRef, href, hgroup, hrule⟩
    refine ⟨hsubjects, roleRef, href, hgroup, hrule.imp ?_ ?_⟩
    · rintro ⟨hkind, role, hrole, hrest⟩
      exact ⟨hkind, role, h.roles role hrole, hrest⟩
    · rintro ⟨hkind, role, hrole, hrest⟩
      exact ⟨hkind, role, h.clusterRoles role hrole, hrest⟩
  refine hs.imp id (Or.imp ?_ ?_)
  · rintro ⟨rule, ⟨b, hb, hrule⟩, hmatches⟩
    exact ⟨rule, ⟨b, h.clusterRoleBindings b hb, hgives hrule⟩, hmatches⟩
  · rintro ⟨ns, hns, rule, ⟨b, hb, hin, hrule⟩, hmatches⟩
    exact ⟨ns, hns, rule, ⟨b, h.roleBindings b hb, hin, hgives hrule⟩, hmatches⟩

/-! ## The authorizer computes what is permitted -/

/-- The replies the authorizer can get, the store's answer or an error, and whether it got an
error. -/
def replies (s : RbacStore) : Protocol RbacOp.interface Bool where
  allowed _ _ := True
  assumes _ op r := r = RbacOp.answer s op ∨ ∃ e, r = .error e
  observe failed _ r := failed || !r.toBool

/-- A computation that fails exactly if a call failed, and otherwise has a value with `φ`. -/
def Yields {α : Type} (φ : α → Prop) (failed : Bool) : Except StoreError α → Prop
  | .ok a => failed = false ∧ φ a
  | .error _ => failed = true

/-- The reader, over the store `s`, fails exactly if a call fails, and otherwise returns a value
with `φ`. -/
def Reads {α : Type} (s : RbacStore) (x : Reader α) (φ : α → Prop) : Prop :=
  x.run.wp (replies s) false (Yields φ)

section Reads

variable {s : RbacStore} {α β : Type} {φ : α → Prop} {ψ : β → Prop}

lemma Reads.pure {a : α} (h : φ a) : Reads s (pure a) φ := ⟨rfl, h⟩

lemma Reads.bind {x : Reader α} {f : α → Reader β} (hx : Reads s x φ)
    (hf : ∀ a, φ a → Reads s (f a) ψ) : Reads s (x >>= f) ψ := by
  refine (Program.wp_run_bind false x f _).2 (Program.wp_mono (fun failed r hr => ?_) false _ hx)
  cases r with
  | ok a =>
    obtain ⟨rfl, ha⟩ := hr
    exact hf a ha
  | error e => exact hr

lemma Reads.mono {x : Reader α} {φ' : α → Prop} (hx : Reads s x φ)
    (h : ∀ a, φ a → φ' a) : Reads s x φ' := by
  refine Program.wp_mono (fun failed r hr => ?_) false _ hx
  cases r with
  | ok a => exact ⟨hr.1, h a hr.2⟩
  | error e => exact hr

lemma reads_fetch {op : RbacOp} {φ : op.Result → Prop} {a : op.Result}
    (hanswer : RbacOp.answer s op = .ok a) (h : φ a) : Reads s (fetch op) φ := by
  refine ⟨trivial, fun r hr => ?_⟩
  rcases hr with rfl | ⟨e, rfl⟩
  · rw [hanswer]
    exact ⟨rfl, h⟩
  · exact rfl

lemma mem_rules_iff {T : Type} [ObjectMetaResource T] {rules : T → List PolicyRule}
    (hrules : ∀ c : ContentData T, rules c.applyRevision = rules c.data)
    {reply : Option (ContentData T)} {P : T → Prop}
    (hreply : ∀ t, (∃ c, reply = some c ∧ c.data = t) ↔ P t) (rule : PolicyRule) :
    rule ∈ (reply.map fun c => rules c.applyRevision).getD [] ↔ ∃ t, P t ∧ rule ∈ rules t := by
  simp only [← hreply]
  cases reply with
  | none => simp
  | some c => simp [hrules]

lemma reads_resolveRoleRef (roleRef : Option RoleRef) (ns : Option String) :
    Reads s (resolveRoleRef roleRef ns) fun rules =>
      ∀ rule, rule ∈ rules ↔ ∃ ref, roleRef = some ref ∧ RefersToRule s ns ref rule := by
  cases roleRef with
  | none => exact Reads.pure fun rule => by simp
  | some ref =>
    simp only [resolveRoleRef, Option.some.injEq, exists_eq_left', RefersToRule]
    split
    next hgroup =>
      refine Reads.pure fun rule => ?_
      simp [hgroup.1, hgroup.2]
    next hgroup =>
      have hgroup' : ref.apiGroup = "" ∨ ref.apiGroup = apiGroup := by
        by_contra hne
        exact hgroup (not_or.1 hne)
      split
      next hkind =>
        cases ns with
        | none => exact Reads.pure fun rule => by simp [hkind]
        | some ns =>
          obtain ⟨reply, hget, hreply⟩ := s.roles.exists_get_some rfl ns ref.name
          refine Reads.bind (reads_fetch (φ := (· = reply)) hget rfl) ?_
          rintro _ rfl
          refine Reads.pure fun rule => ?_
          rw [mem_rules_iff (fun _ => rfl) hreply]
          simp [hgroup', hkind, and_assoc]
      next hrole =>
        split
        next hkind =>
          obtain ⟨reply, hget, hreply⟩ := s.clusterRoles.exists_get_none rfl ref.name
          refine Reads.bind (reads_fetch (φ := (· = reply)) hget rfl) ?_
          rintro _ rfl
          refine Reads.pure fun rule => ?_
          rw [mem_rules_iff (fun _ => rfl) hreply]
          simp [hgroup', hkind, and_assoc]
        next hclusterRole =>
          exact Reads.pure fun rule => by simp [hrole, hclusterRole]

lemma reads_bindings (user : UserInfo) (ns : Option String)
    (bindings : List (List Subject × Option RoleRef)) (rules : List PolicyRule) :
    Reads s (bindings.foldlM (extendRules user ns) rules) fun all =>
      ∀ rule, rule ∈ all ↔ rule ∈ rules ∨ ∃ b ∈ bindings, GivesRule s ns user b rule := by
  -- the accumulator has the rules of the bindings before
  induction bindings generalizing rules with
  | nil => exact Reads.pure fun rule => by simp
  | cons b bindings ih =>
    refine Reads.bind (φ := fun next => ∀ rule, rule ∈ next ↔
      rule ∈ rules ∨ GivesRule s ns user b rule) ?_ ?_
    · unfold extendRules
      split
      next hmatch =>
        exact Reads.pure fun rule => by simp_all [GivesRule]
      next hmatch =>
        refine Reads.bind (reads_resolveRoleRef b.2 ns) fun more hmore => ?_
        refine Reads.pure fun rule => ?_
        simp_all [GivesRule]
    · intro next hnext
      refine Reads.mono (ih next) fun all hall rule => ?_
      simp only [hall rule, hnext rule, List.mem_cons, exists_eq_or_imp, or_assoc]

lemma reads_clusterRoleRules (user : UserInfo) : Reads s (clusterRoleRules user) fun rules =>
      ∀ rule, rule ∈ rules ↔ ClusterRule s user rule := by
  refine Reads.bind (reads_fetch (φ := (· = s.clusterRoleBindings.list none)) rfl rfl) ?_
  rintro _ rfl
  refine Reads.mono (reads_bindings user none _ []) fun all hall rule => ?_
  rw [hall rule, ClusterRule]
  simp only [← s.clusterRoleBindings.mem_list_none rfl, List.map_map, List.mem_map,
    List.not_mem_nil, false_or, exists_exists_and_eq_and]
  exact Iff.rfl

lemma reads_roleBindingRules (user : UserInfo) (ns : String) :
    Reads s (roleBindingRules user ns) fun rules =>
      ∀ rule, rule ∈ rules ↔ NamespaceRule s ns user rule := by
  refine Reads.bind (reads_fetch (φ := (· = s.roleBindings.list (some ns))) rfl rfl) ?_
  rintro _ rfl
  refine Reads.mono (reads_bindings user (some ns) _ []) fun all hall rule => ?_
  rw [hall rule, NamespaceRule]
  simp only [← and_assoc, ← s.roleBindings.mem_list_some rfl, List.map_map, List.mem_map,
    List.not_mem_nil, false_or, exists_exists_and_eq_and]
  exact Iff.rfl

/-- **A decision the authorizer comes to is the right one.** -/
lemma reads_authorizeImplWithStore (request : AuthorizationRequest) :
    Reads s (authorizeImplWithStore request) fun decision =>
      (Permits s request ∧ decision = .allowed) ∨
        (¬ Permits s request ∧ decision = .denied (deniedReason request)) := by
  unfold authorizeImplWithStore
  split
  next hsuper =>
    exact Reads.pure (.inl ⟨.inl hsuper, rfl⟩)
  rename_i hsuper
  refine Reads.bind (reads_clusterRoleRules request.user) fun rules hrules => ?_
  refine Reads.bind (φ := fun more : List PolicyRule => ∀ rule, rule ∈ more ↔
    ∃ ns, request.namespace = some ns ∧ NamespaceRule s ns request.user rule) ?_ ?_
  · split
    next ns hns =>
      refine Reads.mono (reads_roleBindingRules request.user ns) fun more hmore rule => ?_
      rw [hmore rule, hns]
      simp only [Option.some.injEq, exists_eq_left']
    next hns =>
      exact Reads.pure fun rule => by simp [hns]
  · intro more hmore
    have hany : (rules ++ more).any (ruleMatchesRequest · request) = true ↔
        Permits s request := by
      simp only [List.any_eq_true, List.mem_append, hrules, hmore, Permits, hsuper, false_or,
        or_and_right, exists_or, Bool.false_eq_true]
      refine or_congr Iff.rfl ⟨?_, ?_⟩
      · rintro ⟨rule, ⟨ns, hns, hgives⟩, hrule⟩
        exact ⟨ns, hns, rule, hgives, hrule⟩
      · rintro ⟨ns, hns, rule, hgives, hrule⟩
        exact ⟨rule, ⟨ns, hns, hgives⟩, hrule⟩
    split
    next hmatch =>
      exact Reads.pure (.inl ⟨hany.1 hmatch, rfl⟩)
    next hmatch =>
      exact Reads.pure (.inr ⟨fun h => hmatch (hany.2 h), rfl⟩)

end Reads

/-! ## Decisions -/

lemma exists_answer (s : RbacStore) (op : RbacOp) : ∃ a, RbacOp.answer s op = .ok a := by
  cases op with
  | listClusterRoleBindings | listRoleBindings ns => exact ⟨_, rfl⟩
  | getClusterRole name =>
    obtain ⟨r, hr, -⟩ := s.clusterRoles.exists_get_none rfl name
    exact ⟨r, hr⟩
  | getRole ns name =>
    obtain ⟨r, hr, -⟩ := s.roles.exists_get_some rfl ns name
    exact ⟨r, hr⟩

/-- What is read from a session is what the store has, or an error and the session has failed. -/
lemma run_of_reads {s : RbacStore} {α : Type} {x : Reader α} {φ : α → Prop} (h : Reads s x φ)
    (failures : ℕ → Option StoreError) :
    Yields φ (x.run.run RbacOp.exec failures ⟨s, false⟩).1.failed
      (x.run.run RbacOp.exec failures ⟨s, false⟩).2 := by
  have hstep : Program.Complies (replies s) RbacOp.exec (fun _ _ => True)
      fun w failed => w.store = s ∧ w.failed = failed := by
    rintro w failed i op - ⟨rfl, rfl⟩ -
    cases i with
    | none =>
      obtain ⟨a, ha⟩ := exists_answer w.store op
      refine ⟨.inl rfl, rfl, ?_⟩
      simp [RbacOp.exec, replies, ha, Except.toBool]
    | some e =>
      refine ⟨.inr ⟨e, rfl⟩, rfl, ?_⟩
      simp [RbacOp.exec, replies, Except.toBool]
  obtain ⟨failed, ⟨-, hfailed⟩, hyields⟩ :=
    Program.run_of_wp hstep x.run false failures ⟨s, false⟩ (fun _ => trivial)
      ⟨rfl, rfl⟩ h
  rwa [hfailed]

lemma failed_run {α : Type} :
    ∀ (p : Program RbacOp.interface α) (w : RbacSession),
      (p.run RbacOp.exec (fun _ => none) w).1.failed = w.failed
  | .done _, _ => rfl
  | .call _ next, w => failed_run (next _) w

lemma run_authorizeWithStore (request : AuthorizationRequest)
    (failures : ℕ → Option StoreError) (w : RbacSession) :
    (authorizeWithStore request).run RbacOp.exec failures w =
      (((authorizeImplWithStore request).run.run RbacOp.exec failures w).1,
        decisionOf ((authorizeImplWithStore request).run.run RbacOp.exec failures w).2) :=
  Program.run_bind_done RbacOp.exec decisionOf _ failures w

/-- Without failures the authorizer comes to a decision, and it is the right one. -/
lemma run_authorizeImplWithStore (s : RbacStore) (request : AuthorizationRequest) :
    (Permits s request ∧
        ((authorizeImplWithStore request).run.run RbacOp.exec (fun _ => none) ⟨s, false⟩).2 =
          .ok .allowed) ∨
      (¬ Permits s request ∧
        ((authorizeImplWithStore request).run.run RbacOp.exec (fun _ => none) ⟨s, false⟩).2 =
          .ok (.denied (deniedReason request))) := by
  have hyields := run_of_reads (reads_authorizeImplWithStore (s := s) request) fun _ => none
  rw [failed_run] at hyields
  cases hr :
      ((authorizeImplWithStore request).run.run RbacOp.exec (fun _ => none) ⟨s, false⟩).2 with
  | error e =>
    rw [hr] at hyields
    exact absurd hyields (by simp [Yields])
  | ok decision =>
    rw [hr] at hyields
    rcases hyields.2 with ⟨hpermits, rfl⟩ | ⟨hpermits, rfl⟩
    · exact .inl ⟨hpermits, rfl⟩
    · exact .inr ⟨hpermits, rfl⟩

/-- The authorizer allows exactly the requests that the stored bindings permit; role bindings and
roles of one namespace do not matter to requests elsewhere; and when a call to the store fails,
the request is denied. -/
theorem authorizeImplWithStore_allowed_iff (s : RbacStore) (request : AuthorizationRequest) :
    (((authorizeImplWithStore request).run.run RbacOp.exec (fun _ => none) ⟨s, false⟩).2 =
        .ok .allowed ↔ Permits s request) ∧
      (∀ (foreign : String) (s' : RbacStore), AgreeOutside foreign s s' →
        request.namespace ≠ some foreign →
        ((authorizeWithStore request).run RbacOp.exec (fun _ => none) ⟨s', false⟩).2 =
          ((authorizeWithStore request).run RbacOp.exec (fun _ => none) ⟨s, false⟩).2) ∧
      ∀ failures : ℕ → Option StoreError,
        let out := (authorizeWithStore request).run RbacOp.exec failures ⟨s, false⟩
        (out.1.failed = true → ∃ err : StoreError,
          out.2 = .denied ("Failed to evaluate RBAC policy: " ++ err.text)) ∧
        (out.1.failed = false → (out.2 = .allowed ↔ Permits s request)) := by
  refine ⟨?_, ?_, ?_⟩
  · rcases run_authorizeImplWithStore s request with ⟨hpermits, hrun⟩ | ⟨hpermits, hrun⟩
    · simp [hrun, hpermits]
    · simp [hrun, hpermits]
  · intro foreign s' hagree hns
    have hpermits := permits_congr hagree hns
    rw [run_authorizeWithStore, run_authorizeWithStore]
    rcases run_authorizeImplWithStore s request with ⟨hs, hrun⟩ | ⟨hs, hrun⟩ <;>
      rcases run_authorizeImplWithStore s' request with ⟨hs', hrun'⟩ | ⟨hs', hrun'⟩
    · rw [hrun, hrun']
    · exact absurd (hpermits.1 hs) hs'
    · exact absurd (hpermits.2 hs') hs
    · rw [hrun, hrun']
  · intro failures
    have hyields := run_of_reads (reads_authorizeImplWithStore (s := s) request) failures
    simp only [run_authorizeWithStore]
    cases hr : ((authorizeImplWithStore request).run.run RbacOp.exec failures ⟨s, false⟩).2 with
    | error err =>
      rw [hr] at hyields
      refine ⟨fun _ => ⟨err, rfl⟩, fun hfailed => ?_⟩
      cases hfailed.symm.trans hyields
    | ok decision =>
      rw [hr] at hyields
      refine ⟨fun hfailed => absurd (hyields.1.symm.trans hfailed) (by simp), fun _ => ?_⟩
      rcases hyields.2 with ⟨hpermits, rfl⟩ | ⟨hpermits, rfl⟩ <;> simp [decisionOf, hpermits]

/-- **Roles and bindings only ever permit.**  A request that is allowed, whichever calls to the
store fail, is allowed by every store that has more roles and bindings, unless calls fail there. -/
theorem allowed_of_includes {s s' : RbacStore} (h : Includes s s') (request : AuthorizationRequest)
    (failures : ℕ → Option StoreError)
    (hallowed : ((authorizeWithStore request).run RbacOp.exec failures ⟨s, false⟩).2 = .allowed) :
    ((authorizeWithStore request).run RbacOp.exec (fun _ => none) ⟨s', false⟩).2 = .allowed := by
  rw [run_authorizeWithStore] at hallowed ⊢
  have hyields := run_of_reads (reads_authorizeImplWithStore (s := s) request) failures
  have hpermits : Permits s request := by
    cases hr : ((authorizeImplWithStore request).run.run RbacOp.exec failures ⟨s, false⟩).2 with
    | error err =>
      rw [hr] at hallowed
      cases hallowed
    | ok decision =>
      rw [hr] at hyields hallowed
      rcases hyields.2 with ⟨hpermits, -⟩ | ⟨-, rfl⟩
      · exact hpermits
      · cases hallowed
  rcases run_authorizeImplWithStore s' request with ⟨-, hrun⟩ | ⟨hdenied, -⟩
  · rw [hrun]
    rfl
  · exact absurd (hpermits.mono h) hdenied

namespace Sample

def reader : Role where
  objectMeta := some { name := some "reader", «namespace» := some "team-a" }
  rules := [{ apiGroups := ["core"], resources := ["ships"], verbs := ["get"] }]

def readers : RoleBinding where
  objectMeta := some { name := some "readers", «namespace» := some "team-a" }
  subjects := [{ kind := "Group", name := "crew" }]
  roleRef := some { apiGroup := apiGroup, kind := "Role", name := "reader" }

def noRoles : RbacStore := ⟨.empty, .empty, .empty, .empty⟩

/-- The namespace `team-a` lets its crew read Ships. -/
def teamRoles : RbacStore :=
  { noRoles with
    roles := .single reader "/tugboat/registry/authorization/roles/team-a/reader" (by decide)
      ⟨fun _ h => Option.some.inj h ▸ by decide, fun _ h => Option.some.inj h ▸ by decide⟩
    roleBindings :=
      .single readers "/tugboat/registry/authorization/rolebindings/team-a/readers" (by decide)
        ⟨fun _ h => Option.some.inj h ▸ by decide, fun _ h => Option.some.inj h ▸ by decide⟩ }

/-- With one of the roles that are stored at the start. -/
def withSystemRole : RbacStore :=
  { teamRoles with
    clusterRoles := .single { objectMeta := some { name := some "system:aggregate-to-view" } }
      "/tugboat/registry/authorization/clusterroles/system:aggregate-to-view" (by decide)
      ⟨fun _ h => Option.some.inj h ▸ by decide, fun _ h => by cases h⟩ }

def readShip (ns : String) : AuthorizationRequest where
  user := { username := "ada", groups := ["crew"], identity := .oidc }
  verb := "get"
  apiGroup := "core"
  resource := "ships"
  resourceName := some "ship-a"
  «namespace» := some ns

lemma agreeOutside_teamRoles : AgreeOutside "team-a" noRoles teamRoles where
  clusterRoles _ := Iff.rfl
  clusterRoleBindings _ := Iff.rfl
  roles role hns := by
    refine iff_of_false (Collection.not_holds_empty role) ?_
    rintro ⟨key, c, hc, rfl⟩
    have hdata := (Collection.of_commit_empty hc).2
    exact hns (hdata ▸ rfl)
  roleBindings b hns := by
    refine iff_of_false (Collection.not_holds_empty b) ?_
    rintro ⟨key, c, hc, rfl⟩
    have hdata := (Collection.of_commit_empty hc).2
    exact hns (hdata ▸ rfl)

end Sample

open Sample in
/-- The roles of `team-a` allow requests in `team-a`, and change nothing in `team-b`. -/
theorem authorize_teamRoles :
    ((authorizeImplWithStore (readShip "team-a")).run.run RbacOp.exec (fun _ => none)
        ⟨teamRoles, false⟩).2 = .ok .allowed ∧
      ((authorizeWithStore (readShip "team-b")).run RbacOp.exec (fun _ => none)
          ⟨teamRoles, false⟩).2 =
        ((authorizeWithStore (readShip "team-b")).run RbacOp.exec (fun _ => none)
          ⟨noRoles, false⟩).2 :=
  ⟨by decide +kernel,
    (authorizeImplWithStore_allowed_iff noRoles (readShip "team-b")).2.1 "team-a" teamRoles
      agreeOutside_teamRoles (by decide)⟩

open Sample in
/-- A cluster role that is added does not take the permission of the crew away. -/
theorem allowed_withSystemRole :
    ((authorizeWithStore (readShip "team-a")).run RbacOp.exec (fun _ => none)
      ⟨withSystemRole, false⟩).2 = .allowed :=
  allowed_of_includes (s := teamRoles)
    ⟨fun role h => absurd h (Collection.not_holds_empty role), fun _ h => h, fun _ h => h,
      fun _ h => h⟩
    (readShip "team-a") (fun _ => none) (by decide +kernel)

end Rbac

end Tugboat
