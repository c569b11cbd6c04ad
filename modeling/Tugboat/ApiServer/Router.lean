import Mathlib.Data.List.Forall2
import Tugboat.Lib.Percent
import Tugboat.Resources.CustomResourceDefinition

/-!
# Routes

Which handler a request goes to, and what it operates on.  The built-in kinds have routes with their
group, version and plural written out; after those come the routes of custom resources, where they
are parameters of the path, and the handler looks them up in the registry.

The framework matches routes on the decoded path, in which only `%25`, `%2F` and `%2B` are still
encoded, and decodes parameters fully: `requote` and `parameter`.  What code that looks at the
undecoded path can rely on is `forall₂_reads`: a segment without a percent sign is the segment of
the route, or the parameter, that the handler sees.
-/

namespace Tugboat

/-- The HTTP methods with handlers; the others have none. -/
inductive Method
  | get | post | put | patch | delete | other
  deriving DecidableEq, Repr

/-- The parts of a request that decide about its handling, as they are sent. -/
structure HttpRequest where
  method : Method
  path : String
  query : String := ""
  deriving DecidableEq, Repr

/-! ## The registry of custom resources -/

/-- A custom resource the server serves. -/
structure CrdEntry where
  group : String
  plural : String
  scope : ResourceScope
  version : String
  served : Bool
  deriving DecidableEq, Repr

/-- The letters and digits, hyphens and dots of groups of custom resources. -/
def isGroupChar (c : Char) : Bool := NameValidator.isAlnum c || c == '-' || c == '.'

/-- The registry, filled from the stored definitions.  Only validated definitions are stored, so
the groups are domain names, the versions and plurals are names, and no group is reserved. -/
structure CrdRegistry where
  byGroupVersionPlural : String × String × String → Option CrdEntry
  keyed : ∀ group version plural entry,
    byGroupVersionPlural (group, version, plural) = some entry →
      entry.group = group ∧ entry.version = version ∧ entry.plural = plural
  unreserved : ∀ key entry, byGroupVersionPlural key = some entry → entry.group ∉ reservedGroups
  valid : ∀ key entry, byGroupVersionPlural key = some entry →
    (entry.group.toList.all isGroupChar) = true ∧
      NameValidator.isValidName entry.version = true ∧
      NameValidator.isValidName entry.plural = true

namespace CrdRegistry

/-- `lookup`: a version that is not served counts as not registered. -/
def lookup (r : CrdRegistry) (group version plural : String) : Option CrdEntry :=
  (r.byGroupVersionPlural (group, version, plural)).filter (·.served)

/-- No custom resources. -/
def empty : CrdRegistry where
  byGroupVersionPlural _ := none
  keyed := by simp
  unreserved := by simp
  valid := by simp

end CrdRegistry

/-! ## The decodings of the framework -/

def requote (segment : String) : String :=
  Percent.decode (fun b => b == 0x25 || b == 0x2F || b == 0x2B) segment

def parameter (segment : String) : String := Percent.decode (fun _ => false) (requote segment)

/-- A segment, as it is sent, and what a handler sees in its place. -/
def Reads (raw seen : String) : Prop := raw ≠ "" ∧ ('%' ∉ raw.toList → raw = seen)

lemma reads_parameter {raw : String} (h : requote raw ≠ "") : Reads raw (parameter raw) := by
  refine ⟨?_, fun hraw => ?_⟩
  · rintro rfl
    exact h (by decide)
  · rw [parameter, requote, Percent.decode_of_notMem _ hraw, Percent.decode_of_notMem _ hraw]

/-! ## Routes -/

/-- What a handler operates on. -/
structure Target where
  group : String
  version : String
  «namespace» : Option String
  plural : String
  name : Option String
  sub : List String
  deriving DecidableEq, Repr

/-- A route.  The routes of custom resources have no kind. -/
structure Route where
  kind : Option Kind
  method : Method
  namespaced : Bool
  named : Bool
  sub : List String := []
  deriving DecidableEq, Repr

/-- A path pattern of a kind with the methods it is registered for. -/
structure Endpoint where
  namespaced : Bool
  named : Bool
  sub : List String := []
  methods : List Method

namespace Endpoint

def listAll : Endpoint := { namespaced := false, named := false, methods := [.get] }

def collection (namespaced : Bool) : Endpoint :=
  { namespaced, named := false, methods := [.post, .get] }

def readOnly (namespaced : Bool) : Endpoint :=
  { namespaced, named := true, methods := [.get, .delete] }

def object (namespaced : Bool) : Endpoint :=
  { namespaced, named := true, methods := [.get, .put, .patch, .delete] }

def status (namespaced : Bool) : Endpoint :=
  { namespaced, named := true, sub := ["status"], methods := [.put, .patch] }

def action (namespaced : Bool) (sub : List String) : Endpoint :=
  { namespaced, named := true, sub, methods := [.post] }

def routes (kind : Option Kind) (e : Endpoint) : List Route :=
  e.methods.map fun method =>
    { kind, method, namespaced := e.namespaced, named := e.named, sub := e.sub }

end Endpoint

open Endpoint in
def Kind.endpoints : Kind → List Endpoint
  | .customResourceDefinition | .persistentVolume | .volumeSnapshotClass
  | .volumeSnapshotContent => [collection false, object false, status false]
  | .clusterRole | .clusterRoleBinding => [collection false, object false]
  | .deployment | .fleet | .replicaSet | .persistentVolumeClaim | .shipSnapshot
  | .volumeSnapshot => [listAll, collection true, object true, status true]
  | .role | .roleBinding | .lease | .configMap | .secret =>
    [listAll, collection true, object true]
  | .clusterNetworkClass => [collection false, readOnly false, status false]
  | .networkClass => [listAll, collection true, readOnly true, status true]
  | .namespace | .runtimeClass | .shipClass | .storageClass =>
    [collection false, readOnly false]
  | .node => [collection false, object false, status false, action false ["drain"]]
  | .serviceAccount => [listAll, collection true, object true, action true ["token"]]
  | .ship =>
    [listAll, collection true, object true, status true, action true ["migrate", "abort"]]

open Endpoint in
def customRoutes : List Route :=
  [collection true, object true, status true, collection false, object false, status false].flatMap
    (routes none)

/-- All routes to resource handlers, in the order they are registered. -/
def resourceRoutes : List Route :=
  Kind.all.flatMap (fun k => k.endpoints.flatMap (Endpoint.routes (some k))) ++ customRoutes

/-! ## Matching a path -/

def literal (text : String) : List String → Option (List String)
  | raw :: rest => if requote raw = text then some rest else none
  | [] => none

def literals : List String → List String → Option (List String)
  | [], segments => some segments
  | text :: texts, segments => (literal text segments).bind (literals texts)

def capture : List String → Option (String × List String)
  | raw :: rest => if requote raw ≠ "" then some (parameter raw, rest) else none
  | [] => none

/-- A literal that only some routes have. -/
def literalIf (b : Bool) (text : String) (segments : List String) : Option (List String) :=
  if b then literal text segments else some segments

/-- A parameter that only some routes have. -/
def captureIf (b : Bool) (segments : List String) : Option (Option String × List String) :=
  if b then (capture segments).map fun (value, rest) => (some value, rest)
  else some (none, segments)

namespace Route

/-- The group and version at the start of the path. -/
def matchVersion (r : Route) (segments : List String) : Option ((String × String) × List String) :=
  match r.kind with
  | some k =>
    let d := k.descriptor
    let start := if d.group = "core" then ["api", d.version] else ["apis", d.group, d.version]
    (literals start segments).map fun rest => ((d.group, d.version), rest)
  | none => do
    let rest ← literal "apis" segments
    let (group, rest) ← capture rest
    let (version, rest) ← capture rest
    return ((group, version), rest)

/-- The plural, which is a literal of the routes of built-in kinds. -/
def matchPlural (r : Route) (segments : List String) : Option (String × List String) :=
  match r.kind with
  | some k => (literal k.descriptor.plural segments).map fun rest => (k.descriptor.plural, rest)
  | none => capture segments

def matchPath (r : Route) (segments : List String) : Option Target := do
  let ((group, version), rest) ← r.matchVersion segments
  let rest ← literalIf r.namespaced "namespaces" rest
  let (ns, rest) ← captureIf r.namespaced rest
  let (plural, rest) ← r.matchPlural rest
  let (name, rest) ← captureIf r.named rest
  let rest ← literals r.sub rest
  if rest.isEmpty then
    return { group, version, «namespace» := ns, plural, name, sub := r.sub }
  else none

end Route

def pathSegments (path : String) : Option (List String) :=
  match path.toList with
  | '/' :: rest => some (Text.split '/' (String.ofList rest))
  | _ => none

/-- The resource handler a request goes to, and what it operates on: the first route that fits. -/
def dispatch (req : HttpRequest) : Option (Route × Target) := do
  let segments ← pathSegments req.path
  resourceRoutes.findSome? fun r =>
    if r.method = req.method then (r.matchPath segments).map (r, ·) else none

/-! ## What a match says about the path as it was sent -/

namespace Target

/-- The part of the path that names the namespace. -/
def namespaceSegments : Option String → List String
  | some ns => ["namespaces", ns]
  | none => []

/-- The part of the path that names the resource and the object. -/
def resourceSegments (t : Target) : List String :=
  namespaceSegments t.namespace ++ t.plural :: (t.name.toList ++ t.sub)

/-- The path to the target with nothing encoded.  The core group has a path of its own. -/
def segments (t : Target) (core : Bool) : List String :=
  (if core then ["api"] else ["apis", t.group]) ++ t.version :: t.resourceSegments

end Target

namespace Route

/-- The path starts with the short path of the core group. -/
def core (r : Route) : Bool := r.kind.any fun k => k.descriptor.group == "core"

end Route

def Consumes (segments rest seen : List String) : Prop :=
  ∃ raws, segments = raws ++ rest ∧ List.Forall₂ Reads raws seen

lemma Consumes.trans {a b c seen seen' : List String} (h : Consumes a b seen)
    (h' : Consumes b c seen') : Consumes a c (seen ++ seen') := by
  obtain ⟨raws, rfl, hraws⟩ := h
  obtain ⟨raws', rfl, hraws'⟩ := h'
  exact ⟨raws ++ raws', by rw [List.append_assoc], List.rel_append hraws hraws'⟩

variable {segments rest : List String}

lemma consumes_literal {text : String} (htext : text ≠ "") (h : literal text segments = some rest) :
    Consumes segments rest [text] := by
  cases segments with
  | nil => exact absurd h (by simp [literal])
  | cons raw segments =>
    rw [literal, Option.ite_none_right_eq_some] at h
    obtain ⟨hraw, hrest⟩ := h
    cases hrest
    refine ⟨[raw], rfl, .cons ⟨?_, fun hplain => ?_⟩ .nil⟩
    · rintro rfl
      exact htext (hraw ▸ by decide)
    · rw [← hraw, requote, Percent.decode_of_notMem _ hplain]

lemma consumes_literals {texts : List String} (htexts : ∀ text ∈ texts, text ≠ "") :
    ∀ {segments rest : List String}, literals texts segments = some rest →
      Consumes segments rest texts := by
  induction texts with
  | nil =>
    intro segments rest h
    cases h
    exact ⟨[], rfl, .nil⟩
  | cons text texts ih =>
    intro segments rest h
    obtain ⟨middle, hmiddle, hrest⟩ := Option.bind_eq_some_iff.1 h
    exact (consumes_literal (htexts text List.mem_cons_self) hmiddle).trans
      (ih (fun text' h' => htexts text' (List.mem_cons_of_mem text h')) hrest)

lemma consumes_capture {value : String} (h : capture segments = some (value, rest)) :
    Consumes segments rest [value] := by
  cases segments with
  | nil => exact absurd h (by simp [capture])
  | cons raw segments =>
    rw [capture, Option.ite_none_right_eq_some] at h
    obtain ⟨hraw, hrest⟩ := h
    obtain ⟨rfl, rfl⟩ := Prod.mk.inj (Option.some.inj hrest)
    exact ⟨[raw], rfl, .cons (reads_parameter hraw) .nil⟩

lemma consumes_captureIf {b : Bool} {value : Option String}
    (h : captureIf b segments = some (value, rest)) :
    Consumes segments rest value.toList ∧ value.isSome = b := by
  cases b with
  | false =>
    obtain ⟨rfl, rfl⟩ := Prod.mk.inj (Option.some.inj h)
    exact ⟨⟨[], rfl, .nil⟩, rfl⟩
  | true =>
    obtain ⟨⟨v, rest'⟩, hcapture, heq⟩ := Option.map_eq_some_iff.1 h
    obtain ⟨rfl, rfl⟩ := Prod.mk.inj heq
    exact ⟨consumes_capture hcapture, rfl⟩

lemma Kind.descriptor_ne_empty (k : Kind) :
    k.descriptor.group ≠ "" ∧ k.descriptor.version ≠ "" ∧ k.descriptor.plural ≠ "" := by
  cases k <;> decide

variable {r : Route}

lemma Route.consumes_matchVersion {group version : String}
    (h : r.matchVersion segments = some ((group, version), rest)) :
    Consumes segments rest ((if r.core then ["api"] else ["apis", group]) ++ [version]) ∧
      ∀ k, r.kind = some k → group = k.descriptor.group ∧ version = k.descriptor.version := by
  obtain ⟨kind, method, namespaced, named, sub⟩ := r
  cases kind with
  | none =>
    simp only [matchVersion, Option.bind_eq_bind, Option.bind_eq_some_iff, Prod.exists,
      Option.pure_def, Option.some.injEq, Prod.mk.injEq] at h
    obtain ⟨s1, h1, g, s2, h2, v, s3, h3, ⟨rfl, rfl⟩, rfl⟩ := h
    exact ⟨(consumes_literal (by decide) h1).trans
      ((consumes_capture h2).trans (consumes_capture h3)), fun k hk => absurd hk (by simp)⟩
  | some k =>
    obtain ⟨hg, hv, -⟩ := k.descriptor_ne_empty
    simp only [matchVersion, Option.map_eq_some_iff, Prod.mk.injEq] at h
    obtain ⟨s1, h1, ⟨rfl, rfl⟩, rfl⟩ := h
    constructor
    · by_cases hcore : k.descriptor.group = "core"
      · rw [if_pos hcore] at h1
        have hc := consumes_literals (by simp [hv]) h1
        simpa [core, hcore] using hc
      · rw [if_neg hcore] at h1
        have hc := consumes_literals (by simp [hg, hv]) h1
        simpa [core, hcore] using hc
    · intro k' hk
      cases hk
      exact ⟨rfl, rfl⟩

lemma Route.consumes_matchPlural {plural : String}
    (h : r.matchPlural segments = some (plural, rest)) :
    Consumes segments rest [plural] ∧ ∀ k, r.kind = some k → plural = k.descriptor.plural := by
  obtain ⟨kind, method, namespaced, named, sub⟩ := r
  cases kind with
  | none => exact ⟨consumes_capture h, fun k hk => absurd hk (by simp)⟩
  | some k =>
    obtain ⟨s1, h1, heq⟩ := Option.map_eq_some_iff.1 h
    obtain ⟨rfl, rfl⟩ := Prod.mk.inj heq
    refine ⟨consumes_literal k.descriptor_ne_empty.2.2 h1, fun k' hk => ?_⟩
    cases hk
    rfl

/-- The target is one of the route, and the segments read as the path to it. -/
structure Route.Fits (r : Route) (segments : List String) (t : Target) : Prop where
  forall₂_reads : List.Forall₂ Reads segments (t.segments r.core)
  sub : t.sub = r.sub
  named : t.name.isSome = r.named
  namespaced : t.namespace.isSome = r.namespaced
  builtIn : ∀ k, r.kind = some k →
    t.group = k.descriptor.group ∧ t.version = k.descriptor.version ∧
      t.plural = k.descriptor.plural

lemma Route.fits_of_matchPath {t : Target} (hsub : ∀ text ∈ r.sub, text ≠ "")
    (h : r.matchPath segments = some t) :
    r.Fits segments t := by
  simp only [matchPath, Option.bind_eq_bind, Option.bind_eq_some_iff, Prod.exists,
    Option.pure_def] at h
  obtain ⟨group, version, s1, h1, s2, h2, ns, s3, h3, plural, s4, h4, name, s5, h5, s6, h6, h7⟩ :=
    h
  rw [Option.ite_none_right_eq_some] at h7
  obtain ⟨hend, hsome⟩ := h7
  cases hsome
  obtain ⟨hversion, hkind⟩ := consumes_matchVersion h1
  obtain ⟨hns, hnamespaced⟩ := consumes_captureIf h3
  obtain ⟨hplural, hkind'⟩ := consumes_matchPlural h4
  obtain ⟨hname, hnamed⟩ := consumes_captureIf h5
  have hsubs := consumes_literals hsub h6
  -- the word `namespaces` is there exactly when the namespace is
  have hword : Consumes s1 s3 (Target.namespaceSegments ns) := by
    cases ns with
    | none =>
      rw [← hnamespaced] at h2
      cases h2
      exact hns
    | some ns =>
      rw [← hnamespaced] at h2
      exact (consumes_literal (by decide) h2).trans hns
  have hall := hversion.trans (hword.trans (hplural.trans (hname.trans hsubs)))
  obtain ⟨raws, hsegments, hreads⟩ := hall
  obtain rfl := List.isEmpty_iff.1 hend
  rw [List.append_nil] at hsegments
  refine ⟨?_, rfl, hnamed, hnamespaced, fun k hk => ?_⟩
  · rw [hsegments]
    simpa [Target.segments, Target.resourceSegments] using hreads
  · exact ⟨(hkind k hk).1, (hkind k hk).2, hkind' k hk⟩

/-! ## The table of routes -/

/-- What can follow the name of an object in a path. -/
def subresources : List String := ["status", "drain", "token", "migrate", "abort"]

set_option maxRecDepth 4000 in
/-- What the registered routes have in common. -/
lemma resourceRoutes_spec :
    ∀ r ∈ resourceRoutes, (∀ text ∈ r.sub, text ∈ subresources) ∧ (r.named = false → r.sub = []) ∧
      r.method ≠ .other ∧ (r.kind.all fun k => !r.namespaced || k.descriptor.namespaced) = true ∧
      (r.method = .get → r.sub = []) := by
  decide

lemma exists_fits_of_dispatch {req : HttpRequest} {t : Target} (h : dispatch req = some (r, t)) :
    ∃ segments, pathSegments req.path = some segments ∧ r ∈ resourceRoutes ∧
      r.method = req.method ∧ r.Fits segments t := by
  obtain ⟨segments, hsegments, hfind⟩ := Option.bind_eq_some_iff.1 h
  obtain ⟨r', hr', hmatch⟩ := List.exists_of_findSome?_eq_some hfind
  rw [Option.ite_none_right_eq_some] at hmatch
  obtain ⟨hmethod, hmatch⟩ := hmatch
  obtain ⟨t', ht', heq⟩ := Option.map_eq_some_iff.1 hmatch
  obtain ⟨rfl, rfl⟩ := Prod.mk.inj heq
  refine ⟨segments, hsegments, hr', hmethod, Route.fits_of_matchPath (fun text htext => ?_) ht'⟩
  have hsub := (resourceRoutes_spec r' hr').1 text htext
  rintro rfl
  exact absurd hsub (by decide)

example : dispatch ⟨.get, "/api/v1/namespaces/a/ships/b", ""⟩ =
    some (⟨some .ship, .get, true, true, []⟩,
      ⟨"core", "v1", some "a", "ships", some "b", []⟩) := by decide

end Tugboat
