import Tugboat.ApiServer.Router
import Tugboat.ApiServer.Status
import Tugboat.Auth.Rbac

/-!
# The authorization middleware

Every request passes through `call` of `middleware.rs` before the router sees it.  The middleware
takes the path apart on its own, without decoding it; if it cannot make sense of the path it
forwards the request without a check.

`Authorizes` says that the middleware consults the authorizer about the very group, resource,
namespace and name the handler operates on.  For requests that the router dispatches,
`authorizes_iff` says when this is so: the path has to be spelled without escapes, and a custom
resource has to be one that either the table of built-in kinds or the registry knows, with the scope
the path suggests.
-/

namespace Tugboat

/-! ## Taking the path apart -/

def resourcesFor (group version : String) : List ResourceApiDescriptor :=
  allResourceDescriptors.filter fun d => d.group == group && d.version == version

/-- The built-in kind of a plural. -/
def findResource (group version plural : String) : Option ResourceApiDescriptor :=
  (resourcesFor group version).find? (·.plural == plural)

structure ParsedResourcePath where
  resource : String
  resourceName : Option String
  «namespace» : Option String
  deriving DecidableEq, Repr

/-- The resource with the subresource, if the path goes on after the name. -/
def resourceText (resource : String) (afterResource : List String) : String :=
  if 1 < afterResource.length then resource ++ "/" ++ Text.join '/' afterResource.tail
  else resource

def parseStaticResourcePath (apiGroup version : String) (path : List String) :
    Option ParsedResourcePath := do
  let («namespace», resourceIndex) := match path with
    | word :: ns :: resource :: _ =>
      if word = "namespaces" then
        match findResource apiGroup version resource with
        | some d => (if d.namespaced then some ns else none, 2)
        | none => (none, 0)
      else (none, 0)
    | _ => (none, 0)
  let resource ← path[resourceIndex]?
  let d ← findResource apiGroup version resource
  let afterResource := path.drop (resourceIndex + 1)
  return {
    resource := resourceText resource afterResource
    resourceName := afterResource.head?
    «namespace» := if d.namespaced then «namespace» else none }

def parseCrdResourcePath (registry : CrdRegistry) (apiGroup version : String)
    (path : List String) : Option ParsedResourcePath := do
  let (entry, «namespace», resourceIndex) ← match path with
    | word :: ns :: resource :: _ =>
      if word = "namespaces" then
        (registry.lookup apiGroup version resource).map fun entry =>
          (entry, if entry.scope = .namespaced then some ns else none, 2)
      else (registry.lookup apiGroup version word).map fun entry => (entry, none, 0)
    | resource :: _ => (registry.lookup apiGroup version resource).map fun entry => (entry, none, 0)
    | [] => none
  let afterResource := path.drop (resourceIndex + 1)
  return {
    resource := resourceText entry.plural afterResource
    resourceName := afterResource.head?
    «namespace» }

def parseResourcePath (registry : CrdRegistry) (apiGroup version : String)
    (path : List String) : Option ParsedResourcePath :=
  (parseStaticResourcePath apiGroup version path).or
    (parseCrdResourcePath registry apiGroup version path)

/-! ## The authorization request -/

def watchValues : List String := ["true", "True", "ndJson", "NdJson"]

def queryRequestsWatch (query : String) : Bool :=
  (Text.split '&' query).any fun pair =>
    match Text.splitOnce '=' pair with
    | none => false
    | some (key, value) => key == "watch" && watchValues.contains value

def requestVerb (method : Method) (query : String) (resourceNamePresent : Bool) : Option String :=
  match method with
  | .get =>
    if queryRequestsWatch query then some "watch"
    else if resourceNamePresent then some "get"
    else some "list"
  | .post => some "create"
  | .put => some "update"
  | .patch => some "patch"
  | .delete => some "delete"
  | .other => none

def apiSegments (path : String) : List String :=
  (Text.split '/' (String.ofList (path.toList.dropWhile (· = '/')))).filter (· ≠ "")

/-- The group and version at the start of the path, and the rest. -/
def parseVersion : List String → Option (String × String × List String)
  | word :: rest =>
    if word = "api" then
      match rest with
      | version :: rest => some ("core", version, rest)
      | [] => none
    else if word = "apis" then
      match rest with
      | group :: version :: rest => some (group, version, rest)
      | _ => none
    else none
  | [] => none

def buildAuthorizationRequest (req : HttpRequest) (user : UserInfo) (registry : CrdRegistry) :
    Option AuthorizationRequest := do
  let (apiGroup, version, remaining) ← parseVersion (apiSegments req.path)
  let parsed ← parseResourcePath registry apiGroup version remaining
  let verb ← requestVerb req.method req.query parsed.resourceName.isSome
  return {
    user, verb, apiGroup
    resource := parsed.resource
    resourceName := parsed.resourceName
    «namespace» := parsed.namespace }

/-! ## The middleware -/

inductive AuthorizationMode
  | alwaysAllow
  | rbac
  deriving DecidableEq, Repr

/-- What the middleware does with a request. -/
inductive Verdict
  | forward
  | reject (response : StatusResponse)
  deriving DecidableEq, Repr

/-- The single paths that are not checked. -/
def bypassPaths : List String :=
  ["/healthz", "/apis", "/api", "/api/v1", "/openapi.json", "/openid/v1/jwks",
    "/.well-known/openid-configuration", "/openapi/v3"]

def shouldBypass (path : String) : Bool :=
  bypassPaths.contains path || decide ("/openapi/v3/".toList <+: path.toList)

/-- Ask the authorizer and do as it says. -/
def consult (request : AuthorizationRequest) : Program RbacOp.interface Verdict := do
  match ← Rbac.authorizeWithStore request with
  | .allowed => return .forward
  | .denied reason => return .reject (.forbidden reason)

def call (mode : AuthorizationMode) (req : HttpRequest) (user : Option UserInfo)
    (registry : CrdRegistry) : Program RbacOp.interface Verdict :=
  if mode = .alwaysAllow || shouldBypass req.path then return .forward
  else
    match user with
    | none => return .reject (.unauthorized "Authentication context is missing")
    | some user =>
      match buildAuthorizationRequest req user registry with
      | none => return .forward
      | some request => consult request

/-- The middleware consults the authorizer, about what the handler operates on. -/
def Authorizes (req : HttpRequest) (user : UserInfo) (registry : CrdRegistry) (t : Target) : Prop :=
  ∃ a, buildAuthorizationRequest req user registry = some a ∧ a.user = user ∧
    a.apiGroup = t.group ∧ a.resource = resourceText t.plural (t.name.toList ++ t.sub) ∧
    a.namespace = t.namespace ∧ a.resourceName = t.name ∧
    call .rbac req (some user) registry = consult a

/-- The target is a resource of the group and version, built in or registered, with the scope its
path suggests. -/
def Named (registry : CrdRegistry) (group version : String) (t : Target) : Prop :=
  (∃ d, findResource group version t.plural = some d ∧
      (t.namespace.isSome = true → d.namespaced = true)) ∨
    ∃ entry, registry.lookup group version t.plural = some entry ∧
      (t.namespace.isSome = true → entry.scope = .namespaced) ∧
      (t.namespace = none → t.sub ≠ [] → t.plural ≠ "namespaces")

/-- A plural of the group and version is built in or registered, with namespaces if it has to. -/
def Known (registry : CrdRegistry) (group version plural : String) (namespaced : Bool) : Prop :=
  (∃ d, findResource group version plural = some d ∧
      (namespaced = true → d.namespaced = true)) ∨
    ∃ entry, registry.lookup group version plural = some entry ∧
      (namespaced = true → entry.scope = .namespaced)

/-! ## Names that the middleware knows -/

/-- The names of built-in kinds have no escapes in them, their groups are reserved, and none of
them can be taken for a subresource. -/
lemma descriptors_spec :
    ∀ d ∈ allResourceDescriptors, d.group ∈ reservedGroups ∧ '%' ∉ d.version.toList ∧
      '%' ∉ d.plural.toList ∧ d.plural ∉ subresources := by
  decide +kernel

variable {group version plural : String}

lemma findResource_eq_some {d : ResourceApiDescriptor}
    (h : findResource group version plural = some d) :
    d ∈ allResourceDescriptors ∧ d.group = group ∧ d.version = version ∧ d.plural = plural := by
  have hmem := List.mem_filter.1 (List.mem_of_find?_eq_some h)
  have hplural := List.find?_some h
  simp only [Bool.and_eq_true, beq_iff_eq] at hmem hplural
  exact ⟨hmem.1, hmem.2.1, hmem.2.2, hplural⟩

lemma CrdRegistry.lookup_eq_some {registry : CrdRegistry} {entry : CrdEntry}
    (h : registry.lookup group version plural = some entry) :
    entry.plural = plural ∧ group ∉ reservedGroups ∧ '%' ∉ version.toList ∧
      '%' ∉ plural.toList := by
  obtain ⟨hentry, -⟩ := Option.filter_eq_some_iff.1 h
  obtain ⟨rfl, rfl, rfl⟩ := registry.keyed _ _ _ _ hentry
  obtain ⟨-, hversion, hplural⟩ := registry.valid _ _ hentry
  exact ⟨rfl, registry.unreserved _ _ hentry,
    NameValidator.notMem_of_isValidName (by decide) hversion,
    NameValidator.notMem_of_isValidName (by decide) hplural⟩

lemma reserved_of_findResource {d : ResourceApiDescriptor}
    (h : findResource group version plural = some d) : group ∈ reservedGroups := by
  obtain ⟨hmem, rfl, -, -⟩ := findResource_eq_some h
  exact (descriptors_spec d hmem).1

lemma findResource_of_unreserved (h : group ∉ reservedGroups) :
    findResource group version plural = none :=
  Option.eq_none_iff_forall_ne_some.2 fun _ hd => h (reserved_of_findResource hd)

lemma notMem_of_known {registry : CrdRegistry} {namespaced : Bool}
    (h : Known registry group version plural namespaced) :
    '%' ∉ version.toList ∧ '%' ∉ plural.toList := by
  rcases h with ⟨d, hd, -⟩ | ⟨entry, hentry, -⟩
  · obtain ⟨hmem, -, rfl, rfl⟩ := findResource_eq_some hd
    obtain ⟨-, hversion, hplural, -⟩ := descriptors_spec d hmem
    exact ⟨hversion, hplural⟩
  · exact (CrdRegistry.lookup_eq_some hentry).2.2

/-! ## What the parsers return -/

section Parsers

variable {registry : CrdRegistry} {group version : String} {plural : String}
  {afterResource : List String}

lemma parseStatic_throughNamespace {d : ResourceApiDescriptor} {ns : String}
    (hd : findResource group version plural = some d) :
    parseStaticResourcePath group version ("namespaces" :: ns :: plural :: afterResource) =
      some ⟨resourceText plural afterResource, afterResource.head?,
        if d.namespaced then some ns else none⟩ := by
  simp [parseStaticResourcePath, hd]

lemma parseStatic_direct
    (h : ∀ ns resource rest, plural :: afterResource = "namespaces" :: ns :: resource :: rest →
      findResource group version resource = none) :
    parseStaticResourcePath group version (plural :: afterResource) =
      (findResource group version plural).map fun _ =>
        ⟨resourceText plural afterResource, afterResource.head?, none⟩ := by
  match afterResource, h with
  | [], _ | [_], _ =>
    cases hd : findResource group version plural <;> simp [parseStaticResourcePath, hd]
  | ns :: resource :: rest, h =>
    by_cases hword : plural = "namespaces"
    · subst hword
      have hresource := h ns resource rest rfl
      cases hd : findResource group version "namespaces" <;>
        simp [parseStaticResourcePath, hresource, hd]
    · cases hd : findResource group version plural <;>
        simp [parseStaticResourcePath, hword, hd]

lemma parseStatic_of_unreserved (h : group ∉ reservedGroups) :
    parseStaticResourcePath group version (plural :: afterResource) = none := by
  rw [parseStatic_direct fun _ _ _ _ => findResource_of_unreserved h,
    findResource_of_unreserved h, Option.map_none]

lemma parseCrd_throughNamespace {ns : String} :
    parseCrdResourcePath registry group version ("namespaces" :: ns :: plural :: afterResource) =
      (registry.lookup group version plural).map fun entry =>
        ⟨resourceText plural afterResource, afterResource.head?,
          if entry.scope = .namespaced then some ns else none⟩ := by
  cases hentry : registry.lookup group version plural with
  | none => simp [parseCrdResourcePath, hentry]
  | some entry =>
    simp [parseCrdResourcePath, hentry, (CrdRegistry.lookup_eq_some hentry).1,
      List.head?_eq_getElem?]

lemma parseCrd_direct (h : plural ≠ "namespaces" ∨ afterResource.length < 2) :
    parseCrdResourcePath registry group version (plural :: afterResource) =
      (registry.lookup group version plural).map fun _ =>
        ⟨resourceText plural afterResource, afterResource.head?, none⟩ := by
  have hplural : ∀ entry ∈ registry.lookup group version plural, entry.plural = plural :=
    fun _ hentry => (CrdRegistry.lookup_eq_some hentry).1
  match afterResource, h with
  | [], _ | [_], _ =>
    cases hentry : registry.lookup group version plural <;>
      simp_all [parseCrdResourcePath]
  | _ :: _ :: _, h =>
    have hword : plural ≠ "namespaces" := h.resolve_right (by simp)
    cases hentry : registry.lookup group version plural <;>
      simp_all [parseCrdResourcePath]

/-- **All a path can be parsed to**: the resource directly after the version, or the one that
comes after a namespace. -/
lemma parseResourcePath_eq_some {path : List String} {p : ParsedResourcePath}
    (h : parseResourcePath registry group version path = some p) :
    ∃ before plural afterResource, path = before ++ plural :: afterResource ∧
      p.resource = resourceText plural afterResource ∧ p.resourceName = afterResource.head? ∧
      Known registry group version plural p.namespace.isSome ∧
      ((before = [] ∧ p.namespace = none ∧
          (group ∉ reservedGroups → plural ≠ "namespaces" ∨ afterResource.length < 2)) ∨
        ∃ ns, before = ["namespaces", ns] ∧ ∀ ns' ∈ p.namespace, ns' = ns) := by
  rw [parseResourcePath, Option.or_eq_some_iff] at h
  by_cases hthrough : ∃ ns plural rest, path = "namespaces" :: ns :: plural :: rest
  · obtain ⟨ns, plural, rest, rfl⟩ := hthrough
    cases hd : findResource group version plural with
    | some d =>
      rw [parseStatic_throughNamespace hd] at h
      rcases h with h | ⟨h, -⟩
      · cases h
        exact ⟨["namespaces", ns], plural, rest, rfl, rfl, rfl, .inl ⟨d, hd, by simp⟩,
          .inr ⟨ns, rfl, by simp⟩⟩
      · cases h
    | none =>
      rw [parseStatic_direct (by rintro _ _ _ ⟨⟩; exact hd), parseCrd_throughNamespace] at h
      rcases h with h | ⟨-, h⟩
      · obtain ⟨d, hd', rfl⟩ := Option.map_eq_some_iff.1 h
        exact ⟨[], "namespaces", ns :: plural :: rest, rfl, rfl, rfl, .inl ⟨d, hd', nofun⟩,
          .inl ⟨rfl, rfl, absurd (reserved_of_findResource hd')⟩⟩
      · obtain ⟨entry, hentry, rfl⟩ := Option.map_eq_some_iff.1 h
        exact ⟨["namespaces", ns], plural, rest, rfl, rfl, rfl, .inr ⟨entry, hentry, by simp⟩,
          .inr ⟨ns, rfl, by simp⟩⟩
  · cases path with
    | nil => simp [parseStaticResourcePath, parseCrdResourcePath] at h
    | cons plural rest =>
      have hdirect : plural ≠ "namespaces" ∨ rest.length < 2 := by
        by_contra hnot
        obtain ⟨hword, hlen⟩ := not_or.1 hnot
        match rest, hlen with
        | [], hlen | [_], hlen => exact hlen (by simp)
        | ns :: resource :: rest, _ =>
          exact hthrough ⟨ns, resource, rest, by rw [not_not.1 hword]⟩
      rw [parseStatic_direct (fun ns resource rest' heq =>
        absurd ⟨ns, resource, rest', heq⟩ hthrough), parseCrd_direct hdirect] at h
      rcases h with h | ⟨-, h⟩
      · obtain ⟨d, hd, rfl⟩ := Option.map_eq_some_iff.1 h
        exact ⟨[], plural, rest, rfl, rfl, rfl, .inl ⟨d, hd, nofun⟩,
          .inl ⟨rfl, rfl, fun _ => hdirect⟩⟩
      · obtain ⟨entry, hentry, rfl⟩ := Option.map_eq_some_iff.1 h
        exact ⟨[], plural, rest, rfl, rfl, rfl, .inr ⟨entry, hentry, nofun⟩,
          .inl ⟨rfl, rfl, fun _ => hdirect⟩⟩

end Parsers

/-! ## Both readers agree on plain paths only -/

variable {path : String} {segments : List String}

/-- Both readers split a path without empty segments in the same way. -/
lemma apiSegments_of_pathSegments (h : pathSegments path = some segments)
    (hne : ∀ segment ∈ segments, segment ≠ "") :
    apiSegments path = segments := by
  unfold pathSegments at h
  split at h
  next rest hpath =>
    cases h
    have hfirst : ∀ cs, rest ≠ '/' :: cs := by
      rintro cs rfl
      refine hne "" ?_ rfl
      rw [Text.split, String.toList_ofList, List.splitOn_cons_eq_if_modifyHead]
      simp
    have hdrop : rest.dropWhile (fun c => decide (c = '/')) = rest := by
      cases rest with
      | nil => rfl
      | cons c cs =>
        have hc : c ≠ '/' := fun heq => hfirst cs (by rw [heq])
        simp [hc]
    rw [apiSegments, hpath, List.dropWhile_cons_of_pos (by simp), hdrop]
    refine List.filter_eq_self.2 fun segment hsegment => ?_
    simpa using hne segment hsegment
  · cases h

lemma slash_notMem_of_mem_pathSegments (h : pathSegments path = some segments) :
    ∀ segment ∈ segments, '/' ∉ segment.toList := by
  unfold pathSegments at h
  split at h
  · cases h
    exact fun segment hsegment => Text.notMem_of_mem_split hsegment
  · cases h

lemma ne_empty_of_forall₂_reads {seen : List String} (h : List.Forall₂ Reads segments seen) :
    ∀ segment ∈ segments, segment ≠ "" := by
  induction h with
  | nil => simp
  | cons hr _ ih =>
    intro segment hsegment
    rcases List.mem_cons.1 hsegment with rfl | hmem
    · exact hr.1
    · exact ih segment hmem

lemma resourceText_eq_join (resource : String) (afterResource : List String) :
    resourceText resource afterResource = Text.join '/' (resource :: afterResource.tail) := by
  match afterResource with
  | [] | [_] => simp [resourceText, Text.join_singleton]
  | _ :: text :: texts =>
    rw [List.tail_cons, Text.join_cons resource (by simp)]
    simp [resourceText]

lemma subresources_spec : ∀ text ∈ subresources, '/' ∉ text.toList ∧ text ≠ "namespaces" := by
  decide

/-- The text of a resource tells the plural and the subresource apart. -/
lemma resourceText_inj {plural' name : String} {afterResource sub : List String}
    (hslash : ∀ segment ∈ plural :: afterResource, '/' ∉ segment.toList)
    (hplural : '/' ∉ plural'.toList) (hsub : ∀ text ∈ sub, text ∈ subresources)
    (h : resourceText plural afterResource = resourceText plural' (name :: sub)) :
    plural = plural' ∧ afterResource.tail = sub := by
  rw [resourceText_eq_join, resourceText_eq_join] at h
  refine List.cons.inj ((Text.join_inj ?_ ?_ (by simp) (by simp)).1 h)
  · obtain ⟨hfirst, hrest⟩ := List.forall_mem_cons.1 hslash
    exact List.forall_mem_cons.2 ⟨hfirst, fun text htext => hrest text (List.mem_of_mem_tail htext)⟩
  · exact List.forall_mem_cons.2
      ⟨hplural, fun text htext => (subresources_spec text (hsub text htext)).1⟩

/-- What follows the resource in the path is what the handler sees, if the names and the texts of
the resources are the same. -/
lemma afterResource_eq {afterResource : List String} {name : Option String} {sub : List String}
    (hslash : ∀ segment ∈ plural :: afterResource, '/' ∉ segment.toList)
    (hsub : ∀ text ∈ sub, text ∈ subresources) (hnone : name = none → sub = [])
    (hname : afterResource.head? = name)
    (htext : resourceText plural afterResource = resourceText plural (name.toList ++ sub)) :
    afterResource = name.toList ++ sub := by
  cases name with
  | none =>
    rw [List.head?_eq_none_iff] at hname
    rw [hname, hnone rfl]
    rfl
  | some name =>
    obtain ⟨rest, rfl⟩ : ∃ rest, afterResource = name :: rest := by
      cases afterResource with
      | nil => cases hname
      | cons x rest => exact ⟨rest, by rw [Option.some.inj hname]⟩
    obtain ⟨-, rfl⟩ := resourceText_inj hslash (hslash _ List.mem_cons_self) hsub htext
    rfl

section Agreement

variable {registry : CrdRegistry} {group version : String} {t : Target}
  (hsub : ∀ text ∈ t.sub, text ∈ subresources) (hnone : t.name = none → t.sub = [])

include hsub hnone

lemma parseResourcePath_of_named (h : Named registry group version t) :
    parseResourcePath registry group version t.resourceSegments =
      some ⟨resourceText t.plural (t.name.toList ++ t.sub), t.name, t.namespace⟩ := by
  have hhead : (t.name.toList ++ t.sub).head? = t.name := by
    cases hname : t.name with
    | none => simp [hnone hname]
    | some name => rfl
  rw [parseResourcePath, Option.or_eq_some_iff, Target.resourceSegments]
  cases hns : t.namespace with
  | some ns =>
    simp only [Target.namespaceSegments, List.cons_append, List.nil_append]
    rcases h with ⟨d, hd, hscope⟩ | ⟨entry, hentry, hscope, -⟩
    · left
      rw [parseStatic_throughNamespace hd, if_pos (hscope (by simp [hns])), hhead]
    · right
      refine ⟨parseStatic_of_unreserved (CrdRegistry.lookup_eq_some hentry).2.1, ?_⟩
      rw [parseCrd_throughNamespace, hentry, Option.map_some, if_pos (hscope (by simp [hns])),
        hhead]
  | none =>
    simp only [Target.namespaceSegments, List.nil_append]
    rcases h with ⟨d, hd, -⟩ | ⟨entry, hentry, -, hword⟩
    · left
      rw [parseStatic_direct, hd, Option.map_some, hhead]
      -- a path through a namespace could only be meant if the subresource were a kind
      intro ns resource rest heq
      obtain ⟨-, hrest⟩ := List.cons.inj heq
      cases hname : t.name with
      | none => simp [hname, hnone hname] at hrest
      | some name =>
        simp only [hname, Option.toList_some, List.singleton_append, List.cons.injEq] at hrest
        -- no built-in kind is called like a subresource
        refine Option.eq_none_iff_forall_ne_some.2 fun d hd => ?_
        obtain ⟨hmem, -, -, rfl⟩ := findResource_eq_some hd
        exact (descriptors_spec d hmem).2.2.2 (hsub _ (hrest.2 ▸ List.mem_cons_self))
    · right
      refine ⟨parseStatic_of_unreserved (CrdRegistry.lookup_eq_some hentry).2.1, ?_⟩
      rw [parseCrd_direct, hentry, Option.map_some, hhead]
      by_cases hempty : t.sub = []
      · right
        cases t.name <;> simp [hempty]
      · exact .inl (hword hns hempty)

/-- A subresource of an object called like a namespace's collection is not what the handler of
the cluster wide route sees. -/
lemma not_throughNamespace {ns plural : String} {afterResource : List String}
    (hreads : List.Forall₂ Reads ("namespaces" :: ns :: plural :: afterResource) t.resourceSegments)
    (htns : t.namespace = none) (hplural : '%' ∉ plural.toList)
    (hslash : ∀ segment ∈ plural :: afterResource, '/' ∉ segment.toList) :
    resourceText plural afterResource ≠ resourceText t.plural (t.name.toList ++ t.sub) := by
  intro htext
  rw [Target.resourceSegments, htns] at hreads
  obtain ⟨hr, hrest⟩ := List.forall₂_cons.1 hreads
  have hword : "namespaces" = t.plural := hr.2 (by decide)
  cases hname : t.name with
  | none =>
    rw [hname, hnone hname] at hrest
    cases hrest.length_eq
  | some name =>
    rw [hname] at hrest htext
    obtain ⟨-, hsubs⟩ := List.forall₂_cons.1 hrest
    obtain ⟨text, texts, hr', -, hsubeq⟩ := List.forall₂_cons_left_iff.1 hsubs
    have hsubeq : t.sub = text :: texts := hsubeq
    have hmem : plural ∈ subresources := by
      rw [hr'.2 hplural]
      exact hsub text (hsubeq ▸ List.mem_cons_self)
    obtain ⟨heq, -⟩ := resourceText_inj hslash (by rw [← hword]; decide) hsub htext
    exact (subresources_spec plural hmem).2 (heq.trans hword.symm)

lemma plain_of_parseResourcePath {path : List String} {p : ParsedResourcePath}
    (hparse : parseResourcePath registry group version path = some p)
    (hreads : List.Forall₂ Reads path t.resourceSegments)
    (hslash : ∀ segment ∈ path, '/' ∉ segment.toList)
    (hresource : p.resource = resourceText t.plural (t.name.toList ++ t.sub))
    (hns : p.namespace = t.namespace) (hname : p.resourceName = t.name) :
    path = t.resourceSegments ∧ '%' ∉ version.toList ∧ Named registry group version t := by
  obtain ⟨before, plural, afterResource, rfl, hp, hpname, hknown, hplace⟩ :=
    parseResourcePath_eq_some hparse
  rw [hns] at hknown hplace
  obtain ⟨hversion, hplural⟩ := notMem_of_known hknown
  have hslash' : ∀ segment ∈ plural :: afterResource, '/' ∉ segment.toList :=
    fun segment hsegment => hslash segment (List.mem_append_right before hsegment)
  -- the plural is where the handler has it, so what follows is the same as well
  have hafter : plural = t.plural → afterResource = t.name.toList ++ t.sub := fun heq =>
    afterResource_eq hslash' hsub hnone (hpname.symm.trans hname)
      (hp.symm.trans (heq ▸ hresource))
  rcases hplace with ⟨rfl, htns, hword⟩ | ⟨ns, rfl, hpns⟩
  · rw [Target.resourceSegments, htns] at hreads ⊢
    obtain ⟨hr, -⟩ := List.forall₂_cons.1 hreads
    have heq : plural = t.plural := hr.2 hplural
    rw [heq] at hknown hword ⊢
    refine ⟨by rw [hafter heq]; rfl, hversion, hknown.imp_right ?_⟩
    rintro ⟨entry, hentry, hscope⟩
    refine ⟨entry, hentry, hscope, fun _ hne =>
      (hword (CrdRegistry.lookup_eq_some hentry).2.1).resolve_right ?_⟩
    rw [hafter heq]
    cases hname' : t.name with
    | none => exact absurd (hnone hname') hne
    | some name =>
      have hlen := List.length_pos_of_ne_nil hne
      simp only [Option.toList_some, List.singleton_append, List.length_cons]
      omega
  · cases htns : t.namespace with
    | none =>
      exact absurd (hp.symm.trans hresource)
        (not_throughNamespace hsub hnone hreads htns hplural hslash')
    | some ns' =>
      rw [Target.resourceSegments, htns] at hreads ⊢
      obtain ⟨-, hreads⟩ := List.forall₂_cons.1 hreads
      obtain ⟨-, hreads⟩ := List.forall₂_cons.1 hreads
      obtain ⟨hr, -⟩ := List.forall₂_cons.1 hreads
      have heq : plural = t.plural := hr.2 hplural
      rw [heq] at hknown ⊢
      refine ⟨by rw [hafter heq, hpns ns' htns]; rfl, hversion, hknown.imp_right ?_⟩
      rintro ⟨entry, hentry, hscope⟩
      exact ⟨entry, hentry, hscope, by simp [htns]⟩

end Agreement

/-! ## The middleware and the router -/

lemma Method.requestVerb_isSome {method : Method} (h : method ≠ .other) (query : String)
    (resourceNamePresent : Bool) :
    ∃ verb, requestVerb method query resourceNamePresent = some verb := by
  fun_cases requestVerb method query resourceNamePresent
  case case8 => exact absurd rfl h
  all_goals exact ⟨_, rfl⟩

/-- The path of a resource has three segments or more, and the first is `api` or `apis` unless it
is encoded. -/
lemma Route.Fits.start {r : Route} {t : Target} (h : r.Fits segments t) :
    3 ≤ segments.length ∧ ∃ first rest, segments = first :: rest ∧
      ('%' ∉ first.toList → first = "api" ∨ first = "apis") := by
  have hlen := h.forall₂_reads.length_eq
  constructor
  · have hstart : 1 ≤ (if r.core then ["api"] else ["apis", t.group]).length := by
      split <;> simp
    rw [hlen, Target.segments, Target.resourceSegments, List.length_append, List.length_cons,
      List.length_append, List.length_cons]
    omega
  · have hreads := h.forall₂_reads
    rw [Target.segments] at hreads
    split at hreads
    · obtain ⟨first, rest, hfirst, -, rfl⟩ := List.forall₂_cons_right_iff.1 hreads
      exact ⟨first, rest, rfl, fun hplain => .inl (hfirst.2 hplain)⟩
    · obtain ⟨first, rest, hfirst, -, rfl⟩ := List.forall₂_cons_right_iff.1 hreads
      exact ⟨first, rest, rfl, fun hplain => .inr (hfirst.2 hplain)⟩

lemma head?_pathSegments_openapi (hpath : "/openapi/v3/".toList <+: path.toList)
    (h : pathSegments path = some segments) :
    segments.head? = some "openapi" := by
  obtain ⟨rest, hrest⟩ := hpath
  have hsplit : path.toList = '/' :: ("openapi".toList ++ '/' :: ("v3/".toList ++ rest)) := by
    rw [← hrest]
    rfl
  rw [pathSegments, hsplit] at h
  cases h
  rw [Text.split, String.toList_ofList,
    List.splitOn_append_cons_self_of_not_mem (by decide)]
  rfl

lemma shouldBypass_eq_false {r : Route} {t : Target} (h : pathSegments path = some segments)
    (hfits : r.Fits segments t) :
    shouldBypass path = false := by
  obtain ⟨hlen, first, rest, rfl, hfirst⟩ := hfits.start
  have hother : ∀ word : String, '%' ∉ word.toList → word ≠ "api" → word ≠ "apis" →
      (first :: rest).head? ≠ some word := by
    rintro word hplain hapi hapis heq
    obtain rfl : first = word := Option.some.inj heq
    exact (hfirst hplain).elim hapi hapis
  rw [shouldBypass, Bool.or_eq_false_iff]
  constructor
  · rw [← Bool.not_eq_true, List.contains_iff_mem]
    intro hmem
    -- the single paths that are not checked are too short, or start with another word
    have hpaths : ∀ path ∈ bypassPaths, ∀ segments ∈ pathSegments path,
        segments.length < 3 ∨ segments.head? = some "openid" := by decide +kernel
    rcases hpaths path hmem _ h with hshort | hword
    · omega
    · exact hother "openid" (by decide) (by decide) (by decide) hword
  · refine decide_eq_false fun hpath => ?_
    exact hother "openapi" (by decide) (by decide) (by decide) (head?_pathSegments_openapi hpath h)

lemma parseVersion_eq_some {rest : List String}
    (h : parseVersion segments = some (group, version, rest)) :
    (segments = "api" :: version :: rest ∧ group = "core") ∨
      segments = "apis" :: group :: version :: rest := by
  unfold parseVersion at h
  split at h
  next word tail =>
    split at h
    next hword =>
      subst hword
      split at h
      · obtain ⟨rfl, rfl, rfl⟩ := by simpa using h
        exact .inl ⟨rfl, rfl⟩
      · cases h
    · split at h
      next hword =>
        subst hword
        split at h
        · obtain ⟨rfl, rfl, rfl⟩ := by simpa using h
          exact .inr rfl
        · cases h
      · cases h
  · cases h

section Dispatched

variable {registry : CrdRegistry} {r : Route} {t : Target} {segments : List String}

lemma parseVersion_segments (hfits : r.Fits segments t) :
    parseVersion (t.segments r.core) = some (t.group, t.version, t.resourceSegments) := by
  cases hcore : r.core with
  | false => rfl
  | true =>
    obtain ⟨k, hk, hgroup⟩ := (Option.any_eq_true _ _).1 hcore
    have hcoreGroup : t.group = "core" :=
      (hfits.builtIn k hk).1.trans (beq_iff_eq.1 hgroup)
    rw [hcoreGroup]
    rfl

/-- Both readers take the same of the two words at the start of the path, as neither of them is
encoded, and so go on with the same segments. -/
lemma Route.Fits.rest (hfits : r.Fits segments t) {group version : String} {rest : List String}
    (hversion : parseVersion segments = some (group, version, rest)) :
    segments = (if r.core then ["api"] else ["apis", group]) ++ version :: rest ∧
      (r.core = true → group = "core") ∧ Reads version t.version ∧
      List.Forall₂ Reads rest t.resourceSegments := by
  have hreads := hfits.forall₂_reads
  rw [Target.segments] at hreads
  rcases parseVersion_eq_some hversion with ⟨rfl, rfl⟩ | rfl
  · split at hreads
    next hcore =>
      obtain ⟨-, hreads⟩ := List.forall₂_cons.1 hreads
      obtain ⟨hv, hreads⟩ := List.forall₂_cons.1 hreads
      exact ⟨by rw [if_pos hcore]; rfl, fun _ => rfl, hv, hreads⟩
    · obtain ⟨hword, -⟩ := List.forall₂_cons.1 hreads
      exact absurd (hword.2 (by decide)) (by decide)
  · split at hreads
    · obtain ⟨hword, -⟩ := List.forall₂_cons.1 hreads
      exact absurd (hword.2 (by decide)) (by decide)
    next hcore =>
      obtain ⟨-, hreads⟩ := List.forall₂_cons.1 hreads
      obtain ⟨-, hreads⟩ := List.forall₂_cons.1 hreads
      obtain ⟨hv, hreads⟩ := List.forall₂_cons.1 hreads
      exact ⟨by rw [if_neg hcore]; rfl, fun h => absurd h hcore, hv, hreads⟩

lemma plain_of_parseVersion (hr : r ∈ resourceRoutes) (hfits : r.Fits segments t)
    (hslash : ∀ segment ∈ segments, '/' ∉ segment.toList) {version : String}
    {rest : List String} {p : ParsedResourcePath}
    (hversion : parseVersion segments = some (t.group, version, rest))
    (hparse : parseResourcePath registry t.group version rest = some p)
    (hresource : p.resource = resourceText t.plural (t.name.toList ++ t.sub))
    (hns : p.namespace = t.namespace) (hname : p.resourceName = t.name) :
    segments = t.segments r.core ∧ Named registry t.group t.version t := by
  obtain ⟨hsub, hnone, -⟩ := resourceRoutes_spec r hr
  have hsub' : ∀ text ∈ t.sub, text ∈ subresources := hfits.sub ▸ hsub
  have hnone' : t.name = none → t.sub = [] := fun h =>
    hfits.sub ▸ hnone (by rw [← hfits.named, h]; rfl)
  obtain ⟨hsegments, -, hv, hreads⟩ := hfits.rest hversion
  have hslash' : ∀ segment ∈ rest, '/' ∉ segment.toList := fun segment h =>
    hslash segment (hsegments ▸ List.mem_append_right _ (List.mem_cons_of_mem _ h))
  obtain ⟨rfl, hplain, hnamed⟩ :=
    plain_of_parseResourcePath hsub' hnone' hparse hreads hslash' hresource hns hname
  obtain rfl := hv.2 hplain
  exact ⟨hsegments, hnamed⟩

end Dispatched

/-- A request that the router dispatches is authorized as what its handler does exactly if its
path is spelled without escapes and, on a route of custom resources, the resource is known. -/
theorem authorizes_iff {req : HttpRequest} {r : Route} {t : Target}
    (h : dispatch req = some (r, t)) (user : UserInfo) (registry : CrdRegistry) :
    Authorizes req user registry t ↔
      pathSegments req.path = some (t.segments r.core) ∧
        (r.kind = none → Named registry t.group t.version t) := by
  obtain ⟨segments, hsegments, hr, hmethod, hfits⟩ := exists_fits_of_dispatch h
  have hapi := apiSegments_of_pathSegments hsegments
    (ne_empty_of_forall₂_reads hfits.forall₂_reads)
  have hslash := slash_notMem_of_mem_pathSegments hsegments
  rw [hsegments, Option.some.injEq]
  constructor
  · rintro ⟨a, hbuild, -, hgroup, hresource, hns, hname, -⟩
    simp only [buildAuthorizationRequest, hapi, Option.bind_eq_bind, Option.bind_eq_some_iff,
      Prod.exists, Option.pure_def, Option.some.injEq] at hbuild
    obtain ⟨group, version, rest, hversion, p, hparse, verb, -, rfl⟩ := hbuild
    obtain rfl : group = t.group := hgroup
    obtain ⟨hplain, hnamed⟩ := plain_of_parseVersion hr hfits hslash hversion hparse hresource hns
      hname
    exact ⟨hplain, fun _ => hnamed⟩
  · rintro ⟨rfl, hcustom⟩
    obtain ⟨hsub, hnone, hother, -⟩ := resourceRoutes_spec r hr
    have hnamed : Named registry t.group t.version t := by
      cases hk : r.kind with
      | none => exact hcustom hk
      | some k =>
        obtain ⟨hgroup, hversion, hplural⟩ := hfits.builtIn k hk
        refine .inl ⟨k.descriptor, ?_, fun hns => ?_⟩
        · rw [hgroup, hversion, hplural]
          clear hk hgroup hversion hplural
          cases k <;> decide +kernel
        have hspec := (resourceRoutes_spec r hr).2.2.2.1
        rw [hk] at hspec
        rw [hfits.namespaced] at hns
        simpa [hns] using hspec
    have hparse := parseResourcePath_of_named (hfits.sub ▸ hsub)
      (fun hname => hfits.sub ▸ hnone (by rw [← hfits.named, hname]; rfl)) hnamed
    obtain ⟨verb, hverb⟩ := Method.requestVerb_isSome (hmethod ▸ hother) req.query t.name.isSome
    have hbuild : buildAuthorizationRequest req user registry =
        some { user, verb, apiGroup := t.group,
               resource := resourceText t.plural (t.name.toList ++ t.sub),
               resourceName := t.name, «namespace» := t.namespace } := by
      simp [buildAuthorizationRequest, hapi, parseVersion_segments hfits, hparse, hverb]
    refine ⟨_, hbuild, rfl, rfl, rfl, rfl, rfl, ?_⟩
    simp only [call, shouldBypass_eq_false hsegments hfits, hbuild]
    rfl

/-- Reading a Ship by its plain path is authorized as that. -/
theorem authorizes_plain_ship :
    Authorizes ⟨.get, "/api/v1/namespaces/team-a/ships/ship-a", ""⟩ ⟨"ada", ["crew"], .oidc⟩ .empty
      ⟨"core", "v1", some "team-a", "ships", some "ship-a", []⟩ :=
  (authorizes_iff (r := ⟨some .ship, .get, true, true, []⟩) (by decide) _ _).2
    ⟨by decide, fun h => absurd h (by decide)⟩

/-- With one letter of the plural encoded, the Ships of all namespaces are listed, and nobody is
asked. -/
theorem encoded_plural_not_authorized :
    dispatch ⟨.get, "/api/v1/%73hips", ""⟩ =
        some (⟨some .ship, .get, false, false, []⟩, ⟨"core", "v1", none, "ships", none, []⟩) ∧
      buildAuthorizationRequest ⟨.get, "/api/v1/%73hips", ""⟩ ⟨"ada", ["crew"], .oidc⟩ .empty =
        none ∧
      call .rbac ⟨.get, "/api/v1/%73hips", ""⟩ (some ⟨"ada", ["crew"], .oidc⟩) .empty =
        .done .forward := by
  have hbuild : buildAuthorizationRequest ⟨.get, "/api/v1/%73hips", ""⟩
      ⟨"ada", ["crew"], .oidc⟩ .empty = none := by decide
  have hbypass : shouldBypass "/api/v1/%73hips" = false := by decide
  refine ⟨by decide, hbuild, ?_⟩
  simp only [call, hbypass, hbuild]
  rfl

end Tugboat
