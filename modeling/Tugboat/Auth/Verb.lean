import Tugboat.ApiServer.CustomResources
import Tugboat.ApiServer.Selector
import Tugboat.Auth.Middleware
import Tugboat.Store.Watch

/-!
# The authorized verb and the operation

A GET of a collection lists it or, with the watch option, opens a stream of changes; a GET of an
object returns the object, whatever the query says.  The handlers read the option from the decoded
query, and reject queries in which a known option is repeated or has no valid value, selectors that
cannot be parsed, and paths to custom resources that are not served there.  The middleware looks for
the option in the query as it was sent.

`verbAgrees_iff` says when the verb that is authorized is the operation that is performed.
-/

namespace Tugboat

/-! ## The query as the handlers read it -/

/-- The default watch mode, or one with a line for every event. -/
inductive WatchOption
  | default
  | ndJson
  deriving DecidableEq, Repr

def WatchOption.parse (value : String) : Option WatchOption :=
  if value = "true" ∨ value = "True" then some .default
  else if value = "ndJson" ∨ value = "NdJson" then some .ndJson
  else none

structure ListQuery where
  watch : Option WatchOption := none
  resourceVersion : Option String := none
  fieldSelector : Option String := none
  labelSelector : Option String := none
  deriving DecidableEq, Repr

namespace ListQuery

/-- The decoded key and value of one pair of a query. -/
def parsePair (pair : String) : String × String :=
  match Text.splitOnce '=' pair with
  | some (key, value) => (Percent.formDecode key, Percent.formDecode value)
  | none => (Percent.formDecode pair, "")

def parsePairs (query : String) : List (String × String) :=
  ((Text.split '&' query).filter (· ≠ "")).map parsePair

/-- An option may be given once. -/
def once (given : Option String) (value : String) : Option (Option String) :=
  if given.isSome then none else some (some value)

/-- Read one option; the others are ignored. -/
def add (q : ListQuery) (pair : String × String) : Option ListQuery :=
  if pair.1 = "watch" then
    if q.watch.isSome then none
    else (WatchOption.parse pair.2).map fun option => { q with watch := some option }
  else if pair.1 = "resourceVersion" then
    (once q.resourceVersion pair.2).map fun value => { q with resourceVersion := value }
  else if pair.1 = "fieldSelector" then
    (once q.fieldSelector pair.2).map fun value => { q with fieldSelector := value }
  else if pair.1 = "labelSelector" then
    (once q.labelSelector pair.2).map fun value => { q with labelSelector := value }
  else some q

def fromQuery (query : String) : Option ListQuery := (parsePairs query).foldlM add {}

def watchPairs (query : String) : List String :=
  (Text.split '&' query).filter fun pair => (parsePair pair).1 = "watch"

def toFieldSelector (q : ListQuery) : Except StatusResponse (Option (List Selector)) :=
  match q.fieldSelector with
  | some fieldSelector => (Selector.tryParse fieldSelector).map some
  | none => .ok none

def toLabelSelector (q : ListQuery) : Except StatusResponse (Option (List Selector)) :=
  match q.labelSelector with
  | some labelSelector => (Selector.tryParse labelSelector).map some
  | none => .ok none

end ListQuery

/-! ## Operations -/

/-- What a handler asks of the store on a GET. -/
inductive Operation
  | watch
  | list
  | get
  deriving DecidableEq, Repr

/-- What becomes of an accepted query: `start` is the revision to watch from. -/
def ListQuery.operation (start : Option String → Option (Option Int)) (q : ListQuery) :
    Option Operation := do
  let _ ← q.toFieldSelector.toOption
  let _ ← q.toLabelSelector.toOption
  if q.watch.isSome then
    let _ ← start q.resourceVersion
    return .watch
  else return .list

namespace Route

/-- The revision a watch starts from.  For custom resources the handler parses it. -/
def startRevision (r : Route) (resourceVersion : Option String) : Option (Option Int) :=
  match r.kind with
  | some _ => (WatchMuxAggregator.get resourceVersion).toOption
  | none =>
    match resourceVersion with
    | none => some none
    | some value => (Decimal.parseInt64 value).bind fun revision =>
      (WatchMuxAggregator.getFromStartRevision (some revision)).toOption

open CustomResource in
/-- A custom resource has to be registered, and its scope has to fit the path. -/
def serves (r : Route) (registry : CrdRegistryInner) (t : Target) : Bool :=
  match r.kind with
  | some _ => true
  | none => (registry.lookup t.group t.version t.plural).any fun entry =>
    if r.named then (ensureWriteScope entry t.namespace).isOk
    else (ensureListScope entry t.namespace).isOk

/-- The operation of a route's handler.  A rejected request has none. -/
def operation (r : Route) (registry : CrdRegistryInner) (t : Target) (query : String) :
    Option Operation :=
  match r.method with
  | .get =>
    if r.serves registry t then
      if r.named then some .get
      else (ListQuery.fromQuery query).bind (ListQuery.operation r.startRevision)
    else none
  | _ => none

end Route

/-- The verb names the operation, for each of the operations. -/
def VerbAgrees (verb : String) (operation : Option Operation) : Prop :=
  (verb = "watch" ↔ operation = some .watch) ∧ (verb = "list" ↔ operation = some .list) ∧
    (verb = "get" ↔ operation = some .get)
  deriving Decidable

/-! ## Conditions on the request -/

/-- The query is one that the handler of a collection accepts. -/
def Accepted (r : Route) (query : String) : Prop :=
  ∃ q, ListQuery.fromQuery query = some q ∧ (ListQuery.operation r.startRevision q).isSome

/-- The pair sets the watch option and is spelled out. -/
def PlainWatch (pair : String) : Prop := ∃ value ∈ watchValues, pair = "watch=" ++ value
  deriving Decidable

/-- The pairs that are decoded to the watch option are spelled out. -/
def WatchSpelledOut (query : String) : Prop :=
  ∀ pair ∈ ListQuery.watchPairs query, PlainWatch pair

/-- On the path of a collection in a namespace of the core group, the plural is the spelled out
plural of a kind of that group. -/
def CorePluralSpelledOut (path : String) : Prop :=
  ∀ version ns plural,
    apiSegments path = ["api", version, "namespaces", ns, plural] ∨
      apiSegments path = ["apis", "core", version, "namespaces", ns, plural] →
    ∃ d, findResource "core" "v1" plural = some d

/-! ## The two readings of the query -/

lemma splitOnce_eq_watch {pair value : String} :
    Text.splitOnce '=' pair = some ("watch", value) ↔ pair = "watch=" ++ value := by
  rw [Text.splitOnce_eq_some, and_iff_left (by decide : '=' ∉ "watch".toList)]
  rfl

variable {query : String}

/-- The middleware finds the option where it is spelled out. -/
lemma queryRequestsWatch_iff :
    queryRequestsWatch query = true ↔ ∃ pair ∈ Text.split '&' query, PlainWatch pair := by
  rw [queryRequestsWatch, List.any_eq_true]
  refine exists_congr fun pair => and_congr_right fun _ => ?_
  constructor
  · intro h
    split at h
    · cases h
    rename_i key value hsplit
    simp only [Bool.and_eq_true, beq_iff_eq, List.contains_iff_mem] at h
    exact ⟨value, h.2, splitOnce_eq_watch.1 (h.1 ▸ hsplit)⟩
  · rintro ⟨value, hvalue, hpair⟩
    rw [splitOnce_eq_watch.2 hpair]
    simpa using hvalue

lemma parsePair_of_plainWatch {pair : String} (h : PlainWatch pair) :
    (ListQuery.parsePair pair).1 = "watch" := by
  obtain ⟨value, -, hpair⟩ := h
  rw [ListQuery.parsePair, splitOnce_eq_watch.2 hpair]
  exact Percent.formDecode_of_notMem (by decide) (by decide)

namespace ListQuery

variable {q : ListQuery}

lemma operation_eq_some {start : Option String → Option (Option Int)} {o : Operation}
    (h : operation start q = some o) : o = if q.watch.isSome then .watch else .list := by
  simp only [operation, Option.bind_eq_bind, Option.bind_eq_some_iff] at h
  obtain ⟨_, -, _, -, h⟩ := h
  split at h
  · obtain ⟨_, -, ⟨⟩⟩ := Option.bind_eq_some_iff.1 h
    rw [if_pos ‹_›]
  · cases h
    rw [if_neg ‹_›]

lemma add_eq_some {q' : ListQuery} {pair : String × String} (h : q.add pair = some q') :
    (pair.1 = "watch" ∧ q.watch = none ∧ q'.watch.isSome = true) ∨
      (pair.1 ≠ "watch" ∧ q'.watch = q.watch) := by
  unfold add at h
  by_cases hkey : pair.1 = "watch"
  · rw [if_pos hkey] at h
    split at h
    · cases h
    rename_i hnone
    obtain ⟨option, -, rfl⟩ := Option.map_eq_some_iff.1 h
    exact .inl ⟨hkey, by simpa using hnone, rfl⟩
  · rw [if_neg hkey] at h
    refine .inr ⟨hkey, ?_⟩
    iterate 3
      split at h
      · obtain ⟨value, -, rfl⟩ := Option.map_eq_some_iff.1 h
        rfl
    cases h
    rfl

/-- The option is set as often as it is given. -/
lemma length_watch_of_foldlM :
    ∀ (pairs : List (String × String)) (q q' : ListQuery), pairs.foldlM add q = some q' →
      (pairs.filter (·.1 = "watch")).length + q.watch.toList.length = q'.watch.toList.length
  | [], q, q', h => by
    cases h
    simp
  | pair :: pairs, q, q', h => by
    rw [List.foldlM_cons] at h
    obtain ⟨q₁, hadd, hrest⟩ := Option.bind_eq_some_iff.1 h
    have ih := length_watch_of_foldlM pairs q₁ q' hrest
    rcases add_eq_some hadd with ⟨hkey, hnone, hsome⟩ | ⟨hkey, heq⟩
    · obtain ⟨option, hoption⟩ := Option.isSome_iff_exists.1 hsome
      rw [List.filter_cons_of_pos (by simpa using hkey), List.length_cons, hnone]
      rw [hoption] at ih
      simpa using ih
    · rw [List.filter_cons_of_neg (by simpa using hkey), ← heq]
      exact ih

variable {query : String}

lemma mem_watchPairs {pair : String} : pair ∈ watchPairs query ↔
      pair ∈ Text.split '&' query ∧ (parsePair pair).1 = "watch" := by
  simp [watchPairs]

/-- In an accepted query there is one such pair if the option is set, and none otherwise. -/
lemma length_watchPairs (h : fromQuery query = some q) :
    (watchPairs query).length = q.watch.toList.length := by
  have hlen := length_watch_of_foldlM _ _ _ h
  rw [parsePairs, List.filter_map, List.length_map, List.filter_filter] at hlen
  rw [← hlen, watchPairs]
  simp only [Option.toList_none, List.length_nil, Nat.add_zero]
  congr 1
  refine List.filter_congr fun pair _ => ?_
  by_cases hempty : pair = ""
  · subst hempty
    decide
  · simp [hempty]

lemma isSome_watch_iff (h : fromQuery query = some q) :
    q.watch.isSome = true ↔ ∃ pair, pair ∈ watchPairs query := by
  have hlen := length_watchPairs h
  cases hq : q.watch with
  | none =>
    rw [hq] at hlen
    simp [List.length_eq_zero_iff.1 hlen]
  | some option =>
    rw [hq] at hlen
    simpa using List.exists_mem_of_length_pos (Nat.lt_of_lt_of_eq Nat.one_pos hlen.symm)

lemma watchPair_unique (h : fromQuery query = some q) {pair pair' : String}
    (hpair : pair ∈ watchPairs query) (hpair' : pair' ∈ watchPairs query) :
    pair = pair' := by
  have hle : (watchPairs query).length ≤ 1 := by
    rw [length_watchPairs h]
    cases q.watch <;> simp
  match hlist : watchPairs query with
  | [] =>
    simp [hlist] at hpair
  | [only] =>
    rw [hlist] at hpair hpair'
    rw [List.mem_singleton.1 hpair, List.mem_singleton.1 hpair']
  | _ :: _ :: _ =>
    rw [hlist] at hle
    exact absurd hle (by simp)

end ListQuery

/-! ## The name in the path -/

/-- All built-in kinds have the same version, and only the core group has namespaces. -/
lemma descriptors_version :
    ∀ d ∈ allResourceDescriptors,
      d.version = "v1" ∧ (d.plural = "namespaces" → d.group = "core") := by
  decide

section Name

variable {registry : CrdRegistry} {r : Route} {t : Target} {segments rest : List String}
  {group version : String} {p : ParsedResourcePath} (hfits : r.Fits segments t)
  (hversion : parseVersion segments = some (group, version, rest))
  (hparse : parseResourcePath registry group version rest = some p)

include hfits hversion hparse

lemma resourceName_of_named (hname : t.name.isSome = true) (hsub : t.sub = []) :
    p.resourceName.isSome = true := by
  obtain ⟨-, -, -, hreads⟩ := hfits.rest hversion
  obtain ⟨before, plural, afterResource, rfl, -, hp, -, hplace⟩ := parseResourcePath_eq_some hparse
  obtain ⟨name, hname⟩ := Option.isSome_iff_exists.1 hname
  have hlen := hreads.length_eq
  simp only [Target.resourceSegments, hname, hsub, List.length_append, List.length_cons,
    Option.toList_some, List.length_nil] at hlen
  rw [hp]
  cases afterResource with
  | cons _ _ => rfl
  | nil =>
    -- without a name there would be one segment too few, wherever the resource is
    exfalso
    rcases hplace with ⟨rfl, -⟩ | ⟨ns, rfl, -⟩
    · simp at hlen
    · cases hns : t.namespace <;> simp [hns, Target.namespaceSegments] at hlen

omit hfits in
/-- In the core group, a path through a namespace leads to a built-in kind. -/
lemma exists_core_resource {ns plural : String} (hrest : rest = ["namespaces", ns, plural])
    (hgroup : group = "core") (hp : p.resourceName = none) :
    ∃ d, findResource "core" "v1" plural = some d := by
  subst hgroup
  obtain ⟨before, plural', afterResource, heq, -, hname, hknown, hplace⟩ :=
    parseResourcePath_eq_some hparse
  rw [hp] at hname
  obtain rfl := List.head?_eq_none_iff.1 hname.symm
  rcases hplace with ⟨rfl, -⟩ | ⟨ns', rfl, -⟩
  · cases congrArg List.length (hrest.symm.trans heq)
  obtain ⟨-, -, rfl⟩ : "namespaces" = "namespaces" ∧ ns = ns' ∧ plural = plural' := by
    simpa using hrest.symm.trans heq
  rcases hknown with ⟨d, hd, -⟩ | ⟨entry, hentry, -⟩
  · obtain ⟨hmem, -, rfl, -⟩ := findResource_eq_some hd
    exact ⟨d, (descriptors_version d hmem).1 ▸ hd⟩
  · exact absurd (by decide) (CrdRegistry.lookup_eq_some hentry).2.1

/-- The path of a collection is parsed to something without a name, unless it is a path of the
core group whose plural is not recognized. -/
lemma resourceName_eq_none_iff {path : String} (hapi : apiSegments path = segments)
    (hname : t.name = none) (hsub : t.sub = []) :
    p.resourceName = none ↔ CorePluralSpelledOut path := by
  obtain ⟨hsegments, hcore, -, hreads⟩ := hfits.rest hversion
  have hlen := hreads.length_eq
  simp only [Target.resourceSegments, hname, hsub, List.length_append, List.length_cons,
    Option.toList_none, List.length_nil] at hlen
  constructor
  · intro hp version' ns plural hpath
    rw [hapi, hsegments] at hpath
    obtain ⟨hgroup, hrest⟩ : group = "core" ∧ rest = ["namespaces", ns, plural] := by
      cases hr : r.core with
      | true =>
        obtain ⟨-, hrest⟩ : version = version' ∧ rest = _ := by simpa [hr] using hpath
        exact ⟨hcore hr, hrest⟩
      | false =>
        obtain ⟨hgroup, -, hrest⟩ : group = "core" ∧ version = version' ∧ rest = _ := by
          simpa [hr] using hpath
        exact ⟨hgroup, hrest⟩
    exact exists_core_resource hversion hparse hrest hgroup hp
  · intro hspelled
    obtain ⟨before, plural, afterResource, rfl, -, hp, hknown, hplace⟩ :=
      parseResourcePath_eq_some hparse
    rcases hplace with ⟨rfl, -, hdirect⟩ | ⟨ns, rfl, -⟩
    · cases hns : t.namespace with
      | none =>
        have hnil : afterResource = [] := by
          simpa [hns, Target.namespaceSegments] using hlen
        rw [hp, hnil]
        rfl
      | some ns =>
        -- then the middleware has taken the namespace for an object of the core group
        rw [Target.resourceSegments, hns] at hreads
        obtain ⟨hword, -⟩ := List.forall₂_cons.1 hreads
        have hlen' : afterResource.length = 2 := by
          simpa [hns, Target.namespaceSegments] using hlen
        obtain ⟨ns', plural', rfl⟩ := List.length_eq_two.1 hlen'
        obtain rfl : plural = "namespaces" := hword.2 (notMem_of_known hknown).2
        obtain ⟨d, hd⟩ : ∃ d, findResource group version "namespaces" = some d := by
          rcases hknown with ⟨d, hd, -⟩ | ⟨entry, hentry, -⟩
          · exact ⟨d, hd⟩
          · exact absurd (hdirect (CrdRegistry.lookup_eq_some hentry).2.1) (by simp)
        obtain ⟨hmem, hgroup, hv, hplural⟩ := findResource_eq_some hd
        obtain ⟨hv1, hnamespaces⟩ := descriptors_version d hmem
        obtain rfl : group = "core" := hgroup.symm.trans (hnamespaces hplural)
        obtain rfl : version = "v1" := hv.symm.trans hv1
        obtain ⟨d', hd'⟩ := hspelled "v1" ns' plural' (by
          rw [hapi, hsegments]
          cases r.core
          · exact .inr rfl
          · exact .inl rfl)
        have hthrough : parseResourcePath registry "core" "v1" ["namespaces", ns', plural'] =
            some ⟨resourceText plural' [], none, if d'.namespaced then some ns' else none⟩ := by
          rw [parseResourcePath, parseStatic_throughNamespace hd']
          rfl
        exact congrArg ParsedResourcePath.resourceName
          (Option.some.inj (hparse.symm.trans hthrough))
    · have hnil : afterResource = [] := by
        cases hns : t.namespace with
        | none => simp [hns, Target.namespaceSegments] at hlen
        | some ns' => simpa [hns, Target.namespaceSegments] using hlen
      rw [hp, hnil]
      rfl

end Name

/-! ## Verbs and operations -/

variable {named : Bool} {verb : String}

/-- On a GET the verb follows from whether the option is found and whether there is a name. -/
lemma requestVerb_get (h : requestVerb .get query named = some verb) :
    verb = if queryRequestsWatch query then "watch" else if named then "get" else "list" := by
  simp only [requestVerb] at h
  split_ifs at h ⊢ <;> exact (Option.some.inj h).symm

/-- On a GET, nothing is authorized that is not done. -/
lemma not_verbAgrees_none (h : requestVerb .get query named = some verb) :
    ¬ VerbAgrees verb none := by
  have hverb := requestVerb_get h
  simp only [VerbAgrees, reduceCtorEq, iff_false]
  split_ifs at hverb <;> simp [hverb]

lemma verbAgrees_object_iff (hverb : requestVerb .get query true = some verb) :
    VerbAgrees verb (some .get) ↔ ∀ pair ∈ Text.split '&' query, ¬ PlainWatch pair := by
  have hverb' := requestVerb_get hverb
  by_cases hplain : queryRequestsWatch query = true
  · obtain ⟨pair, hpair, hspelled⟩ := queryRequestsWatch_iff.1 hplain
    rw [if_pos hplain] at hverb'
    rw [hverb']
    exact iff_of_false (by decide) fun hnot => hnot pair hpair hspelled
  · rw [if_neg hplain] at hverb'
    rw [hverb']
    refine iff_of_true (by decide) fun pair hpair hspelled => hplain ?_
    exact queryRequestsWatch_iff.2 ⟨pair, hpair, hspelled⟩

lemma verbAgrees_collection_iff {r : Route} (hverb : requestVerb .get query named = some verb) :
    VerbAgrees verb ((ListQuery.fromQuery query).bind (ListQuery.operation r.startRevision)) ↔
      Accepted r query ∧ WatchSpelledOut query ∧
        (ListQuery.watchPairs query = [] → named = false) := by
  have hverb' := requestVerb_get hverb
  cases ho : (ListQuery.fromQuery query).bind (ListQuery.operation r.startRevision) with
  | none =>
    refine iff_of_false (not_verbAgrees_none hverb) ?_
    rintro ⟨⟨q, hq, hsome⟩, -⟩
    rw [hq, Option.bind_some] at ho
    simp [ho] at hsome
  | some o =>
    obtain ⟨q, hq, ho⟩ := Option.bind_eq_some_iff.1 ho
    have haccepted : Accepted r query := ⟨q, hq, by simp [ho]⟩
    have hwatch := ListQuery.isSome_watch_iff hq
    rw [ListQuery.operation_eq_some ho]
    by_cases hplain : queryRequestsWatch query = true
    · -- the pair that the middleware found is the one the handler reads
      obtain ⟨pair, hpair, hspelled⟩ := queryRequestsWatch_iff.1 hplain
      have hmem : pair ∈ ListQuery.watchPairs query :=
        ListQuery.mem_watchPairs.2 ⟨hpair, parsePair_of_plainWatch hspelled⟩
      rw [if_pos hplain] at hverb'
      rw [if_pos (hwatch.2 ⟨pair, hmem⟩), hverb']
      refine iff_of_true (by decide) ⟨haccepted, fun pair' hmem' => ?_, fun hnil => ?_⟩
      · rw [ListQuery.watchPair_unique hq hmem' hmem]
        exact hspelled
      · simp [hnil] at hmem
    · rw [if_neg hplain] at hverb'
      by_cases hset : q.watch.isSome = true
      · obtain ⟨pair, hmem⟩ := hwatch.1 hset
        rw [if_pos hset, hverb']
        refine iff_of_false (by cases named <;> decide) fun ⟨_, hspelled, _⟩ => hplain ?_
        exact queryRequestsWatch_iff.2
          ⟨pair, (ListQuery.mem_watchPairs.1 hmem).1, hspelled pair hmem⟩
      · have hnil : ListQuery.watchPairs query = [] := by
          rw [hwatch] at hset
          exact List.eq_nil_iff_forall_not_mem.2 fun pair hmem => hset ⟨pair, hmem⟩
        rw [if_neg hset, hverb', hnil, WatchSpelledOut, hnil]
        cases named <;> simp [VerbAgrees, haccepted]

/-- The verb that is authorized for a dispatched request is the operation of its handler exactly if
a GET is served; of an object, does not spell out the watch option; and of a collection, has a query
that is accepted, spells out the watch option if it has it, and otherwise has a path that the
middleware does not take for an object's. -/
theorem verbAgrees_iff {req : HttpRequest} {r : Route} {t : Target}
    (h : dispatch req = some (r, t)) {user : UserInfo} {registry : CrdRegistry}
    {a : AuthorizationRequest} (hbuild : buildAuthorizationRequest req user registry = some a)
    (registered : CrdRegistryInner) :
    VerbAgrees a.verb (r.operation registered t req.query) ↔
      (req.method = .get → r.serves registered t = true ∧
        (r.named = true → ∀ pair ∈ Text.split '&' req.query, ¬ PlainWatch pair) ∧
        (r.named = false → Accepted r req.query ∧ WatchSpelledOut req.query ∧
          (ListQuery.watchPairs req.query = [] → CorePluralSpelledOut req.path))) := by
  obtain ⟨segments, hsegments, hr, hmethod, hfits⟩ := exists_fits_of_dispatch h
  obtain ⟨-, hnone, -, -, hget⟩ := resourceRoutes_spec r hr
  have hapi := apiSegments_of_pathSegments hsegments
    (ne_empty_of_forall₂_reads hfits.forall₂_reads)
  simp only [buildAuthorizationRequest, hapi, Option.bind_eq_bind, Option.bind_eq_some_iff,
    Prod.exists, Option.pure_def, Option.some.injEq] at hbuild
  obtain ⟨group, version, rest, hversion, p, hparse, verb, hverb, rfl⟩ := hbuild
  by_cases hm : req.method = .get
  · rw [hm] at hverb
    have hrm : r.method = .get := hmethod.trans hm
    have hsub : t.sub = [] := hfits.sub.trans (hget hrm)
    simp only [Route.operation, hrm, hm, forall_const]
    by_cases hserves : r.serves registered t = true
    · rw [if_pos hserves, and_iff_right hserves]
      cases hnamed : r.named with
      | true =>
        have hname := resourceName_of_named hfits hversion hparse (hfits.named.trans hnamed) hsub
        rw [hname] at hverb
        simp only [if_true, forall_const, Bool.true_eq_false, IsEmpty.forall_iff, and_true]
        exact verbAgrees_object_iff hverb
      | false =>
        have hname : t.name = none := by
          simpa using hfits.named.trans hnamed
        have hpath := resourceName_eq_none_iff hfits hversion hparse hapi hname hsub
        simp only [Bool.false_eq_true, if_false, forall_const, IsEmpty.forall_iff, true_and]
        rw [verbAgrees_collection_iff hverb, ← hpath, Option.isSome_eq_false_iff,
          Option.isNone_iff_eq_none]
    · rw [if_neg hserves]
      exact iff_of_false (not_verbAgrees_none hverb) fun hc => hserves hc.1
  · have hop : r.operation registered t req.query = none := by
      rw [← hmethod] at hm
      unfold Route.operation
      split
      next hrm =>
        exact absurd hrm hm
      · rfl
    rw [hop]
    refine iff_of_true ?_ fun h => absurd h hm
    -- the verbs of the other methods are not those of the operations
    cases hother : req.method with
    | get => exact absurd hother hm
    | other => simp [requestVerb, hother] at hverb
    | post | put | patch | delete =>
      rw [hother] at hverb
      obtain rfl := Option.some.inj hverb
      dsimp only
      decide

/-- A list request with the spelled out watch option is authorized as a watch. -/
theorem verbAgrees_plain_watch :
    VerbAgrees "watch" (Route.operation ⟨some .ship, .get, false, false, []⟩ .empty
      ⟨"core", "v1", none, "ships", none, []⟩ "watch=true") := by
  have hdispatch : dispatch ⟨.get, "/api/v1/ships", "watch=true"⟩ =
      some (⟨some .ship, .get, false, false, []⟩, ⟨"core", "v1", none, "ships", none, []⟩) := by
    decide
  have hbuild : buildAuthorizationRequest ⟨.get, "/api/v1/ships", "watch=true"⟩
      ⟨"ada", ["crew"], .oidc⟩ .empty =
        some ⟨⟨"ada", ["crew"], .oidc⟩, "watch", "core", "ships", none, none⟩ := by
    decide
  have hspelled : WatchSpelledOut "watch=true" := by
    unfold WatchSpelledOut
    decide
  exact (verbAgrees_iff hdispatch hbuild .empty).2 fun _ => ⟨rfl, fun h => absurd h (by decide),
    fun _ => ⟨⟨{ watch := some .default }, by decide, by decide⟩, hspelled,
      fun h => absurd h (by decide)⟩⟩

/-- With one letter of the option encoded, a watch is authorized as a list. -/
theorem encoded_watch_authorized_as_list :
    let route : Route := ⟨some .ship, .get, false, false, []⟩
    let target : Target := ⟨"core", "v1", none, "ships", none, []⟩
    dispatch ⟨.get, "/api/v1/ships", "w%61tch=true"⟩ = some (route, target) ∧
      buildAuthorizationRequest ⟨.get, "/api/v1/ships", "w%61tch=true"⟩ ⟨"ada", ["crew"], .oidc⟩
          .empty =
        some ⟨⟨"ada", ["crew"], .oidc⟩, "list", "core", "ships", none, none⟩ ∧
      route.operation .empty target "w%61tch=true" = some .watch ∧
      ¬ VerbAgrees "list" (route.operation .empty target "w%61tch=true") := by
  decide

end Tugboat
