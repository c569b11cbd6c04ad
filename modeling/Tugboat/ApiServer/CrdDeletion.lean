import Tugboat.ApiServer.CrdCascade
import Tugboat.ApiServer.CustomDeletion

/-!
# Definitions are deleted with their resources

Deletions of definitions run together with requests for custom resources, over one store of each.
The cascade goes by a list that it reads once.  What is stored after that is not in the list, and
what is in the list may have changed; the resources without finalizers are removed whatever is
stored by then.

So the deletion is complete, and removes nothing that has finalizers, only if what others store from
the list on suits the list (`Undisturbed`): a resource without finalizers is stored under a key that
the cascade is still going to remove, and one with finalizers under a key that is not on the list
any more.  A new version of a resource that the cascade is going to stamp makes its conditional
write fail, and a write that fails ends the cascade before it is through.  The result is
`ApiServing.complete_of_undisturbed`, the invariant behind it `Cascading`.
-/

namespace Tugboat

open Json Resource Program CustomResource RevisionStore.Op NameValidator

/-! ## Keys of a definition -/

def OfDefinition (crd : CustomResourceDefinition) (key : String) : Prop :=
  ∃ ns name, key = createCustomKey crd.group crd.plural ns name

lemma toList_createCustomKey (group plural : String) (ns : Option String) (name : String) :
    ∃ rest, (createCustomKey group plural ns name).toList =
      ResourceStore.basePath.toList ++ '/' ::
        (group.toList ++ '/' :: (plural.toList ++ '/' :: rest))
        := by
  cases ns with
  | none => exact ⟨name.toList, by simp [createCustomKey]⟩
  | some ns => exact ⟨ns.toList ++ '/' :: name.toList, by simp [createCustomKey]⟩

lemma toList_watchKey (group plural : String) : (createCustomWatchKey group plural none).toList =
      ResourceStore.basePath.toList ++ '/' :: (group.toList ++ '/' :: (plural.toList ++ '/' :: []))
        := by
  simp [createCustomWatchKey]

variable {crd : CustomResourceDefinition}

lemma listed_of_ofDefinition {key : String} (h : OfDefinition crd key) :
    listed crd.group crd.plural none key = true := by
  obtain ⟨ns, name, rfl⟩ := h
  obtain ⟨rest, hrest⟩ := toList_createCustomKey crd.group crd.plural ns name
  rw [listed, hrest, toList_watchKey, decide_eq_true_iff]
  exact ⟨rest, by simp⟩

/-- A list has only resources of its definition, since groups and plurals have no slash. -/
lemma eq_of_listed {group plural group' plural' name : String} {ns : Option String}
    (hgroup : isValidDnsSubdomain group = true)
    (hplural : isValidName plural = true)
    (hgroup' : isValidDnsSubdomain group' = true)
    (hplural' : isValidName plural' = true)
    (h : listed group plural none (createCustomKey group' plural' ns name) = true) :
    group' = group ∧ plural' = plural := by
  have hg : '/' ∉ group.toList :=
    notMem_of_isValidDnsSubdomain (by decide) (by decide) hgroup
  have hg' : '/' ∉ group'.toList :=
    notMem_of_isValidDnsSubdomain (by decide) (by decide) hgroup'
  have hp : '/' ∉ plural.toList := notMem_of_isValidName (by decide) hplural
  have hp' : '/' ∉ plural'.toList := notMem_of_isValidName (by decide) hplural'
  obtain ⟨rest, hrest⟩ := toList_createCustomKey group' plural' ns name
  rw [listed, hrest, toList_watchKey, decide_eq_true_iff, List.prefix_append_right_inj,
    List.cons_prefix_cons, Text.append_cons_isPrefix_iff hg hg',
    Text.append_cons_isPrefix_iff hp hp'] at h
  exact ⟨(String.toList_inj.1 h.2.1).symm, (String.toList_inj.1 h.2.2.1).symm⟩

section

variable [TimeCodec] [JsonParser]

lemma itemKey_of_placed {crd : CustomResourceDefinition} (hcrd : validateCrdSpec crd = .ok ())
    {key : String} {item : CustomEntry} {m : ObjectMeta}
    (hplaced : Placed key item.value m) (hlisted : listed crd.group crd.plural none key = true) :
    itemKey crd item = some key := by
  obtain ⟨spec, version, names, hacc⟩ := CustomResourceDefinition.accepted_of_validateCrdSpec hcrd
  have hgroup : crd.group = spec.group := by
    simp [CustomResourceDefinition.group, hacc.spec_eq]
  have hplural : crd.plural = names.plural := by
    simp [CustomResourceDefinition.plural, hacc.spec_eq, hacc.names_eq]
  obtain ⟨group, plural, name, hvalid, hvalid', hname, rfl⟩ := hplaced.key_eq
  obtain ⟨m', hm', hname', hns'⟩ := hplaced.envelope
  rw [hgroup, hplural] at hlisted
  obtain ⟨rfl, rfl⟩ := eq_of_listed hacc.group hacc.plural hvalid hvalid' hlisted
  rw [itemKey, hm', Option.bind_some, hname', hname, hns', hgroup, hplural]
  rfl

end

/-! ## The system -/

/-- The definitions and the custom resources. -/
structure ApiWorld where
  definitions : ResourceStore CustomResourceDefinition
  resources : CustomStore

/-- The effect and the reply of a call. -/
def ApiOp.exec : Program.Semantics ApiOp.interface ApiWorld CustomOp.Choice
  | w, choice, .inl op =>
    let out := StoreOp.exec w.definitions choice.access op
    ({ w with definitions := out.1 }, out.2)
  | w, choice, .inr op =>
    let out := CustomOp.exec w.resources choice op
    ({ w with resources := out.1 }, out.2)

/-- A request for custom resources, or the DELETE of a definition.  The times that the clock shows
for the resources to stamp can be written. -/
inductive ApiRequest [TimeCodec]
  | custom (request : CustomRequest)
  | deleteDefinition (name : String) (now : Time)
      (clock : CustomEntry → { t : Time // (TimeCodec.toRfc3339 t).isSome })

abbrev ApiAnswer : Type := Except StatusResponse (Value ⊕ CustomResourceDefinition)

/-- The record of a request. -/
abbrev ApiSeen : Type := CustomSeen ⊕ CrdDeletion

section

variable [TimeCodec] [JsonParser]

def ApiRequest.handler : ApiRequest → ApiHandler (Value ⊕ CustomResourceDefinition)
  | .custom request => do
    let value ← ApiHandler.resources request.handler
    return .inl value
  | .deleteDefinition name now clock => do
    let deleted ← handleCustomResourceDefinitionDelete name now fun item => (clock item).1
    return .inr deleted

def ApiRequest.seen : ApiRequest → ApiSeen
  | .custom request => .inl { deletes := request.isDelete }
  | .deleteDefinition name _ _ => .inr { name }

/-- Every request keeps to the protocol of its kind. -/
def ApiSeen.protocol : Protocol ApiOp.interface ApiSeen :=
  CustomSeen.protocol.onRight.either CrdDeletion.protocol

def ApiSeen.Ends : ApiSeen → ApiAnswer → Prop
  | .inl _, _ => True
  | .inr g, _ => g.Finished

end

section

variable [TimeCodec]

structure CustomTable where
  store : CustomStore
  placed : ∀ key e, store.entry key = some e → ∃ m, Placed key e.value m

namespace CustomTable

/-- No resources. -/
def empty : CustomTable where
  store := RevisionStore.empty
  placed _ _ h := by cases h

def put (table : CustomTable) {key : String} {o : CustomResourceObject} {m : ObjectMeta}
    (h : Placed key o m) (hlt : table.store.revision < RevisionStore.maxRevision) :
    CustomTable where
  store := table.store.write key o hlt
  placed key' e he := by
    rcases of_update_eq_some he with ⟨rfl, ⟨⟩⟩ | ⟨-, he⟩
    · exact ⟨m, h⟩
    · exact table.placed key' e he

end CustomTable

end

/-- Requests being handled over both stores. -/
abbrev ApiServing (κ : Type) : Type := Config ApiOp.interface κ ApiWorld ApiSeen ApiAnswer

namespace ApiServing

lemma kvs_of_exec_delete {s : ResourceStore CustomResourceDefinition} {access : Access}
    {name : String} {c : ContentData CustomResourceDefinition}
    (h : (StoreOp.exec s access (.delete none name)).2 = .ok (some c)) :
    s.kvs (crdKey name) = some c := by
  cases access with
  | answered => exact Except.ok.inj h
  | unreachable | replyLost => cases h

section

variable [TimeCodec] [JsonParser] {κ : Type}

/-- No request has been looked at yet. -/
def start (definitions : CrdTable) (resources : CustomTable) (requests : κ → ApiRequest) :
    ApiServing κ where
  world := ⟨definitions.store, resources.store⟩
  thread k := (requests k).handler.run
  seen k := (requests k).seen

/-- One call of one request. -/
def step [DecidableEq κ] (c : ApiServing κ) (e : Event κ CustomOp.Choice Empty) : ApiServing κ :=
  Config.step ApiOp.exec (fun w _ => w) ApiSeen.protocol c e

/-- Request `k` has removed the definition `crd`, and of the resources it has listed it still has to
treat `items`. -/
def Cascades (c : ApiServing κ) (k : κ) (crd : CustomResourceDefinition)
    (items : List CustomEntry) : Prop :=
  ∃ g, c.seen k = .inr g ∧ g.removed = some crd ∧ g.items = some items

def Removes (crd : CustomResourceDefinition)
    (items : List CustomEntry) (key : String) : Prop :=
  ∃ item ∈ items, storedFinalizers item.value = [] ∧ itemKey crd item = some key

/-- The resources that the cascade is still going to stamp. -/
def Awaits (crd : CustomResourceDefinition)
    (items : List CustomEntry) (key : String) : Prop :=
  ∃ item ∈ items, storedFinalizers item.value ≠ [] ∧ itemKey crd item = some key

/-- The calls by which a DELETE removes a definition, and those it makes after that. -/
def Removing : ApiOp.interface.Op → Bool
  | .inl (.delete _ _) | .inr _ => true
  | .inl (.get _ _) | .inl (.put _) | .inl (.putIfNotExists _) => false

/-- The step does not disturb a cascade. -/
structure Undisturbed [DecidableEq κ] (c : ApiServing κ) (e : Event κ CustomOp.Choice Empty) :
    Prop where
  /-- What is stored suits the lists of all others that delete the definition: it has no finalizers
  if and only if its key is going to be removed, and its key is not going to be stamped. -/
  suits : ∀ key o, c.world.resources.entry key ≠ some o →
    (c.step e).world.resources.entry key = some o →
      ∀ k crd items, (∀ choice, e ≠ .call k choice) → c.Cascades k crd items →
        OfDefinition crd key →
          (storedFinalizers o.value = [] ↔ Removes crd items key) ∧ ¬ Awaits crd items key
  /-- The metadata of what is stored can be read back. -/
  readable : ∀ key o, c.world.resources.entry key ≠ some o →
    (c.step e).world.resources.entry key = some o → (storedMeta o.value).isSome
  /-- The calls of a DELETE are answered from the removal of the definition on. -/
  answered : ∀ k choice g op next, e = .call k choice → c.seen k = .inr g →
    c.thread k = .call op next → Removing op = true →
      choice.access = .answered ∧ c.world.resources.revision < RevisionStore.maxRevision

/-- The step takes a definition from the store, for request `k`. -/
def Takes [DecidableEq κ] (c : ApiServing κ) (e : Event κ CustomOp.Choice Empty) (k : κ)
    (crd : CustomResourceDefinition) : Prop :=
  ∃ choice name content, e = .call k choice ∧
    c.world.definitions.kvs (crdKey name) = some content ∧ content.data = crd ∧
      (c.step e).world.definitions.kvs (crdKey name) = none

/-- When request `k` has ended, no resource of the definition without finalizers is stored. -/
def Cleared (k : κ) (crd : CustomResourceDefinition) (c : ApiServing κ) : Prop :=
  ∀ answer, c.thread k = .done answer → ∀ key o, OfDefinition crd key →
    c.world.resources.entry key = some o → storedFinalizers o.value ≠ []

/-- From the step on that takes a definition from the store, the definition is cleared. -/
def Complete [DecidableEq κ] (c : ApiServing κ) (events : List (Event κ CustomOp.Choice Empty)) :
    Prop :=
  ∀ before e after, events = before ++ e :: after →
    ∀ k crd, (Run.exec step c before).Takes e k crd →
    Run.AllStates step (Cleared k crd) ((Run.exec step c before).step e) after

/-- No resource with finalizers is removed. -/
def Spares [DecidableEq κ] (c : ApiServing κ) (e : Event κ CustomOp.Choice Empty) : Prop :=
  ∀ key o, c.world.resources.entry key = some o → (c.step e).world.resources.entry key = none →
    storedFinalizers o.value = []

variable {key : String}

omit [TimeCodec] [JsonParser] in
lemma ofDefinition_of_itemKey {crd : CustomResourceDefinition} {item : CustomEntry}
    (h : itemKey crd item = some key) : OfDefinition crd key := by
  obtain ⟨m, -, hkey⟩ := Option.bind_eq_some_iff.1 h
  obtain ⟨name, -, rfl⟩ := Option.map_eq_some_iff.1 hkey
  exact ⟨m.namespace, name, rfl⟩

/-! ## The invariant of a cascade -/

/-- Of the resources of the definition, those without finalizers are exactly the ones the cascade is
going to remove; and those it is going to stamp are stored as they were listed. -/
structure Cascading (crd : CustomResourceDefinition) (s : CustomStore)
    (items : List CustomEntry) : Prop where
  covered : ∀ key o, OfDefinition crd key → s.entry key = some o → storedFinalizers o.value = [] →
    Removes crd items key
  safe : ∀ key o, Removes crd items key → s.entry key = some o → storedFinalizers o.value = []
  unchanged : ∀ item ∈ items, storedFinalizers item.value ≠ [] →
    ∀ key, itemKey crd item = some key →
    s.entry key = some item
  nodup : (items.map (itemKey crd)).Nodup

namespace Cascading

variable {crd : CustomResourceDefinition} {s s' : CustomStore}
  {item : CustomEntry}
  {items : List CustomEntry}

omit [JsonParser] in
/-- Whatever is called keeps the invariant, if what is stored suits the list and what is removed has
no finalizers. -/
lemma effect (h : Cascading crd s items)
    (hgone : ∀ key o, s.entry key = some o → s'.entry key = none → storedFinalizers o.value = [])
    (hnew : ∀ key o, s.entry key ≠ some o → s'.entry key = some o → OfDefinition crd key →
      (storedFinalizers o.value = [] ↔ Removes crd items key) ∧ ¬ Awaits crd items key) :
    Cascading crd s' items where
  covered key o hof ho hnone := by
    by_cases hbefore : s.entry key = some o
    · exact h.covered key o hof hbefore hnone
    · exact (hnew key o hbefore ho hof).1.1 hnone
  safe key o hremoves ho := by
    obtain ⟨item, -, -, hkey⟩ := id hremoves
    by_cases hbefore : s.entry key = some o
    · exact h.safe key o hremoves hbefore
    · exact (hnew key o hbefore ho (ofDefinition_of_itemKey hkey)).1.2 hremoves
  unchanged item hitem hfinalizers key hkey := by
    have hbefore := h.unchanged item hitem hfinalizers key hkey
    cases hafter : s'.entry key with
    | none => exact absurd (hgone key item hbefore hafter) hfinalizers
    | some o =>
      by_cases hsame : s.entry key = some o
      · exact hsame.symm.trans hbefore
      · exact absurd ⟨item, hitem, hfinalizers, hkey⟩
          (hnew key o hsame hafter (ofDefinition_of_itemKey hkey)).2
  nodup := h.nodup

omit [JsonParser] in
/-- A resource that has been treated is taken off the list: it has finalizers, or is not there. -/
lemma tail (h : Cascading crd s (item :: items))
    (htreated : storedFinalizers item.value = [] → ∀ key, itemKey crd item = some key →
      s.entry key = none) : Cascading crd s items where
  covered key o hof ho hnone := by
    obtain ⟨item', hitem', hfinalizers, hkey⟩ := h.covered key o hof ho hnone
    rcases List.mem_cons.1 hitem' with rfl | hmem
    · cases (htreated hfinalizers key hkey).symm.trans ho
    · exact ⟨item', hmem, hfinalizers, hkey⟩
  safe key o hremoves ho := by
    obtain ⟨item', hitem', hfinalizers, hkey⟩ := hremoves
    exact h.safe key o ⟨item', List.mem_cons_of_mem item hitem', hfinalizers, hkey⟩ ho
  unchanged item' hitem' := h.unchanged item' (List.mem_cons_of_mem item hitem')
  nodup := (List.nodup_cons.1 h.nodup).2

lemma of_range (hcrd : validateCrdSpec crd = .ok ())
    (hplaced : ∀ key e, s.entry key = some e → ∃ m, Placed key e.value m) :
    Cascading crd s (s.range (listed crd.group crd.plural none)) := by
  have hitemKey : ∀ key e, listed crd.group crd.plural none key = true → s.entry key = some e →
      itemKey crd e = some key := by
    intro key e hlisted he
    obtain ⟨m, hm⟩ := hplaced key e he
    exact itemKey_of_placed hcrd hm hlisted
  have hentry : ∀ item ∈ s.range (listed crd.group crd.plural none), ∀ key,
      itemKey crd item = some key → s.entry key = some item := by
    intro item hitem key hkey
    obtain ⟨key', hlisted, he⟩ := RevisionStore.mem_range.1 hitem
    cases hkey.symm.trans (hitemKey key' item hlisted he)
    exact he
  refine ⟨fun key o hof ho hnone => ?_, ?_, fun item hitem _ key => hentry item hitem key,
    RevisionStore.nodup_map_range hitemKey⟩
  · have hlisted := listed_of_ofDefinition hof
    exact ⟨o, RevisionStore.mem_range.2 ⟨key, hlisted, ho⟩, hnone, hitemKey key o hlisted ho⟩
  · rintro key o ⟨item, hitem, hfinalizers, hkey⟩ ho
    cases ho.symm.trans (hentry item hitem key hkey)
    exact hfinalizers

end Cascading

/-! ## What holds throughout -/

/-- All stored definitions are accepted, and all resources are where they belong. -/
structure WorldOk (w : ApiWorld) : Prop where
  accepted : ∀ key c, w.definitions.kvs key = some c → validateCrdSpec c.data = .ok ()
  placed : ∀ key e, w.resources.entry key = some e → ∃ m, Placed key e.value m

/-- What is known of the stores by what a request has seen. -/
def Knows (w : ApiWorld) : ApiSeen → Prop
  | .inl g => g.Past w.resources ∧ ∀ key e, g.read = some (key, e) → ∃ m, Placed key e.value m
  | .inr g => (∀ crd, g.removed = some crd → validateCrdSpec crd = .ok ()) ∧
      ∀ items, g.items = some items →
        ∃ crd, g.removed = some crd ∧ Cascading crd w.resources items

/-- The relation between the stores and a request. -/
def Sound (w : ApiWorld) (g : ApiSeen) : Prop := WorldOk w ∧ Knows w g

variable {w : ApiWorld} {choice : CustomOp.Choice} {g : CrdDeletion} {o : CustomResourceObject}

lemma Knows.cascading {items : List CustomEntry} (hknows : Knows w (.inr g))
    (hitems : g.items = some items) (hremoved : g.removed = some crd) :
    Cascading crd w.resources items := by
  obtain ⟨crd', hremoved', hcascading⟩ := hknows.2 items hitems
  cases hremoved.symm.trans hremoved'
  exact hcascading

lemma placed_of_stamps {item : CustomEntry} {m m' : ObjectMeta} (hw : WorldOk w)
    (hknows : Knows w (.inr g)) (hnext : g.Next item key)
    (hfinalizers : storedFinalizers item.value ≠ []) (hstamps : CrdDeletion.Stamps item o m m')
    (hsome : (storedMeta o).isSome) : Placed key o m' := by
  obtain ⟨⟨rest, hitems⟩, crd, hremoved, hkey⟩ := hnext
  have hcascading := hknows.cascading hitems hremoved
  have hstored := hcascading.unchanged item List.mem_cons_self hfinalizers key hkey
  obtain ⟨m₀, hplaced⟩ := hw.placed key item hstored
  cases hplaced.carries.storedMeta_eq.symm.trans hstamps.before.storedMeta_eq
  have hname : m'.name = m.name := by rw [hstamps.meta_eq]
  have hns : m'.namespace = m.namespace := by rw [hstamps.meta_eq]
  refine ⟨hstamps.carries hsome, ?_, ?_⟩
  · rw [hstamps.objectMeta_eq, hname, hns]
    exact hplaced.envelope
  · rw [hname, hns]
    exact hplaced.key_eq

variable {expected : Option Int}

variable {op : ApiOp.interface.Op}

lemma WorldOk.exec {g : ApiSeen} (hw : WorldOk w) (hknows : Knows w g)
    (hallowed : ApiSeen.protocol.allowed g op)
    (hreadable : ∀ key o, w.resources.entry key ≠ some o →
      (ApiOp.exec w choice op).1.resources.entry key = some o → (storedMeta o.value).isSome) :
    WorldOk (ApiOp.exec w choice op).1 := by
  cases op with
  | inl op =>
    refine ⟨fun key c hc => ?_, hw.placed⟩
    cases g with
    | inl g => exact hallowed.elim
    | inr g =>
      rcases StoreOp.kvs_of_exec hc with hbefore | hstores
      · exact hw.accepted key c hbefore
      cases op with
      | get ns name | delete ns name => cases hstores
      | putIfNotExists crd => exact hallowed.elim
      | put crd =>
        cases hstores
        exact hallowed
  | inr op =>
    refine ⟨hw.accepted, fun key e he => ?_⟩
    cases op with
    | lookup group version plural | namespaceExists ns => exact hw.placed key e he
    | store op =>
      by_cases hbefore : w.resources.entry key = some e
      · exact hw.placed key e hbefore
      have hsome := hreadable key e hbefore he
      obtain ⟨expected, rfl, -⟩ := put_of_new
        (effect_exec w.resources choice.access op) he hbefore
      -- requests put resources where they belong
      cases g with
      | inl g => exact CustomSeen.MayPut.placed hallowed.2 hknows.2 hsome
      | inr g =>
        obtain ⟨item, hnext, rfl, hfinalizers, m, m', hstamps⟩ := hallowed
        exact ⟨m', placed_of_stamps hw hknows hnext hfinalizers hstamps hsome⟩

variable {name : String}

lemma WorldOk.defines (hw : WorldOk w) {c : ContentData CustomResourceDefinition}
    (h : w.definitions.kvs (crdKey name) = some c) : CrdDeletion.Defines name c.data := by
  refine ⟨hw.accepted _ c h, ?_⟩
  have hkeyed := w.definitions.keyed _ c h
  obtain ⟨⟨m, name'⟩, hnameOf, hkey⟩ := bind_eq_ok_iff.1 hkeyed
  obtain ⟨hmeta, hname⟩ := ResourceStore.nameOf_eq_ok hnameOf
  have hsame : name' = name := by
    have hlist := congrArg String.toList (Except.ok.inj hkey)
    simp only [crdKey, String.toList_append] at hlist
    exact String.toList_inj.1 (List.append_cancel_left hlist)
  rw [Resource.name, hmeta, Option.bind_some, hname, hsame]

/-- The calls that have to be answered are. -/
def Answers (w : ApiWorld) (choice : CustomOp.Choice) (op : ApiOp.interface.Op) : Prop :=
  Removing op = true →
    choice.access = .answered ∧ w.resources.revision < RevisionStore.maxRevision

omit [TimeCodec] [JsonParser] in
lemma exec_of_answers {op : RevisionStore.Op String CustomResourceObject}
    (h : Answers w choice (.inr (.store op))) :
    RevisionStore.Op.exec w.resources choice.access op = op.apply w.resources := by
  rw [(h rfl).1]
  rfl

/-- The conditional write of the cascade finds the version that was listed. -/
lemma put_eq_ok (hknows : Knows w (.inr g))
    (h : Answers w choice (.inr (.store (.put key o expected))))
    (hallowed : g.MayCall (.inr (.store (.put key o expected)))) :
    ∃ revision, (ApiOp.exec w choice (.inr (.store (.put key o expected)))).2 =
      .ok (some revision) := by
  obtain ⟨item, ⟨⟨rest, hitems⟩, crd, hremoved, hkey⟩, rfl, hfinalizers, -⟩ := hallowed
  have hcascading := hknows.cascading hitems hremoved
  have hstored := hcascading.unchanged item List.mem_cons_self hfinalizers key hkey
  have hholds : w.resources.holds key (some (item.revision : Int)) = true := by
    simp [RevisionStore.holds, RevisionStore.modRevision, hstored]
  refine ⟨w.resources.revision + 1, ?_⟩
  change (RevisionStore.Op.exec w.resources choice.access _).2 = _
  rw [exec_of_answers h, RevisionStore.Op.apply, if_pos hholds, dif_pos (h rfl).2]

omit [TimeCodec] [JsonParser] in
lemma delete_eq_ok (h : Answers w choice (.inr (.store (.delete key none)))) :
    ∃ deleted, (ApiOp.exec w choice (.inr (.store (.delete key none)))).2 = .ok (some deleted) := by
  refine ⟨(w.resources.entry key).isSome, ?_⟩
  change (RevisionStore.Op.exec w.resources choice.access _).2 = _
  rw [exec_of_answers h, RevisionStore.Op.apply,
    if_pos (show w.resources.holds key none = true from rfl)]
  split
  next hsome => rw [dif_pos (h rfl).2, hsome]
  next hnone => rw [Bool.eq_false_iff.2 hnone]

lemma assumes_exec {g : ApiSeen} (hw : WorldOk w) (hknows : Knows w g)
    (hallowed : ApiSeen.protocol.allowed g op)
    (hanswers : ∀ g', g = .inr g' → Answers w choice op) :
    ApiSeen.protocol.assumes g op (ApiOp.exec w choice op).2 := by
  cases g with
  | inl g =>
    cases op with
    | inl op => exact hallowed.elim
    | inr op => exact Dispatching.assumes_exec w.resources choice op
  | inr g =>
    have hanswers := hanswers g rfl
    cases op with
    | inl op =>
      cases op with
      | get ns name =>
        obtain ⟨rfl, -⟩ := hallowed
        intro c hc
        obtain ⟨key, hkey, hkvs⟩ := ResourceStore.kvs_of_get (StoreOp.get_of_exec_get hc)
        cases hkey
        exact hw.defines hkvs
      | delete ns name =>
        obtain ⟨rfl, -⟩ := hallowed
        intro c hc
        exact hw.defines (kvs_of_exec_delete hc)
      | put crd | putIfNotExists crd => trivial
    | inr op =>
      cases op with
      | lookup group version plural | namespaceExists ns => trivial
      | store op =>
        cases op with
        | get key => trivial
        | put key o expected => exact put_eq_ok hknows hanswers hallowed
        | delete key expected =>
          obtain ⟨rfl, -⟩ := hallowed
          exact delete_eq_ok hanswers
        | range select =>
          obtain ⟨crd, hremoved, rfl⟩ := hallowed
          intro crd' hremoved'
          cases hremoved.symm.trans hremoved'
          refine ⟨_, congrArg Prod.snd (exec_of_answers hanswers), fun item hitem => ?_⟩
          obtain ⟨key, hlisted, hentry⟩ := RevisionStore.mem_range.1 hitem
          obtain ⟨m, hplaced⟩ := hw.placed key item hentry
          exact ⟨⟨key, itemKey_of_placed (hknows.1 crd hremoved) hplaced hlisted⟩, m,
            hplaced.carries⟩

/-- What is removed has no finalizers. -/
lemma Knows.finalizers_of_removed {g : ApiSeen} (hknows : Knows w g)
    (hallowed : ApiSeen.protocol.allowed g op) {o : CustomEntry}
    (hbefore : w.resources.entry key = some o)
    (hafter : (ApiOp.exec w choice op).1.resources.entry key = none) :
    storedFinalizers o.value = [] := by
  cases op with
  | inl op => cases hbefore.symm.trans hafter
  | inr op =>
    cases g with
    | inl g => exact Dispatching.finalizers_of_removed hknows.1 hallowed hbefore hafter
    | inr g =>
      cases op with
      | lookup group version plural | namespaceExists ns => cases hbefore.symm.trans hafter
      | store op =>
        obtain ⟨expected, rfl, -⟩ := delete_of_gone
          (effect_exec w.resources choice.access op) hbefore hafter
        obtain ⟨-, item, ⟨⟨rest, hitems⟩, crd, hremoved, hkey⟩, hfinalizers⟩ := hallowed
        have hcascading := hknows.cascading hitems hremoved
        exact hcascading.safe key o ⟨item, List.mem_cons_self, hfinalizers, hkey⟩ hbefore

/-- What a request knows survives what others do, if that suits the list of a cascade. -/
lemma Knows.exec {g : ApiSeen} (hknows : Knows w g)
    (hgone : ∀ key o, w.resources.entry key = some o →
      (ApiOp.exec w choice op).1.resources.entry key = none → storedFinalizers o.value = [])
    (hnew : ∀ g', g = .inr g' → ∀ crd items, g'.removed = some crd → g'.items = some items →
      ∀ key o, w.resources.entry key ≠ some o →
        (ApiOp.exec w choice op).1.resources.entry key = some o → OfDefinition crd key →
          (storedFinalizers o.value = [] ↔ Removes crd items key) ∧ ¬ Awaits crd items key) :
    Knows (ApiOp.exec w choice op).1 g := by
  cases g with
  | inl g =>
    cases op with
    | inl op => exact hknows
    | inr op => exact ⟨Dispatching.past_exec hknows.1 choice op, hknows.2⟩
  | inr g =>
    refine ⟨hknows.1, fun items hitems => ?_⟩
    obtain ⟨crd, hremoved, hcascading⟩ := hknows.2 items hitems
    exact ⟨crd, hremoved, hcascading.effect hgone (hnew g rfl crd items hremoved hitems)⟩

/-- A resource with finalizers has been stamped, and is off the list. -/
lemma Knows.put (hknows : Knows w (.inr g))
    (hallowed : g.MayCall (.inr (.store (.put key o expected))))
    (hreadable : ∀ key' o', w.resources.entry key' ≠ some o' →
      (ApiOp.exec w choice (.inr (.store (.put key o expected)))).1.resources.entry key' = some o' →
        (storedMeta o'.value).isSome) {revision : ℕ} :
    Knows (ApiOp.exec w choice (.inr (.store (.put key o expected)))).1
      (.inr (g.afterWrite (.ok (some revision)))) := by
  obtain ⟨item, ⟨⟨rest, hitems⟩, crd, hremoved, hkey⟩, rfl, hfinalizers, m, m', hstamps⟩ := hallowed
  refine ⟨hknows.1, ?_⟩
  rw [CrdDeletion.afterWrite, hitems]
  rintro items ⟨⟩
  have hcascading := hknows.cascading hitems hremoved
  have heffect := effect_exec w.resources choice.access
    (.put key o (some (item.revision : Int)))
  refine ⟨crd, hremoved, (hcascading.tail fun hnone => absurd hnone hfinalizers).effect ?_ ?_⟩
  · intro key' o' hbefore hafter
    obtain ⟨expected, hput, -⟩ := delete_of_gone heffect hbefore hafter
    cases hput
  · intro key' o' hbefore hafter _
    have hsome := hreadable key' o' hbefore hafter
    obtain ⟨expected, hput, -⟩ := put_of_new heffect hafter hbefore
    cases hput
    have hstored : storedFinalizers o'.value = storedFinalizers item.value := by
      rw [(hstamps.carries hsome).storedFinalizers_eq, hstamps.before.storedFinalizers_eq,
        hstamps.meta_eq]
    -- the key is not on the list any more
    have hoff : ∀ item' ∈ rest, itemKey crd item' ≠ some key := fun item' hitem' hkey' =>
      (List.nodup_cons.1 hcascading.nodup).1 (List.mem_map.2 ⟨item', hitem', hkey'.trans hkey.symm⟩)
    refine ⟨iff_of_false (fun h => hfinalizers (hstored.symm.trans h)) ?_, ?_⟩
    · rintro ⟨item', hitem', -, hkey'⟩
      exact hoff item' hitem' hkey'
    · rintro ⟨item', hitem', -, hkey'⟩
      exact hoff item' hitem' hkey'

/-- A resource without finalizers has been removed, and is off the list. -/
lemma Knows.delete (hknows : Knows w (.inr g))
    (hallowed : g.MayCall (.inr (.store (.delete key expected)))) {deleted : Bool}
    (hreply : (ApiOp.exec w choice (.inr (.store (.delete key expected)))).2 = .ok (some deleted)) :
    Knows (ApiOp.exec w choice (.inr (.store (.delete key expected)))).1
      (.inr (g.afterWrite (.ok (some deleted)))) := by
  have hgone : ∀ key' o', w.resources.entry key' = some o' →
      (ApiOp.exec w choice (.inr (.store (.delete key expected)))).1.resources.entry key' = none →
        storedFinalizers o'.value = [] :=
    fun _ _ hbefore hafter => hknows.finalizers_of_removed (by exact hallowed) hbefore hafter
  obtain ⟨rfl, item, ⟨⟨rest, hitems⟩, crd, hremoved, hkey⟩, -⟩ := hallowed
  refine ⟨hknows.1, ?_⟩
  rw [CrdDeletion.afterWrite, hitems]
  rintro items ⟨⟩
  have hcascading := hknows.cascading hitems hremoved
  refine ⟨crd, hremoved, (hcascading.effect hgone fun key' o' hbefore hafter _ => ?_).tail
    fun _ key' hkey' => ?_⟩
  · obtain ⟨expected, hput, -⟩ := put_of_new
      (effect_exec w.resources choice.access (.delete key none)) hafter hbefore
    cases hput
  · cases hkey.symm.trans hkey'
    exact entry_of_exec_delete hreply

lemma Knows.range (hknows : Knows w (.inr g)) (hw : WorldOk w)
    (hremoved : g.removed = some crd)
    (h : Answers w choice (.inr (.store (.range (listed crd.group crd.plural none))))) :
    Knows (ApiOp.exec w choice (.inr (.store (.range (listed crd.group crd.plural none))))).1
      (.inr { g with items := some (w.resources.range (listed crd.group crd.plural none)) }) := by
  refine ⟨hknows.1, ?_⟩
  rintro items ⟨⟩
  refine ⟨crd, hremoved, ?_⟩
  change Cascading crd (RevisionStore.Op.exec w.resources choice.access _).1 _
  rw [exec_of_answers h]
  exact Cascading.of_range (hknows.1 crd hremoved) hw.placed

lemma Knows.observe {g : ApiSeen} (hw : WorldOk w) (hknows : Knows w g)
    (hallowed : ApiSeen.protocol.allowed g op) (hanswers : ∀ g', g = .inr g' → Answers w choice op)
    (hreadable : ∀ key o, w.resources.entry key ≠ some o →
      (ApiOp.exec w choice op).1.resources.entry key = some o → (storedMeta o.value).isSome) :
    Knows (ApiOp.exec w choice op).1
      (ApiSeen.protocol.observe g op (ApiOp.exec w choice op).2) := by
  cases g with
  | inl g =>
    cases op with
    | inl op => exact hallowed.elim
    | inr op =>
      refine ⟨Dispatching.past_observe hknows.1 choice op, fun key e he => ?_⟩
      rcases Dispatching.read_observe he with hread | hentry
      · exact hknows.2 key e hread
      · exact hw.placed key e hentry
  | inr g =>
    have hanswers := hanswers g rfl
    cases op with
    | inl op =>
      cases op with
      | get ns name | put crd | putIfNotExists crd => exact hknows
      | delete ns name =>
        obtain ⟨rfl, -, -, hitems⟩ := hallowed
        cases hr : (ApiOp.exec w choice (.inl (.delete none name))).2 with
        | error e => exact hknows
        | ok found =>
          cases found with
          | none => exact hknows
          | some c =>
            refine ⟨fun crd hcrd => ?_, fun items hsome => ?_⟩
            · cases hcrd
              exact (hw.defines (kvs_of_exec_delete hr)).accepted
            · cases hitems.symm.trans hsome
    | inr op =>
      cases op with
      | lookup group version plural | namespaceExists ns => exact hknows
      | store op =>
        cases op with
        | get key => exact hallowed.elim
        | put key o expected =>
          obtain ⟨revision, hreply⟩ := put_eq_ok hknows hanswers hallowed
          change Knows _ (.inr (g.afterWrite _))
          rw [hreply]
          exact hknows.put hallowed hreadable
        | delete key expected =>
          obtain ⟨deleted, hreply⟩ : ∃ deleted,
              (ApiOp.exec w choice (.inr (.store (.delete key expected)))).2 =
                .ok (some deleted) := by
            obtain ⟨rfl, -⟩ := hallowed
            exact delete_eq_ok hanswers
          change Knows _ (.inr (g.afterWrite _))
          rw [hreply]
          exact hknows.delete hallowed hreply
        | range select =>
          obtain ⟨crd, hremoved, rfl⟩ := hallowed
          have hreply : (ApiOp.exec w choice
              (.inr (.store (.range (listed crd.group crd.plural none))))).2 = .ok _ :=
            congrArg Prod.snd (exec_of_answers hanswers)
          change Knows _ (.inr (g.observe _ _))
          rw [hreply]
          exact hknows.range hw hremoved hanswers

/-! ## Runs -/

/-- The invariant of a run. -/
def Inv (c : ApiServing κ) : Prop := c.KeepsTo ApiSeen.protocol Sound ApiSeen.Ends

variable {c : ApiServing κ}

lemma Inv.step [DecidableEq κ] (h : c.Inv) {e : Event κ CustomOp.Choice Empty}
    (hguard : c.Undisturbed e) :
    (c.step e).Inv := by
  refine Config.KeepsTo.step h e (fun k choice op next he hthread hallowed => ?_) (fun x => x.elim)
  subst he
  have hstep : c.step (.call k choice) = c.advance ApiOp.exec ApiSeen.protocol k choice op next :=
    Config.step_call_of_call choice hthread
  obtain ⟨hw, hknows⟩ := (h k).1
  have hanswers : ∀ g, c.seen k = .inr g → Answers c.world choice op := fun g hg =>
    hguard.answered k choice g op next rfl hg hthread
  have hreadable : ∀ key o, c.world.resources.entry key ≠ some o →
      (ApiOp.exec c.world choice op).1.resources.entry key = some o → (storedMeta o.value).isSome :=
    fun key o hbefore hafter => hguard.readable key o hbefore (by rw [hstep]; exact hafter)
  have hw' : WorldOk (ApiOp.exec c.world choice op).1 := hw.exec hknows hallowed hreadable
  refine ⟨assumes_exec hw hknows hallowed hanswers,
    ⟨hw', hknows.observe hw hallowed hanswers hreadable⟩, fun j hj => ?_⟩
  refine ⟨hw', (h j).1.2.exec (fun key o => hknows.finalizers_of_removed hallowed) ?_⟩
  intro g hg crd items hremoved hitems key o hbefore hafter hof
  refine hguard.suits key o hbefore ?_ j crd items ?_ ⟨g, hg, hremoved, hitems⟩ hof
  · rw [hstep]
    exact hafter
  · rintro choice' ⟨⟩
    exact hj rfl

lemma Inv.spares [DecidableEq κ] (h : c.Inv) (e : Event κ CustomOp.Choice Empty) : c.Spares e := by
  intro key o hbefore hafter
  cases e with
  | tick x => exact x.elim
  | call k choice =>
    cases hthread : c.thread k with
    | done answer =>
      rw [ApiServing.step, Config.step_call_of_done choice hthread] at hafter
      cases hbefore.symm.trans hafter
    | call op next =>
      rw [ApiServing.step, Config.step_call_of_call choice hthread] at hafter
      exact (h k).1.2.finalizers_of_removed (Config.KeepsTo.allowed h hthread) hbefore hafter

/-- Request `k` has removed the definition. -/
def HasTaken (k : κ) (crd : CustomResourceDefinition) (c : ApiServing κ) : Prop :=
  ∃ g, c.seen k = .inr g ∧ g.removed = some crd

lemma Inv.cleared (h : c.Inv) {k : κ} (htaken : HasTaken k crd c) : Cleared k crd c := by
  intro answer hthread key o hof ho hnone
  obtain ⟨g, hseen, hremoved⟩ := htaken
  obtain ⟨⟨-, hknows⟩, hwp⟩ := h k
  rw [hseen] at hknows hwp
  rw [hthread] at hwp
  have hitems : g.items = some [] := hwp (by rw [hremoved]; rfl)
  have hcascading := hknows.cascading hitems hremoved
  obtain ⟨item, hitem, -⟩ := hcascading.covered key o hof ho hnone
  cases hitem

omit [TimeCodec] in
/-- A definition is removed once. -/
lemma removed_observe [TimeCodec] {op : ApiOp.interface.Op} (hallowed : g.MayCall op)
    (h : g.removed.isSome) (r : ApiOp.interface.Reply op) :
    (g.observe op r).removed = g.removed := by
  have hwrite : ∀ {α : Type} (r : Except RevisionStore.Unavailable (Option α)),
      (g.afterWrite r).removed = g.removed := by
    rintro α (u | _ | a) <;> rfl
  cases op with
  | inl op =>
    cases op with
    | get ns name | put crd | putIfNotExists crd => rfl
    | delete ns name =>
      obtain ⟨-, -, hnone, -⟩ := hallowed
      rw [hnone] at h
      cases h
  | inr op =>
    cases op with
    | lookup group version plural | namespaceExists ns => rfl
    | store op =>
      cases op with
      | get key => rfl
      | put key o expected | delete key expected => exact hwrite r
      | range select =>
        cases r with
        | error u | ok items => rfl

lemma Inv.hasTaken_step [DecidableEq κ] (h : c.Inv) {k : κ} (htaken : HasTaken k crd c)
    (e : Event κ CustomOp.Choice Empty) : HasTaken k crd (c.step e) := by
  obtain ⟨g, hseen, hremoved⟩ := htaken
  cases e with
  | tick x => exact x.elim
  | call j choice =>
    cases hthread : c.thread j with
    | done answer =>
      rw [ApiServing.step, Config.step_call_of_done choice hthread]
      exact ⟨g, hseen, hremoved⟩
    | call op next =>
      rw [ApiServing.step, Config.step_call_of_call choice hthread]
      by_cases hj : k = j
      · subst hj
        have hallowed : ApiSeen.protocol.allowed (c.seen k) op := Config.KeepsTo.allowed h hthread
        rw [hseen] at hallowed
        refine ⟨g.observe op (ApiOp.exec c.world choice op).2, ?_, ?_⟩
        · rw [Config.advance_seen_self, hseen]
          rfl
        · rw [← hremoved]
          exact removed_observe hallowed (by rw [hremoved]; rfl) _
      · exact ⟨g, (Config.advance_seen_of_ne hj).trans hseen, hremoved⟩

lemma Inv.hasTaken_of_takes [DecidableEq κ] (h : c.Inv) {e : Event κ CustomOp.Choice Empty}
    (hguard : c.Undisturbed e) {k : κ} (htakes : c.Takes e k crd) : HasTaken k crd (c.step e) := by
  obtain ⟨choice, name, content, rfl, hbefore, rfl, hafter⟩ := htakes
  cases hthread : c.thread k with
  | done answer =>
    rw [ApiServing.step, Config.step_call_of_done choice hthread] at hafter
    cases hbefore.symm.trans hafter
  | call op next =>
    have hallowed : ApiSeen.protocol.allowed (c.seen k) op := Config.KeepsTo.allowed h hthread
    rw [ApiServing.step, Config.step_call_of_call choice hthread] at hafter ⊢
    cases op with
    | inr op => cases hbefore.symm.trans hafter
    | inl op =>
      cases hseen : c.seen k with
      | inl g =>
        rw [hseen] at hallowed
        exact hallowed.elim
      | inr g =>
        rw [hseen] at hallowed
        obtain ⟨ns, name', rfl, hkey⟩ := StoreOp.delete_of_gone hbefore hafter
        obtain ⟨rfl, -⟩ := hallowed
        obtain ⟨hanswered, -⟩ := hguard.answered k choice g _ next rfl hseen hthread rfl
        refine ⟨{ g with removed := some content.data }, ?_, rfl⟩
        have hreply : (ApiOp.exec c.world choice (.inl (.delete none name'))).2 =
            .ok (some content) := by
          change (StoreOp.exec c.world.definitions choice.access (.delete none name')).2 = _
          rw [hanswered]
          change Except.ok (c.world.definitions.kvs (crdKey name')) = _
          rw [show crdKey name' = crdKey name from Except.ok.inj hkey, hbefore]
        rw [Config.advance_seen_self, hseen, hreply]
        rfl

end

section

variable [LawfulTimeCodec] [JsonParser] {κ : Type} [DecidableEq κ]

omit [DecidableEq κ] in
lemma inv_start (definitions : CrdTable) (resources : CustomTable) (requests : κ → ApiRequest) :
    (start definitions resources requests).Inv := by
  intro k
  have hw : WorldOk ⟨definitions.store, resources.store⟩ :=
    ⟨definitions.accepted, resources.placed⟩
  have hstart : (start definitions resources requests).thread k = (requests k).handler.run := rfl
  have hseen : (start definitions resources requests).seen k = (requests k).seen := rfl
  rw [hstart, hseen]
  cases requests k with
  | custom request =>
    refine ⟨⟨hw, by rintro key e ⟨⟩, by rintro key e ⟨⟩⟩, ?_⟩
    rw [ApiRequest.handler, wp_run_bind]
    refine (wp_either_inl _ _).2 ((wp_onRight _ _).2 ?_)
    refine wp_mono (fun g r _ => ?_) _ _ request.wp_handler
    cases r with
    | error e | ok value => trivial
  | deleteDefinition name now clock =>
    refine ⟨⟨hw, by rintro crd ⟨⟩, by rintro items ⟨⟩⟩, ?_⟩
    rw [ApiRequest.handler, wp_run_bind]
    refine (wp_either_inr _ _).2 ?_
    refine wp_mono (fun g r hfinished => ?_) _ _
      (wp_handleCustomResourceDefinitionDelete (fun item => (clock item).2) name now)
    cases r with
    | error e | ok deleted => exact hfinished

/-- **Definitions are deleted with their resources**, as long as nothing disturbs the cascade: from
the step on that takes a definition from the store, when its request has ended, with whatever
answer, all its resources without finalizers are gone; and no resource with finalizers is
removed. -/
theorem complete_of_undisturbed (definitions : CrdTable) (resources : CustomTable)
    (requests : κ → ApiRequest) (events : List (Event κ CustomOp.Choice Empty))
    (h : Run.AllSteps step Undisturbed (start definitions resources requests) events) :
    (start definitions resources requests).Complete events ∧
      Run.AllSteps step Spares (start definitions resources requests) events := by
  have hstart := inv_start definitions resources requests
  constructor
  · rintro before e after rfl k crd htakes
    obtain ⟨hbefore, hguard, hafter⟩ := (Run.allSteps_append ..).1 h
    have hinv := (Run.AllStates.of_invariant (I := Inv) (fun c e hI hG => hI.step hG)
      (fun c hI => hI) _ before hstart hbefore).exec
    exact Run.AllStates.of_invariant (I := fun c => c.Inv ∧ HasTaken k crd c)
      (fun c e hI hG => ⟨hI.1.step hG, hI.1.hasTaken_step hI.2 e⟩)
      (fun c hI => hI.1.cleared hI.2) _ after
      ⟨hinv.step hguard, hinv.hasTaken_of_takes hguard htakes⟩ hafter
  · exact Run.AllSteps.of_invariant (I := Inv) (fun c e hI hG => hI.step hG)
      (fun c e hI _ => hI.spares e) _ events hstart h

end

/-! ## A cascade that is disturbed -/

namespace Sample

open Fixture

def definitions : CrdTable := CrdServing.Sample.table

def keyOf (name : String) : String :=
  createCustomKey "example.com" "widgets" (some "default") name

/-- A widget without finalizers. -/
def old : CustomResourceObject where
  typeMeta := some { apiVersion := some "example.com/v1", kind := some "Widget" }
  objectMeta := some { name := some "old", «namespace» := some "default" }
  rawJson := some (.object [("metadata",
    .object [("name", .string "old"), ("namespace", .string "default")])])

lemma placed_old : Placed (keyOf "old") old
    { name := some "old", «namespace» := some "default" } where
  carries := ⟨_, rfl, rfl, rfl⟩
  envelope := ⟨_, rfl, rfl, rfl⟩
  key_eq := ⟨"example.com", "widgets", "old", by decide, by decide, rfl, rfl⟩

def resources : CustomTable := CustomTable.empty.put placed_old (by decide)

def entry : FullCrdEntry where
  group := "example.com"
  plural := "widgets"
  singular := "widget"
  kind := "Widget"
  listKind := "WidgetList"
  scope := .namespaced
  version := {
    name := "v1", served := true, storage := true, schemaJson := none, compiledSchema := none,
    statusSubresource := false }

def registry : ServedRegistry where
  toCrdRegistryInner := CrdRegistryInner.empty.insert entry (by decide)
  valid key entry' h := by
    rcases of_update_eq_some h with ⟨-, ⟨⟩⟩ | ⟨-, ⟨⟩⟩
    decide

/-- Every call is answered, and the registry has the widgets. -/
def choice : CustomOp.Choice where
  registry := registry
  namespaces := fun ns => ns = "default"

/-- `true` deletes the definition, `false` makes a request for a widget. -/
def requests (request : CustomRequest) : Bool → ApiRequest
  | true => .deleteDefinition "widgets.example.com" ⟨1700000000, 0⟩
      fun _ => ⟨⟨1700000000, 0⟩, rfl⟩
  | false => .custom request

/-- POST of another widget. -/
def creation : CustomRequest :=
  .create "example.com" "v1" (some "default") "widgets"
    (.object [("metadata", .object [("name", .string "new")])]) ⟨"5f1c", ⟨1700000000, 0⟩, "x7k2p"⟩

def hold : CustomRequest :=
  .patch "example.com" "v1" (some "default") "widgets" "old"
    (.object [("metadata", .object [("finalizers", .array [.string "example.com/hold"])])])

def calls (k : Bool) (n : ℕ) : List (Event Bool CustomOp.Choice Empty) :=
  List.replicate n (.call k choice)

def finalizersAt (c : ApiServing Bool) (name : String) : Option (List String) :=
  (c.world.resources.entry (keyOf name)).map fun e => storedFinalizers e.value

def ended (c : ApiServing Bool) (k : Bool) : Bool := !(c.thread k).running

def listing (c : ApiServing Bool) (k : Bool) : Bool :=
  match c.seen k with
  | .inl _ => false
  | .inr g => g.items.isSome

/-- The other request has no list, all that is stored can be read, and the call is answered. -/
def unlisted (c : ApiServing Bool) : Event Bool CustomOp.Choice Empty → Bool
  | .call k choice => !listing c (!k) && choice.access = .answered &&
      c.world.resources.revision < RevisionStore.maxRevision &&
      (c.step (.call k choice)).world.resources.keys.all fun key =>
        ((c.step (.call k choice)).world.resources.entry key).all fun o =>
          (storedMeta o.value).isSome
  | .tick _ => true

lemma undisturbed_of_unlisted {c : ApiServing Bool} {e : Event Bool CustomOp.Choice Empty}
    (h : unlisted c e = true) : c.Undisturbed e := by
  cases e with
  | tick x => exact x.elim
  | call k choice =>
    simp only [unlisted, Bool.and_eq_true, Bool.not_eq_true', decide_eq_true_eq,
      List.all_eq_true] at h
    obtain ⟨⟨⟨hlisting, hanswered⟩, hrevision⟩, hreadable⟩ := h
    refine ⟨?_, fun key o _ ho => ?_, fun _ _ _ _ _ he _ _ _ => ?_⟩
    · rintro key o - - k' crd items hcall ⟨g, hg, -, hitems⟩ -
      obtain rfl : k' = !k := Bool.eq_not.2 fun heq => hcall choice (by rw [heq])
      simp [listing, hg, hitems] at hlisting
    · simpa [ho] using hreadable key (RevisionStore.mem_keys _ key o ho)
    · cases he
      exact ⟨hanswered, hrevision⟩

lemma exists_takes {c : ApiServing Bool}
    (hstored : (c.world.definitions.kvs (crdKey "widgets.example.com")).map
      (fun content => (content.data.group, content.data.plural)) = some ("example.com", "widgets"))
    (hgone : ((c.step (.call true choice)).world.definitions.kvs
      (crdKey "widgets.example.com")).isNone = true) :
    ∃ crd, crd.group = "example.com" ∧ crd.plural = "widgets" ∧
      c.Takes (.call true choice) true crd := by
  obtain ⟨content, hcontent, hnames⟩ := Option.map_eq_some_iff.1 hstored
  obtain ⟨hgroup, hplural⟩ := Prod.mk.inj hnames
  exact ⟨content.data, hgroup, hplural, choice, _, content, rfl, hcontent, rfl,
    Option.isNone_iff_eq_none.1 hgone⟩

/-- The widget is created before the definition is deleted. -/
def inTime : List (Event Bool CustomOp.Choice Empty) := calls false 3 ++ calls true 5

lemma undisturbed_inTime :
    Run.AllSteps step Undisturbed (start definitions resources (requests creation)) inTime := by
  refine Run.AllSteps.of_invariant (I := fun _ => True) (G := fun c e => unlisted c e = true)
    (fun _ _ _ _ => trivial) (fun _ _ _ h => undisturbed_of_unlisted h) _ _ trivial ?_
  decide +kernel

/-- The widget is created after the list was read. -/
def lateCreation : List (Event Bool CustomOp.Choice Empty) :=
  calls false 2 ++ calls true 4 ++ calls false 1

/-- The widget gets its finalizer after the list was read. -/
def lateHold : List (Event Bool CustomOp.Choice Empty) :=
  calls false 2 ++ calls true 3 ++ calls false 1

end Sample

open Fixture Sample in
theorem complete_of_undisturbed_inTime :
    Run.AllSteps step Undisturbed (start definitions resources (requests creation)) inTime ∧
      (start definitions resources (requests creation)).Complete inTime ∧
      Run.AllSteps step Spares (start definitions resources (requests creation)) inTime :=
  ⟨undisturbed_inTime,
    complete_of_undisturbed definitions resources (requests creation) inTime undisturbed_inTime⟩

open Fixture Sample in
/-- A widget that is created after the cascade has read its list remains, and a widget that gets a
finalizer then is removed all the same. -/
theorem disturbed_cascade :
    ¬ (start definitions resources (requests creation)).Complete lateCreation ∧
      ¬ Run.AllSteps step Spares (start definitions resources (requests hold))
        (lateHold ++ calls true 1) := by
  constructor
  · intro h
    obtain ⟨crd, hgroup, hplural, htakes⟩ := exists_takes
      (c := Run.exec step (start definitions resources (requests creation))
        (calls false 2 ++ calls true 1)) (by decide +kernel) (by decide +kernel)
    have hcleared := (h (calls false 2 ++ calls true 1) (.call true choice)
      (calls true 2 ++ calls false 1) rfl true crd htakes).exec
    have hstored : finalizersAt (Run.exec step (start definitions resources (requests creation))
        lateCreation) "new" = some [] := by decide +kernel
    have hended : ended (Run.exec step (start definitions resources (requests creation))
        lateCreation) true = true := by decide +kernel
    change Cleared true crd (Run.exec step (start definitions resources (requests creation))
      lateCreation) at hcleared
    generalize Run.exec step (start definitions resources (requests creation)) lateCreation = c at *
    obtain ⟨o, ho, hnone⟩ := Option.map_eq_some_iff.1 hstored
    cases hthread : c.thread true with
    | done answer =>
      refine hcleared answer hthread _ o ⟨some "default", "new", ?_⟩ ho hnone
      rw [hgroup, hplural]
      rfl
    | call op next =>
      rw [ended, hthread] at hended
      cases hended
  · intro h
    obtain ⟨-, hspares, -⟩ := (Run.allSteps_append ..).1 h
    have hstored : finalizersAt (Run.exec step (start definitions resources (requests hold))
        lateHold) "old" = some ["example.com/hold"] := by decide +kernel
    have hgone : ((Run.exec step (start definitions resources (requests hold)) lateHold).step
        (.call true choice)).world.resources.entry (keyOf "old") = none :=
      Option.map_eq_none_iff.1 (show finalizersAt _ "old" = none by decide +kernel)
    obtain ⟨o, ho, hfinalizers⟩ := Option.map_eq_some_iff.1 hstored
    have hnone := hspares (keyOf "old") o ho hgone
    cases hnone.symm.trans hfinalizers

end ApiServing

end Tugboat
