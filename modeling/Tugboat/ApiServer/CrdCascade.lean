import Tugboat.ApiServer.CrdEndpoints
import Tugboat.ApiServer.CustomRequests
import Tugboat.Lib.Composition

/-!
# Deleting a definition and its resources

DELETE of a definition that has finalizers marks it.  Any other definition is removed, and only then
are its resources listed and treated one by one: those with finalizers are stamped with a deletion
timestamp, on the condition that they have not changed, and the others are removed, whatever is
stored by then.

`CrdDeletion.protocol` is what the rest of the development uses of this: which calls a DELETE makes,
given the definition it has removed and the resources it still has to treat.
-/

namespace Tugboat

open Json Resource Program CustomResource CustomResourceDefinition

/-- The calls to the store of definitions and to that of custom resources. -/
abbrev ApiOp.interface : Interface :=
  (StoreOp.interface CustomResourceDefinition).sum CustomOp.interface

/-- A request handler over both. -/
abbrev ApiHandler (α : Type) : Type := ExceptT StatusResponse (Program ApiOp.interface) α

namespace ApiHandler

variable {α γ : Type}

def definitions (x : Handler CustomResourceDefinition α) : ApiHandler α := ExceptT.mk x.run.onLeft

def resources (x : CustomHandler α) : ApiHandler α := ExceptT.mk x.run.onRight

/-- A check or a computation that makes no calls. -/
def ofExcept (x : Except StatusResponse α) : ApiHandler α := ExceptT.mk (.done x)

variable {P : Protocol ApiOp.interface γ} {g : γ} {Q : γ → Except StatusResponse α → Prop}

lemma wp_definitions (x : Handler CustomResourceDefinition α) :
    (definitions x).run.wp P g Q ↔ x.run.wp P.left g Q := wp_onLeft g x.run

lemma wp_resources (x : CustomHandler α) :
    (resources x).run.wp P g Q ↔ x.run.wp P.right g Q := wp_onRight g x.run

@[simp] lemma wp_ofExcept (x : Except StatusResponse α) :
    (ofExcept x).run.wp P g Q ↔ Q g x := Iff.rfl

end ApiHandler

/-! ## Handlers -/

def hasCrFinalizers (value : Value) : Bool := CustomResource.hasFinalizers value

section

variable [TimeCodec]

/-- `stamp_deletion_timestamp`: the timestamp is set in the JSON, not in the envelope. -/
def stampDeletionTimestamp (envelope : CustomResourceObject) (crValue : Value) (now : Time) :
    Except StatusResponse CustomResourceObject :=
  match crValue.asObject, (crValue.get "metadata").bind (·.asObject) with
  | some obj, some metadata =>
    if (metadata.get "deletionTimestamp").isSome then
      .ok { envelope with rawJson := some crValue }
    else do
      let timestamp ← require (TimeCodec.toRfc3339 now) (.internalError
        "Failed to stamp deletionTimestamp on custom resource: invalid timestamp")
      return { envelope with
        rawJson := some (.object (obj.insert "metadata"
          (.object (metadata.insert "deletionTimestamp" (.string timestamp))))) }
  | _, _ => .ok { envelope with rawJson := some crValue }

/-- What the cascade does with one of the resources it has listed. -/
def cascadeItem (group plural : String) (now : Time)
    (item : CustomEntry) : ApiHandler Unit := do
  let envelope := item.value
  let ns := envelope.objectMeta.bind (·.namespace)
  match envelope.objectMeta.bind (·.name) with
  | none => return ()
  | some name =>
    match envelope.rawJson with
    | none =>
      -- a body that cannot be read is removed like one without finalizers
      let _ ← ApiHandler.resources (deleteCustom group plural ns name none)
      return ()
    | some crValue =>
      if hasCrFinalizers crValue then
        let stamped ← ApiHandler.ofExcept (stampDeletionTimestamp envelope crValue now)
        let _ ← ApiHandler.resources
          (putCustom group plural ns name stamped (some (item.revision : Int)))
        return ()
      else
        let _ ← ApiHandler.resources (deleteCustom group plural ns name none)
        return ()

/-- The loop of the cascade.  The clock is read anew for each resource. -/
def cascadeItems (group plural : String)
    (clock : CustomEntry → Time) :
    List CustomEntry → ApiHandler Unit
  | [] => return ()
  | item :: items => do
    cascadeItem group plural (clock item) item
    cascadeItems group plural clock items

def cascadeDeleteCustomResources (crd : CustomResourceDefinition)
    (clock : CustomEntry → Time) : ApiHandler Unit :=
  match crd.spec with
  | none => return ()
  | some spec =>
    match spec.names with
    | none => return ()
    | some names => do
      let items ← ApiHandler.resources (listCustom spec.group names.plural none)
      cascadeItems spec.group names.plural clock items

variable [JsonParser]

def handleCustomResourceDefinitionDelete (name : String) (now : Time)
    (clock : CustomEntry → Time) :
    ApiHandler CustomResourceDefinition := do
  let current ← ApiHandler.definitions (getCurrent none name)
  if Resource.hasFinalizers current then
    ApiHandler.definitions (putIfChanged current (markForDeletion now current))
  else
    match ← ApiHandler.definitions (Handler.store (.delete none name)) with
    | none => throw (resourceNotFound CustomResourceDefinition none name)
    | some deleted => do
      cascadeDeleteCustomResources current clock
      return deleted.applyRevision

end

/-! ## The protocol -/

/-- The record of a DELETE: the name of the definition, the definition it has removed, and the
resources it still has to treat once it has listed them. -/
structure CrdDeletion where
  name : String
  removed : Option CustomResourceDefinition := none
  items : Option (List CustomEntry) := none

/-- The key the cascade uses for a resource: it is made of the envelope. -/
def itemKey (crd : CustomResourceDefinition) (item : CustomEntry) :
    Option String :=
  item.value.objectMeta.bind fun m =>
    m.name.map (createCustomKey crd.group crd.plural m.namespace)

namespace CrdDeletion

/-- What a write of the cascade adds to the record. -/
def afterWrite {α : Type} (g : CrdDeletion) :
    Except RevisionStore.Unavailable (Option α) → CrdDeletion
  | .ok (some _) => { g with items := g.items.map List.tail }
  | .ok none | .error _ => g

def observe (g : CrdDeletion) :
    (op : ApiOp.interface.Op) → ApiOp.interface.Reply op → CrdDeletion
  | .inl (.delete _ _), .ok (some c) => { g with removed := some c.data }
  | .inr (.store (.range _)), .ok items => { g with items := some items }
  | .inr (.store (.put _ _ _)), r => g.afterWrite r
  | .inr (.store (.delete _ _)), r => g.afterWrite r
  | _, _ => g

/-- The next resource to treat, and its key. -/
structure Next (g : CrdDeletion) (item : CustomEntry)
    (key : String) : Prop where
  exists_rest : ∃ rest, g.items = some (item :: rest)
  key_eq : ∃ crd, g.removed = some crd ∧ itemKey crd item = some key

section

variable [TimeCodec]

/-- The resource `item`, with metadata `m`, is stamped and has the metadata `m'`, if they can be
read. -/
structure Stamps (item : CustomEntry) (o : CustomResourceObject)
    (m m' : ObjectMeta) : Prop where
  before : CarriesMeta item.value m
  carries : (storedMeta o).isSome → CarriesMeta o m'
  objectMeta_eq : o.objectMeta = item.value.objectMeta
  meta_eq : m' = { m with deletionTimestamp := m'.deletionTimestamp }

variable [JsonParser]

def MayCall (g : CrdDeletion) : ApiOp.interface.Op → Prop
  | .inl (.get ns name) => ns = none ∧ name = g.name
  | .inl (.put crd) => validateCrdSpec crd = .ok ()
  | .inl (.putIfNotExists _) => False
  | .inl (.delete ns name) => ns = none ∧ name = g.name ∧ g.removed = none ∧ g.items = none
  | .inr (.store (.range select)) => ∃ crd, g.removed = some crd ∧
      select = listed crd.group crd.plural none
  | .inr (.store (.delete key expected)) => expected = none ∧
      ∃ item, g.Next item key ∧ storedFinalizers item.value = []
  | .inr (.store (.put key o expected)) => ∃ item, g.Next item key ∧
      expected = some (item.revision : Int) ∧ storedFinalizers item.value ≠ [] ∧
      ∃ m m', Stamps item o m m'
  | .inr _ => False

structure Defines (name : String) (crd : CustomResourceDefinition) : Prop where
  accepted : validateCrdSpec crd = .ok ()
  name_eq : Resource.name crd = some name

/-- What is taken for granted: stored definitions are accepted, what is listed of a definition are
its resources, and the cascade gets its list and all its writes done. -/
def Assumes (g : CrdDeletion) :
    (op : ApiOp.interface.Op) → ApiOp.interface.Reply op → Prop
  | .inl (.get _ name) => fun r => ∀ c, r = .ok (some c) → Defines name c.data
  | .inl (.delete _ name) => fun r => ∀ c, r = .ok (some c) → Defines name c.data
  | .inr (.store (.range _)) => fun r => ∀ crd ∈ g.removed, ∃ items, r = .ok items ∧
      ∀ item ∈ items, (∃ key, itemKey crd item = some key) ∧ ∃ m, CarriesMeta item.value m
  | .inr (.store (.put _ _ _)) => fun r => ∃ revision, r = .ok (some revision)
  | .inr (.store (.delete _ _)) => fun r => ∃ deleted, r = .ok (some deleted)
  | .inl (.put _) | .inl (.putIfNotExists _) => fun _ => True
  | .inr (.store (.get _)) | .inr (.lookup _ _ _) | .inr (.namespaceExists _) => fun _ => True

def protocol : Protocol ApiOp.interface CrdDeletion where
  allowed := MayCall
  assumes := Assumes
  observe := observe

/-- If the definition was removed, all resources were treated. -/
def Finished (g : CrdDeletion) : Prop := g.removed.isSome → g.items = some []

end

end CrdDeletion

/-! ## Along the handler -/

section

variable [LawfulTimeCodec]

open CrdDeletion

variable {item : CustomEntry}

lemma stamps_of_stampDeletionTimestamp {crValue : Value} {now : Time} {o : CustomResourceObject}
    {m : ObjectMeta} (hraw : item.value.rawJson = some crValue) (hmeta : HasMeta crValue m)
    (h : stampDeletionTimestamp item.value crValue now = .ok o) : ∃ m', Stamps item o m m' := by
  unfold stampDeletionTimestamp at h
  have hsame : ∃ m', Stamps item { item.value with rawJson := some crValue } m m' :=
    ⟨m, ⟨crValue, hraw, hmeta⟩, fun _ => ⟨crValue, rfl, hmeta⟩, rfl, rfl⟩
  split at h
  next obj metadata hobj hmetadata =>
    split at h
    · cases h
      exact hsame
    · obtain ⟨timestamp, htext, h⟩ := bind_eq_ok_iff.1 h
      rw [require_eq_ok_iff] at htext
      cases h
      obtain ⟨value, hget, hvalue⟩ := Option.bind_eq_some_iff.1 hmetadata
      cases value with
      | object fields =>
        cases hvalue
        obtain ⟨metadata', hget', hread⟩ := extractMetadata_eq_ok hmeta.extractMetadata_eq
        cases hget.symm.trans hget'
        have hfield : (Value.object (obj.insert "metadata" (.object
            (Map.insert "deletionTimestamp" (.string timestamp) metadata)))).get "metadata" =
            some (.object (Map.insert "deletionTimestamp" (.string timestamp) metadata)) :=
          Map.get_insert_self "metadata" _ obj
        have hfinalizers : (Value.object (Map.insert "deletionTimestamp" (.string timestamp)
            metadata)).get "finalizers" = (Value.object metadata).get "finalizers" :=
          Map.get_insert_of_ne (by decide) _ metadata
        refine ⟨{ m with deletionTimestamp := some now }, ⟨crValue, hraw, hmeta⟩,
          fun hsome => ⟨_, rfl, ⟨?_, ?_⟩⟩, rfl, rfl⟩
        · obtain ⟨m', hm'⟩ := Option.isSome_iff_exists.1 hsome
          have hm' := toOption_eq_some_iff.1 hm'
          obtain ⟨metadata', hget', hread'⟩ := extractMetadata_eq_ok hm'
          cases hfield.symm.trans hget'
          rw [hm', ObjectMeta.eq_of_fromValue_insert_deletionTimestamp hread htext hread']
        have hbefore := hmeta.hasFinalizers_eq
        rw [CustomResource.hasFinalizers, hget, Option.bind_some] at hbefore
        rw [CustomResource.hasFinalizers, hfield, Option.bind_some, hfinalizers]
        exact hbefore
      | null | bool b | number n | string s | array items => cases hvalue
  · cases h
    exact hsame

lemma exists_stampDeletionTimestamp (envelope : CustomResourceObject) (crValue : Value) {now : Time}
    (h : (TimeCodec.toRfc3339 now).isSome) :
    ∃ o, stampDeletionTimestamp envelope crValue now = .ok o := by
  obtain ⟨text, htext⟩ := Option.isSome_iff_exists.1 h
  unfold stampDeletionTimestamp
  split
  · split
    · exact ⟨_, rfl⟩
    · exact ⟨_, by rw [htext]; rfl⟩
  · exact ⟨_, rfl⟩

variable [JsonParser] {g : CrdDeletion} {crd : CustomResourceDefinition}

/-- One resource is treated by one write, after which the next one is up. -/
lemma wp_cascadeItem {rest : List CustomEntry} {now : Time} {key : String}
    {m : ObjectMeta} {Q : CrdDeletion → Except StatusResponse Unit → Prop}
    (hnow : (TimeCodec.toRfc3339 now).isSome)
    (hremoved : g.removed = some crd) (hitems : g.items = some (item :: rest))
    (hkey : itemKey crd item = some key) (hcarries : CarriesMeta item.value m)
    (hok : Q { g with items := some rest } (.ok ())) :
    (cascadeItem crd.group crd.plural now item).run.wp protocol g Q := by
  have hnext : g.Next item key := ⟨⟨rest, hitems⟩, crd, hremoved, hkey⟩
  have hdone : Q { g with items := g.items.map List.tail } (.ok ()) := by
    rw [hitems]
    exact hok
  obtain ⟨envelope, henvelope, hkey⟩ := Option.bind_eq_some_iff.1 hkey
  obtain ⟨name, hname, rfl⟩ := Option.map_eq_some_iff.1 hkey
  obtain ⟨crValue, hraw, hmeta⟩ := hcarries
  have hfinalizers := hmeta.hasFinalizers_eq
  have hstored : storedFinalizers item.value = m.finalizers :=
    CarriesMeta.storedFinalizers_eq ⟨crValue, hraw, hmeta⟩
  simp only [cascadeItem, henvelope, Option.bind_some, hname, hraw]
  split
  next hhas =>
    rw [hasCrFinalizers, hfinalizers] at hhas
    obtain ⟨stamped, hstamp⟩ := exists_stampDeletionTimestamp item.value crValue hnow
    obtain ⟨m', hstamps⟩ := stamps_of_stampDeletionTimestamp hraw hmeta hstamp
    rw [wp_run_bind, ApiHandler.wp_ofExcept, hstamp]
    simp only
    rw [wp_run_bind, ApiHandler.wp_resources, putCustom, wp_run_bind]
    refine ⟨⟨item, hnext, rfl, ?_, m, m', hstamps⟩, ?_⟩
    · rw [hstored]
      simpa using hhas
    rintro r ⟨revision, rfl⟩
    exact hdone
  next hhas =>
    rw [hasCrFinalizers, hfinalizers] at hhas
    rw [wp_run_bind, ApiHandler.wp_resources, deleteCustom, wp_run_bind]
    refine ⟨⟨rfl, item, hnext, ?_⟩, ?_⟩
    · rw [hstored]
      simpa using hhas
    rintro r ⟨deleted, rfl⟩
    exact hdone

variable {clock : CustomEntry → Time} (hclock : ∀ item, (TimeCodec.toRfc3339 (clock item)).isSome)

include hclock

lemma wp_cascadeItems :
    ∀ (items : List CustomEntry) (g : CrdDeletion), g.removed = some crd → g.items = some items →
      (∀ item ∈ items, (∃ key, itemKey crd item = some key) ∧ ∃ m, CarriesMeta item.value m) →
      (cascadeItems crd.group crd.plural clock items).run.wp protocol g fun g' _ =>
        g'.items = some [] := by
  intro items
  induction items with
  | nil => exact fun g _ hitems _ => hitems
  | cons item rest ih =>
    intro g hremoved hitems hlisted
    obtain ⟨⟨key, hkey⟩, m, hcarries⟩ := hlisted item List.mem_cons_self
    rw [cascadeItems, wp_run_bind]
    refine wp_cascadeItem (hclock item) hremoved hitems hkey hcarries ?_
    exact ih _ hremoved rfl fun item' hmem => hlisted item' (List.mem_cons_of_mem item hmem)

lemma wp_cascadeDeleteCustomResources {current : CustomResourceDefinition}
    (hremoved : g.removed = some crd)
    (hcurrent : validateCrdSpec current = .ok ()) (hgroup : current.group = crd.group)
    (hplural : current.plural = crd.plural) :
    (cascadeDeleteCustomResources current clock).run.wp protocol g fun g' _ =>
      g'.items = some [] := by
  obtain ⟨spec, version, names, hacc⟩ :=
    accepted_of_validateCrdSpec hcurrent
  have hgroup' : spec.group = crd.group := by
    simpa [group, hacc.spec_eq] using hgroup
  have hplural' : names.plural = crd.plural := by
    simpa [plural, hacc.spec_eq, hacc.names_eq] using hplural
  simp only [cascadeDeleteCustomResources, hacc.spec_eq, hacc.names_eq, hgroup', hplural']
  rw [wp_run_bind, ApiHandler.wp_resources]
  refine ⟨⟨crd, hremoved, rfl⟩, fun r hr => ?_⟩
  obtain ⟨items, rfl, hlisted⟩ := hr crd hremoved
  exact wp_cascadeItems hclock items _ hremoved rfl hlisted

/-- **DELETE of a definition keeps to the protocol**, and when it ends, with whatever answer, it has
treated all resources of a definition it has removed. -/
theorem wp_handleCustomResourceDefinitionDelete (name : String) (now : Time) :
    (handleCustomResourceDefinitionDelete name now clock).run.wp protocol { name }
      fun g _ => g.Finished := by
  have hkept : CrdDeletion.Finished { name } := fun h => by cases h
  rw [handleCustomResourceDefinitionDelete, wp_run_bind, ApiHandler.wp_definitions]
  refine wp_getCurrent ⟨rfl, rfl⟩ (fun current hcurrent => ?_) fun r e => hkept
  obtain ⟨haccepted, hname⟩ := hcurrent current rfl
  have hshown : validateCrdSpec current.applyRevision = .ok () :=
    (validateCrdSpec_applyRevision current).trans haccepted
  simp only
  split
  · -- a definition with finalizers is marked, and nothing is removed
    have hmarked : validateCrdSpec (markForDeletion now current.applyRevision) = .ok () := by
      rw [← hshown]
      exact validateCrdSpec_congr rfl (name_markForDeletion now current.applyRevision)
    rw [ApiHandler.wp_definitions, putIfChanged]
    split
    · rw [wp_run_bind]
      refine ⟨hmarked, fun r _ => ?_⟩
      cases r with
      | error e | ok data => exact hkept
    · exact hkept
  · rw [wp_run_bind, ApiHandler.wp_definitions]
    refine ⟨⟨rfl, rfl, rfl, rfl⟩, fun r hr => ?_⟩
    rcases r with e | _ | deleted
    · exact hkept
    · exact hkept
    obtain ⟨hdeleted, hdeletedName⟩ := hr deleted rfl
    obtain ⟨hgroup, hplural⟩ := group_plural_eq hdeleted haccepted
      (hname.trans hdeletedName.symm)
    change ((cascadeDeleteCustomResources current.applyRevision clock >>= fun _ =>
      pure deleted.applyRevision : ApiHandler CustomResourceDefinition)).run.wp protocol
        { name, removed := some deleted.data } fun g _ => g.Finished
    rw [wp_run_bind]
    refine wp_mono ?_ _ _ (wp_cascadeDeleteCustomResources hclock rfl hshown hgroup hplural)
    intro g' r hitems
    cases r with
    | error e | ok u => exact fun _ => hitems

end

end Tugboat
