import Tugboat.ApiServer.CustomResources

/-!
# What requests for custom resources do to the store

All that later files use of the handlers is in one protocol, `CustomSeen.protocol`: a request reads
once, and then makes at most one write.  It creates a resource where there is none, or stores an
update of what it has read, or it is a DELETE and removes or marks what it has read, on the
condition that it has not changed.  `CustomRequest.wp_handler` shows that every request keeps to
this.

After a write that has failed a request makes no more calls and answers with the response of the
failure.
-/

namespace Tugboat

open Json Program CustomHandler

namespace CustomResource

inductive CustomRequest
  | create (group version : String) (ns : Option String) (plural : String) (body : Value)
      (fresh : Fresh)
  | replace (group version : String) (ns : Option String) (plural name : String) (body : Value)
  | patch (group version : String) (ns : Option String) (plural name : String) (body : Value)
  | delete (group version : String) (ns : Option String) (plural name : String) (now : Time)
  | replaceStatus (group version : String) (ns : Option String) (plural name : String)
      (body : Value)
  | patchStatus (group version : String) (ns : Option String) (plural name : String) (body : Value)

namespace CustomRequest

def isDelete : CustomRequest → Bool
  | .delete .. => true
  | .create .. | .replace .. | .patch .. | .replaceStatus .. | .patchStatus .. => false

def handler [TimeCodec] : CustomRequest → CustomHandler Value
  | .create group version ns plural body fresh =>
    CustomResource.create group version ns plural body fresh
  | .replace group version ns plural name body =>
    CustomResource.replace group version ns plural name body
  | .patch group version ns plural name body =>
    CustomResource.patch group version ns plural name body
  | .delete group version ns plural name now =>
    CustomResource.delete group version ns plural name now
  | .replaceStatus group version ns plural name body =>
    CustomResource.replaceStatus group version ns plural name body
  | .patchStatus group version ns plural name body =>
    CustomResource.patchStatus group version ns plural name body

end CustomRequest

/-! ## What is written -/

section

variable [TimeCodec]

/-- A new resource: its metadata are the same in the envelope and in the JSON, as far as that can be
read, and its key is made of them and of the group and plural of its definition. -/
structure New (key : String) (o : CustomResourceObject) (m : ObjectMeta) : Prop where
  objectMeta_eq : o.objectMeta = some m
  carries : (storedMeta o).isSome → CarriesMeta o m
  key_eq : ∃ group plural name, NameValidator.isValidDnsSubdomain group = true ∧
    NameValidator.isValidName plural = true ∧ m.name = some name ∧
    key = createCustomKey group plural m.namespace name

/-- An update with metadata `m'` of a resource with metadata `m`. -/
structure Updates (e : CustomEntry) (o : CustomResourceObject)
    (m m' : ObjectMeta) : Prop where
  before : storedMeta e.value = some m
  objectMeta_eq : o.objectMeta = some m'
  carries : CarriesMeta o m'
  name_eq : m'.name = m.name
  namespace_eq : m'.namespace = m.namespace
  uid_eq : m'.uid = m.uid
  creationTimestamp_eq : m'.creationTimestamp = m.creationTimestamp
  deletionTimestamp_eq : m'.deletionTimestamp = m.deletionTimestamp

/-- The version `e`, with metadata `m`, marked for deletion at `t` if it was not, and with its
revision as resource version; everything else is as it was. -/
structure Marks (e : CustomEntry) (o : CustomResourceObject)
    (m : ObjectMeta) (t : Time) : Prop where
  before : storedMeta e.value = some m
  time_eq : ∀ t' ∈ m.deletionTimestamp, t = t'
  objectMeta_eq : o.objectMeta = some { m with
    deletionTimestamp := some t, resourceVersion := some (toString e.revision) }
  carries : CarriesMeta o { m with
    deletionTimestamp := some t, resourceVersion := some (toString e.revision) }
  get_eq : ∀ k ≠ "metadata", o.rawJson.bind (·.get k) = e.value.rawJson.bind (·.get k)

end

/-! ## The protocol -/

/-- The record of a request: whether it is a DELETE, what it has read under which key, and the
response to a write that has failed. -/
structure CustomSeen where
  deletes : Bool
  read : Option (String × CustomEntry) := none
  failed : Option StatusResponse := none

/-- The response to a refused write. -/
def conflictOf (expectedRevision : Option Int) : StatusResponse :=
  .ofStoreError (.optimisticLockFailed (expectedRevision.getD 0))

namespace CustomSeen

/-- What a write adds to the record. -/
def afterWrite {α : Type} (g : CustomSeen) (expectedRevision : Option Int) :
    Except RevisionStore.Unavailable (Option α) → CustomSeen
  | .ok (some _) => g
  | .ok none => { g with failed := some (conflictOf expectedRevision) }
  | .error _ => { g with failed := some (.ofStoreError .etcd) }

def observe (g : CustomSeen) : (op : CustomOp) → op.Result → CustomSeen
  | .store (.get key), .ok (some e) => { g with read := some (key, e) }
  | .store (.put _ _ expected), r => g.afterWrite expected r
  | .store (.delete _ expected), r => g.afterWrite expected r
  | _, _ => g

section

variable [TimeCodec]

/-- What may be put, and under which condition. -/
inductive MayPut (g : CustomSeen) (key : String) (o : CustomResourceObject) : Option Int → Prop
  | create {m : ObjectMeta} (hdeletes : g.deletes = false) (hread : g.read = none)
      (h : New key o m) : MayPut g key o (some 0)
  | update {e : CustomEntry} {m m' : ObjectMeta}
      {expected : Option Int} (hdeletes : g.deletes = false) (hread : g.read = some (key, e))
      (h : Updates e o m m') : MayPut g key o expected
  | mark {e : CustomEntry} {m : ObjectMeta} {t : Time}
      (hdeletes : g.deletes = true) (hread : g.read = some (key, e))
      (h : Marks e o m t) : MayPut g key o (some (e.revision : Int))

def MayCall (g : CustomSeen) : CustomOp → Prop
  | .store (.delete key expected) => g.failed = none ∧ g.deletes = true ∧
      ∃ e, g.read = some (key, e) ∧ expected = some (e.revision : Int) ∧
        storedFinalizers e.value = []
  | .store (.put key o expected) => g.failed = none ∧ MayPut g key o expected
  | .store (.get _) | .lookup _ _ _ | .namespaceExists _ => g.failed = none ∧ g.read = none
  | .store (.range _) => False

/-- What is taken for granted: revisions are in range, and definitions have valid names. -/
def Assumes : (op : CustomOp) → op.Result → Prop
  | .store (.get _) => fun r => ∀ e, r = .ok (some e) → e.revision ≤ RevisionStore.maxRevision
  | .lookup _ _ _ => fun r => ∀ entry, r = some entry →
      NameValidator.isValidDnsSubdomain entry.group = true ∧
        NameValidator.isValidName entry.plural = true
  | .store (.put _ _ _) | .store (.delete _ _) | .store (.range _) | .namespaceExists _ =>
    fun _ => True

def protocol : Protocol CustomOp.interface CustomSeen where
  allowed := MayCall
  assumes _ := Assumes
  observe := observe

end

def Reports {α : Type} (g : CustomSeen) (answer : Except StatusResponse α) : Prop :=
  ∀ r ∈ g.failed, answer = .error r

lemma reports_of_failed_eq_none {α : Type} {g : CustomSeen} (h : g.failed = none)
    (answer : Except StatusResponse α) : g.Reports answer := by
  intro r hr
  cases h.symm.trans hr

lemma reports_failed {α : Type} (g : CustomSeen) (r : StatusResponse) :
    ({ g with failed := some r } : CustomSeen).Reports (.error r : Except StatusResponse α) := by
  intro r' hr
  cases hr
  rfl

end CustomSeen

/-! ## Along the handlers -/

section

variable [TimeCodec] {g : CustomSeen} {α β : Type}

open CustomSeen

/-- The handler keeps to the protocol, and reports a write that has failed. -/
def Accords (g : CustomSeen) (x : CustomHandler α) : Prop := x.run.wp protocol g Reports

variable {group plural name : String} {ns : Option String} {expected : Option Int}
  (hfailed : g.failed = none)

include hfailed

lemma accords_check {x : Except StatusResponse β} {f : β → CustomHandler α}
    (hf : ∀ b, x = .ok b → Accords g (f b)) : Accords g (CustomHandler.ofExcept x >>= f) := by
  rw [Accords, wp_run_bind, wp_ofExcept]
  cases x with
  | ok b => exact hf b rfl
  | error r => exact reports_of_failed_eq_none hfailed _

/-- A write that is not carried out ends the request with its failure. -/
lemma accords_putCustom {o : CustomResourceObject} {x : ℕ → Except StatusResponse α}
    (hput : MayPut g (createCustomKey group plural ns name) o expected) :
    Accords g (do
      let revision ← putCustom group plural ns name o expected
      CustomHandler.ofExcept (x revision)) := by
  rw [Accords, wp_run_bind, putCustom, wp_run_bind]
  refine ⟨⟨hfailed, hput⟩, fun r _ => ?_⟩
  rcases r with u | _ | revision
  · exact reports_failed _ _
  · exact reports_failed _ _
  · exact reports_of_failed_eq_none hfailed _

omit hfailed in
lemma accords_deleteCustom {x : Bool → Except StatusResponse Unit} {a : α}
    (hallowed : MayCall g (.store (.delete (createCustomKey group plural ns name) expected))) :
    Accords g (do
      let deleted ← deleteCustom group plural ns name expected
      CustomHandler.ofExcept (x deleted)
      return a) := by
  rw [Accords, wp_run_bind, deleteCustom, wp_run_bind]
  refine ⟨hallowed, fun r _ => ?_⟩
  rcases r with u | _ | deleted
  · exact reports_failed _ _
  · exact reports_failed _ _
  · exact accords_check (f := fun _ => pure a) hallowed.1 fun _ _ =>
      reports_of_failed_eq_none hallowed.1 _

variable (hread : g.read = none)

include hread

lemma accords_lookup {version : String} {f : FullCrdEntry → CustomHandler α}
    (hf : ∀ entry : FullCrdEntry, NameValidator.isValidDnsSubdomain entry.group = true →
      NameValidator.isValidName entry.plural = true → Accords g (f entry)) :
    Accords g (lookup group version plural >>= f) := by
  rw [Accords, wp_run_bind]
  refine ⟨⟨hfailed, hread⟩, fun entry hentry => ?_⟩
  cases entry with
  | none => exact reports_of_failed_eq_none hfailed _
  | some entry =>
    obtain ⟨hgroup, hplural⟩ := hentry entry rfl
    exact hf entry hgroup hplural

lemma accords_lookupStatus {version : String} {f : FullCrdEntry → CustomHandler α}
    (hf : ∀ entry, Accords g (f entry)) :
    Accords g (lookupStatus group version plural >>= f) := by
  rw [Accords, wp_run_bind, lookupStatus, wp_run_bind]
  refine ⟨⟨hfailed, hread⟩, fun entry _ => ?_⟩
  cases entry with
  | none => exact reports_of_failed_eq_none hfailed _
  | some entry =>
    simp only [require, wp_done, wp_run_bind, wp_ofExcept]
    split
    · exact hf entry
    · exact reports_of_failed_eq_none hfailed _

lemma accords_ensureNamespaceOf {f : Unit → CustomHandler α} (hf : Accords g (f ())) :
    Accords g (ensureNamespaceOf ns >>= f) := by
  rw [Accords, wp_run_bind]
  cases ns with
  | none => exact hf
  | some ns =>
    refine ⟨⟨hfailed, hread⟩, fun r _ => ?_⟩
    rcases r with e | _ | _
    · exact reports_of_failed_eq_none hfailed _
    · exact reports_of_failed_eq_none hfailed _
    · exact hf

/-- Reading a resource is one call; what follows starts from what was read. -/
lemma accords_getExisting {entry : FullCrdEntry} {f : CustomEntry → CustomHandler α}
    (hf : ∀ e : CustomEntry, e.revision ≤ RevisionStore.maxRevision → Accords
      { g with read := some (createCustomKey entry.group entry.plural ns name, e) } (f e)) :
    Accords g (getExisting entry ns name >>= f) := by
  rw [Accords, wp_run_bind, getExisting, wp_run_bind]
  refine ⟨⟨hfailed, hread⟩, fun r hr => ?_⟩
  rcases r with u | _ | e
  · exact reports_of_failed_eq_none hfailed _
  · exact reports_of_failed_eq_none hfailed _
  · exact hf e (hr e rfl)

end

/-! ## What the updates compute -/

section

variable {value : Value}

lemma requireObject_eq_ok {fields : Map} (h : requireObject value = .ok fields) :
    value = .object fields := by
  rw [requireObject, require_eq_ok_iff] at h
  cases value with
  | object m =>
    cases h
    rfl
  | null | bool b | number n | string s | array items => cases h

lemma get_metadata_normalizeStatusForWrite {entry : FullCrdEntry} {value' : Value}
    (h : normalizeStatusForWrite entry value = .ok value') :
    value'.get "metadata" = value.get "metadata" := by
  unfold normalizeStatusForWrite at h
  split at h
  · obtain ⟨fields, hfields, h⟩ := bind_eq_ok_iff.1 h
    cases h
    rw [requireObject_eq_ok hfields]
    split
    · rfl
    · exact Map.get_insert_of_ne (by decide) _ _
  · cases h
    rfl

lemma get_metadata_maybePreserveStatus {entry : FullCrdEntry} {next current : Value}
    (h : maybePreserveStatus entry next current = .ok value) :
    value.get "metadata" = next.get "metadata" := by
  unfold maybePreserveStatus at h
  split at h
  · obtain ⟨fields, hfields, h⟩ := bind_eq_ok_iff.1 h
    cases h
    rw [requireObject_eq_ok hfields]
    exact ResourceUpdater.get_restoreStatus_of_ne (by decide) _ _
  · cases h
    rfl

lemma ranged_computeGeneration {current next : Value} {currentMeta m : ObjectMeta}
    (h : currentMeta.Ranged) (hm : m.generation = computeGeneration current next currentMeta) :
    m.Ranged := by
  intro g hg
  rw [hm, computeGeneration] at hg
  split at hg
  · have hnext : g = min (max (currentMeta.generation.getD 0) 0 + 1) (2 ^ 63 - 1) :=
      (Option.some.inj hg).symm
    omega
  · exact h g hg

end

section

variable [LawfulTimeCodec] {entry : FullCrdEntry} {value oldValue : Value} {m m' : ObjectMeta}
  {data : CustomEntry} (hshows : Shows data oldValue m)

include hshows

lemma updates_of_set {v v' : Value} {currentMeta nextMeta : ObjectMeta}
    (hcurrent : extractMetadata oldValue = .ok currentMeta) (hset : setMetadata v m' = .ok v')
    (hm' : m' = { preserveIdentityMetadata currentMeta nextMeta with generation := m'.generation })
    (hranged : m'.Ranged) (hget : value.get "metadata" = v'.get "metadata") :
    HasMeta value m' ∧ Updates data (envelopeFromValue entry value m') m m' := by
  obtain ⟨⟨hcreation, hdeletion⟩, rfl⟩ := hshows.eq_of_extractMetadata _ hcurrent
  have htimely : m'.Timely := by
    rw [hm']
    exact ⟨hcreation, hdeletion⟩
  have hvalue := (hasMeta_setMetadata hranged htimely hset).congr hget
  refine ⟨hvalue, hshows.storedMeta_eq, rfl, ⟨value, rfl, hvalue⟩, ?_, ?_, ?_, ?_, ?_⟩ <;>
    rw [hm'] <;> rfl

variable {name : String} {expected : Option Int}

lemma updates_replaced {replacement : Value}
    (h : replaced name replacement entry oldValue = .ok (value, m', expected)) :
    Updates data (envelopeFromValue entry value m') m m' := by
  simp only [replaced, bind_eq_ok_iff] at h
  obtain ⟨_, -, replacement', -, currentMeta, hcurrent, nextMeta, -, v₁, -, v₂, hset, v₃, hnormal,
    _, -, _, -, h⟩ := h
  cases h
  exact (updates_of_set hshows hcurrent hset rfl
    (ranged_computeGeneration (ranged_of_extractMetadata hcurrent) rfl)
    (get_metadata_normalizeStatusForWrite hnormal)).2

lemma updates_patched {patch : Map}
    (h : patched patch entry oldValue = .ok (value, m', expected)) :
    Updates data (envelopeFromValue entry value m') m m' := by
  simp only [patched, preserveIdentityAndMaybeStatus, bind_eq_ok_iff] at h
  obtain ⟨merged, -, v₁, ⟨currentMeta, hcurrent, nextMeta, -, v₂, hset, hstatus⟩, v₃, hnormal, _, -,
    m₁, hm₁, h⟩ := h
  cases h
  obtain ⟨hvalue, hupdates⟩ := updates_of_set hshows hcurrent hset rfl
    (ranged_computeGeneration (ranged_of_extractMetadata hcurrent) rfl)
    ((get_metadata_normalizeStatusForWrite hnormal).trans
      (get_metadata_maybePreserveStatus hstatus))
  cases hvalue.extractMetadata_eq.symm.trans hm₁
  exact hupdates

lemma updates_statusUpdated {next : Value}
    (h : statusUpdated entry next oldValue = .ok (value, m', expected)) :
    Updates data (envelopeFromValue entry value m') m m' := by
  simp only [statusUpdated, preserveIdentityMetadataFromValue, bind_eq_ok_iff] at h
  obtain ⟨v₁, ⟨currentMeta, hcurrent, nextMeta, -, hset⟩, _, -, m₁, hm₁, h⟩ := h
  cases h
  obtain ⟨hvalue, hupdates⟩ := updates_of_set hshows hcurrent hset rfl
    (fun g hg => ranged_of_extractMetadata hcurrent g hg) rfl
  cases hvalue.extractMetadata_eq.symm.trans hm₁
  exact hupdates

lemma marks_setDeletionTimestamp (entry : FullCrdEntry) {now : Time}
    (hset : setDeletionTimestamp oldValue now = .ok value)
    (hvalue : extractMetadata value = .ok m') :
    resourceVersion value = some (toString data.revision) ∧
      ∃ t, Marks data (envelopeFromValue entry value m') m t := by
  simp only [setDeletionTimestamp, bind_eq_ok_iff] at hset
  obtain ⟨shown, hshown, hset⟩ := hset
  obtain ⟨-, rfl⟩ := hshows.eq_of_extractMetadata _ hshown
  split at hset
  next hnone =>
    -- the metadata can be read again, so the present time is one that is read back
    have hranged := ranged_of_extractMetadata hshown
    obtain ⟨-, rfl⟩ := eq_of_extractMetadata_setMetadata (m := { m with
      deletionTimestamp := some now, resourceVersion := some (toString data.revision) })
      hranged hset hvalue
    have hmeta : HasMeta value { m with
        deletionTimestamp := some now, resourceVersion := some (toString data.revision) } :=
      ⟨hvalue, hasFinalizers_setMetadata hset⟩
    refine ⟨resourceVersion_setMetadata hset, now, hshows.storedMeta_eq, fun t' ht' => ?_, rfl,
      ⟨value, rfl, hmeta⟩, fun k hk => ?_⟩
    · rw [Option.isNone_iff_eq_none] at hnone
      cases hnone.symm.trans ht'
    · rw [hshows.get_eq k hk]
      exact get_setMetadata_of_ne hset hk
  · -- a resource that is marked already is put as it was read
    rename_i hsome
    cases hset
    cases hshown.symm.trans hvalue
    cases ht : m.deletionTimestamp with
    | none => exact absurd (by simp [ht]) hsome
    | some t =>
      have hmarked : HasMeta value { m with
          deletionTimestamp := some t, resourceVersion := some (toString data.revision) } :=
        ⟨by rw [hshown, ← ht], hshows.hasFinalizers_eq⟩
      refine ⟨hshows.resourceVersion_eq, t, hshows.storedMeta_eq,
        fun t' ht' => Option.some.inj (ht.symm.trans ht'), ?_,
        ⟨value, rfl, hmarked⟩, fun k hk => (hshows.get_eq k hk).symm⟩
      rw [envelopeFromValue, ← ht]

omit hshows

variable {ns : Option String} {fresh : Fresh}

omit [LawfulTimeCodec] in
/-- The metadata of a new resource put it where its name and namespace say. -/
lemma newMetadata_eq_ok (hscope : ensureWriteScope entry ns = .ok ())
    (h : newMetadata entry ns m fresh = .ok (m', name)) :
    m'.name = some name ∧ m'.namespace = ns ∧ m'.generation = some 1 := by
  simp only [newMetadata, bind_eq_ok_iff] at h
  obtain ⟨placed, hplaced, name', -, h⟩ := h
  cases h
  refine ⟨rfl, ?_, rfl⟩
  cases hs : entry.scope with
  | namespaced =>
    simp only [placeMetadata, hs] at hplaced
    cases hplaced
    rfl
  | cluster =>
    simp only [placeMetadata, hs] at hplaced
    split at hplaced
    · cases hplaced
    rename_i hnone
    cases hplaced
    cases ns with
    | none =>
      have hplace : m.namespace = none := by simpa using hnone
      exact hplace
    | some ns => simp [ensureWriteScope, hs] at hscope

lemma accords_readUpdatePut {update : Update}
    (h : ∀ data oldValue m value m' expected, Shows data oldValue m →
      update entry oldValue = .ok (value, m', expected) →
        Updates data (envelopeFromValue entry value m') m m') :
    Accords { deletes := false } (readUpdatePut entry ns name update) := by
  refine accords_check rfl fun _ _ => accords_getExisting rfl rfl fun data _ => ?_
  refine accords_check rfl fun oldValue hold => accords_check rfl fun computed hupdate => ?_
  obtain ⟨m, hshows⟩ := exists_shows hold
  obtain ⟨value, m', expected⟩ := computed
  exact accords_putCustom rfl (.update rfl rfl (h _ _ _ _ _ _ hshows hupdate))

lemma new_created {body : Value} (hgroup : NameValidator.isValidDnsSubdomain entry.group = true)
    (hplural : NameValidator.isValidName entry.plural = true)
    (hscope : ensureWriteScope entry ns = .ok ())
    (h : created entry ns body fresh = .ok (value, m, name)) :
    New (createCustomKey entry.group entry.plural ns name) (envelopeFromValue entry value m) m := by
  simp only [created, bind_eq_ok_iff] at h
  obtain ⟨v₁, -, m₁, -, ⟨m₂, name'⟩, hnew, v₂, hset, v₃, hnormal, _, -, h⟩ := h
  cases h
  obtain ⟨hname, hns, hgeneration⟩ := newMetadata_eq_ok hscope hnew
  have hranged : m₂.Ranged := by
    intro g hg
    cases hgeneration.symm.trans hg
    decide
  have hget := get_metadata_normalizeStatusForWrite hnormal
  refine ⟨rfl, fun hsome => ⟨value, rfl, ?_⟩, _, _, _, hgroup, hplural, hname, by rw [hns]⟩
  obtain ⟨m', hm'⟩ := Option.isSome_iff_exists.1 hsome
  have hread : extractMetadata v₂ = .ok m' := by
    rw [← toOption_eq_some_iff.1 hm', extractMetadata, extractMetadata, hget]
  obtain ⟨htimely, -⟩ := eq_of_extractMetadata_setMetadata hranged hset hread
  exact (hasMeta_setMetadata hranged htimely hset).congr hget

open CustomSeen in
/-- **Every request keeps to the protocol**, and reports a write that has failed. -/
theorem CustomRequest.wp_handler (request : CustomRequest) :
    request.handler.run.wp protocol { deletes := request.isDelete } Reports := by
  cases request with
  | create group version ns plural body fresh =>
    refine accords_lookup rfl rfl fun entry hgroup hplural => accords_check rfl fun _ hscope => ?_
    refine accords_ensureNamespaceOf rfl rfl (accords_check rfl fun computed hcreated => ?_)
    obtain ⟨value, m, name⟩ := computed
    exact accords_putCustom rfl (.create rfl rfl (new_created hgroup hplural hscope hcreated))
  | delete group version ns plural name now =>
    refine accords_lookup rfl rfl fun entry _ _ => accords_check rfl fun _ _ => ?_
    refine accords_getExisting rfl rfl fun data hrange => accords_check rfl fun value hvalue => ?_
    obtain ⟨m, hshows⟩ := exists_shows hvalue
    split
    · refine accords_check rfl fun value hset => accords_check rfl fun m' hm' => ?_
      obtain ⟨hversion, t, hmarks⟩ := marks_setDeletionTimestamp hshows entry hset hm'
      rw [resourceVersionAsRevision_eq hrange hversion]
      exact accords_putCustom rfl (.mark rfl rfl hmarks)
    next hnone =>
      have hfinalizers : storedFinalizers data.value = [] := by
        rw [hshows.hasFinalizers_eq] at hnone
        simpa [storedFinalizers, hshows.storedMeta_eq] using hnone
      rw [resourceVersionAsRevision_eq hrange hshows.resourceVersion_eq]
      exact accords_deleteCustom ⟨rfl, rfl, data, rfl, rfl, hfinalizers⟩
  | replace group version ns plural name body =>
    exact accords_lookup rfl rfl fun entry _ _ => accords_readUpdatePut
      fun _ _ _ _ _ _ hshows h => updates_replaced hshows h
  | patch group version ns plural name body =>
    refine accords_check rfl fun _ _ => accords_check rfl fun _ _ => ?_
    exact accords_lookup rfl rfl fun entry _ _ => accords_readUpdatePut
      fun _ _ _ _ _ _ hshows h => updates_patched hshows h
  | replaceStatus group version ns plural name body =>
    refine accords_lookupStatus rfl rfl fun entry => accords_readUpdatePut
      fun _ _ _ _ _ _ hshows h => ?_
    obtain ⟨_, -, h⟩ := bind_eq_ok_iff.1 h
    exact updates_statusUpdated hshows h
  | patchStatus group version ns plural name body =>
    refine accords_check rfl fun _ _ => accords_check rfl fun _ _ => ?_
    exact accords_lookupStatus rfl rfl fun entry => accords_readUpdatePut
      fun _ _ _ _ _ _ hshows h => updates_statusUpdated hshows h

end

/-! ## Where resources are stored -/

section

variable [TimeCodec]

/-- A resource with metadata `m` is stored where its name and namespace say. -/
structure Placed (key : String) (o : CustomResourceObject) (m : ObjectMeta) : Prop where
  carries : CarriesMeta o m
  envelope : ∃ m', o.objectMeta = some m' ∧ m'.name = m.name ∧ m'.namespace = m.namespace
  key_eq : ∃ group plural name, NameValidator.isValidDnsSubdomain group = true ∧
    NameValidator.isValidName plural = true ∧ m.name = some name ∧
    key = createCustomKey group plural m.namespace name

/-- A version with the metadata of its envelope takes the place of another one of the same name and
namespace. -/
lemma Placed.replaced {key : String} {o o' : CustomResourceObject} {m m' : ObjectMeta}
    (h : Placed key o m) (hcarries : CarriesMeta o' m') (hmeta : o'.objectMeta = some m')
    (hname : m'.name = m.name) (hns : m'.namespace = m.namespace) : Placed key o' m' := by
  refine ⟨hcarries, ⟨m', hmeta, rfl, rfl⟩, ?_⟩
  rw [hname, hns]
  exact h.key_eq

lemma CustomSeen.MayPut.placed {g : CustomSeen} {key : String} {o : CustomResourceObject}
    {expected : Option Int} (h : g.MayPut key o expected)
    (hread : ∀ key e, g.read = some (key, e) → ∃ m, Placed key e.value m)
    (hsome : (storedMeta o).isSome) : ∃ m, Placed key o m := by
  cases h with
  | @create m _ _ h => exact ⟨m, h.carries hsome, ⟨m, h.objectMeta_eq, rfl, rfl⟩, h.key_eq⟩
  | @update e m m' _ _ hg h =>
    obtain ⟨m₀, hplaced⟩ := hread key e hg
    cases hplaced.carries.storedMeta_eq.symm.trans h.before
    exact ⟨m', hplaced.replaced h.carries h.objectMeta_eq h.name_eq h.namespace_eq⟩
  | @mark e m t _ hg h =>
    obtain ⟨m₀, hplaced⟩ := hread key e hg
    cases hplaced.carries.storedMeta_eq.symm.trans h.before
    exact ⟨_, hplaced.replaced h.carries h.objectMeta_eq rfl rfl⟩

end

end CustomResource

end Tugboat
