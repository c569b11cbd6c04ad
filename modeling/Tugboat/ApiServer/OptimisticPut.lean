import Tugboat.ApiServer.ObjectUpdates
import Tugboat.ApiServer.ShipEndpoints

/-!
# Which version a PUT overwrites

A client that gets an object, changes it and PUTs it back sends the resource version it got.  If the
object has been written since, the PUT should fail with a conflict.  The server puts the object
under the client's resource version for some kinds only (`patchOptions`); for the others, and for
every status, it is under the one the server has just read itself.

This file runs any number of PUTs side by side, sent by clients with any body or by clients that
send back what they got (`PutClient.update`), together with arbitrary other users of the store.
`Sent` is what is known about one of them; `Sent.conditionalOn` is the resource version its put is
made under.
-/

namespace Tugboat

open Json Resource Program ResourceStore ResourceUpdater

/-! ## PUT requests -/

inductive PutTarget
  | object
  | status
  deriving DecidableEq, Repr

structure PutAddress where
  target : PutTarget
  ns : Option String
  name : String
  deriving DecidableEq, Repr

section Requests

variable {T : Type} [Resource T]

def bodyVersion (body : T) : Option String := (objectMeta body).bind (·.resourceVersion)

lemma bodyVersion_applyRevision (got : ContentData T) :
    bodyVersion got.applyRevision = some (toString got.revision) := by
  rw [bodyVersion, got.objectMeta_applyRevision]
  rfl

variable (T) in
def readsOnly : Protocol (StoreOp.interface T) Unit where
  allowed _ op := ∃ ns name, op = .get ns name
  assumes _ _ _ := True
  observe _ _ _ := ()

variable (T) in
/-- What a kind's PUT endpoint adds to the generic one: a check before, which may read the store, a
preparation of the body, and the step between computing the replaced object and putting it, of which
none touches the metadata. -/
structure PutEndpoint where
  precheck : String → T → Handler T Unit
  precheck_reads : ∀ name body, (precheck name body).run.wp (readsOnly T) () fun _ _ => True
  prepare : T → T
  /-- The resource version of the body is the one in the JSON form of what is prepared. -/
  version_of_toValue : ∀ {body : T} {v : Value}, toValue (prepare body) = some v →
    clientResourceVersion (v.get "metadata") = bodyVersion body
  /-- Defaulting and validation of the replaced object. -/
  finish : T → T → Except StatusResponse T
  finish_objectMeta : ∀ {current replaced updated : T},
    finish current replaced = .ok updated → objectMeta updated = objectMeta replaced

namespace PutEndpoint

variable (endpoint : PutEndpoint T)

/-- What PUT computes. -/
def replaced (name : String) (body : T) (options : ReplaceOptions) (current : T) :
    Except StatusResponse T := do
  validateResourceName (endpoint.prepare body) name
  let updated ← ResourceUpdater.applyReplacement current options (endpoint.prepare body)
  endpoint.finish current updated

/-- The handler of a PUT.  A kind without PUT has no route for it. -/
def handler [DecidableEq T] (a : PutAddress) (body : T) : Handler T (Response T) :=
  match a.target with
  | .status => statusReplaceResource a.ns a.name body
  | .object =>
    match patchOptions (resourceKind T) with
    | none => throw (.notFound "Not Found")
    | some options => do
      endpoint.precheck a.name body
      readModifyWrite a.ns a.name (endpoint.replaced a.name body options)

/-- The endpoint of the kinds that use `replace_resource` as it is. -/
def generic (hversion : ∀ {body : T} {v : Value}, toValue body = some v →
    clientResourceVersion (v.get "metadata") = bodyVersion body) : PutEndpoint T where
  precheck _ _ := pure ()
  precheck_reads _ _ := trivial
  prepare body := body
  version_of_toValue := hversion
  finish := validated validateResource
  finish_objectMeta h := by rw [eq_of_validated h]

end PutEndpoint

section Ships

variable [TimeCodec]

lemma Ship.resourceVersion_of_toValue {ship : Ship} {v : Value} (h : toValue ship = some v) :
    clientResourceVersion (v.get "metadata") = bodyVersion ship := by
  simp only [toValue, Ship.toValue, Option.bind_eq_bind, Option.pure_def,
    Option.bind_eq_some_iff] at h
  obtain ⟨metadata, hmetadata, status, -, h⟩ := h
  cases h
  have hget : (Map.ofFields (((ship.typeMeta.map TypeMeta.toFields).getD []) ++
      [("metadata", metadata), ("spec", ship.spec.map ShipSpec.toValue),
        ("status", status)])).get "metadata" = metadata := by
    cases ship.typeMeta with
    | none => exact (Map.get_ofFields _ _ (by simp)).trans Option.join_some
    | some t => exact (Map.get_ofFields _ _ (by simp [TypeMeta.toFields])).trans Option.join_some
  show clientResourceVersion (Map.get _ "metadata") = ship.objectMeta.bind (·.resourceVersion)
  rw [hget]
  cases hmeta : ship.objectMeta with
  | none =>
    rw [hmeta] at hmetadata
    cases hmetadata
    rfl
  | some o =>
    rw [hmeta] at hmetadata
    obtain ⟨w, hw, rfl⟩ := Option.map_eq_some_iff.1 hmetadata
    rw [clientResourceVersion, Option.bind_some, (ObjectMeta.get_of_toValue hw).1]
    cases hrv : o.resourceVersion with
    | none => simp [hrv]
    | some rv => simp [hrv, Value.asStr]

/-- The endpoint of Ships, which checks the change of the target. -/
def PutEndpoint.ship (defaults : Except StatusResponse Unit) : PutEndpoint Ship where
  precheck _ _ := pure ()
  precheck_reads _ _ := trivial
  prepare ship := ship
  version_of_toValue := Ship.resourceVersion_of_toValue
  finish := checkShipUpdate defaults
  finish_objectMeta := by
    intro current replaced updated h
    simp only [checkShipUpdate, bind_eq_ok_iff] at h
    obtain ⟨-, -, -, -, -, -, -, -, h⟩ := h
    cases h
    rfl

end Ships

variable (T) in
def PutAddress.options (a : PutAddress) : Option ReplaceOptions :=
  match a.target with
  | .object => patchOptions (resourceKind T)
  | .status => some {}

variable (T) in
/-- The resource version of the client counts. -/
def PutAddress.honours (a : PutAddress) : Bool := (a.options T).any (·.useClientResourceVersion)

variable (T) in
/-- What a client does to an object it has got; it keeps the resource version. -/
structure Edit where
  apply : T → T
  keepsVersion : ∀ got : ContentData T,
    bodyVersion (apply got.applyRevision) = some (toString got.revision)

variable (T) in
/-- A user of the store.  `other` is any other use of it. -/
inductive PutClient
  | put (address : PutAddress) (body : T)
  /-- Get the object, change it and PUT it back. -/
  | update (address : PutAddress) (edit : Edit T)
  | other (handler : Handler T (Response T))

namespace PutClient

def address : PutClient T → Option PutAddress
  | .put a _ | .update a _ => some a
  | .other _ => none

def handler [DecidableEq T] (endpoint : PutEndpoint T) : PutClient T → Handler T (Response T)
  | .put a body => endpoint.handler a body
  | .update a edit => do
    let got ← getCurrent a.ns a.name
    endpoint.handler a (edit.apply got)
  | .other handler => handler

end PutClient

/-! ## What is known about a PUT -/

variable (T) in
/-- What is known about the requests of a client: the body it has sent, the version it got before,
the version the server has read, and the error of a put that has failed. -/
structure Sent where
  client : PutClient T
  body : Option T := none
  got : Option (ContentData T) := none
  read : Option (ContentData T) := none
  refused : Option StoreError := none

namespace Sent

/-- Before the first call. -/
def start : PutClient T → Sent T
  | .put a body => { client := .put a body, body := some body }
  | client => { client }

/-- The first object a client gets that is to be changed makes its body; the others are read by the
server. -/
def observe (g : Sent T) : (op : StoreOp T) → Except StoreError op.Result → Sent T
  | .get _ _, .ok (some current) =>
    match g.client, g.body with
    | .update _ edit, none =>
      { g with got := some current, body := some (edit.apply current.applyRevision) }
    | _, _ => { g with read := some current }
  | .put _, .error e => { g with refused := some e }
  | _, _ => g

def version (g : Sent T) : Option String := g.body.bind bodyVersion

/-- The resource version the object is put under: the client's where it counts, and otherwise the
one of the version the server has read. -/
def conditionalOn (g : Sent T) : Option String :=
  g.client.address.bind fun a =>
    if a.honours T then g.version else g.read.map fun current => toString current.revision

/-- `value` is what a PUT to `a` with the body makes of the version that was read. -/
def Puts (g : Sent T) (a : PutAddress) (value : T) : Prop :=
  ∃ current options patchMetadata, g.body.isSome ∧ g.read = some current ∧
    a.options T = some options ∧
    (options.useClientResourceVersion = true → clientResourceVersion patchMetadata = g.version) ∧
    ResourceUpdater.Enforced options patchMetadata current.applyRevision value ∧
    ResourceStore.keyOf current.data = ResourceStore.createKey T a.ns a.name

/-- The calls of a PUT: nothing follows a put that has failed, the object is got before a body is
made of it, and what is put is what the PUT computes. -/
def MayCall (g : Sent T) (op : StoreOp T) : Prop :=
  ∀ a, g.client.address = some a → g.refused = none ∧
    (g.body = none → op = .get a.ns a.name) ∧ ∀ value, op = .put value → g.Puts a value

/-- Objects are found under their own key. -/
def Finds (_ : Sent T) : (op : StoreOp T) → Except StoreError op.Result → Prop
  | .get ns name, .ok (some current) =>
    ResourceStore.keyOf current.data = ResourceStore.createKey T ns name
  | _, _ => True

/-- A put that fails is the end of a PUT. -/
def Ends (g : Sent T) (r : Except StatusResponse (Response T)) : Prop :=
  g.client.address.isSome → ∀ e, g.refused = some e → r = .error (.ofStoreError e)

def protocol : Protocol (StoreOp.interface T) (Sent T) where
  allowed := MayCall
  assumes := Finds
  observe := observe

lemma client_observe (g : Sent T) (op : StoreOp T) (r : Except StoreError op.Result) :
    (g.observe op r).client = g.client := by
  unfold observe
  split
  · split
    · rfl
    · rfl
  · rfl
  · rfl

lemma observe_get_of_body {g : Sent T} (hbody : g.body.isSome) (ns : Option String) (name : String)
    (current : ContentData T) :
    g.observe (.get ns name) (.ok (some current)) = { g with read := some current } := by
  unfold observe
  dsimp only
  split
  next hnone =>
    simp [hnone] at hbody
  · rfl

lemma refused_observe_get (g : Sent T) (ns : Option String) (name : String)
    (r : Except StoreError (Option (ContentData T))) :
    (g.observe (.get ns name) r).refused = g.refused := by
  rcases r with e | _ | current
  · rfl
  · rfl
  unfold observe
  dsimp only
  split <;> rfl

lemma ends_of_refused {g : Sent T} (hrefused : g.refused = none)
    (r : Except StatusResponse (Response T)) : g.Ends r := by
  intro _ e he
  cases hrefused.symm.trans he

end Sent

/-! ## What is put -/

variable {value : T}

lemma PutEndpoint.enforced_replaced {endpoint : PutEndpoint T} {name : String} {body : T}
    {options : ReplaceOptions} {current : ContentData T}
    (h : endpoint.replaced name body options current.applyRevision = .ok value) :
    ∃ patchMetadata, clientResourceVersion patchMetadata = bodyVersion body ∧
      Enforced options patchMetadata current.applyRevision value := by
  obtain ⟨-, -, h⟩ := bind_eq_ok_iff.1 h
  obtain ⟨updated, hupdated, hfinish⟩ := bind_eq_ok_iff.1 h
  refine ⟨bodyMetadata (endpoint.prepare body), ?_, ?_⟩
  · -- the replacement could be written as JSON
    simp only [applyReplacement, bind_eq_ok_iff] at hupdated
    obtain ⟨-, -, -, -, v, hv, -⟩ := hupdated
    have hvalue : toValue (endpoint.prepare body) = some v := jsonResult_eq_ok hv
    rw [bodyMetadata, hvalue]
    exact endpoint.version_of_toValue hvalue
  · rw [Enforced, endpoint.finish_objectMeta hfinish]
    exact enforced_applyReplacement current.objectMeta_applyRevision hupdated

/-! ## The programs of the clients -/

namespace Sent

variable {g : Sent T} {a : PutAddress}

/-- A check that only reads leaves everything known but what was read last. -/
lemma wp_of_readsOnly {α : Type} (hbody : g.body.isSome) (hrefused : g.refused = none)
    (p : Program (StoreOp.interface T) α) (h : p.wp (readsOnly T) () fun _ _ => True) :
    p.wp protocol g fun g' _ => ∃ read, g' = { g with read } := by
  -- in the induction the version read last changes
  have hread : ∀ read, p.wp protocol { g with read } fun g' _ => ∃ read, g' = { g with read } := by
    induction p with
    | done a => exact fun read => ⟨read, rfl⟩
    | call op next ih =>
      intro read
      obtain ⟨⟨ns, name, rfl⟩, hnext⟩ := h
      refine ⟨fun b hb => ⟨hrefused, fun hnone => ?_, fun value hvalue => ?_⟩, fun r _ => ?_⟩
      · simp [show g.body = none from hnone] at hbody
      · cases hvalue
      rcases r with e | _ | current
      · exact ih (.error e) (hnext (.error e) trivial) read
      · exact ih (.ok none) (hnext (.ok none) trivial) read
      show wp protocol (observe { g with read } (.get ns name) (.ok (some current))) _ _
      rw [observe_get_of_body (g := { g with read }) hbody]
      exact ih (.ok (some current)) (hnext (.ok (some current)) trivial) (some current)
  exact hread g.read

lemma wp_readModifyWrite [DecidableEq T] (haddress : g.client.address = some a)
    (hbody : g.body.isSome) (hrefused : g.refused = none) {options : ReplaceOptions}
    (hoptions : a.options T = some options) {update : T → Except StatusResponse T}
    (hupdate : ∀ (current : ContentData T) (value : T),
      update current.applyRevision = .ok value → ∃ patchMetadata,
        (options.useClientResourceVersion = true →
          clientResourceVersion patchMetadata = g.version) ∧
        Enforced options patchMetadata current.applyRevision value) :
    (readModifyWrite a.ns a.name update).run.wp protocol g Ends := by
  have hget : g.MayCall (.get a.ns a.name) := by
    intro b hb
    obtain rfl : a = b := Option.some.inj (haddress.symm.trans hb)
    exact ⟨hrefused, fun _ => rfl, fun value hvalue => by cases hvalue⟩
  rw [readModifyWrite, wp_run_bind]
  refine wp_getCurrent hget (fun current hfinds => ?_) fun r e => ?_
  · show wp protocol (g.observe (.get a.ns a.name) (.ok (some current))) _ _
    rw [observe_get_of_body hbody]
    simp only [wp_run_bind, Handler.wp_ofExcept]
    cases hvalue : update current.applyRevision with
    | error e => exact ends_of_refused hrefused _
    | ok value =>
      dsimp only
      unfold putIfChanged
      split
      · obtain ⟨patchMetadata, hversion, henforced⟩ := hupdate current value hvalue
        have hputs : Puts { g with read := some current } a value :=
          ⟨current, options, patchMetadata, hbody, rfl, hoptions, hversion, henforced, hfinds⟩
        rw [wp_run_bind]
        refine ⟨fun b hb => ?_, fun r _ => ?_⟩
        · obtain rfl : a = b := Option.some.inj (haddress.symm.trans hb)
          refine ⟨hrefused, fun hnone => ?_, fun value' hvalue' => ?_⟩
          · simp [show g.body = none from hnone] at hbody
          · cases hvalue'
            exact hputs
        · cases r with
          | error e =>
            intro _ e' he'
            cases he'
            rfl
          | ok data => exact ends_of_refused hrefused _
      · exact ends_of_refused hrefused _
  · refine ends_of_refused ?_ _
    rw [← hrefused]
    exact refused_observe_get g a.ns a.name r

lemma wp_handler [DecidableEq T] (endpoint : PutEndpoint T) (haddress : g.client.address = some a)
    {body : T} (hbody : g.body = some body) (hrefused : g.refused = none) :
    (endpoint.handler a body).run.wp protocol g Ends := by
  have hsome : g.body.isSome := by rw [hbody]; rfl
  unfold PutEndpoint.handler
  split
  next htarget =>
    have hoptions : a.options T = some {} := by rw [PutAddress.options, htarget]
    refine wp_readModifyWrite haddress hsome hrefused hoptions fun current value hvalue => ?_
    simp only [statusReplaced, bind_eq_ok_iff] at hvalue
    obtain ⟨bodyValue, -, updated, hupdated, -, -, hvalue⟩ := hvalue
    cases hvalue
    exact ⟨none, by simp, enforced_applyStatusUpdate current.objectMeta_applyRevision hupdated⟩
  next htarget =>
    split
    · exact ends_of_refused hrefused _
    rename_i options hkind
    have hoptions : a.options T = some options := by rw [PutAddress.options, htarget, ← hkind]
    rw [wp_run_bind]
    refine wp_mono (fun g' r hg => ?_) g _
      (wp_of_readsOnly hsome hrefused _ (endpoint.precheck_reads a.name body))
    obtain ⟨read, rfl⟩ := hg
    cases r with
    | error e => exact ends_of_refused hrefused _
    | ok _ =>
      refine wp_readModifyWrite (g := { g with read }) haddress hsome hrefused hoptions ?_
      intro current value hvalue
      obtain ⟨patchMetadata, hversion, henforced⟩ := PutEndpoint.enforced_replaced hvalue
      refine ⟨patchMetadata, fun _ => ?_, henforced⟩
      rw [hversion, version, hbody]
      rfl

lemma wp_of_address_eq_none :
    ∀ (p : Program (StoreOp.interface T) (Except StatusResponse (Response T))) (g : Sent T),
      g.client.address = none → p.wp protocol g Ends
  | .done r, g, h => fun hsome => by rw [h] at hsome; cases hsome
  | .call op next, g, h => by
    refine ⟨fun a ha => ?_, fun r _ => wp_of_address_eq_none (next r) _ ?_⟩
    · cases h.symm.trans ha
    · show (g.observe op r).client.address = none
      rw [g.client_observe op r, h]

lemma wp_client [DecidableEq T] (endpoint : PutEndpoint T) (client : PutClient T) :
    (client.handler endpoint).run.wp protocol (start client) Ends := by
  cases client with
  | put a body => exact wp_handler endpoint rfl rfl rfl
  | other handler => exact wp_of_address_eq_none _ _ rfl
  | update a edit =>
    have hget : (start (.update a edit)).MayCall (.get a.ns a.name) := by
      intro b hb
      cases hb
      exact ⟨rfl, fun _ => rfl, fun value hvalue => by cases hvalue⟩
    unfold PutClient.handler
    rw [wp_run_bind]
    refine wp_getCurrent hget (fun current _ => ?_) fun r e => ?_
    · exact wp_handler endpoint rfl rfl rfl
    · refine ends_of_refused ?_ _
      exact refused_observe_get (start (.update a edit)) a.ns a.name r

/-! ## What stays true of what was read -/

/-- What was got and what was read are versions of the past, and the body carries the resource
version of what was got. -/
structure Current (s : ResourceStore T) (g : Sent T) : Prop where
  read : ∀ current, g.read = some current → s.Past current
  got : ∀ got, g.got = some got → s.Past got
  body : g.body.isSome → g.client.address.isSome
  address : ∀ got, g.got = some got → ∃ a, g.client.address = some a ∧
    ResourceStore.keyOf got.data = ResourceStore.createKey T a.ns a.name
  version : ∀ got, g.got = some got → g.version = some (toString got.revision)

lemma current_start (s : ResourceStore T) (client : PutClient T) : (start client).Current s := by
  cases client with
  | put a body | update a edit => exact ⟨nofun, nofun, fun _ => rfl, nofun, nofun⟩
  | other handler => exact ⟨nofun, nofun, nofun, nofun, nofun⟩

variable {s : ResourceStore T}

lemma Current.exec (h : g.Current s) (access : Access) (op : StoreOp T) :
    g.Current (StoreOp.exec s access op).1 where
  read current hread := (h.read current hread).exec access op
  got got hgot := (h.got got hgot).exec access op
  body := h.body
  address := h.address
  version := h.version

lemma finds_exec (s : ResourceStore T) (g : Sent T) (access : Access) (op : StoreOp T) :
    g.Finds op (StoreOp.exec s access op).2 := by
  cases op with
  | put value | putIfNotExists value | delete ns name => trivial
  | get ns name =>
    cases hreply : (StoreOp.exec s access (.get ns name)).2 with
    | error e => trivial
    | ok found =>
      cases found with
      | none => trivial
      | some current =>
        obtain ⟨key, hkey, hkvs⟩ :=
          kvs_of_get (StoreOp.get_of_exec_get hreply)
        show keyOf current.data = createKey T ns name
        rw [hkey, s.keyed key current hkvs]

/-- What is read just now is a version of the past, and so is what is got just now. -/
lemma Current.observe_get (h : g.Current s) {ns : Option String} {name : String}
    (hcall : g.MayCall (.get ns name)) {current : ContentData T} (hpast : s.Past current)
    (hkey : keyOf current.data = createKey T ns name) :
    (g.observe (.get ns name) (.ok (some current))).Current s := by
  unfold observe
  dsimp only
  split
  · -- the client gets the object it is going to change
    rename_i a edit hclient hbody
    have haddress : g.client.address = some a := by rw [hclient]; rfl
    obtain ⟨rfl, rfl⟩ : ns = a.ns ∧ name = a.name := by
      have hop := (hcall a haddress).2.1 hbody
      cases hop
      exact ⟨rfl, rfl⟩
    refine ⟨h.read, fun got hgot => ?_, fun _ => ?_, fun got hgot => ?_, fun got hgot => ?_⟩
    · cases hgot
      exact hpast
    · rw [haddress]
      rfl
    · cases hgot
      exact ⟨a, haddress, hkey⟩
    · cases hgot
      exact edit.keepsVersion current
  · refine ⟨fun current' hread => ?_, h.got, h.body, h.address, h.version⟩
    cases hread
    exact hpast

lemma Current.observe (h : g.Current s) (access : Access) {op : StoreOp T} (hcall : g.MayCall op) :
    (g.observe op (StoreOp.exec s access op).2).Current (StoreOp.exec s access op).1 := by
  have hexec : g.Current (StoreOp.exec s access op).1 := h.exec access op
  cases op with
  | putIfNotExists value | delete ns name => exact hexec
  | put value =>
    cases (StoreOp.exec s access (.put value)).2 with
    | error e => exact ⟨hexec.read, hexec.got, hexec.body, hexec.address, hexec.version⟩
    | ok data => exact hexec
  | get ns name =>
    have hfinds := finds_exec s g access (.get ns name)
    cases hreply : (StoreOp.exec s access (.get ns name)).2 with
    | error e => exact hexec
    | ok found =>
      cases found with
      | none => exact hexec
      | some current =>
        rw [hreply] at hfinds
        refine hexec.observe_get hcall ?_ hfinds
        exact (past_of_get (StoreOp.get_of_exec_get hreply)).exec access _

variable {value : T}

lemma Puts.objectMeta {key : String} (h : g.Puts a value) (haddress : g.client.address = some a)
    (hkey : keyOf value = .ok key) :
    ∃ m, objectMeta value = some m ∧ m.resourceVersion = g.conditionalOn := by
  obtain ⟨current, options, patchMetadata, -, hread, hoptions, hversion, henforced, -⟩ := h
  rcases henforced with hnone | ⟨contentChanged, c, u, hc, hm⟩
  · obtain ⟨m, name, hm, -⟩ := keyOf_eq_ok hkey
    cases hnone.symm.trans hm
  · refine ⟨_, hm, ?_⟩
    cases current.objectMeta_applyRevision.symm.trans hc
    have hhonours : a.honours T = options.useClientResourceVersion := by
      rw [PutAddress.honours, hoptions]
      rfl
    simp only [conditionalOn, haddress, Option.bind_some, hhonours, hread, Option.map_some,
      enforcedMeta]
    split
    next hclient =>
      exact hversion hclient
    · rfl

lemma Puts.conditionalOn_eq_some (h : g.Puts a value) (haddress : g.client.address = some a)
    (hversion : g.version.isSome) :
    ∃ rv, g.conditionalOn = some rv := by
  obtain ⟨current, -, -, -, hread, -⟩ := h
  rw [conditionalOn, haddress, Option.bind_some]
  split
  · exact Option.isSome_iff_exists.1 hversion
  · exact ⟨toString current.revision, by rw [hread]; rfl⟩

lemma Puts.createKey_eq {key : String} (h : g.Puts a value)
    (hkey : keyOf value = .ok key) :
    createKey T a.ns a.name = .ok key := by
  obtain ⟨current, options, patchMetadata, -, -, -, -, henforced, hfound⟩ := h
  rcases henforced with hnone | ⟨contentChanged, c, u, hc, hm⟩
  · obtain ⟨m, name, hm, -⟩ := keyOf_eq_ok hkey
    cases hnone.symm.trans hm
  · cases current.objectMeta_applyRevision.symm.trans hc
    rw [← hfound]
    exact keyOf_data_of_objectMeta hm rfl rfl hkey

end Sent

/-! ## The system -/

section System

variable {κ : Type} [DecidableEq κ]

abbrev PutServing (κ T : Type) [Resource T] : Type :=
  Config (StoreOp.interface T) κ (ResourceStore T) (Sent T) (Except StatusResponse (Response T))

namespace PutServing

/-- No client has made a call yet. -/
def start [DecidableEq T] (endpoint : PutEndpoint T) (store : ResourceStore T)
    (clients : κ → PutClient T) : PutServing κ T where
  world := store
  thread k := ((clients k).handler endpoint).run
  seen k := Sent.start (clients k)

/-- One store call of one client. -/
def step (c : PutServing κ T) (e : Event κ Access Empty) : PutServing κ T :=
  Config.step StoreOp.exec (fun s _ => s) Sent.protocol c e

/-- The version client `k` is about to put an object in the place of, with its key. -/
def replaces (c : PutServing κ T) (k : κ) : Option (String × ContentData T) :=
  match c.thread k with
  | .call (.put value) _ =>
    (ResourceStore.keyOf value).toOption.bind fun key =>
      (c.world.kvs key).map fun stored => (key, stored)
  | _ => none

/-- The key client `k` is about to put an object under, if it is going to be told that the put
succeeded. -/
def succeeds (c : PutServing κ T) (k : κ) (access : Access) : Option String :=
  match c.thread k with
  | .call (.put value) _ =>
    if (StoreOp.exec c.world access (.put value)).2.isOk then
      (ResourceStore.keyOf value).toOption
    else none
  | _ => none

/-- Client `k` was answered with a conflict. -/
def conflicted (c : PutServing κ T) (k : κ) : Bool :=
  match c.thread k with
  | .done (.error response) => response.code = 409
  | _ => false

/-- A put of an object whose body carries another resource version than the stored revision, on
an answering store. -/
def Stale (c : PutServing κ T) (k : κ) (access : Access) (stored : ContentData T) : Prop :=
  access = .answered ∧
    ∃ rv ∈ (c.seen k).version, Decimal.parseInt64 rv ≠ some (stored.revision : Int)
  deriving Decidable

/-- Such a put is answered with a conflict, and the stored object stays. -/
def Conflicts (c : PutServing κ T) : Event κ Access Empty → Prop
  | .call k access => ∀ p ∈ c.replaces k, c.Stale k access p.2 →
      (c.step (.call k access)).conflicted k = true ∧
        (c.step (.call k access)).world.kvs p.1 = some p.2

/-- A client that sends back what it got and is told that the put succeeded has replaced the very
version it got. -/
def ReplacesGot (c : PutServing κ T) : Event κ Access Empty → Prop
  | .call k access => ∀ got ∈ (c.seen k).got, ∀ key ∈ c.succeeds k access,
      c.world.kvs key = some got

/-- The condition on a step: a put whose body carries another resource version is made under a
number that is not the stored revision. -/
def ConditionalElsewhere (c : PutServing κ T) : Event κ Access Empty → Prop
  | .call k access => ∀ p ∈ c.replaces k, c.Stale k access p.2 →
      ∃ n ∈ (c.seen k).conditionalOn.bind Decimal.parseInt64, n ≠ (p.2.revision : Int)

instance [DecidableEq T] (c : PutServing κ T) : ∀ e, Decidable (c.Conflicts e)
  | .call _ _ => inferInstanceAs (Decidable (∀ p ∈ _, _ → _ ∧ _))

instance [DecidableEq T] (c : PutServing κ T) : ∀ e, Decidable (c.ReplacesGot e)
  | .call _ _ => inferInstanceAs (Decidable (∀ got ∈ _, ∀ key ∈ _, _))

/-- The invariant: every client keeps to the protocol, and what it has read is a version of the
past. -/
def Inv (c : PutServing κ T) : Prop :=
  c.KeepsTo Sent.protocol (fun s g => g.Current s) Sent.Ends

omit [DecidableEq κ] in
lemma inv_start [DecidableEq T] (endpoint : PutEndpoint T) (store : ResourceStore T)
    (clients : κ → PutClient T) : (start endpoint store clients).Inv :=
  fun k => ⟨Sent.current_start store (clients k), Sent.wp_client endpoint (clients k)⟩

variable {c : PutServing κ T}

lemma inv_step (h : c.Inv) (e : Event κ Access Empty) : (c.step e).Inv := by
  refine Config.KeepsTo.step h e (fun k access op next he hk hcall => ?_) fun x => x.elim
  refine ⟨Sent.finds_exec c.world (c.seen k) access op, (h k).1.observe access hcall, ?_⟩
  exact fun j _ => (h j).1.exec access op

/-! ## What becomes of a put -/

variable {k : κ}

omit [DecidableEq κ] in
lemma of_mem_replaces {p : String × ContentData T} (h : p ∈ c.replaces k) :
    ∃ value next, c.thread k = .call (.put value) next ∧
      keyOf value = .ok p.1 ∧ c.world.kvs p.1 = some p.2 := by
  unfold replaces at h
  split at h
  next value next hk =>
    obtain ⟨key, hkey, h⟩ := Option.bind_eq_some_iff.1 h
    obtain ⟨stored, hstored, rfl⟩ := Option.map_eq_some_iff.1 h
    exact ⟨value, next, hk, toOption_eq_some_iff.1 hkey, hstored⟩
  · cases h

variable {access : Access}
  {next : Except StoreError (ContentData T) →
    Program (StoreOp.interface T) (Except StatusResponse (Response T))}

lemma thread_step_of_refused (h : c.Inv) {value : T} (hk : c.thread k = .call (.put value) next)
    (haddress : (c.seen k).client.address.isSome)
    {e : StoreError} (hreply : (StoreOp.exec c.world access (.put value)).2 = .error e) :
    (c.step (.call k access)).thread k = .done (.error (.ofStoreError e)) := by
  have hseen : (c.step (.call k access)).seen k = { c.seen k with refused := some e } := by
    rw [step, Config.step_call_of_call access hk]
    simp only [Config.advance, Function.update_self, hreply]
    rfl
  have hwp := (inv_step h (.call k access) k).2
  rw [hseen] at hwp
  cases hthread : (c.step (.call k access)).thread k with
  | done r =>
    rw [hthread] at hwp
    rw [hwp haddress e rfl]
  | call op next' =>
    -- no call is made after the failure
    rw [hthread] at hwp
    obtain ⟨a, ha⟩ := Option.isSome_iff_exists.1 haddress
    cases (hwp.1 a ha).1

lemma world_step {value : T} (hk : c.thread k = .call (.put value) next) :
    (c.step (.call k access)).world = (StoreOp.exec c.world access (.put value)).1 := by
  rw [step, Config.step_call_of_call access hk]
  rfl

/-- **A PUT fails with a conflict exactly if its put is made under a number that is not the stored
revision.** -/
lemma conflicted_iff (h : c.Inv) {p : String × ContentData T} (hp : p ∈ c.replaces k)
    (hbody : (c.seen k).version.isSome) : (c.step (.call k .answered)).conflicted k = true ∧
        (c.step (.call k .answered)).world.kvs p.1 = some p.2 ↔
      ∃ n ∈ (c.seen k).conditionalOn.bind Decimal.parseInt64, n ≠ (p.2.revision : Int) := by
  obtain ⟨key, stored⟩ := p
  obtain ⟨value, next, hk, hkey, hkvs⟩ := of_mem_replaces hp
  dsimp only at hkey hkvs ⊢
  have haddress : (c.seen k).client.address.isSome := by
    refine (h k).1.body ?_
    cases hnone : (c.seen k).body with
    | none =>
      simp [Sent.version, hnone] at hbody
    | some body => rfl
  obtain ⟨a, ha⟩ := Option.isSome_iff_exists.1 haddress
  have hputs : (c.seen k).Puts a value := (Config.KeepsTo.allowed h hk a ha).2.2 value rfl
  obtain ⟨m, hm, hversion⟩ := hputs.objectMeta ha hkey
  obtain ⟨rv, hrv⟩ := hputs.conditionalOn_eq_some ha hbody
  have hrevision : (c.world.modRevision key : Int) = stored.revision := by
    rw [modRevision, hkvs]
    rfl
  rw [hrv] at hversion
  rw [hrv, Option.bind_some, world_step hk]
  cases hn : Decimal.parseInt64 rv with
  | none =>
    -- the put is refused, but as invalid
    have hput := c.world.put_of_invalid hm hversion hkey hn
    have hreply : (StoreOp.exec c.world .answered (.put value)).2 = _ := congrArg Prod.snd hput
    have hthread := thread_step_of_refused h hk haddress hreply
    refine iff_of_false (fun hconflict => ?_) ?_
    · simp [conflicted, hthread, StatusResponse.ofStoreError, StatusResponse.badRequest]
        at hconflict
    · rintro ⟨n, hmem, -⟩
      cases hmem
  | some n =>
    by_cases hne : n = (stored.revision : Int)
    · -- the put succeeds, at a new revision
      have hput := c.world.put_of_match hm hversion hkey hn (hrevision.trans hne.symm)
      refine iff_of_false (fun hconflict => ?_) ?_
      · have hsame := Option.some.inj (hput.2.symm.trans hconflict.2)
        have hrevision' : c.world.revision + 1 = stored.revision :=
          congrArg ContentData.revision hsame
        have hrange := c.world.revision_range key stored hkvs
        omega
      · rintro ⟨n', hmem, hne'⟩
        cases hmem
        exact hne' hne
    · have hput := c.world.put_of_conflict hm hversion hkey hn fun heq => hne (by omega)
      have hreply : (StoreOp.exec c.world .answered (.put value)).2 = _ := congrArg Prod.snd hput
      have hthread := thread_step_of_refused h hk haddress hreply
      refine iff_of_true ⟨?_, ?_⟩ ⟨n, rfl, hne⟩
      · simp [conflicted, hthread, StatusResponse.ofStoreError, StatusResponse.conflict]
      show (c.world.put value).1.kvs key = some stored
      rw [hput]
      exact hkvs

lemma conflicts_iff (h : c.Inv) (e : Event κ Access Empty) :
    c.Conflicts e ↔ c.ConditionalElsewhere e := by
  obtain ⟨k, access⟩ | ⟨⟨⟩⟩ := e
  refine forall₂_congr fun p hp => forall_congr' fun hstale => ?_
  obtain ⟨rfl, rv, hrv, -⟩ := hstale
  refine conflicted_iff h hp ?_
  rw [Option.mem_def.1 hrv]
  rfl

omit [DecidableEq κ] in
lemma of_mem_succeeds {key : String} (h : key ∈ c.succeeds k access) :
    ∃ value next data, c.thread k = .call (.put value) next ∧ keyOf value = .ok key ∧
      (StoreOp.exec c.world access (.put value)).2 = .ok data := by
  unfold succeeds at h
  split at h
  next value next hk =>
    obtain ⟨hok, hkey⟩ := Option.ite_none_right_eq_some.1 h
    cases hreply : (StoreOp.exec c.world access (.put value)).2 with
    | error e =>
      rw [hreply] at hok
      cases hok
    | ok data => exact ⟨value, next, data, hk, toOption_eq_some_iff.1 hkey, hreply⟩
  · cases h

omit [DecidableEq κ] in
/-- A client that sends back what it got replaces no other version, where stale puts fail. -/
lemma replacesGot_of_conditionalElsewhere (h : c.Inv) {e : Event κ Access Empty}
    (hcond : c.ConditionalElsewhere e) : c.ReplacesGot e := by
  obtain ⟨k, access⟩ | ⟨⟨⟩⟩ := e
  intro got hgot key hsucceeds
  have hcurrent : (c.seen k).Current c.world := (h k).1
  obtain ⟨value, next, data, hk, hkey, hreply⟩ := of_mem_succeeds hsucceeds
  obtain ⟨a, ha, hgotKey⟩ := hcurrent.address got hgot
  have hversion := hcurrent.version got hgot
  have hputs : (c.seen k).Puts a value := (Config.KeepsTo.allowed h hk a ha).2.2 value rfl
  obtain ⟨m, hm, hrv⟩ := hputs.objectMeta ha hkey
  obtain ⟨rv, hconditional⟩ := hputs.conditionalOn_eq_some ha (by rw [hversion]; rfl)
  obtain ⟨rfl, hfound⟩ := StoreOp.parseInt64_of_exec_put hm (hrv.trans hconditional) hkey hreply
  -- what a client sends back is put under the revision of a version of the past
  obtain ⟨revision, hpos, rfl⟩ : ∃ revision, 0 < revision ∧ rv = toString revision := by
    rw [Sent.conditionalOn, ha, Option.bind_some] at hconditional
    split at hconditional
    · rw [hversion] at hconditional
      cases hconditional
      exact ⟨got.revision, (hcurrent.got got hgot).1.1, rfl⟩
    · obtain ⟨current, hread, rfl⟩ := Option.map_eq_some_iff.1 hconditional
      exact ⟨current.revision, (hcurrent.read current hread).1.1, rfl⟩
  have hmod : (c.world.modRevision key : Int) = revision :=
    Decimal.eq_of_parseInt64_toString hfound
  cases hkvs : c.world.kvs key with
  | none =>
    -- the put is made under a revision that is not zero, so there is something to replace
    simp only [modRevision, hkvs, Option.map_none, Option.getD_none] at hmod
    omega
  | some stored =>
    have hstored : (stored.revision : Int) = revision := by
      rw [← hmod, modRevision, hkvs]
      rfl
    have hp : (key, stored) ∈ c.replaces k := by
      simp only [replaces, hk, hkey, Except.toOption, Option.bind_some, hkvs, Option.map_some]
      rfl
    -- what is got has the stored revision: otherwise the put would have been stale, and made
    -- under another number
    have hrevision : stored.revision = got.revision := by
      by_contra hne
      have hstale : c.Stale k .answered stored := by
        refine ⟨rfl, toString got.revision, hversion, fun hparse => hne ?_⟩
        have := Decimal.eq_of_parseInt64_toString hparse
        omega
      obtain ⟨n, hn, hother⟩ := hcond (key, stored) hp hstale
      rw [hconditional, Option.bind_some, hfound] at hn
      cases hn
      exact hother (hmod.trans hstored.symm)
    rw [(hcurrent.got got hgot).2 key (hgotKey.trans (hputs.createKey_eq hkey)) stored hkvs
      hrevision]

/-- **Optimistic concurrency.**  For every kind and in every interleaving of clients over any store:
each PUT of an object or a status whose body carries another resource version than the stored
revision fails with a conflict and changes nothing, and each client that sends back what it got
replaces only that version, exactly if each such put is made under a number that is not the stored
revision, be it the client's or the one the server has read. -/
theorem optimistic_iff [DecidableEq T] (endpoint : PutEndpoint T) (store : ResourceStore T)
    (clients : κ → PutClient T) (events : List (Event κ Access Empty)) :
    Run.AllSteps step (fun c e => c.Conflicts e ∧ c.ReplacesGot e) (start endpoint store clients)
        events ↔
      Run.AllSteps step ConditionalElsewhere (start endpoint store clients) events := by
  constructor
  · refine Run.AllSteps.of_invariant (I := Inv) (fun c e hI _ => inv_step hI e) ?_ _ events
      (inv_start endpoint store clients)
    exact fun c e hI hgood => (conflicts_iff hI e).1 hgood.1
  · refine Run.AllSteps.of_invariant (I := Inv) (fun c e hI _ => inv_step hI e) ?_ _ events
      (inv_start endpoint store clients)
    exact fun c e hI hcond =>
      ⟨(conflicts_iff hI e).2 hcond, replacesGot_of_conditionalElsewhere hI hcond⟩

end PutServing

end System

end Requests

/-! ## Two status reports -/

namespace StatusReports

open Fixture PutServing

/-- A Ship, as it is when it has just been created. -/
def ship : Ship where
  typeMeta := some { apiVersion := some "v1", kind := some "Ship" }
  objectMeta := some {
    name := some "vm", «namespace» := some "default", uid := some "uid-1"
    generation := some 1, creationTimestamp := some ⟨1700000000, 0⟩ }
  spec := some {}

/-- A store that holds it, at revision 1. -/
def stored : ResourceStore Ship := (ResourceStore.empty.putIfNotExists ship).1

/-- A client reports a condition in the status it has got. -/
def report (condition : String) : Edit Ship where
  apply ship :=
    let status := ship.status.getD {}
    { ship with status := some { status with
      conditions := status.conditions ++ [{ status := condition, message := "" }] } }
  keepsVersion := bodyVersion_applyRevision

def clients : Bool → PutClient Ship
  | false => .update ⟨.status, some "default", "vm"⟩ (report "Attached")
  | true => .update ⟨.status, some "default", "vm"⟩ (report "Booted")

/-- Both get the Ship; then one PUT is handled after the other. -/
def bothGot : List (Event Bool Access Empty) :=
  [.call true .answered, .call false .answered, .call false .answered, .call false .answered,
    .call true .answered, .call true .answered]

def beforeReports : PutServing Bool Ship := start (.ship (.ok ())) stored clients

/-- The PUT of a client has succeeded. -/
def updated (c : PutServing Bool Ship) (k : Bool) : Bool :=
  match c.thread k with
  | .done (.ok (.updated _)) => true
  | _ => false

end StatusReports

open Fixture StatusReports in
/-- Both clients have got revision 1 and send it back, and both PUTs of the status succeed: the
second replaces revision 2, which its client has not seen, and the report of the first is lost. -/
theorem PutServing.stale_status_put_succeeds :
    let final := Run.exec step beforeReports bothGot
    updated final false = true ∧ updated final true = true ∧
      ((final.world.kvs "/tugboat/registry/core/ships/default/vm").bind (·.data.status)).map
        (·.conditions.map (·.status)) = some ["Booted"] ∧
      ¬ Run.AllSteps step (fun c e => c.Conflicts e ∧ c.ReplacesGot e) beforeReports bothGot := by
  decide +kernel

end Tugboat
