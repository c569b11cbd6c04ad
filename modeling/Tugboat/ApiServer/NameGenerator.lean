import Tugboat.ApiServer.ResourceHandlers
import Tugboat.Resources.ConfigMap

/-!
# Generated names

An object without a name gets one that is generated from a base: the base and five random letters
and digits.  The base is checked, the name is not.  The generator also draws capital letters, which
no name may have.  The object is stored all the same, and the name it is stored under is valid just
when none was drawn (`createObject_generated`).
-/

namespace Tugboat.NameGenerator

open Resource ResourceStore

/-- What the generator draws from. -/
def isAlphanumeric (c : Char) : Bool := NameValidator.isAlnum c || ('A' ≤ c && c ≤ 'Z')

/-- Five characters that the generator may draw. -/
structure Sample where
  chars : List Char
  length_chars : chars.length = 5
  alphanumeric : ∀ c ∈ chars, isAlphanumeric c = true

def generate (nameBase : String) (sample : Sample) : String :=
  nameBase ++ String.ofList sample.chars

/-- Metadata with a valid base and no name. -/
structure Unnamed where
  objectMeta : ObjectMeta
  base : String
  name : objectMeta.name = none
  generateName : objectMeta.generateName = some base
  valid : NameValidator.validate (some objectMeta) = true

/-- A name made from a valid base is valid if what is added to it could stand in a name. -/
lemma isValidName_generate {base : String} (hbase : NameValidator.isValidGenerateName base = true)
    (sample : Sample) : NameValidator.isValidName (generate base sample) = true ↔
      ∀ c ∈ sample.chars, NameValidator.isAlnum c = true := by
  obtain ⟨chars, hlength, halphanumeric⟩ := sample
  have hlist : (base ++ String.ofList chars).toList = base.toList ++ chars := by simp
  simp only [NameValidator.isValidGenerateName, NameValidator.isValidName, generate, hlist,
    Bool.and_eq_true, decide_eq_true_eq, List.all_eq_true, List.length_append] at hbase ⊢
  obtain ⟨⟨hshort, hall⟩, hhead⟩ := hbase
  constructor
  · rintro ⟨⟨⟨-, hall⟩, -⟩, -⟩ c hc
    rcases Bool.or_eq_true_iff.1 (hall c (List.mem_append_right _ hc)) with halnum | hhyphen
    · exact halnum
    · rw [beq_iff_eq.1 hhyphen] at hc
      cases halphanumeric _ hc
  · intro halnum
    refine ⟨⟨⟨by omega, fun c hc => ?_⟩, ?_⟩, ?_⟩
    · rcases List.mem_append.1 hc with hc | hc
      · exact hall c hc
      · simp [halnum c hc]
    · rw [List.head?_append]
      cases hfirst : base.toList.head? with
      | none => simp [hfirst] at hhead
      | some c => simpa [hfirst] using hhead
    · rw [List.getLast?_append]
      cases hlast : chars.getLast? with
      | none => simp [List.getLast?_eq_none_iff.1 hlast] at hlength
      | some c => simpa using halnum c (List.mem_of_getLast? hlast)

/-! ## Creating under a generated name -/

section Create

variable {T : Type} [Resource T] {s : ResourceStore T} {access : Access} {value : T}

/-- The key of the object is taken. -/
def Taken (s : ResourceStore T) (value : T) : Prop :=
  ∃ key, keyOf value = .ok key ∧ (s.kvs key).isSome = true

/-- What a creation does: the object is stored now, or was there before. -/
def PutFound (s s' : ResourceStore T) (value : T) : Option (ContentData T) → Prop
  | some stored => stored.data = value ∧ ∃ key, s'.kvs key = some stored
  | none => s' = s ∧ Taken s value

lemma putFound_exec {found : Option (ContentData T)}
    (h : (StoreOp.exec s access (.putIfNotExists value)).2 = .ok found) :
    PutFound s (StoreOp.exec s access (.putIfNotExists value)).1 value found := by
  have happly : ∀ found, (s.putIfNotExists value).2 = .ok found →
      PutFound s (s.putIfNotExists value).1 value found := by
    unfold ResourceStore.putIfNotExists
    split
    · exact fun _ h => nomatch h
    next key hkey =>
      split
      next htaken =>
        rintro _ ⟨⟩
        exact ⟨rfl, key, hkey, htaken⟩
      · rintro _ ⟨⟩
        exact ⟨rfl, key, Function.update_self ..⟩
  cases access with
  | unreachable | replyLost => cases h
  | answered => exact happly found h

/-- The object under a name. -/
abbrev candidate (object : T) (m : ObjectMeta) (name : String) : T :=
  setObjectMeta (some { m with name := some name }) object

/-- What comes of trying names one after the other. -/
def Tried (object : T) (m : ObjectMeta) (names : List String) (s s' : ResourceStore T) :
    Except StatusResponse (Response T) → Prop
  | .ok response => ∃ name ∈ names, ∃ key stored, response = .created stored.applyRevision ∧
      s'.kvs key = some stored ∧ stored.data = candidate object m name
  | .error e => (∃ e', e = .ofStoreError e') ∨
      e = .conflict "Generate name failed" ∧ ∀ name ∈ names, Taken s (candidate object m name)

lemma Tried.cons {object : T} {m : ObjectMeta} {name : String} {names : List String}
    {s s' : ResourceStore T} {result : Except StatusResponse (Response T)}
    (h : Tried object m names s s' result) (htaken : Taken s (candidate object m name)) :
    Tried object m (name :: names) s s' result := by
  cases result with
  | ok response =>
    obtain ⟨name', hname, hrest⟩ := h
    exact ⟨name', List.mem_cons_of_mem _ hname, hrest⟩
  | error e =>
    exact h.imp_right (And.imp_right fun hnames => List.forall_mem_cons.2 ⟨htaken, hnames⟩)

lemma tried_createGenerated (object : T) (m : ObjectMeta) (names : List String)
    (choice : ℕ → Access) (s : ResourceStore T) :
    Tried object m names s
      (Program.run StoreOp.exec (createGenerated object m names).run choice s).1
      (Program.run StoreOp.exec (createGenerated object m names).run choice s).2 := by
  induction names generalizing choice with
  | nil => exact .inr ⟨rfl, by simp⟩
  | cons name names ih =>
    have hstore : Program.run StoreOp.exec
        (Handler.store (.putIfNotExists (candidate object m name))).run choice s =
        ((StoreOp.exec s (choice 0) (.putIfNotExists (candidate object m name))).1,
          (StoreOp.exec s (choice 0) (.putIfNotExists (candidate object m name))).2.mapError
            StatusResponse.ofStoreError) := rfl
    rw [createGenerated]
    cases hreply : (StoreOp.exec s (choice 0) (.putIfNotExists (candidate object m name))).2 with
    | error e =>
      rw [Program.run_block_of_error (e := .ofStoreError e)]
      · exact .inl ⟨e, rfl⟩
      · rw [hstore, hreply]
        rfl
    | ok found =>
      rw [Program.run_block_of_ok (a := found)]
      · have hput := putFound_exec hreply
        cases found with
        | some stored =>
          obtain ⟨hdata, key, hkey⟩ := hput
          exact ⟨name, List.mem_cons_self, key, stored, rfl, hkey, hdata⟩
        | none =>
          -- the name is taken, and the next ones are tried on the same store
          have hworld : (Program.run StoreOp.exec
              (Handler.store (.putIfNotExists (candidate object m name))).run choice s).1 = s := by
            rw [hstore]
            exact hput.1
          rw [hworld]
          exact (ih _).cons hput.2
      · rw [hstore, hreply]
        rfl

end Create

/-- **A generated name** is the base and what was drawn.  The object is stored under it, and it is
valid just when no capital letter was drawn.  If nothing is stored then a call of the store has
failed, or all names that were drawn are taken. -/
theorem createObject_generated {T : Type} [Resource T] [DecidableEq T] (object : T) (m : Unnamed)
    (uid : String) (now : Time) (samples : Fin 5 → Sample) (choice : ℕ → Access)
    (s : ResourceStore T) :
    let named := fun i => { m.objectMeta with
      uid := some uid, creationTimestamp := some now, generation := some 1, resourceVersion := none
      name := some (m.base ++ String.ofList (samples i).chars) }
    let out := Program.run StoreOp.exec (createObject object m.objectMeta uid now fun i =>
      String.ofList (samples i).chars).run choice s
    match out.2 with
    | .ok response => ∃ i key stored, response = .created stored.applyRevision ∧
        out.1.kvs key = some stored ∧ objectMeta stored.data = some (named i) ∧
        (NameValidator.validate (objectMeta stored.data) = true ↔
          ∀ c ∈ (samples i).chars, NameValidator.isAlnum c = true)
    | .error e => (∃ e', e = .ofStoreError e') ∨ e = .conflict "Generate name failed" ∧
        ∀ i, Taken s (setObjectMeta (some (named i)) (setTypeMeta (typeMeta T) object)) := by
  intro named out
  have hbase : NameValidator.isValidGenerateName m.base = true := by
    simpa [NameValidator.validate, m.name, m.generateName] using m.valid
  let identified : ObjectMeta := { m.objectMeta with
    uid := some uid, creationTimestamp := some now, generation := some 1, resourceVersion := none }
  let names := (List.ofFn fun i => String.ofList (samples i).chars).map fun x => m.base ++ x
  have hrun := tried_createGenerated (setTypeMeta (typeMeta T) object) identified names choice s
  have hout : out = Program.run StoreOp.exec
      (createGenerated (setTypeMeta (typeMeta T) object) identified names).run choice s := by
    simp only [out, identified, names, createObject, m.name, m.generateName]
  rw [← hout] at hrun
  cases hresult : out.2 with
  | ok response =>
    rw [hresult] at hrun
    obtain ⟨name, hname, key, stored, hresponse, hkey, hdata⟩ := hrun
    simp only [names, List.mem_map, List.mem_ofFn] at hname
    obtain ⟨_, ⟨i, rfl⟩, rfl⟩ := hname
    have hmeta : objectMeta stored.data = some (named i) := by
      rw [hdata, objectMeta_setObjectMeta]
    refine ⟨i, key, stored, hresponse, hkey, hmeta, ?_⟩
    rw [hmeta]
    exact isValidName_generate hbase (samples i)
  | error e =>
    rw [hresult] at hrun
    refine hrun.imp_right (And.imp_right fun htaken i => ?_)
    exact htaken _ (List.mem_map_of_mem (List.mem_ofFn.mpr ⟨i, rfl⟩))

/-! ## A capital letter -/

def capital : Sample := ⟨['K', 'a', 'b', 'c', 'd'], rfl, List.all_eq_true.1 (by decide)⟩

def lower : Sample := ⟨['k', 'a', 'b', 'c', 'd'], rfl, List.all_eq_true.1 (by decide)⟩

/-- The base `web-`. -/
def webBase : Unnamed where
  objectMeta := { generateName := some "web-", «namespace» := some "default" }
  base := "web-"
  name := rfl
  generateName := rfl
  valid := by decide

open Fixture

/-- A config map is created under the base, in an empty store. -/
def createWeb (sample : Sample) :
    ResourceStore ConfigMap × Except StatusResponse (Response ConfigMap) :=
  Program.run StoreOp.exec (createObject ({} : ConfigMap) webBase.objectMeta "uid-1"
    ⟨1700000000, 0⟩ fun _ => String.ofList sample.chars).run (fun _ => .answered)
    ResourceStore.empty

/-- The name of the object that is stored under the key of `name`. -/
def storedName (name : String)
    (out : ResourceStore ConfigMap × Except StatusResponse (Response ConfigMap)) : Option String :=
  (out.1.kvs ("/tugboat/registry/core/configmaps/default/" ++ name)).bind
    fun stored => Resource.name stored.data

theorem createObject_lower : ∃ key stored,
    (createWeb lower).2 = .ok (.created stored.applyRevision) ∧
      (createWeb lower).1.kvs key = some stored ∧
      NameValidator.validate (objectMeta stored.data) = true := by
  have h := createObject_generated ({} : ConfigMap) webBase "uid-1" ⟨1700000000, 0⟩
    (fun _ => lower) (fun _ => .answered) ResourceStore.empty
  have hok : (createWeb lower).2.isOk = true := by decide
  dsimp only at h
  split at h
  next response hresult =>
    obtain ⟨-, key, stored, rfl, hkey, -, hvalid⟩ := h
    exact ⟨key, stored, hresult, hkey, hvalid.2 (List.all_eq_true.1 (by decide))⟩
  next e hresult =>
    rw [createWeb, hresult] at hok
    cases hok

/-- The base is accepted, and the object is stored under a name that no object may ask for. -/
theorem createObject_capital :
    NameValidator.validate (some webBase.objectMeta) = true ∧
      storedName "web-Kabcd" (createWeb capital) = some "web-Kabcd" ∧
      NameValidator.isValidName "web-Kabcd" = false := by
  decide

end Tugboat.NameGenerator
