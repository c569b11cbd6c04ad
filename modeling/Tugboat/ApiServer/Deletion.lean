import Mathlib.Data.Fintype.Basic
import Tugboat.ApiServer.ObjectUpdates

/-!
# Deletion and finalizers

DELETE looks at the finalizers of the object it reads and, if there are none, removes the key with
a second, unconditional store call.  This file runs any number of DELETEs and writers side by side
and asks what is stored when a key is removed.

A request that has passed the check and not yet made its removal is *pending*.  While a removal
is pending nothing stops a writer from storing an object with finalizers under the same key, and
the removal then takes that object away; where no step does this, every object a DELETE removes
has no finalizers.
-/

namespace Tugboat

open Json Resource Program StoreOp

variable {T : Type} [Resource T]

/-! ## Requests -/

def neverRemoves (T : Type) [Resource T] : Protocol (StoreOp.interface T) Unit where
  allowed _ op := op.removes = none
  assumes _ _ _ := True
  observe _ _ _ := ()

/-- A request that creates or changes objects but never removes a key. -/
structure Writer (T : Type) [Resource T] where
  handler : Handler T (Response T)
  removesNothing : handler.run.wp (neverRemoves T) () fun _ _ => True

namespace Writer

variable [DecidableEq T]

lemma removesNothing_update (ns : Option String) (name : String)
    (update : T → Except StatusResponse T) :
    (readModifyWrite ns name update).run.wp (neverRemoves T) () fun _ _ => True :=
  wp_readModifyWrite rfl fun _ _ _ _ => rfl

/-- `patch_resource_with_validation`. -/
def patch (ns : Option String) (name : String) (body : Map) (options : ReplaceOptions)
    (check : T → Except StatusResponse Unit) : Writer T where
  handler := patchResourceWithValidation ns name body options check
  removesNothing := by
    rw [patchResourceWithValidation, wp_run_bind, Handler.wp_ofExcept]
    split
    · exact removesNothing_update ns name _
    · trivial

def replace (ns : Option String) (name : String) (body : T) (options : ReplaceOptions) :
    Writer T where
  handler := replaceResource ns name body options
  removesNothing := removesNothing_update ns name _

/-- `status_patch_resource`. -/
def statusPatch (ns : Option String) (name : String) (body : Map) : Writer T where
  handler := statusPatchResource ns name body
  removesNothing := by
    unfold statusPatchResource
    split
    · trivial
    · exact removesNothing_update ns name _

/-- `status_replace_resource`. -/
def statusReplace (ns : Option String) (name : String) (body : T) : Writer T where
  handler := statusReplaceResource ns name body
  removesNothing := removesNothing_update ns name _

omit [DecidableEq T] in
/-- `create_object!`. -/
def create (object : T) (objectMeta : ObjectMeta) (uid : String) (now : Time)
    (suffixes : Fin 5 → String) : Writer T where
  handler := createObject object objectMeta uid now suffixes
  removesNothing := wp_createObject (fun _ _ _ => rfl) _ _ _ _ _

end Writer

/-- A DELETE of one object, or any writer. -/
inductive DeletionRequest (T : Type) [Resource T]
  | delete (ns : Option String) (name : String) (now : Time)
  | write (writer : Writer T)

def DeletionRequest.handler [DecidableEq T] : DeletionRequest T → Handler T (Response T)
  | .delete ns name now => deleteResource ns name now
  | .write writer => writer.handler

/-! ## Pending removals -/

/-- What a request has established: whether it is a DELETE, and the key whose object it has found
without finalizers and not yet removed. -/
structure Checked where
  deletes : Bool
  pending : Option String := none
  deriving DecidableEq, Repr

namespace Checked

/-- A DELETE that reads an object without finalizers is going to remove its key. -/
def observe (g : Checked) : (op : StoreOp T) → Except StoreError op.Result → Checked
  | .get ns name, .ok (some current) =>
    if g.deletes && !hasFinalizers current.data then
      { g with pending := (ResourceStore.createKey T ns name).toOption }
    else { g with pending := none }
  | .delete _ _, _ => { g with pending := none }
  | _, _ => g

variable (T) in
/-- Only pending keys are removed. -/
def protocol : Protocol (StoreOp.interface T) Checked where
  allowed g op := ∀ key ∈ op.removes, g.pending = some key
  assumes _ _ _ := True
  observe := observe

/-- The object under a pending key has no finalizers. -/
def Safe (s : ResourceStore T) (g : Checked) : Prop :=
  ∀ key ∈ g.pending, ∀ c ∈ s.kvs key, hasFinalizers c.data = false

/-- A writer is never pending, so it keeps to the protocol by removing nothing. -/
lemma wp_of_neverRemoves {α : Type} :
    ∀ (p : Program (interface T) α), p.wp (neverRemoves T) () (fun _ _ => True) →
      p.wp (protocol T) { deletes := false } fun _ _ => True
  | .done _, _ => trivial
  | .call op next, h => by
    obtain ⟨hop, hnext⟩ := h
    have hsame : ∀ r, (protocol T).observe { deletes := false } op r = { deletes := false } := by
      intro r
      cases op with
      | put value | putIfNotExists value | delete ns name => rfl
      | get ns name =>
        match r with
        | .error e | .ok none | .ok (some current) => rfl
    refine ⟨fun key hkey => ?_, fun r hr => ?_⟩
    · have hnone : op.removes = none := hop
      cases hnone.symm.trans hkey
    · rw [hsame r]
      exact wp_of_neverRemoves (next r) (hnext r trivial)

end Checked

lemma finalizers_applyRevision (c : ContentData T) :
    finalizers c.applyRevision = finalizers c.data := by
  cases hm : objectMeta c.data with
  | none | some m => simp [finalizers, c.objectMeta_applyRevision, hm]

/-- DELETE removes a key only after it has found the object without finalizers. -/
lemma Checked.wp_deleteResource [DecidableEq T] (ns : Option String) (name : String) (now : Time) :
    (deleteResource ns name now : Handler T (Response T)).run.wp (protocol T)
      { deletes := true } fun _ _ => True := by
  have hput : ∀ (g : Checked) (current updated : T),
      (putIfChanged current updated).run.wp (protocol T) g fun _ _ => True :=
    fun g current updated => wp_putIfChanged (by rintro key ⟨⟩) fun _ _ => trivial
  rw [deleteResource, wp_run_bind]
  refine wp_getCurrent (by rintro key ⟨⟩) (fun current _ => ?_) fun _ _ => trivial
  dsimp only
  split
  · rw [wp_run_bind]
    refine wp_mono (fun g r _ => ?_) _ _ (hput _ _ _)
    cases r with
    | ok t | error e => trivial
  next hnone =>
    rw [wp_run_bind]
    refine ⟨fun key hkey => ?_, fun r _ => ?_⟩
    · -- the removal is of the key that was read
      have hnone' : hasFinalizers current.data = false := by
        rwa [hasFinalizers, finalizers_applyRevision, ← hasFinalizers, Bool.not_eq_true] at hnone
      simp only [protocol, observe, hnone']
      exact hkey
    · match r with
      | .error e | .ok none | .ok (some data) => trivial

/-! ## The system -/

variable {κ : Type} [DecidableEq κ]

/-- Requests being handled over one store. -/
abbrev Deleting (κ T : Type) [Resource T] : Type :=
  Config (StoreOp.interface T) κ (ResourceStore T) Checked (Except StatusResponse (Response T))

namespace Deleting

/-- No request has been looked at yet. -/
def start [DecidableEq T] (store : ResourceStore T) (requests : κ → DeletionRequest T) :
    Deleting κ T where
  world := store
  thread k := (requests k).handler.run
  seen k := match requests k with
    | .delete .. => { deletes := true }
    | .write _ => { deletes := false }

/-- One store call of one request. -/
def step (c : Deleting κ T) (e : Event κ Access Empty) : Deleting κ T :=
  Config.step StoreOp.exec (fun s _ => s) (Checked.protocol T) c e

/-- The call request `k` is about to make. -/
def nextOp (c : Deleting κ T) (k : κ) : Option (StoreOp T) :=
  match c.thread k with
  | .call op _ => some op
  | .done _ => none

/-- The condition on a step: it stores no object with finalizers under a key whose removal is
pending. -/
def NoFinalizersBehindCheck (c : Deleting κ T) (e : Event κ Access Empty) : Prop :=
  ∀ j, ∀ key ∈ (c.seen j).pending, ∀ object ∈ (c.step e).world.kvs key,
    object ∈ c.world.kvs key ∨ hasFinalizers object.data = false

def RemovesUnfinalized (c : Deleting κ T) : Event κ Access Empty → Prop
  | .call k _ => ∀ op ∈ c.nextOp k, ∀ key ∈ op.removes, ∀ object ∈ c.world.kvs key,
      finalizers object.data = []

instance [Fintype κ] [DecidableEq T] (c : Deleting κ T) (e : Event κ Access Empty) :
    Decidable (c.NoFinalizersBehindCheck e) :=
  inferInstanceAs (Decidable (∀ j, ∀ key ∈ (c.seen j).pending,
    ∀ object ∈ (c.step e).world.kvs key,
      object ∈ c.world.kvs key ∨ hasFinalizers object.data = false))

instance (c : Deleting κ T) : ∀ e, Decidable (c.RemovesUnfinalized e)
  | .call k _ => inferInstanceAs (Decidable (∀ op ∈ c.nextOp k, ∀ key ∈ op.removes,
      ∀ object ∈ c.world.kvs key, finalizers object.data = []))

/-- The invariant: every request keeps to the protocol, and objects under pending keys have no
finalizers. -/
def Inv (c : Deleting κ T) : Prop :=
  c.Keeps (Checked.protocol T) Checked.Safe

omit [DecidableEq κ] in
lemma inv_start [DecidableEq T] (store : ResourceStore T) (requests : κ → DeletionRequest T) :
    (start store requests).Inv := by
  intro k
  simp only [start]
  cases requests k with
  | delete ns name now =>
    exact ⟨by rintro key ⟨⟩, Checked.wp_deleteResource ns name now⟩
  | write writer =>
    exact ⟨by rintro key ⟨⟩, Checked.wp_of_neverRemoves _ writer.removesNothing⟩

/-- A request that has just read an object, or removed one, is pending for good reason. -/
lemma safe_observe {s : ResourceStore T} {g : Checked} (access : Access) {op : StoreOp T}
    (h : g.Safe (exec s access op).1) :
    (g.observe op (exec s access op).2).Safe (exec s access op).1 := by
  cases op with
  | put value | putIfNotExists value => exact h
  | delete ns name => rintro key ⟨⟩
  | get ns name =>
    cases hreply : (exec s access (.get ns name)).2 with
    | error e => exact h
    | ok found =>
      cases found with
      | none => exact h
      | some current =>
        have hworld : (exec s access (.get ns name)).1 = s := by
          cases access <;> rfl
        obtain ⟨key, hkey, hkvs⟩ :=
          ResourceStore.kvs_of_get (get_of_exec_get hreply)
        rw [hworld]
        simp only [Checked.observe]
        split
        next hnone =>
          intro key' hkey' c hc
          have hkeys : key = key' := by simpa [hkey, Except.toOption] using hkey'
          rw [← hkeys, hkvs] at hc
          cases hc
          simpa using (Bool.and_eq_true_iff.1 hnone).2
        · rintro key ⟨⟩

lemma inv_step {c : Deleting κ T} {e : Event κ Access Empty} (h : c.Inv)
    (hguard : c.NoFinalizersBehindCheck e) : (c.step e).Inv := by
  refine Config.Keeps.step h e (fun k access op next he hk _ => ?_) (fun x => x.elim)
  subst he
  have hworld : (c.step (.call k access)).world = (exec c.world access op).1 := by
    simp only [step, Config.step, hk]
    rfl
  -- objects under pending keys keep having no finalizers
  have hexec : ∀ j, (c.seen j).Safe (exec c.world access op).1 := by
    intro j key hkey object hobject
    rcases hguard j key hkey object (hworld ▸ hobject) with hold | hnone
    · exact (h j).1 key hkey object hold
    · exact hnone
  exact ⟨trivial, safe_observe access (hexec k), fun j _ => hexec j⟩

/-- **DELETE removes no finalizers, unless they arrive behind its check.**  In every interleaving of
DELETEs and writers over any store, every object that a step removes has no finalizers: provided no
step stores an object with finalizers under a key for which some DELETE has passed its check and not
yet made its removal. -/
theorem removesUnfinalized_of_noFinalizersBehindCheck [DecidableEq T] (store : ResourceStore T)
    (requests : κ → DeletionRequest T) (events : List (Event κ Access Empty))
    (h : Run.AllSteps step NoFinalizersBehindCheck (start store requests) events) :
    Run.AllSteps step RemovesUnfinalized (start store requests) events := by
  refine Run.AllSteps.of_invariant (I := Inv) (fun c e hI hG => inv_step hI hG) ?_ _ _
    (inv_start store requests) h
  rintro c (⟨k, access⟩ | ⟨⟨⟩⟩) hI _ op hop key hkey object hobject
  cases hk : c.thread k with
  | done a =>
    simp [nextOp, hk] at hop
  | call op' next =>
    rw [nextOp, hk] at hop
    cases hop
    have hpending := Config.Keeps.allowed hI hk key hkey
    have hsafe := (hI k).1 key hpending object hobject
    simpa [hasFinalizers] using hsafe

end Deleting

/-! ## A DELETE and a patch that adds a finalizer -/

namespace DeleteAndHold

open Fixture

/-- DELETE of the config map, and a PATCH that puts a finalizer on it. -/
def deleteAndHold : Bool → DeletionRequest ConfigMap
  | false => .delete (some "default") "demo" ⟨1700000000, 0⟩
  | true => .write (.patch (some "default") "demo"
      [("metadata", .object [("finalizers", .array [.string "example.com/hold"])])]
      { useClientResourceVersion := true, updateGeneration := true } validateResource)

/-- The DELETE comes after the PATCH. -/
def heldFirst : List (Event Bool Access Empty) :=
  [.call true .answered, .call true .answered, .call false .answered, .call false .answered]

/-- The PATCH comes between the check and the removal of the DELETE. -/
def heldBetween : List (Event Bool Access Empty) :=
  [.call false .answered, .call true .answered, .call true .answered, .call false .answered]

end DeleteAndHold

open Fixture TwoPatches DeleteAndHold in
theorem Deleting.removesUnfinalized_held_first :
    Run.AllSteps Deleting.step Deleting.RemovesUnfinalized
      (Deleting.start store deleteAndHold) heldFirst :=
  removesUnfinalized_of_noFinalizersBehindCheck store deleteAndHold heldFirst (by decide)

open Fixture TwoPatches DeleteAndHold in
/-- A finalizer that is stored between the check and the removal does not keep the object. -/
theorem Deleting.removes_finalized_object :
    let held := Run.exec step (start store deleteAndHold) (heldBetween.take 3)
    (held.world.kvs key).map (fun c => finalizers c.data) = some ["example.com/hold"] ∧
      ((held.step (.call false .answered)).world.kvs key) = none ∧
      ¬ Run.AllSteps step RemovesUnfinalized
        (start store deleteAndHold) heldBetween := by
  decide

end Tugboat
