import Tugboat.ApiServer.CustomRequests
import Tugboat.Lib.Concurrent

/-!
# Removing custom resources

DELETE of a custom resource looks at the finalizers of what it reads, and then removes the key or
puts a marked version in its place.  Unlike those of the built-in kinds, both writes are conditional
on the revision that was read.  A revision identifies a version (`RevisionStore.Seen`), so whatever
other requests do in between, the write finds the version that was looked at, or it is refused and
the client is told so.
-/

namespace Tugboat

open Json Program

namespace CustomResource

/-- What a request has read is a version of the past. -/
def CustomSeen.Past (s : CustomStore) (g : CustomSeen) : Prop :=
  ∀ key e, g.read = some (key, e) → s.Seen key e

/-- Requests being handled over one store. -/
abbrev Dispatching (κ : Type) : Type :=
  Config CustomOp.interface κ CustomStore CustomSeen (Except StatusResponse Value)

namespace Dispatching

lemma assumes_exec (s : CustomStore) (choice : CustomOp.Choice) (op : CustomOp) :
    CustomSeen.Assumes op (CustomOp.exec s choice op).2 := by
  cases op with
  | store op =>
    cases op with
    | get key =>
      intro e he
      have hentry := RevisionStore.Op.entry_of_exec_get he
      exact (s.revision_range key e hentry).2.trans s.revision_le
    | range select | put key o expected | delete key expected => trivial
  | lookup group version plural =>
    intro entry hentry
    exact choice.registry.valid _ entry (Option.filter_eq_some_iff.1 hentry).1
  | namespaceExists ns => trivial

variable {s : CustomStore} {g : CustomSeen} {op : CustomOp} {key : String}

lemma past_exec (h : g.Past s) (choice : CustomOp.Choice) (op : CustomOp) :
    g.Past (CustomOp.exec s choice op).1 := by
  intro key e he
  cases op with
  | store op => exact (h key e he).exec choice.access op
  | lookup group version plural | namespaceExists ns => exact h key e he

lemma read_afterWrite {α : Type} (g : CustomSeen) (expected : Option Int)
    (r : Except RevisionStore.Unavailable (Option α)) :
    (g.afterWrite expected r).read = g.read := by
  rcases r with u | _ | a <;> rfl

lemma read_observe {choice : CustomOp.Choice} {e : CustomEntry}
    (h : (g.observe op (CustomOp.exec s choice op).2).read = some (key, e)) :
    g.read = some (key, e) ∨ s.entry key = some e := by
  cases op with
  | lookup group version plural | namespaceExists ns => exact .inl h
  | store op =>
    cases op with
    | get key' =>
      cases hr : (CustomOp.exec s choice (.store (.get key'))).2 with
      | error u =>
        rw [hr] at h
        exact .inl h
      | ok found =>
        rw [hr] at h
        cases found with
        | none => exact .inl h
        | some e' =>
          cases h
          exact .inr (RevisionStore.Op.entry_of_exec_get hr)
    | range select => exact .inl h
    | put key' o expected | delete key' expected =>
      exact .inl ((read_afterWrite g expected _).symm.trans h)

lemma past_observe (h : g.Past s) (choice : CustomOp.Choice) (op : CustomOp) :
    (g.observe op (CustomOp.exec s choice op).2).Past (CustomOp.exec s choice op).1 := by
  intro key e he
  have hseen : s.Seen key e := by
    rcases read_observe he with hread | hentry
    · exact h key e hread
    · exact RevisionStore.seen_of_entry hentry
  cases op with
  | store op => exact hseen.exec choice.access op
  | lookup group version plural | namespaceExists ns => exact hseen

lemma failed_afterWrite {α : Type} (g : CustomSeen) (expected : Option Int)
    {r : Except RevisionStore.Unavailable (Option α)} (h : ∀ a, r ≠ .ok (some a)) :
    (g.afterWrite expected r).failed = some (conflictOf expected) ∨
      (g.afterWrite expected r).failed = some (.ofStoreError .etcd) := by
  rcases r with u | _ | a
  · exact .inr rfl
  · exact .inl rfl
  · exact absurd rfl (h a)

section

variable [TimeCodec] {κ : Type} [DecidableEq κ]

/-- No request has been looked at yet. -/
def start (store : CustomStore) (requests : κ → CustomRequest) : Dispatching κ where
  world := store
  thread k := (requests k).handler.run
  seen k := { deletes := (requests k).isDelete }

/-- One call of one request. -/
def step (c : Dispatching κ) (e : Event κ CustomOp.Choice Empty) : Dispatching κ :=
  Config.step CustomOp.exec (fun s _ => s) CustomSeen.protocol c e

/-- What holds of a step.  A resource that is gone after it had no finalizers.  A step of a DELETE
that has found finalizers marks the version that was read, which is what is stored; or it changes
nothing and the DELETE ends with a conflict, unless the store could not be reached. -/
structure Respects (c : Dispatching κ) (e : Event κ CustomOp.Choice Empty) : Prop where
  removes : ∀ key o, c.world.entry key = some o → (c.step e).world.entry key = none →
    storedFinalizers o.value = []
  marks : ∀ k choice, e = .call k choice → (c.seen k).deletes = true →
    ∀ key o, (c.seen k).read = some (key, o) → storedFinalizers o.value ≠ [] →
      (∀ answer, c.thread k ≠ .done answer) →
        (c.world.entry key = some o ∧ ∃ marked m t h, Marks o marked m t ∧
          (c.step e).world = c.world.write key marked h) ∨
        ((c.step e).world = c.world ∧ ∃ r, (c.step e).thread k = .done (.error r) ∧
          (r = conflictOf (some (o.revision : Int)) ∨ r = .ofStoreError .etcd))

/-- The invariant: every request keeps to the protocol, and what it has read is a version of the
past. -/
def Inv (c : Dispatching κ) : Prop :=
  c.KeepsTo CustomSeen.protocol CustomSeen.Past CustomSeen.Reports

variable {c : Dispatching κ}

lemma Inv.step (h : c.Inv) (e : Event κ CustomOp.Choice Empty) : (c.step e).Inv := by
  refine Config.KeepsTo.step h e (fun k choice op next _ _ _ => ?_) (fun x => x.elim)
  exact ⟨assumes_exec c.world choice op, past_observe (h k).1 choice op,
    fun j _ => past_exec (h j).1 choice op⟩

variable {o : CustomEntry}

/-- A key that is gone has been removed by a DELETE, which has looked at what was stored. -/
lemma finalizers_of_removed (hpast : g.Past s) {choice : CustomOp.Choice} (hallowed : g.MayCall op)
    (hbefore : s.entry key = some o)
    (hafter : (CustomOp.exec s choice op).1.entry key = none) : storedFinalizers o.value = [] := by
  cases op with
  | lookup group version plural | namespaceExists ns =>
    cases hbefore.symm.trans hafter
  | store op =>
    obtain ⟨expected, rfl, hholds⟩ := RevisionStore.Op.delete_of_gone
      (RevisionStore.Op.effect_exec s choice.access op) hbefore hafter
    obtain ⟨-, -, e, hread, rfl, hfinalizers⟩ := hallowed
    have hstored := (hpast key e hread).entry_of_holds hholds
    cases hstored.symm.trans hbefore
    exact hfinalizers

lemma marks_of_allowed (hdeletes : g.deletes = true) (hread : g.read = some (key, o))
    (hfinalizers : storedFinalizers o.value ≠ []) (hallowed : g.MayCall op) :
    ∃ marked m t, op = .store (.put key marked (some (o.revision : Int))) ∧ Marks o marked m t := by
  cases op with
  | lookup group version plural | namespaceExists ns => cases hread.symm.trans hallowed.2
  | store op =>
    cases op with
    | get key' => cases hread.symm.trans hallowed.2
    | range select => exact hallowed.elim
    | delete key' expected =>
      obtain ⟨-, -, e, hread', -, hnone⟩ := hallowed
      cases hread.symm.trans hread'
      exact absurd hnone hfinalizers
    | put key' marked expected =>
      cases hallowed.2 with
      | create hdeletes' hread' h | update hdeletes' hread' h => cases hdeletes.symm.trans hdeletes'
      | mark hdeletes' hread' h =>
        cases hread.symm.trans hread'
        exact ⟨_, _, _, rfl, h⟩

omit [DecidableEq κ] in
lemma Inv.done_of_failed (h : c.Inv) {k : κ} {r : StatusResponse}
    (hfailed : (c.seen k).failed = some r) : c.thread k = .done (.error r) := by
  have hwp := (h k).2
  cases hthread : c.thread k with
  | done answer =>
    rw [hthread] at hwp
    rw [hwp r hfailed]
  | call op next =>
    have hallowed : (c.seen k).MayCall op := Config.KeepsTo.allowed h hthread
    have hnone : (c.seen k).failed = none := by
      cases op with
      | lookup group version plural | namespaceExists ns => exact hallowed.1
      | store op =>
        cases op with
        | get key | put key o expected | delete key expected => exact hallowed.1
        | range select => exact hallowed.elim
    cases hfailed.symm.trans hnone

lemma Inv.respects (h : c.Inv) (e : Event κ CustomOp.Choice Empty) : c.Respects e := by
  constructor
  · intro key o hbefore hafter
    cases e with
    | tick x => exact x.elim
    | call k choice =>
      cases hthread : c.thread k with
      | done answer =>
        rw [Dispatching.step, Config.step_call_of_done choice hthread] at hafter
        cases hbefore.symm.trans hafter
      | call op next =>
        rw [Dispatching.step, Config.step_call_of_call choice hthread] at hafter
        exact finalizers_of_removed (h k).1 (Config.KeepsTo.allowed h hthread) hbefore hafter
  · rintro k choice rfl hdeletes key o hread hfinalizers hpending
    cases hthread : c.thread k with
    | done answer => exact absurd hthread (hpending answer)
    | call op next =>
      have hinv := h.step (.call k choice)
      rw [Dispatching.step, Config.step_call_of_call choice hthread] at hinv ⊢
      obtain ⟨marked, m, t, rfl, hmarks⟩ :=
        marks_of_allowed hdeletes hread hfinalizers (Config.KeepsTo.allowed h hthread)
      rcases RevisionStore.Op.exec_put c.world choice.access key marked (some (o.revision : Int))
        with ⟨hrev, hholds, hworld⟩ | ⟨hworld, hreply⟩
      · exact .inl ⟨((h k).1 key o hread).entry_of_holds hholds, marked, m, t, hrev, hmarks, hworld⟩
      refine .inr ⟨hworld, ?_⟩
      have hseen := failed_afterWrite (c.seen k) (some (o.revision : Int)) hreply
      rw [← Function.update_self k (CustomSeen.afterWrite ..) c.seen] at hseen
      rcases hseen with hfailed | hfailed
      · exact ⟨_, hinv.done_of_failed hfailed, .inl rfl⟩
      · exact ⟨_, hinv.done_of_failed hfailed, .inr rfl⟩

end

section

variable [LawfulTimeCodec] {κ : Type} [DecidableEq κ]

omit [DecidableEq κ] in
lemma inv_start (store : CustomStore) (requests : κ → CustomRequest) :
    (start store requests).Inv := by
  intro k
  exact ⟨by rintro key e ⟨⟩, (requests k).wp_handler⟩

end

end Dispatching

end CustomResource

end Tugboat
