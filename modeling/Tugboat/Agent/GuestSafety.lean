import Tugboat.Agent.FailedTarget

/-!
# The cutover waits for the guest

A cancel that comes too late may cost the guest, and so may a source that replaces its own virtual
machine (`FailedTarget`).  The cutover itself does not: whatever the order of events, the source is
stopped for it, the Ship is given to another node and the migration is called completed only when
the guest has arrived.

An agent that does one of these has read a version, or was told something by a runtime, that goes
with an arrived guest only.  So as long as the guest has not arrived, every agent could just as well
act in a world where the transfer was given up (`givenUp`), and there the invariant of
`FailedTarget` holds without any condition on the order.
-/

namespace Tugboat

namespace Moving

variable {w w' : Moving} {g : Knowledge} {op : AgentOp}

def givenUp (w : Moving) : Moving := { w with transfer := .ended }

lemma advances_givenUp (hsource : w'.source = w.source) (hversions : w.versions ⊆ w'.versions) :
    w.givenUp.Advances w'.givenUp :=
  ⟨hsource, hversions, (by rintro ⟨⟩), fun _ => rfl⟩

lemma advances_exec (outcome : Outcome) (call : AgentCall) :
    w.givenUp.Advances (exec w outcome call).1.givenUp := by
  unfold exec
  split
  · exact advances_givenUp rfl (List.subset_append_right _ _)
  · exact .refl _

lemma givenUp_effect (node : String) (h : starts op = false) :
    (w.effect node op).givenUp = w.givenUp.effect node op := by
  have hstores : w.givenUp.stores op = w.stores op := by cases op <;> rfl
  have htransfer : w.givenUp.transferAfter op = .ended := by
    cases op <;> first | rfl | cases h
  have hended :
      (if node = w.givenUp.source then w.givenUp.transferAfter op else .ended) = .ended := by
    rw [htransfer, ite_self]
  unfold effect
  rw [hstores]
  exact congrArg (fun t => Moving.mk _ _ t _ _) hended.symm

lemma givenUp_effect_of_starts (node : String) (h : starts op = true) :
    (w.effect node op).givenUp = w.givenUp := by
  cases op with
  | migrate => simp [effect, givenUp, stores, Cutover.stopsSource, removes]
  | _ => cases h

lemma givenUp_tick (t : Tick) : (w.tick t).givenUp = w.givenUp.tick t := by
  cases t <;> rfl

lemma reply_givenUp (h : w.transfer ≠ .completed) (node : String) (outcome : Outcome) :
    w.givenUp.reply node outcome op = w.reply node outcome op := by
  cases op <;> simp [reply, givenUp, watched, h]

/-- What is done about a given up transfer is always in time. -/
lemma timely_givenUp (outcome : Outcome) (h : starts op = false) :
    w.givenUp.Timely g { outcome with takesEffect := true } ⟨g.node, op⟩ where
  declares _ _ _ := .inr (.inr rfl)
  cancels _ _ := ⟨by simp [givenUp], rfl⟩
  starts _ hstarts := by cases h.symm.trans hstarts

lemma Inv.exec_givenUp (hinv : w.givenUp.Inv) (h : w.givenUp.Known g) (hversions : w.versions ≠ [])
    (outcome : Outcome) (hop : g.Permits op) :
    (Moving.exec w outcome ⟨g.node, op⟩).1.givenUp.Inv := by
  unfold Moving.exec
  split
  · cases hstarts : starts op with
    | false =>
      rw [givenUp_effect g.node hstarts]
      exact hinv.effect h hversions hop (timely_givenUp outcome hstarts)
    | true => rwa [givenUp_effect_of_starts g.node hstarts]
  · exact hinv

lemma Known.exec_givenUp (h : w.givenUp.Known g) (hcompleted : w.transfer ≠ .completed)
    (outcome : Outcome) (hdelivers : op = .nextShip → outcome.version < (w.watched g.node).length) :
    (Moving.exec w outcome ⟨g.node, op⟩).1.givenUp.Known
      (g.learn op (Moving.exec w outcome ⟨g.node, op⟩).2) := by
  have hadv := advances_exec (w := w) outcome ⟨g.node, op⟩
  change (Moving.exec w outcome ⟨g.node, op⟩).1.givenUp.Known
    (g.learn op (w.reply g.node outcome op))
  rw [← reply_givenUp hcompleted]
  cases op with
  | nextShip => exact (known_of_watched (w := w.givenUp) (hdelivers rfl)).mono hadv
  | checkMigrationStatus id => exact (h.check outcome id).mono hadv
  | localRuntimeStatus id => exact (h.localRuntimeStatus outcome id).mono hadv
  | cancelMigration id => exact { h.mono hadv with cancelled := fun _ _ => rfl }
  | _ => exact h.mono hadv

lemma completed_exec (h : w.transfer = .completed) (outcome : Outcome) (call : AgentCall) :
    (exec w outcome call).1.transfer = .completed := by
  unfold exec
  split
  · exact completed_effect h call.node call.op
  · exact h

end Moving

namespace Migrating

open Moving

variable {κ : Type} [DecidableEq κ] {c : Migrating κ}

/-- The guest has arrived, or it could as well have been given up. -/
structure Guarded (c : Migrating κ) : Prop where
  inv : c.world.transfer = .completed ∨ c.world.givenUp.Inv
  versions : c.world.versions ≠ []
  keeps : c.Keeps discipline fun w g => w.transfer = .completed ∨ w.givenUp.Known g

omit [DecidableEq κ] in
lemma guarded_start {source : String} {ship : Ship} (hnode : ship.nodeName = some source)
    (htarget : ship.targetNodeName ≠ some source) (hmigration : ship.migration = none)
    (nodes : κ → String) : (start source ship nodes).Guarded := by
  have h := sound_start hnode htarget hmigration nodes
  refine ⟨.inr ⟨fun s hs => .inl ?_, fun s hs hphase => ?_, fun _ _ _ => .inr rfl, ?_⟩, h.versions,
    fun k => ⟨.inr ⟨.inl rfl, ?_, ?_, ?_⟩, (h.keeps k).2⟩⟩
  · exact (h.inv.placed s hs).resolve_right (by rintro ⟨⟩)
  · cases h.inv.completed s hs hphase
  all_goals rintro ⟨⟩

lemma Guarded.step (h : c.Guarded) (e : Event κ Moving.Outcome Tick) : (c.step e).Guarded := by
  unfold Migrating.step
  split
  next hpossible =>
    have hkeeps : (Config.step exec tick discipline c e).Keeps discipline
        fun w g => w.transfer = .completed ∨ w.givenUp.Known g := by
      refine h.keeps.step e (fun k outcome call rest he hk hallowed => ?_) fun t he k => ?_
      · subst he
        obtain ⟨node, op⟩ := call
        obtain ⟨rfl, hop⟩ := hallowed
        refine ⟨trivial, ?_, fun j _ => ?_⟩
        · by_cases hcompleted : c.world.transfer = .completed
          · exact .inl (completed_exec hcompleted outcome _)
          · exact .inr (((h.keeps k).1.resolve_left hcompleted).exec_givenUp hcompleted outcome
              (hpossible _ (next_of_call hk)))
        · exact (h.keeps j).1.imp (completed_exec · outcome _) (·.mono (advances_exec outcome _))
      · exact (h.keeps k).1.imp (advances_tick c.world t).completed fun hknown =>
          givenUp_tick t ▸ hknown.mono (advances_tick _ t)
    cases e with
    | tick t =>
      refine ⟨h.inv.imp (advances_tick c.world t).completed fun hinv => ?_, ?_, hkeeps⟩
      · exact givenUp_tick t ▸ hinv.tick fun _ _ _ => .inr rfl
      · exact List.append_ne_nil_of_right_ne_nil _ h.versions
    | call k outcome =>
      cases hk : c.thread k with
      | done a =>
        rw [Config.step_call_of_done outcome hk] at hkeeps ⊢
        exact h
      | call call rest =>
        have hallowed := h.keeps.allowed hk
        rw [Config.step_call_of_call outcome hk] at hkeeps ⊢
        obtain ⟨node, op⟩ := call
        obtain ⟨hnode, hop⟩ := hallowed
        have hnode : node = (c.seen k).node := hnode
        subst hnode
        refine ⟨?_, ?_, hkeeps⟩
        · by_cases hcompleted : c.world.transfer = .completed
          · exact .inl (completed_exec hcompleted outcome _)
          · exact .inr ((h.inv.resolve_left hcompleted).exec_givenUp
              ((h.keeps k).1.resolve_left hcompleted) h.versions outcome hop)
        · simp only [Config.advance, exec]
          split
          · exact List.append_ne_nil_of_right_ne_nil _ h.versions
          · exact h.versions
  · exact h

end Migrating

end Tugboat
