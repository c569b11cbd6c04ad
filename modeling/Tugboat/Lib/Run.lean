import Mathlib.Tactic.Common

/-!
# Runs of a step function, and what holds at every step of them

A system is a step function `step : σ → ε → σ`, driven by a list of events.  An event that cannot
happen in a state leaves the state as it is, so every list of events is a run and the nondeterminism
of the system is the choice of the list.

`Run.exec` is the state a run ends in.  `Run.AllSteps step Q s es` says that `Q` holds of every pair
of a state met along the run and the event taken there; it is used both for what a theorem assumes
of a run and for what it concludes.  `Run.AllStates` is its form for a property of states, the last
one included.

Everything proved about a run goes through `AllSteps.of_invariant` and `AllStates.of_invariant`: an
invariant that every step meeting the condition keeps holds all along the run.  Where a step keeps
the property exactly if it meets the condition, `allStates_iff_allSteps` makes an equivalence of it.
-/

namespace Tugboat.Run

universe u v

variable {σ : Type u} {ε : Type v}

/-- The state reached from `s` by the events `es`. -/
def exec (step : σ → ε → σ) (s : σ) (es : List ε) : σ :=
  es.foldl step s

/-- `Q` holds at every step of the run: of each state along it together with the event taken
in that state. -/
def AllSteps (step : σ → ε → σ) (Q : σ → ε → Prop) : σ → List ε → Prop
  | _, [] => True
  | s, e :: es => Q s e ∧ AllSteps step Q (step s e) es

/-- `P` holds in every state of the run, the first and the last included. -/
def AllStates (step : σ → ε → σ) (P : σ → Prop) : σ → List ε → Prop
  | s, [] => P s
  | s, e :: es => P s ∧ AllStates step P (step s e) es

variable {step : σ → ε → σ} {G Q : σ → ε → Prop} {P I : σ → Prop}

@[simp] lemma exec_nil (s : σ) : exec step s [] = s := rfl

@[simp] lemma exec_cons (s : σ) (e : ε) (es : List ε) :
    exec step s (e :: es) = exec step (step s e) es := rfl

@[simp] lemma allSteps_nil (s : σ) : AllSteps step Q s [] := trivial

@[simp] lemma allSteps_cons (s : σ) (e : ε) (es : List ε) :
    AllSteps step Q s (e :: es) ↔ Q s e ∧ AllSteps step Q (step s e) es := Iff.rfl

@[simp] lemma allStates_nil (s : σ) : AllStates step P s [] ↔ P s := Iff.rfl

@[simp] lemma allStates_cons (s : σ) (e : ε) (es : List ε) :
    AllStates step P s (e :: es) ↔ P s ∧ AllStates step P (step s e) es := Iff.rfl

lemma allSteps_of_forall (h : ∀ s e, Q s e) {s : σ} {es : List ε} : AllSteps step Q s es := by
  induction es generalizing s with
  | nil => trivial
  | cons e es ih => exact ⟨h s e, ih⟩

lemma AllStates.exec {s : σ} {es : List ε} (h : AllStates step P s es) : P (exec step s es) := by
  induction es generalizing s with
  | nil => exact h
  | cons e es ih => exact ih h.2

lemma allSteps_append (s : σ) (es es' : List ε) : AllSteps step Q s (es ++ es') ↔
      AllSteps step Q s es ∧ AllSteps step Q (exec step s es) es' := by
  induction es generalizing s with
  | nil => simp
  | cons e es ih => rw [List.cons_append, allSteps_cons, ih, allSteps_cons, exec_cons, and_assoc]

lemma exec_append (s : σ) (es es' : List ε) :
    exec step s (es ++ es') = exec step (exec step s es) es' := List.foldl_append

instance AllSteps.decidable [∀ s e, Decidable (Q s e)] :
    ∀ (s : σ) (es : List ε), Decidable (AllSteps step Q s es)
  | _, [] => .isTrue trivial
  | s, e :: es => @instDecidableAnd _ _ _ (AllSteps.decidable (step s e) es)

instance AllStates.decidable [∀ s, Decidable (P s)] :
    ∀ (s : σ) (es : List ε), Decidable (AllStates step P s es)
  | s, [] => inferInstanceAs (Decidable (P s))
  | s, e :: es => @instDecidableAnd _ _ _ (AllStates.decidable (step s e) es)

/-- **The invariant rule for steps.**  If every step meeting `G` keeps `I`, and `I` and `G`
together give `Q`, then `Q` holds at every step of a run that meets `G` throughout. -/
theorem AllSteps.of_invariant
    (keep : ∀ s e, I s → G s e → I (step s e)) (use : ∀ s e, I s → G s e → Q s e) :
    ∀ (s : σ) (es : List ε), I s → AllSteps step G s es → AllSteps step Q s es
  | _, [], _, _ => trivial
  | s, e :: es, hI, hG =>
    ⟨use s e hI hG.1, AllSteps.of_invariant keep use (step s e) es (keep s e hI hG.1) hG.2⟩

/-- **The invariant rule for states.** -/
theorem AllStates.of_invariant
    (keep : ∀ s e, I s → G s e → I (step s e)) (use : ∀ s, I s → P s) :
    ∀ (s : σ) (es : List ε), I s → AllSteps step G s es → AllStates step P s es
  | s, [], hI, _ => use s hI
  | s, e :: es, hI, hG =>
    ⟨use s hI, AllStates.of_invariant keep use (step s e) es (keep s e hI hG.1) hG.2⟩

/-- **The invariant rule, both ways.**  If, as far as `I` holds, a step keeps `P` exactly when it
meets `G`, then `P` holds in every state of a run exactly when the run meets `G` throughout. -/
theorem allStates_iff_allSteps
    (keep : ∀ s e, I s → P s → G s e → I (step s e))
    (iff : ∀ s e, I s → P s → (P (step s e) ↔ G s e)) :
    ∀ (s : σ) (es : List ε), I s → P s → (AllStates step P s es ↔ AllSteps step G s es)
  | _, [], _, hP => ⟨fun _ => trivial, fun _ => hP⟩
  | s, e :: es, hI, hP => by
    constructor
    · rintro ⟨-, hrest⟩
      have hP' : P (step s e) := by
        cases es with
        | nil => exact hrest
        | cons e' es => exact hrest.1
      have hG := (iff s e hI hP).1 hP'
      exact ⟨hG, (allStates_iff_allSteps keep iff _ es (keep s e hI hP hG) hP').1 hrest⟩
    · rintro ⟨hG, hrest⟩
      have hP' := (iff s e hI hP).2 hG
      exact ⟨hP, (allStates_iff_allSteps keep iff _ es (keep s e hI hP hG) hP').2 hrest⟩

end Tugboat.Run
