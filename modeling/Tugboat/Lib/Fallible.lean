import Mathlib.Data.List.Forall2
import Tugboat.Lib.Program

/-!
# Fallible programs

A program that can fail is an `ExceptT ε (Program E)`.  This file has its building blocks: a call, a
check that fails, a part whose failure is looked at, and loops over lists.

`Spec P A x B F` says that from a state with `A` the program keeps to the protocol and ends with `B`
of the value it returns, or fails with `F` of its error.  There is one rule for each building block,
so that a `do` block is verified along its text.  If the protocol follows the world, a `Spec` holds
of every run (`Spec.run`).  `Yields P I x R` is the form for a program that keeps `I` however it
ends, and returns only values with the property `R`.
-/

namespace Tugboat.Fallible

open Program

variable {E : Interface} {ε ε' α β σ γ : Type}

/-- Make a call; a failure it reports is part of the result. -/
def ask (op : E.Op) : ExceptT ε (Program E) (E.Reply op) :=
  ExceptT.mk (.call op fun r => .done (.ok r))

def orFail (x : Except ε α) : ExceptT ε (Program E) α := ExceptT.mk (.done x)

/-- Run a part; its failure is part of the result. -/
def attempt (x : ExceptT ε (Program E) α) : ExceptT ε' (Program E) (Except ε α) :=
  ExceptT.mk (x.run >>= fun r => .done (.ok r))

/-- The loop that stops at the first failure. -/
def forEach (f : α → ExceptT ε (Program E) Unit) : List α → ExceptT ε (Program E) Unit
  | [] => pure ()
  | a :: as => do
    f a
    forEach f as

/-- The loop that collects results. -/
def mapEach (f : α → ExceptT ε (Program E) β) : List α → ExceptT ε (Program E) (List β)
  | [] => pure []
  | a :: as => do
    let b ← f a
    let bs ← mapEach f as
    return b :: bs

/-- The loop with an accumulator. -/
def foldEach (f : σ → α → ExceptT ε (Program E) σ) : σ → List α → ExceptT ε (Program E) σ
  | s, [] => pure s
  | s, a :: as => do
    let s ← f s a
    foldEach f s as

/-! ## Specifications -/

/-- How a fallible program ends. -/
def Outcome (B : α → γ → Prop) (F : ε → γ → Prop) (g : γ) : Except ε α → Prop
  | .ok a => B a g
  | .error e => F e g

lemma Outcome.either {B : α → γ → Prop} {F : ε → γ → Prop} {g : γ} {r : Except ε α} {p : Prop}
    (h : Outcome B F g r) (hB : ∀ a, B a g → p) (hF : ∀ e, F e g → p) : p := by
  cases r with
  | ok a => exact hB a h
  | error e => exact hF e h

/-- From a state with `A`, `x` ends with `B` of its value or fails with `F` of its error. -/
def Spec (P : Protocol E γ) (A : γ → Prop) (x : ExceptT ε (Program E) α) (B : α → γ → Prop)
    (F : ε → γ → Prop) : Prop :=
  ∀ g, A g → wp P g x.run (Outcome B F)

/-- However `x` ends, it ends with `G`. -/
abbrev Ends (P : Protocol E γ) (A : γ → Prop) (x : ExceptT ε (Program E) α) (G : γ → Prop) : Prop :=
  Spec P A x (fun _ => G) fun _ => G

/-- `x` keeps `I` and does not fail. -/
abbrev Completes (P : Protocol E γ) (I : γ → Prop) (x : ExceptT ε (Program E) α) : Prop :=
  Spec P I x (fun _ => I) fun _ _ => False

namespace Spec

variable {P : Protocol E γ} {A A' I : γ → Prop} {x : ExceptT ε (Program E) α} {B B' : α → γ → Prop}
  {C : β → γ → Prop} {F F' : ε → γ → Prop} {F₂ : ε' → γ → Prop}
  {k : α → ExceptT ε (Program E) β}

lemma weaken (h : Spec P A x B F) (hA : ∀ g, A' g → A g) (hB : ∀ a g, B a g → B' a g)
    (hF : ∀ e g, F e g → F' e g) : Spec P A' x B' F' := by
  intro g hg
  refine wp_mono (fun g' r hr => ?_) g x.run (h g (hA g hg))
  cases r with
  | ok a => exact hB a g' hr
  | error e => exact hF e g' hr

lemma weakenPost (h : Spec P A x B F) (hB : ∀ a g, B a g → B' a g) : Spec P A x B' F :=
  h.weaken (fun _ hg => hg) hB (fun _ _ hg => hg)

lemma strengthenPre (h : Spec P A x B F) (hA : ∀ g, A' g → A g) : Spec P A' x B F :=
  h.weaken hA (fun _ _ hg => hg) (fun _ _ hg => hg)

lemma weakenFail (h : Spec P A x B F) (hF : ∀ e g, F e g → F' e g) : Spec P A x B F' :=
  h.weaken (fun _ hg => hg) (fun _ _ hg => hg) hF

lemma ofTotal (h : Spec P A x B fun _ _ => False) : Spec P A x B F :=
  h.weakenFail fun _ _ hg => hg.elim

lemma intro {p : Prop} (h : p → Spec P A x B F) : Spec P (fun g => p ∧ A g) x B F :=
  fun g hg => h hg.1 g hg.2

lemma bind (hx : Spec P A x B F) (hk : ∀ a, Spec P (B a) (k a) C F) : Spec P A (x >>= k) C F := by
  intro g hg
  rw [wp_run_bind]
  refine wp_mono (fun g' r hr => ?_) g x.run (hx g hg)
  cases r with
  | ok a => exact hk a g' hr
  | error e => exact hr

lemma pure {a : α} (h : ∀ g, A g → B a g) : Spec P A (pure a : ExceptT ε (Program E) α) B F :=
  fun g hg => h g hg

lemma throw {e : ε} (h : ∀ g, A g → F e g) : Spec P A (throw e : ExceptT ε (Program E) α) B F :=
  fun g hg => h g hg

lemma ask {op : E.Op} {B : E.Reply op → γ → Prop} (hallowed : ∀ g, A g → P.allowed g op)
    (h : ∀ g r, A g → P.assumes g op r → B r (P.observe g op r)) :
    Spec P A (ask op : ExceptT ε (Program E) _) B F :=
  fun g hg => ⟨hallowed g hg, fun r hr => h g r hg hr⟩

lemma orFail {r : Except ε α} (hok : ∀ a g, r = .ok a → A g → B a g)
    (herror : ∀ e g, r = .error e → A g → F e g) :
    Spec P A (orFail r : ExceptT ε (Program E) α) B F := by
  intro g hg
  cases r with
  | ok a => exact hok a g rfl hg
  | error e => exact herror e g rfl hg

lemma attempt (h : Spec P A x B F) :
    Spec P A (attempt x : ExceptT ε' (Program E) _) (fun r g => Outcome B F g r) F₂ := by
  intro g hg
  exact (wp_bind _ _ _ _).mpr (h g hg)

variable {as : List α}

lemma forEach {f : α → ExceptT ε (Program E) Unit} (h : ∀ a ∈ as, Spec P I (f a) (fun _ => I) F) :
    Spec P I (forEach f as) (fun _ => I) F := by
  induction as with
  | nil => exact pure fun _ hg => hg
  | cons a as ih =>
    exact (h a List.mem_cons_self).bind fun _ => ih fun b hb => h b (List.mem_cons_of_mem a hb)

lemma mapEach {f : α → ExceptT ε (Program E) β} {R : α → β → Prop}
    (h : ∀ a ∈ as, Spec P I (f a) (fun b g => R a b ∧ I g) F) :
    Spec P I (mapEach f as) (fun bs g => List.Forall₂ R as bs ∧ I g) F := by
  induction as with
  | nil => exact pure fun _ hg => ⟨.nil, hg⟩
  | cons a as ih =>
    refine (h a List.mem_cons_self).bind fun b => ?_
    intro g hg
    have htail := ih fun c hc => h c (List.mem_cons_of_mem a hc)
    have hcons : Spec P I (do let bs ← Fallible.mapEach f as; return b :: bs)
        (fun bs g => List.Forall₂ R (a :: as) bs ∧ I g) F :=
      htail.bind fun bs => pure fun _ hbs => ⟨.cons hg.1 hbs.1, hbs.2⟩
    exact hcons g hg.2

variable {f : σ → α → ExceptT ε (Program E) σ}

/-- The rule for a loop with an accumulator; its invariant may mention the part of the list that is
done. -/
lemma foldEachDone {J : List α → σ → γ → Prop}
    (h : ∀ done a rest s, as = done ++ a :: rest → Spec P (J done s) (f s a) (J (done ++ [a])) F)
    (s : σ) : Spec P (J [] s) (foldEach f s as) (J as) F := by
  have hloop : ∀ rest done s, as = done ++ rest →
      Spec P (J done s) (foldEach f s rest) (J as) F := by
    intro rest
    induction rest with
    | nil =>
      intro done s hsplit
      rw [List.append_nil] at hsplit
      subst hsplit
      exact pure fun _ hg => hg
    | cons a rest ih =>
      intro done s hsplit
      exact (h done a rest s hsplit).bind fun s' => ih (done ++ [a]) s' (by simp [hsplit])
  exact hloop as [] s rfl

lemma foldEach {J : σ → γ → Prop} (h : ∀ s, ∀ a ∈ as, Spec P (J s) (f s a) J F) (s : σ) :
    Spec P (J s) (foldEach f s as) J F :=
  foldEachDone (J := fun _ => J) (fun _ a _ s hsplit => h s a (by simp [hsplit])) s

end Spec

/-! ## Parts that keep a property -/

/-- A call may be made where `I` holds, and keeps `I`. -/
def KeepsOp (P : Protocol E γ) (I : γ → Prop) (op : E.Op) : Prop :=
  ∀ g, I g → P.allowed g op ∧ ∀ r, P.assumes g op r → I (P.observe g op r)

/-- `x` keeps `I`, and a value it returns has the property `R`. -/
def Yields (P : Protocol E γ) (I : γ → Prop) (x : ExceptT ε (Program E) α) (R : α → Prop) : Prop :=
  Spec P I x (fun a g => R a ∧ I g) fun _ => I

namespace Yields

variable {P : Protocol E γ} {I : γ → Prop} {x : ExceptT ε (Program E) α} {R R' : α → Prop}
  {S : β → Prop} {k : α → ExceptT ε (Program E) β}

lemma weaken (h : Yields P I x R) (hR : ∀ a, R a → R' a) : Yields P I x R' :=
  Spec.weakenPost h fun a _ ha => ⟨hR a ha.1, ha.2⟩

lemma bind (hx : Yields P I x R) (hk : ∀ a, R a → Yields P I (k a) S) : Yields P I (x >>= k) S :=
  Spec.bind hx fun a g hg => hk a hg.1 g hg.2

lemma pure {a : α} (ha : R a) : Yields P I (pure a : ExceptT ε (Program E) α) R :=
  Spec.pure fun _ hg => ⟨ha, hg⟩

lemma ask {op : E.Op} {R : E.Reply op → Prop} (hop : KeepsOp P I op)
    (hreply : ∀ g r, I g → P.assumes g op r → R r) :
    Yields P I (ask op : ExceptT ε (Program E) _) R :=
  Spec.ask (fun g hg => (hop g hg).1) fun g r hg hr => ⟨hreply g r hg hr, (hop g hg).2 r hr⟩

lemma askAny {op : E.Op} (hop : KeepsOp P I op) :
    Yields P I (Fallible.ask op : ExceptT ε (Program E) _) fun _ => True :=
  ask hop fun _ _ _ _ => trivial

lemma orFail {r : Except ε α} (hr : ∀ a, r = .ok a → R a) :
    Yields P I (orFail r : ExceptT ε (Program E) α) R :=
  Spec.orFail (fun a _ ha hg => ⟨hr a ha, hg⟩) fun _ _ _ hg => hg

lemma check {r : Except ε α} :
    Yields P I (Fallible.orFail r : ExceptT ε (Program E) α) fun _ => True :=
  orFail fun _ _ => trivial

lemma attempt (h : Yields P I x R) :
    Yields P I (attempt x : ExceptT ε' (Program E) _) fun r => ∀ a, r = .ok a → R a := by
  refine Spec.weakenPost (Spec.attempt h) fun r g hr => ?_
  cases r with
  | ok a => exact ⟨fun b hb => Except.ok.inj hb ▸ hr.1, hr.2⟩
  | error e => exact ⟨nofun, hr⟩

variable {as : List α}

lemma forEach {f : α → ExceptT ε (Program E) Unit} (h : ∀ a ∈ as, Yields P I (f a) fun _ => True) :
    Yields P I (forEach f as) fun _ => True :=
  Spec.weakenPost (Spec.forEach fun a ha => Spec.weakenPost (h a ha) fun _ _ hg => hg.2)
    fun _ _ hg => ⟨trivial, hg⟩

lemma mapEach {f : α → ExceptT ε (Program E) β} {R : α → β → Prop}
    (h : ∀ a ∈ as, Yields P I (f a) (R a)) :
    Yields P I (mapEach f as) fun bs => List.Forall₂ R as bs :=
  Spec.mapEach h

lemma foldEach {f : σ → α → ExceptT ε (Program E) σ} {J : σ → Prop}
    (h : ∀ s, ∀ a ∈ as, J s → Yields P I (f s a) J) {s : σ} (hs : J s) :
    Yields P I (foldEach f s as) J :=
  Spec.strengthenPre
    (Spec.foldEach (J := fun s g => J s ∧ I g) (fun s a ha g hg => h s a ha hg.1 g hg.2) s)
    fun _ hg => ⟨hs, hg⟩

end Yields

/-- If the protocol follows the world, what a program is specified to do holds of its runs. -/
lemma Spec.run {ω ι : Type} {P : Protocol E ω} {exec : Semantics E ω ι} {C : ι → Prop}
    (hfollows : ∀ w i op, C i → P.assumes w op (exec w i op).2 ∧
      (exec w i op).1 = P.observe w op (exec w i op).2)
    {A : ω → Prop} {x : ExceptT ε (Program E) α} {B : α → ω → Prop} {F : ε → ω → Prop}
    (h : Spec P A x B F) {choice : ℕ → ι} (hchoice : ∀ n, C (choice n)) {w : ω} (hw : A w) :
    Outcome B F (run exec x.run choice w).1 (run exec x.run choice w).2 := by
  have hstep : Complies P exec (fun i _ => C i) Eq := by
    rintro w g i op hi rfl -
    exact hfollows w i op hi
  obtain ⟨w', hw', hQ⟩ := run_of_wp hstep x.run w choice w hchoice rfl (h w hw)
  rw [hw']
  exact hQ

end Tugboat.Fallible
