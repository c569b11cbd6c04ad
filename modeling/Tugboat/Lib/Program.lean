import Mathlib.Tactic.Common

/-!
# Programs that call an interface

A component that talks to the outside world is the tree of what it may do: either it is `done`, or
it makes one `call` and goes on as the reply says.  An `Interface` lists the calls with the type of
each reply.  Source code written against a trait or a client object becomes a `Program` over the
interface of that trait, line by line in `do` notation; fallible code is `ExceptT ε (Program E)`.
`Program.run` executes it to the end with nothing happening in between; the threads of
`Lib/Concurrent.lean` execute it one call at a time.

A `Protocol` says which calls are `allowed` given what the program has seen so far, what it may take
for granted about the reply (`assumes`) and how the reply adds to what it has seen (`observe`).
`Program.wp P g p Q` says that `p`, having seen `g`, makes allowed calls only and ends with `Q`.  It
is computed by recursion on the tree, and `wp_bind` takes it through `do` blocks, so a handler's
obligation is proved along its own text.
-/

namespace Tugboat

variable {ε : Type}

/-- A block of fallible steps succeeds when its first step does and the rest does on its
result. -/
lemma bind_eq_ok_iff {α β : Type} {x : Except ε α} {f : α → Except ε β} {b : β} :
    (x >>= f) = .ok b ↔ ∃ a, x = .ok a ∧ f a = .ok b := by
  cases x with
  | error e | ok a => simp [bind, Except.bind]

lemma toOption_eq_some_iff {α : Type} {x : Except ε α} {a : α} :
    x.toOption = some a ↔ x = .ok a := by
  cases x with
  | error e | ok b => simp [Except.toOption]

lemma eq_ok_of_mapError {ε' α : Type} {f : ε → ε'} {x : Except ε α} {a : α}
    (h : x.mapError f = .ok a) : x = .ok a := by
  cases x with
  | ok b => exact congrArg Except.ok (Except.ok.inj h)
  | error e => cases h

/-- Fail with `e` unless the condition holds. -/
def ensure {ε : Type} (b : Bool) (e : ε) : Except ε Unit := if b then .ok () else .error e

@[simp] lemma ensure_eq_ok_iff {b : Bool} {e : ε} {u : Unit} : ensure b e = .ok u ↔ b = true := by
  cases b with
  | false | true => simp [ensure]

/-- The value, or fail with `e` if there is none. -/
def require {ε α : Type} (o : Option α) (e : ε) : Except ε α :=
  match o with
  | some a => .ok a
  | none => .error e

@[simp] lemma require_eq_ok_iff {α : Type} {o : Option α} {e : ε} {a : α} :
    require o e = .ok a ↔ o = some a := by
  cases o with
  | none | some b => simp [require]

/-- If the computation succeeds, its result has the property. -/
def Ensures {α : Type} (P : α → Prop) (x : Except ε α) : Prop := ∀ a, x = .ok a → P a

section Ensures

variable {α β : Type} {P : α → Prop} {Q : β → Prop} {x : Except ε α} {f : α → Except ε β}

lemma ensures_ok {a : α} (h : P a) : Ensures P (.ok a : Except ε α) :=
  fun _ heq => Except.ok.inj heq ▸ h

lemma ensures_error (e : ε) : Ensures P (.error e) := nofun

lemma Ensures.bind (hx : Ensures P x) (hf : ∀ a, P a → Ensures Q (f a)) : Ensures Q (x >>= f) := by
  intro b hb
  obtain ⟨a, ha, hb⟩ := bind_eq_ok_iff.1 hb
  exact hf a (hx a ha) b hb

/-- The rule for a first part that only has to succeed. -/
lemma ensures_bind (hf : ∀ a, Ensures Q (f a)) : Ensures Q (x >>= f) :=
  Ensures.bind (P := fun _ => True) (fun _ _ => trivial) fun a _ => hf a

lemma ensures_unless {c : Prop} [Decidable c] {e : ε} (h : ¬ c → Ensures P x) :
    Ensures P (if c then .error e else x) := by
  split
  · exact ensures_error e
  · exact h ‹_›

end Ensures

/-- The calls a component can make, each with the type of its reply. -/
structure Interface where
  /-- The calls. -/
  Op : Type
  /-- The reply to each call. -/
  Reply : Op → Type

inductive Program (E : Interface) (α : Type) : Type
  | done (a : α)
  | call (op : E.Op) (next : E.Reply op → Program E α)

namespace Program

variable {E : Interface} {α β ε γ ω ι : Type}

/-- Run `p`, then the program its result selects. -/
def bind : Program E α → (α → Program E β) → Program E β
  | done a, f => f a
  | call op next, f => call op fun r => (next r).bind f

instance : Monad (Program E) where
  pure := done
  bind := bind

@[simp] lemma call_bind (op : E.Op) (next : E.Reply op → Program E α) (f : α → Program E β) :
    call op next >>= f = call op fun r => next r >>= f := rfl

/-- The program has calls to make. -/
def running : Program E α → Bool
  | done _ => false
  | call _ _ => true

/-! ## Running a program on its own -/

/-- The semantics of an interface over worlds `ω`: what a call does to the world and what it
replies.  What the outside decides (a measurement, a failure) is the choice `ι`. -/
abbrev Semantics (E : Interface) (ω ι : Type) : Type :=
  ω → ι → (op : E.Op) → ω × E.Reply op

/-- Execute `p` to the end, the `n`-th call being made under the choice `choice n`. -/
def run (exec : Semantics E ω ι) : Program E α → (ℕ → ι) → ω → ω × α
  | done a, _, w => (w, a)
  | call op next, choice, w =>
    (next (exec w (choice 0) op).2).run exec (fun n => choice (n + 1)) (exec w (choice 0) op).1

/-- The calls `p` makes, each with the world it is made in. -/
def calls (exec : Semantics E ω ι) : Program E α → (ℕ → ι) → ω → List (ω × E.Op)
  | done _, _, _ => []
  | call op next, choice, w =>
    (w, op) :: (next (exec w (choice 0) op).2).calls exec (fun n => choice (n + 1))
      (exec w (choice 0) op).1

lemma run_bind_done (exec : Semantics E ω ι) (f : α → β) :
    ∀ (p : Program E α) (choice : ℕ → ι) (w : ω), run exec (p >>= fun a => done (f a)) choice w =
        ((run exec p choice w).1, f (run exec p choice w).2)
  | done _, _, _ => rfl
  | call _ next, _, _ => run_bind_done exec f (next _) _ _

/-- The choices that are left after the calls of `p`. -/
def choicesAfter (exec : Semantics E ω ι) (p : Program E α) (choice : ℕ → ι) (w : ω) : ℕ → ι :=
  fun n => choice (n + (calls exec p choice w).length)

section Sequence

variable (exec : Semantics E ω ι) (k : α → Program E β)

lemma run_bind (p : Program E α) (choice : ℕ → ι) (w : ω) : run exec (p >>= k) choice w =
    run exec (k (run exec p choice w).2) (choicesAfter exec p choice w)
      (run exec p choice w).1 := by
  induction p generalizing choice w with
  | done a => rfl
  | call op next ih => exact ih _ _ _

lemma calls_bind (p : Program E α) (choice : ℕ → ι) (w : ω) : calls exec (p >>= k) choice w =
    calls exec p choice w ++ calls exec (k (run exec p choice w).2) (choicesAfter exec p choice w)
      (run exec p choice w).1 := by
  induction p generalizing choice w with
  | done a => rfl
  | call op next ih => exact congrArg (_ :: ·) (ih _ _ _)

end Sequence

section Blocks

variable {exec : Semantics E ω ι} {x : ExceptT ε (Program E) α} {f : α → ExceptT ε (Program E) β}
  {choice : ℕ → ι} {w : ω} {a : α} {e : ε}

lemma run_block_of_ok (h : (run exec x.run choice w).2 = .ok a) :
    run exec (x >>= f).run choice w =
      run exec (f a).run (choicesAfter exec x.run choice w) (run exec x.run choice w).1 := by
  rw [ExceptT.run_bind, run_bind, h]

lemma calls_block_of_ok (h : (run exec x.run choice w).2 = .ok a) :
    calls exec (x >>= f).run choice w = calls exec x.run choice w ++
      calls exec (f a).run (choicesAfter exec x.run choice w) (run exec x.run choice w).1 := by
  rw [ExceptT.run_bind, calls_bind, h]

lemma run_block_of_error (h : (run exec x.run choice w).2 = .error e) :
    run exec (x >>= f).run choice w = ((run exec x.run choice w).1, .error e) := by
  rw [ExceptT.run_bind, run_bind, h]
  rfl

lemma calls_block_of_error (h : (run exec x.run choice w).2 = .error e) :
    calls exec (x >>= f).run choice w = calls exec x.run choice w := by
  rw [ExceptT.run_bind, calls_bind, h]
  exact List.append_nil _

/-- A block that succeeds has run its parts one after the other, and has made their calls. -/
lemma exists_of_run_bind_ok {b : β} (h : (run exec (x >>= f).run choice w).2 = .ok b) :
    ∃ a choice', (run exec x.run choice w).2 = .ok a ∧
      (run exec (f a).run choice' (run exec x.run choice w).1).2 = .ok b ∧
      calls exec x.run choice w ⊆ calls exec (x >>= f).run choice w ∧
      calls exec (f a).run choice' (run exec x.run choice w).1 ⊆
        calls exec (x >>= f).run choice w := by
  cases hx : (run exec x.run choice w).2 with
  | error e =>
    rw [run_block_of_error hx] at h
    cases h
  | ok a =>
    rw [run_block_of_ok hx] at h
    rw [calls_block_of_ok hx]
    exact ⟨a, _, rfl, h, List.subset_append_left _ _, List.subset_append_right _ _⟩

/-! ### Logs -/

variable {κ : Type} {view : E.Op → Option κ} {C : ω → Prop} {log log' : List κ} {R : α → Prop}
  {S : β → Prop}

/-- In worlds of the kind `C`, the block comes as far as it comes with the calls of `log`, seen
through `view`; if it succeeds, it has made all of them, and its result is as `R` says. -/
def Logs (exec : Semantics E ω ι) (view : E.Op → Option κ) (C : ω → Prop)
    (x : ExceptT ε (Program E) α) (log : List κ) (R : α → Prop) : Prop :=
  ∀ choice w, C w → C (run exec x.run choice w).1 ∧
    (calls exec x.run choice w).filterMap (fun c => view c.2) <+: log ∧
    ∀ a, (run exec x.run choice w).2 = .ok a →
      (calls exec x.run choice w).filterMap (fun c => view c.2) = log ∧ R a

namespace Logs

lemma pure (h : R a) : Logs exec view C (pure a : ExceptT ε (Program E) α) [] R :=
  fun _ _ hw => ⟨hw, List.nil_prefix, fun _ ha => ⟨rfl, Except.ok.inj ha ▸ h⟩⟩

lemma throw (e : ε) : Logs exec view C (throw e : ExceptT ε (Program E) α) log R :=
  fun _ _ hw => ⟨hw, List.nil_prefix, fun _ ha => nomatch ha⟩

lemma bind (hx : Logs exec view C x log R) (hf : ∀ a, R a → Logs exec view C (f a) log' S) :
    Logs exec view C (x >>= f) (log ++ log') S := by
  intro choice w hw
  obtain ⟨hw', hlog, hok⟩ := hx choice w hw
  cases hr : (run exec x.run choice w).2 with
  | error e =>
    rw [run_block_of_error hr, calls_block_of_error hr]
    exact ⟨hw', hlog.trans (List.prefix_append _ _), fun _ hb => nomatch hb⟩
  | ok a =>
    obtain ⟨heq, ha⟩ := hok a hr
    obtain ⟨hw'', hlog', hok'⟩ := hf a ha (choicesAfter exec x.run choice w) _ hw'
    rw [run_block_of_ok hr, calls_block_of_ok hr, List.filterMap_append, heq]
    refine ⟨hw'', (List.prefix_append_right_inj _).2 hlog', fun b hb => ?_⟩
    exact ⟨congrArg _ (hok' b hb).1, (hok' b hb).2⟩

/-- The rule for a first part of which nothing is seen. -/
lemma skip (hx : Logs exec view C x [] R) (hf : ∀ a, R a → Logs exec view C (f a) log' S) :
    Logs exec view C (x >>= f) log' S :=
  hx.bind hf

/-- The rule for a second part of which nothing is seen. -/
lemma last (hx : Logs exec view C x log R) (hf : ∀ a, R a → Logs exec view C (f a) [] S) :
    Logs exec view C (x >>= f) log S := by
  rw [← List.append_nil log]
  exact hx.bind hf

end Logs

end Blocks

end Program

/-! ## Protocols -/

/-- What a program may call after having seen `g : γ`, and what it has seen after the reply. -/
structure Protocol (E : Interface) (γ : Type) where
  /-- The calls that may be made. -/
  allowed : γ → E.Op → Prop
  /-- What is taken for granted about the reply to a call. -/
  assumes : γ → (op : E.Op) → E.Reply op → Prop
  /-- What has been seen once the reply is there. -/
  observe : γ → (op : E.Op) → E.Reply op → γ

/-- The protocol that allows every call and remembers nothing. -/
def Protocol.free (E : Interface) : Protocol E Unit where
  allowed _ _ := True
  assumes _ _ _ := True
  observe _ _ _ := ()

namespace Program

variable {E : Interface} {α β ε γ : Type} {P : Protocol E γ}

/-- `p`, having seen `g`, makes allowed calls only, and what it has seen at the end satisfies
`Q` together with the value it returns. -/
def wp (P : Protocol E γ) (g : γ) : Program E α → (γ → α → Prop) → Prop
  | done a, Q => Q g a
  | call op next, Q =>
    P.allowed g op ∧ ∀ r, P.assumes g op r → wp P (P.observe g op r) (next r) Q

@[simp] lemma wp_done (g : γ) (a : α) (Q : γ → α → Prop) :
    wp P g (done a) Q ↔ Q g a := Iff.rfl

@[simp] lemma wp_call (g : γ) (op : E.Op) (next : E.Reply op → Program E α) (Q : γ → α → Prop) :
    wp P g (call op next) Q ↔
      P.allowed g op ∧ ∀ r, P.assumes g op r → wp P (P.observe g op r) (next r) Q := Iff.rfl

variable {Q : γ → α → Prop}

lemma wp_mono {Q' : γ → α → Prop} (h : ∀ g a, Q g a → Q' g a) :
    ∀ (g : γ) (p : Program E α), wp P g p Q → wp P g p Q'
  | g, done a, hp => h g a hp
  | g, call op next, hp =>
    ⟨hp.1, fun r hr => wp_mono h (P.observe g op r) (next r) (hp.2 r hr)⟩

lemma wp_of_allowed {P' : Protocol E γ} (hallowed : ∀ g op, P.allowed g op → P'.allowed g op)
    (hassumes : ∀ g op r, P'.assumes g op r → P.assumes g op r)
    (hobserve : ∀ g op r, P.observe g op r = P'.observe g op r) :
    ∀ (g : γ) (p : Program E α), wp P g p Q → wp P' g p Q
  | _, done _, hp => hp
  | g, call op next, hp =>
    ⟨hallowed g op hp.1, fun r hr => hobserve g op r ▸
      wp_of_allowed hallowed hassumes hobserve _ (next r) (hp.2 r (hassumes g op r hr))⟩

lemma wp_bind (f : α → Program E β) (Q : γ → β → Prop) :
    ∀ (g : γ) (p : Program E α), wp P g (p >>= f) Q ↔ wp P g p fun g' a => wp P g' (f a) Q
  | _, done _ => Iff.rfl
  | g, call op next => by
    simp only [call_bind, wp_call]
    exact and_congr_right fun _ => forall_congr' fun r => imp_congr_right fun _ =>
      wp_bind f Q (P.observe g op r) (next r)

/-- The rule for sequential composition of fallible programs: an error ends the block. -/
lemma wp_run_bind (g : γ) (x : ExceptT ε (Program E) α) (f : α → ExceptT ε (Program E) β)
    (Q : γ → Except ε β → Prop) : wp P g (x >>= f).run Q ↔ wp P g x.run fun g' r =>
        match r with
        | .ok a => wp P g' (f a).run Q
        | .error e => Q g' (.error e) := by
  rw [ExceptT.run_bind, wp_bind]
  constructor
  · refine fun hp => wp_mono (fun g' r h => ?_) g x.run hp
    cases r with
    | ok a | error e => exact h
  · refine fun hp => wp_mono (fun g' r h => ?_) g x.run hp
    cases r with
    | ok a | error e => exact h

variable {ω ι : Type}

/-- The world replies as the protocol assumes.  `R` relates the world to what the program has seen,
and `C` are the choices the outside may make for a call. -/
def Complies (P : Protocol E γ) (exec : Semantics E ω ι) (C : ι → E.Op → Prop)
    (R : ω → γ → Prop) : Prop :=
  ∀ w g i op, C i op → R w g → P.allowed g op →
    P.assumes g op (exec w i op).2 ∧ R (exec w i op).1 (P.observe g op (exec w i op).2)

variable {exec : Semantics E ω ι} {R : ω → γ → Prop} {C : ι → Prop}

/-- What is shown of a program by `wp` holds of its runs, if the world complies. -/
lemma run_of_wp (hstep : Complies P exec (fun i _ => C i) R) :
    ∀ (p : Program E α) (g : γ) (choice : ℕ → ι) (w : ω), (∀ n, C (choice n)) → R w g →
      wp P g p Q → ∃ g', R (run exec p choice w).1 g' ∧ Q g' (run exec p choice w).2
  | done _, g, _, _, _, hR, hp => ⟨g, hR, hp⟩
  | call op next, g, choice, w, hC, hR, hp => by
    obtain ⟨hassumes, hR'⟩ := hstep w g (choice 0) op (hC 0) hR hp.1
    exact run_of_wp hstep (next _) _ _ _ (fun n => hC (n + 1)) hR' (hp.2 _ hassumes)

/-- What is shown by `wp` holds of a run whose calls are of a certain kind, if the world replies to
calls of that kind as the protocol assumes. -/
lemma run_of_wp_of_calls {D : E.Op → Prop} (hstep : Complies P exec (fun _ => D) R) :
    ∀ (p : Program E α) (g : γ) (choice : ℕ → ι) (w : ω),
      (∀ c ∈ calls exec p choice w, D c.2) → R w g →
      wp P g p Q → ∃ g', R (run exec p choice w).1 g' ∧ Q g' (run exec p choice w).2
  | done _, g, _, _, _, hR, hp => ⟨g, hR, hp⟩
  | call op next, g, choice, w, hD, hR, hp => by
    rw [calls, List.forall_mem_cons] at hD
    obtain ⟨hassumes, hR'⟩ := hstep w g (choice 0) op hD.1 hR hp.1
    exact run_of_wp_of_calls hstep (next _) _ _ _ hD.2 hR' (hp.2 _ hassumes)

/-- Every call of such a run is allowed by what the program has seen. -/
lemma allowed_of_mem_calls (hstep : Complies P exec (fun i _ => C i) R) :
    ∀ (p : Program E α) (g : γ) (choice : ℕ → ι) (w : ω), (∀ n, C (choice n)) → R w g →
      wp P g p Q → ∀ c ∈ calls exec p choice w, ∃ g', R c.1 g' ∧ P.allowed g' c.2
  | done _, _, _, _, _, _, _, _, hc => absurd hc (by simp [calls])
  | call op next, g, choice, w, hC, hR, hp, c, hc => by
    obtain ⟨hassumes, hR'⟩ := hstep w g (choice 0) op (hC 0) hR hp.1
    rcases List.mem_cons.1 hc with rfl | hc
    · exact ⟨g, hR, hp.1⟩
    · exact allowed_of_mem_calls hstep (next _) _ _ _ (fun n => hC (n + 1)) hR'
        (hp.2 _ hassumes) c hc

end Program

end Tugboat
