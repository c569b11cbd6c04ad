import Mathlib.Logic.Function.Basic
import Tugboat.Lib.Program
import Tugboat.Lib.Run

/-!
# Threads over a shared world

Any number of programs run over one world, one call at a time and in any order.  A `Config` is the
world together with what is left of each thread's program; `Config.step` makes the next call of the
chosen thread, or lets the world move by itself.  Each thread also carries what its `Protocol` has
observed: this record is for stating and proving only.

`Config.Keeps P R` is the shape of an invariant: each thread still makes allowed calls only, and `R`
holds between the world and what the thread has seen.  `Config.KeepsTo P R Q` also says that each
thread ends with `Q`.  `KeepsTo.step` reduces its preservation to the one call that is made, and to
what that call does to the facts the *other* threads rely on.
-/

namespace Tugboat

/-- The world, and for every thread what is left of its program and what it has seen. -/
structure Config (E : Interface) (κ ω γ α : Type) where
  /-- The shared world. -/
  world : ω
  /-- What is left of each thread's program. -/
  thread : κ → Program E α
  /-- What each thread has seen. -/
  seen : κ → γ

/-- One step of a configuration: a thread makes its next call under a choice of the outside,
or the world moves by itself. -/
inductive Event (κ ι η : Type) : Type
  | call (k : κ) (choice : ι)
  | tick (e : η)
  deriving DecidableEq, Repr

namespace Config

variable {E : Interface} {κ ω γ α ι η : Type} [DecidableEq κ]

/-- Thread `k` makes the call `op`, under `choice`, and is left with `next` of the reply. -/
def advance (exec : Program.Semantics E ω ι) (P : Protocol E γ) (c : Config E κ ω γ α)
    (k : κ) (choice : ι) (op : E.Op) (next : E.Reply op → Program E α) : Config E κ ω γ α :=
  let out := exec c.world choice op
  { world := out.1
    thread := Function.update c.thread k (next out.2)
    seen := Function.update c.seen k (P.observe (c.seen k) op out.2) }

/-- The step function of the system.  A thread that is done makes no more steps. -/
def step (exec : Program.Semantics E ω ι) (tick : ω → η → ω) (P : Protocol E γ)
    (c : Config E κ ω γ α) : Event κ ι η → Config E κ ω γ α
  | .tick e => { c with world := tick c.world e }
  | .call k choice =>
    match c.thread k with
    | .done _ => c
    | .call op next => c.advance exec P k choice op next

/-- Thread `k`, if it is done, begins the program `p`, having seen `g`. -/
def start (c : Config E κ ω γ α) (k : κ) (p : Program E α) (g : γ) : Config E κ ω γ α :=
  match c.thread k with
  | .done _ => { c with thread := Function.update c.thread k p, seen := Function.update c.seen k g }
  | .call _ _ => c

variable {exec : Program.Semantics E ω ι} {tick : ω → η → ω} {P : Protocol E γ}
  {R : ω → γ → Prop} {c : Config E κ ω γ α}

section Advance

variable {j k : κ} {choice : ι} {op : E.Op} {next : E.Reply op → Program E α}

lemma advance_seen_self : (c.advance exec P k choice op next).seen k =
    P.observe (c.seen k) op (exec c.world choice op).2 := Function.update_self ..

lemma advance_seen_of_ne (hj : j ≠ k) : (c.advance exec P k choice op next).seen j = c.seen j :=
  Function.update_of_ne hj ..

lemma advance_thread_of_ne (hj : j ≠ k) :
    (c.advance exec P k choice op next).thread j = c.thread j := Function.update_of_ne hj ..

end Advance

variable {k : κ}

lemma step_call_of_done {a : α} (choice : ι) (h : c.thread k = .done a) :
    c.step exec tick P (.call k choice) = c := by
  simp only [step, h]

variable {op : E.Op}

lemma step_call_of_call {next : E.Reply op → Program E α} (choice : ι)
    (h : c.thread k = .call op next) :
    c.step exec tick P (.call k choice) = c.advance exec P k choice op next := by
  simp only [step, h]

lemma start_of_call {next : E.Reply op → Program E α} (p : Program E α) (g : γ)
    (h : c.thread k = .call op next) : c.start k p g = c := by
  simp only [start, h]

section Start

variable {j k : κ} {p : Program E α} {g : γ}

lemma start_world : (c.start k p g).world = c.world := by
  unfold start
  split <;> rfl

lemma start_seen_self {a : α} (h : c.thread k = .done a) : (c.start k p g).seen k = g := by
  simp only [start, h, Function.update_self]

lemma start_seen_of_ne (hj : j ≠ k) : (c.start k p g).seen j = c.seen j := by
  unfold start
  split
  · exact Function.update_of_ne hj ..
  · rfl

lemma start_thread_of_ne (hj : j ≠ k) : (c.start k p g).thread j = c.thread j := by
  unfold start
  split
  · exact Function.update_of_ne hj ..
  · rfl

end Start

/-- Every thread makes allowed calls only from here on and ends with `Q`, and `R` holds between
the world and what each thread has seen. -/
def KeepsTo (P : Protocol E γ) (R : ω → γ → Prop) (Q : γ → α → Prop) (c : Config E κ ω γ α) :
    Prop :=
  ∀ k, R c.world (c.seen k) ∧ (c.thread k).wp P (c.seen k) Q

/-- Every thread makes allowed calls only from here on, and `R` holds between the world and
what each thread has seen. -/
def Keeps (P : Protocol E γ) (R : ω → γ → Prop) (c : Config E κ ω γ α) : Prop :=
  ∀ k, R c.world (c.seen k) ∧ (c.thread k).wp P (c.seen k) fun _ _ => True

variable {Q : γ → α → Prop}

omit [DecidableEq κ] in
lemma KeepsTo.allowed (h : c.KeepsTo P R Q) {next : E.Reply op → Program E α}
    (hk : c.thread k = .call op next) : P.allowed (c.seen k) op := by
  have hwp := (h k).2
  rw [hk, Program.wp_call] at hwp
  exact hwp.1

/-- A call keeps the invariant when its reply is as assumed, when `R` holds afterwards for the
caller with what it has now seen, and when the facts of the other threads survive. -/
lemma KeepsTo.advance (h : c.KeepsTo P R Q) (choice : ι) {next : E.Reply op → Program E α}
    (hk : c.thread k = .call op next) (hassume : P.assumes (c.seen k) op (exec c.world choice op).2)
    (hown : R (exec c.world choice op).1 (P.observe (c.seen k) op (exec c.world choice op).2))
    (hother : ∀ j, j ≠ k → R (exec c.world choice op).1 (c.seen j)) :
    (c.advance exec P k choice op next).KeepsTo P R Q := by
  intro j
  by_cases hj : j = k
  · subst hj
    have hwp := (h j).2
    rw [hk, Program.wp_call] at hwp
    simp only [advance, Function.update_self]
    exact ⟨hown, hwp.2 _ hassume⟩
  · simp only [Config.advance, Function.update_of_ne hj]
    exact ⟨hother j hj, (h j).2⟩

/-- What `KeepsTo.advance` asks of the call that a step makes. -/
abbrev CallRespects (exec : ω → ι → (op : E.Op) → ω × E.Reply op) (P : Protocol E γ)
    (R : ω → γ → Prop) (c : Config E κ ω γ α) (e : Event κ ι η) : Prop :=
  ∀ (k : κ) (choice : ι) (op : E.Op) (next : E.Reply op → Program E α),
    e = .call k choice → c.thread k = .call op next → P.allowed (c.seen k) op →
      P.assumes (c.seen k) op (exec c.world choice op).2 ∧
      R (exec c.world choice op).1 (P.observe (c.seen k) op (exec c.world choice op).2) ∧
      ∀ j, j ≠ k → R (exec c.world choice op).1 (c.seen j)

/-- **The step rule.**  The invariant survives a step if the call it makes and the moves of the
world respect `R`. -/
theorem KeepsTo.step (h : c.KeepsTo P R Q) (e : Event κ ι η)
    (hcall : CallRespects exec P R c e)
    (htick : ∀ x, e = .tick x → ∀ k, R (tick c.world x) (c.seen k)) :
    (c.step exec tick P e).KeepsTo P R Q := by
  cases e with
  | tick x => exact fun k => ⟨htick x rfl k, (h k).2⟩
  | call k choice =>
    cases hk : c.thread k with
    | done a => rw [step_call_of_done choice hk]; exact h
    | call op next =>
      rw [step_call_of_call choice hk]
      obtain ⟨hassume, hown, hother⟩ :=
        hcall k choice op next rfl hk (h.allowed hk)
      exact h.advance choice hk hassume hown hother

/-- A new program keeps the invariant if it makes allowed calls only. -/
lemma KeepsTo.start (h : c.KeepsTo P R Q) (k : κ) {p : Program E α} {g : γ}
    (hR : R c.world g) (hp : p.wp P g Q) : (c.start k p g).KeepsTo P R Q := by
  unfold Config.start
  split
  · intro j
    by_cases hj : j = k
    · subst hj
      simp only [Function.update_self]
      exact ⟨hR, hp⟩
    · simp only [Function.update_of_ne hj]
      exact h j
  · exact h

lemma Keeps.start (h : c.Keeps P R) (k : κ) {p : Program E α} {g : γ} (hR : R c.world g)
    (hp : p.wp P g fun _ _ => True) : (c.start k p g).Keeps P R :=
  KeepsTo.start h k hR hp

omit [DecidableEq κ] in
lemma Keeps.allowed (h : c.Keeps P R) {next : E.Reply op → Program E α}
    (hk : c.thread k = .call op next) : P.allowed (c.seen k) op :=
  KeepsTo.allowed h hk

/-- The step rule where nothing is asked of how threads end. -/
theorem Keeps.step (h : c.Keeps P R) (e : Event κ ι η)
    (hcall : CallRespects exec P R c e)
    (htick : ∀ x, e = .tick x → ∀ k, R (tick c.world x) (c.seen k)) :
    (c.step exec tick P e).Keeps P R :=
  KeepsTo.step h e hcall htick

end Config

end Tugboat
