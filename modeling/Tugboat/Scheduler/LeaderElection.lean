import Mathlib.Logic.Function.Basic
import Tugboat.Lib.Run
import Tugboat.Resources.Meta

/-!
# Leader election

Any number of schedulers may run, each under an identity of its own, and the holder of a Lease
leads.  It renews the Lease; another one takes it over when it finds that it was not renewed in
time.  Writes are PUTs of the version that was read, so only one of those that start from a version
goes through.

If the Lease names a holder and a time at the start, every later version names the elector that has
stored it, and took the place of another's only after that was expired by the clock of the elector
(`elects_safely`).  A Lease without a spec is won by a PUT that changes nothing
(`won_without_holder`).

A scheduler looks at the clock some time before its write is carried out, goes on leading until its
next attempt, and is not told of a write whose answer is lost.  Where they share a clock, what is
safe is the time for which a scheduler knows the Lease to be its own: no two are within it at once
(`leads_unique`).
-/

namespace Tugboat.LeaderElection

/-- Two such numbers add up in 64 bits without overflow. -/
def Bounded (n : ℤ) : Prop := -4611686018427387904 ≤ n ∧ n < 4611686018427387904
  deriving Decidable

abbrev Seconds := { n : ℤ // Bounded n }

/-- A reading of a clock. -/
structure Instant extends Time where
  bounded : Bounded seconds
  deriving DecidableEq, Repr

structure LeaseSpec where
  holderIdentity : String
  leaseDurationSeconds : Seconds
  acquireTime : Option Instant
  renewTime : Option Instant
  leaseTransitions : ℤ
  deriving DecidableEq, Repr

/-- A stored version of the Lease. -/
structure Version where
  spec : Option LeaseSpec
  revision : ℕ
  deriving DecidableEq, Repr

namespace Version

def holder (v : Version) : Option String := v.spec.map (·.holderIdentity)

/-- The source has a default for the duration, but nothing without a spec was renewed. -/
def expiry (v : Version) : Option ℤ :=
  v.spec.bind fun spec => spec.renewTime.map (·.seconds + spec.leaseDurationSeconds)

def expired (v : Version) (now : Instant) : Bool := v.expiry.all (· ≤ now.seconds)

/-- What a PUT makes of the version.  If it changes nothing, there is no new one. -/
def replace (v : Version) (spec : Option LeaseSpec) : Version :=
  if spec = v.spec then v else ⟨spec, v.revision + 1⟩

end Version

/-- Where an elector is in an attempt.  A renewal may be repeated; then it is known how often. -/
inductive Phase
  /-- It sends a GET. -/
  | reading (left : Option ℕ)
  | got (left : Option ℕ) (lease : Option Version)
  | creating (now : Instant)
  | expired (lease : Version)
  /-- A PUT for the version is on its way. -/
  | putting (left : Option ℕ) (lease : Version) (spec : Option LeaseSpec)

/-- The last two fields are for the statements; the source does not keep them. -/
structure LeaderElector where
  leaseDurationSeconds : Seconds
  isLeader : Bool := false
  phase : Phase := .reading none
  /-- The version that it was last told to have stored. -/
  won : Option Version := none
  /-- The reading of its clock by which it has last found the Lease of another expired. -/
  checked : Option Instant := none

/-- What becomes of a request: it is answered, or it fails without or with an effect. -/
inductive Fate
  | answered
  | failed
  | lost
  deriving DecidableEq, Repr

namespace LeaderElector

def resign (e : LeaderElector) : LeaderElector :=
  { e with isLeader := false, phase := .reading none }

/-- A write that is not refused. -/
def write (e : LeaderElector) (fate : Fate) (lease : Option Version) (v : Version) :
    Option Version × LeaderElector :=
  match fate with
  | .answered => (some v, { e with isLeader := true, phase := .reading none, won := v })
  | .failed => (lease, e.resign)
  | .lost => (some v, e.resign)

def renew (e : LeaderElector) (left : ℕ) (v : Version) (now : Instant) : LeaderElector :=
  { e with phase := .putting left v (v.spec.map ({ · with renewTime := now })) }

/-- The next part of `try_acquire_or_renew`: a request is carried out, or the elector looks at the
answer and at the clock. -/
def act (identity : String) (clock : Instant) (fate : Fate) (lease : Option Version)
    (e : LeaderElector) : Option Version × LeaderElector :=
  match e.phase with
  | .reading left =>
    (lease, if fate = .answered then { e with phase := .got left lease } else e.resign)
  | .got none none => (lease, { e with phase := .creating clock })
  | .got none (some v) =>
    (lease,
      if v.holder = identity then e.renew 4 v clock
      else if v.expired clock then { e with phase := .expired v, checked := clock }
      else e.resign)
  | .got (some (left + 1)) (some v) =>
    (lease, if v.holder = identity then e.renew left v clock else e.resign)
  | .got (some _) _ => (lease, e.resign)
  | .creating now =>
    if lease.isSome then (lease, e.resign)
    else e.write fate lease ⟨some ⟨identity, e.leaseDurationSeconds, now, now, 0⟩, 1⟩
  | .expired v =>
    (lease, { e with phase := .putting none v (v.spec.map fun spec =>
      ⟨identity, e.leaseDurationSeconds, clock, clock, spec.leaseTransitions + 1⟩) })
  | .putting left v spec =>
    if lease.map (·.revision) = v.revision then e.write fate lease (v.replace spec)
    else if fate = .answered ∧ lease.isSome ∧ left.isSome then
      (lease, { e with phase := .reading left })
    else (lease, e.resign)

end LeaderElector

/-- The electors by their identities, and the Lease. -/
structure Electors where
  lease : Option Version
  elector : String → LeaderElector

/-- The turn of an elector, with what its clock shows and what becomes of its request. -/
structure Turn where
  identity : String
  clock : Instant
  fate : Fate

namespace Electors

def start (lease : Option Version) (duration : String → Seconds) : Electors :=
  ⟨lease, fun k => { leaseDurationSeconds := duration k }⟩

def step (s : Electors) (turn : Turn) : Electors :=
  let r := (s.elector turn.identity).act turn.identity turn.clock turn.fate s.lease
  { lease := r.1, elector := Function.update s.elector turn.identity r.2 }

variable (s : Electors) (turn : Turn)

lemma elector_step_self : (s.step turn).elector turn.identity =
    ((s.elector turn.identity).act turn.identity turn.clock turn.fate s.lease).2 :=
  Function.update_self ..

lemma elector_step_of_ne {k : String} (h : k ≠ turn.identity) :
    (s.step turn).elector k = s.elector k :=
  Function.update_of_ne h ..

end Electors

/-! ## Versions -/

namespace Version

variable {u v w : Version} {clock clock' : Instant}

lemma spec_replace (v : Version) (spec : Option LeaseSpec) : (v.replace spec).spec = spec := by
  unfold replace
  split
  next h => exact h.symm
  · rfl

/-- The same version, or an earlier one. -/
def Before (v w : Version) : Prop := v = w ∨ v.revision < w.revision

lemma before_replace (v : Version) (spec : Option LeaseSpec) : v.Before (v.replace spec) := by
  unfold replace
  split
  · exact .inl rfl
  · exact .inr (Nat.lt_succ_self _)

lemma Before.trans (h : u.Before v) (h' : v.Before w) : u.Before w := by
  rcases h with rfl | h
  · exact h'
  · rcases h' with rfl | h'
    · exact .inr h
    · exact .inr (Nat.lt_trans h h')

lemma expired_iff : v.expired clock = true ↔ ∀ t, v.expiry = some t → t ≤ clock.seconds := by
  simp [expired, Option.all_eq_true]

end Version

/-! ## What electors rely on -/

/-- What is kept of the versions of the Lease: the times that have passed for an elector, by its
last check, the versions that may be stored, and how a renewed one compares with the one before. -/
structure View where
  Passed : Option Instant → ℤ → Prop
  Good : Version → Prop
  Extends : Version → Version → Prop

/-- The view goes with a reading of the clock. -/
structure View.Suits (view : View) (clock : Instant) : Prop where
  passed : ∀ t, t ≤ clock.seconds → view.Passed (some clock) t
  good : ∀ w spec, w.spec = some spec → spec.renewTime = some clock → view.Good w
  hasSpec : ∀ v, view.Good v → ∃ spec, v.spec = some spec
  renews : ∀ v spec, view.Good v → v.spec = some spec →
    view.Extends v (v.replace (some { spec with renewTime := some clock }))

section

variable {view view' : View} {identity : String} {checked : Option Instant} {clock : Instant}
  {lease lease' : Option Version} {v w : Version} {e : LeaderElector}

/-- The elector may store `w`: it renews its own Lease, or takes over one that is expired. -/
structure Stores (view : View) (identity : String) (checked : Option Instant)
    (lease : Option Version) (w : Version) : Prop where
  holder : w.holder = some identity
  good : view.Good w
  replaces : ∀ v, lease = some v → v.Before w ∧
    ((∀ t, v.expiry = some t → view.Passed checked t) ∨
      v.holder = some identity ∧ view.Extends v w)

/-- The version was stored. -/
def Past (view : View) (lease : Option Version) (v : Version) : Prop :=
  view.Good v ∧ ∃ u, lease = some u ∧ v.Before u

namespace LeaderElector

/-- What an elector knows of the version it works on. -/
def Knows (view : View) (identity : String) (lease : Option Version) (e : LeaderElector) : Prop :=
  match e.phase with
  | .reading _ => True
  | .got _ read => ∀ v, read = some v → Past view lease v
  | .creating now => ∀ w spec, w.spec = some spec → spec.renewTime = some now → view.Good w
  | .expired v => Past view lease v ∧ ∀ t, v.expiry = some t → view.Passed e.checked t
  | .putting _ v spec =>
    Past view lease v ∧ Stores view identity e.checked (some v) (v.replace spec)

/-- It stays so as more becomes known and later versions are stored. -/
lemma Knows.later (h : e.Knows view identity lease)
    (hpassed : ∀ t, view.Passed e.checked t → view'.Passed e.checked t)
    (hgood : ∀ v, view.Good v → view'.Good v)
    (hextends : ∀ v w, view.Extends v w → view'.Extends v w)
    (hlease : ∀ u, lease = some u → ∃ u', lease' = some u' ∧ u.Before u') :
    e.Knows view' identity lease' := by
  have hpast : ∀ v, Past view lease v → Past view' lease' v := by
    rintro v ⟨hv, u, hu, hbefore⟩
    obtain ⟨u', hu', hbefore'⟩ := hlease u hu
    exact ⟨hgood v hv, u', hu', hbefore.trans hbefore'⟩
  unfold Knows at h ⊢
  split
  · trivial
  next hphase =>
    rw [hphase] at h
    exact fun v hv => hpast v (h v hv)
  next hphase =>
    rw [hphase] at h
    exact fun w spec hw hnow => hgood w (h w spec hw hnow)
  next hphase =>
    rw [hphase] at h
    exact ⟨hpast _ h.1, fun t ht => hpassed t (h.2 t ht)⟩
  next hphase =>
    rw [hphase] at h
    exact ⟨hpast _ h.1, h.2.holder, hgood _ h.2.good, fun v hv =>
      ⟨(h.2.replaces v hv).1, (h.2.replaces v hv).2.imp (fun hall t ht => hpassed t (hall t ht))
        fun hown => ⟨hown.1, hextends _ _ hown.2⟩⟩⟩

/-- What one step of an elector may do. -/
structure Acts (view : View) (identity : String) (lease : Option Version) (e : LeaderElector)
    (r : Option Version × LeaderElector) : Prop where
  knows : r.2.Knows view identity lease
  lease : r.1 = lease ∨ ∃ w, r.1 = some w ∧ Stores view identity e.checked lease w
  won : r.2.won = e.won ∧ (r.2.isLeader = true → e.isLeader = true) ∨
    ∃ w, r.2.won = some w ∧ r.1 = some w ∧ w.holder = some identity

lemma acts_resign : Acts view identity lease e (lease, e.resign) :=
  ⟨trivial, .inl rfl, .inl ⟨rfl, fun h => by cases h⟩⟩

lemma acts_write (fate : Fate) (h : Stores view identity e.checked lease w) :
    Acts view identity lease e (e.write fate lease w) := by
  cases fate with
  | answered => exact ⟨trivial, .inr ⟨w, rfl, h⟩, .inr ⟨w, rfl, rfl, h.holder⟩⟩
  | failed => exact acts_resign
  | lost => exact ⟨trivial, .inr ⟨w, rfl, h⟩, .inl ⟨rfl, fun h => by cases h⟩⟩

/-- The elector goes on, and nothing is written. -/
lemma acts_of_knows {phase : Phase}
    (h : LeaderElector.Knows view identity lease { e with phase, checked }) :
    Acts view identity lease e (lease, { e with phase, checked }) :=
  ⟨h, .inl rfl, .inl ⟨rfl, id⟩⟩

lemma acts_renew (hview : view.Suits clock) (h : Past view lease v)
    (hholder : v.holder = some identity) (left : ℕ) :
    Acts view identity lease e (lease, e.renew left v clock) := by
  obtain ⟨spec, hspec⟩ := hview.hasSpec v h.1
  refine acts_of_knows ⟨h, ?_⟩
  rw [hspec, Option.map_some]
  have hnew := v.spec_replace (some { spec with renewTime := some clock })
  refine ⟨?_, hview.good _ _ hnew rfl, fun u hu => ?_⟩
  · rw [Version.holder, hspec] at hholder
    rw [Version.holder, hnew]
    exact hholder
  · cases hu
    exact ⟨v.before_replace _, .inr ⟨hholder, hview.renews v spec h.1 hspec⟩⟩

lemma acts_act (hview : view.Suits clock) (fate : Fate)
    (hlease : ∀ v, lease = some v → view.Good v) (h : e.Knows view identity lease) :
    Acts view identity lease e (e.act identity clock fate lease) := by
  unfold Knows at h
  unfold act
  split
  next =>
    split
    · exact acts_of_knows fun v hv => ⟨hlease v hv, v, hv, .inl rfl⟩
    · exact acts_resign
  next => exact acts_of_knows hview.good
  next v hphase =>
    rw [hphase] at h
    split
    next hholder => exact acts_renew hview (h v rfl) hholder 4
    split
    next hexpired =>
      exact acts_of_knows ⟨h v rfl, fun t ht =>
        hview.passed t (Version.expired_iff.1 hexpired t ht)⟩
    · exact acts_resign
  next left v hphase =>
    rw [hphase] at h
    split
    next hholder => exact acts_renew hview (h v rfl) hholder left
    · exact acts_resign
  next => exact acts_resign
  next now hphase =>
    rw [hphase] at h
    split
    · exact acts_resign
    next hnone =>
      refine acts_write fate ⟨rfl, h _ _ rfl rfl, fun v hv => ?_⟩
      rw [hv] at hnone
      exact absurd rfl hnone
  next v hphase =>
    rw [hphase] at h
    obtain ⟨spec, hspec⟩ := hview.hasSpec v h.1.1
    refine acts_of_knows ⟨h.1, ?_⟩
    rw [hspec, Option.map_some]
    have hnew := v.spec_replace
      (some ⟨identity, e.leaseDurationSeconds, clock, clock, spec.leaseTransitions + 1⟩)
    refine ⟨by rw [Version.holder, hnew]; rfl, hview.good _ _ hnew rfl, fun u hu => ?_⟩
    cases hu
    exact ⟨v.before_replace _, .inl h.2⟩
  next left v spec hphase =>
    rw [hphase] at h
    obtain ⟨⟨-, u, rfl, hbefore⟩, hstores⟩ := h
    split
    next hrevision =>
      -- a PUT that is not refused has started from the stored version
      rcases hbefore with rfl | hlt
      · exact acts_write fate hstores
      · exact absurd (Option.some.inj hrevision) (Nat.ne_of_gt hlt)
    split
    · exact acts_of_knows trivial
    · exact acts_resign

lemma Acts.later {r : Option Version × LeaderElector} (h : Acts view identity lease e r)
    (u : Version) (hu : lease = some u) : ∃ u', r.1 = some u' ∧ u.Before u' := by
  rcases h.lease with heq | ⟨w, hw, hstores⟩
  · exact ⟨u, heq.trans hu, .inl rfl⟩
  · exact ⟨w, hw, (hstores.replaces u hu).1⟩

end LeaderElector

end

namespace Electors

variable {s : Electors} {view : View} {turn : Turn}

/-- Every elector knows what it works on, and the Lease is one that may be stored. -/
structure Informed (view : View) (s : Electors) : Prop where
  good : ∀ v, s.lease = some v → view.Good v
  knows : ∀ k, (s.elector k).Knows view k s.lease

lemma Informed.acts (h : s.Informed view) (hview : view.Suits turn.clock) :
    (s.elector turn.identity).Acts view turn.identity s.lease
      ((s.elector turn.identity).act turn.identity turn.clock turn.fate s.lease) :=
  LeaderElector.acts_act hview turn.fate h.good (h.knows turn.identity)

lemma Informed.step (h : s.Informed view) (hview : view.Suits turn.clock) :
    (s.step turn).Informed view := by
  have hacts := h.acts hview
  refine ⟨fun v hv => ?_, fun j => ?_⟩
  · rcases hacts.lease with heq | ⟨w, hw, hstores⟩
    · exact h.good v (heq.symm.trans hv)
    · cases hw.symm.trans hv
      exact hstores.good
  · have hknows : ((s.step turn).elector j).Knows view j s.lease := by
      by_cases hj : j = turn.identity
      · subst hj
        rw [elector_step_self]
        exact hacts.knows
      · rw [elector_step_of_ne s turn hj]
        exact h.knows j
    exact hknows.later (fun _ h => h) (fun _ h => h) (fun _ _ h => h) hacts.later

/-! ## Electors with clocks of their own -/

/-- Each elector goes by its own clock, and every version has a time. -/
def ownClocks : View where
  Passed checked t := ∃ now, checked = some now ∧ t ≤ now.seconds
  Good v := v.expiry.isSome
  Extends _ _ := True

lemma suits_ownClocks (clock : Instant) : ownClocks.Suits clock where
  passed _ h := ⟨clock, rfl, h⟩
  good w spec hspec htime := by
    show w.expiry.isSome
    rw [Version.expiry, hspec, Option.bind_some, htime]
    rfl
  hasSpec v h := by
    obtain ⟨_, h⟩ := Option.isSome_iff_exists.1 h
    obtain ⟨spec, hspec, -⟩ := Option.bind_eq_some_iff.1 h
    exact ⟨spec, hspec⟩
  renews _ _ _ _ := trivial

/-- The turn leaves the Lease as it is, or stores a version that is new and names the elector.  That
takes the place of another's only if, by the clock of the elector, the other was expired. -/
def Writes (s : Electors) (turn : Turn) : Prop :=
  (s.step turn).lease = s.lease ∨ ∃ w, (s.step turn).lease = some w ∧
    w.holder = some turn.identity ∧ ∀ v, s.lease = some v → v.revision < w.revision ∧
      (v.holder ≠ some turn.identity → ∃ t now, v.expiry = some t ∧
        (s.elector turn.identity).checked = some now ∧ t ≤ now.seconds)

/-- The version that a leader has stored names it. -/
def Named (s : Electors) : Prop :=
  ∀ k, (s.elector k).isLeader = true → ∃ w, (s.elector k).won = some w ∧ w.holder = some k

lemma Informed.writes (h : s.Informed ownClocks) : s.Writes turn := by
  rcases (h.acts (suits_ownClocks turn.clock)).lease with heq | ⟨w, hw, hstores⟩
  · exact .inl heq
  by_cases hsame : s.lease = some w
  · exact .inl (hw.trans hsame.symm)
  refine .inr ⟨w, hw, hstores.holder, fun v hv => ?_⟩
  obtain ⟨hbefore, hreplaces⟩ := hstores.replaces v hv
  refine ⟨hbefore.resolve_left fun heq => hsame (heq ▸ hv), fun hother => ?_⟩
  obtain ⟨t, ht⟩ := Option.isSome_iff_exists.1 (h.good v hv)
  obtain ⟨now, hnow, hle⟩ := (hreplaces.resolve_right fun hown => hother hown.1) t ht
  exact ⟨t, now, ht, hnow, hle⟩

lemma Informed.named_step (h : s.Informed ownClocks) (hnamed : s.Named) : (s.step turn).Named := by
  intro k hk
  by_cases heq : k = turn.identity
  · subst heq
    rw [elector_step_self] at hk ⊢
    rcases (h.acts (suits_ownClocks turn.clock)).won with ⟨hwon, hleads⟩ | ⟨w, hwon, -, hholder⟩
    · obtain ⟨w, hw, hholder⟩ := hnamed _ (hleads hk)
      exact ⟨w, hwon.trans hw, hholder⟩
    · exact ⟨w, hwon, hholder⟩
  · rw [elector_step_of_ne s turn heq] at hk ⊢
    exact hnamed k hk

/-- **Leader election is safe**: from a Lease with a spec and a time, in every run, each version is
stored by one elector and names it, one that leads has stored a version that names it, and a Lease
is taken over only after it is expired by the clock of the elector. -/
theorem elects_safely (lease : Option Version) (hlease : ∀ v, lease = some v → v.expiry.isSome)
    (duration : String → Seconds) (turns : List Turn) :
    Run.AllStates step Named (start lease duration) turns ∧
      Run.AllSteps step Writes (start lease duration) turns := by
  have hstart : (start lease duration).Informed ownClocks ∧ (start lease duration).Named :=
    ⟨⟨hlease, fun _ => trivial⟩, fun _ h => by cases h⟩
  have hstep : ∀ (s : Electors) turn, s.Informed ownClocks ∧ s.Named → True →
      (s.step turn).Informed ownClocks ∧ (s.step turn).Named :=
    fun s turn h _ => ⟨h.1.step (suits_ownClocks turn.clock), h.1.named_step h.2⟩
  have hall : Run.AllSteps step (fun _ _ => True) (start lease duration) turns :=
    Run.allSteps_of_forall fun _ _ => trivial
  exact ⟨Run.AllStates.of_invariant hstep (fun _ h => h.2) _ turns hstart hall,
    Run.AllSteps.of_invariant hstep (fun _ _ h _ => h.1.writes) _ turns hstart hall⟩


/-! ### A Lease that names nobody -/

/-- An elector reads the Lease, looks at the clock, takes the Lease over and stores it. -/
def attempt (identity : String) : List Turn :=
  List.replicate 4 ⟨identity, ⟨⟨100, 0⟩, by decide⟩, .answered⟩

def quarterMinute (_ : String) : Seconds := ⟨15, by decide⟩

/-- The Lease of `b`, last renewed at the given time. -/
def leaseOfB (renewTime : Option Instant) : Version :=
  ⟨some ⟨"b", quarterMinute "b", none, renewTime, 0⟩, 1⟩

theorem elects_safely_takeOver :
    let lease := leaseOfB (some ⟨⟨80, 0⟩, by decide⟩)
    ((Run.exec step (start lease quarterMinute) (attempt "a")).elector "a").isLeader = true ∧
      Run.AllSteps step Writes (start lease quarterMinute) (attempt "a") :=
  ⟨by decide, (elects_safely _ (fun v hv => by cases hv; rfl) quarterMinute (attempt "a")).2⟩

/-- The Lease without a spec is not changed by the elector that leads then; and a Lease that has no
time is taken over at once. -/
theorem won_without_holder :
    ¬ (Run.exec step (start (some ⟨none, 1⟩) quarterMinute) (attempt "a")).Named ∧
      ¬ Run.AllSteps step Writes (start (leaseOfB none) quarterMinute) (attempt "a") := by
  constructor
  · intro h
    obtain ⟨w, hwon, hholder⟩ := h "a" (by decide)
    have hspecless : w = ⟨none, 1⟩ := Option.some.inj (hwon.symm.trans (by decide))
    rw [hspecless] at hholder
    cases hholder
  · rintro ⟨-, -, -, hwrites, -⟩
    rcases hwrites with heq | ⟨w, -, -, hreplaces⟩
    · exact absurd heq (by decide)
    · obtain ⟨t, _, ht, -⟩ := (hreplaces (leaseOfB none) (by decide)).2 (by decide)
      cases ht

end Electors

/-! ## Electors that share a clock -/

section

variable {clock clock' : Instant} {v : Version}

/-- The Lease was not renewed in the future. -/
def Version.Timely (clock : Instant) (v : Version) : Prop :=
  ∃ spec, v.spec = some spec ∧ ∀ t, spec.renewTime = some t → t.seconds ≤ clock.seconds

lemma Version.Timely.mono (hclock : clock.seconds ≤ clock'.seconds) (h : v.Timely clock) :
    v.Timely clock' :=
  h.imp fun _ h => ⟨h.1, fun t ht => Int.le_trans (h.2 t ht) hclock⟩

def sharedClock (clock : Instant) : View where
  Passed _ t := t ≤ clock.seconds
  Good v := v.Timely clock
  Extends v w := ∀ t, v.expiry = some t → ∃ t', w.expiry = some t' ∧ t ≤ t'

lemma suits_sharedClock (clock : Instant) : (sharedClock clock).Suits clock where
  passed _ h := h
  good w spec hspec htime := by
    refine ⟨spec, hspec, fun t ht => ?_⟩
    cases htime.symm.trans ht
    exact Int.le_refl _
  hasSpec v h := h.imp fun _ h => h.1
  renews v spec h hspec t ht := by
    obtain ⟨spec', hspec', htime⟩ := h
    cases hspec.symm.trans hspec'
    rw [Version.expiry, hspec, Option.bind_some, Option.map_eq_some_iff] at ht
    obtain ⟨renewTime, hrenewed, rfl⟩ := ht
    refine ⟨clock.seconds + spec.leaseDurationSeconds, ?_,
      Int.add_le_add_right (htime renewTime hrenewed) _⟩
    rw [Version.expiry, Version.spec_replace]
    rfl

end

structure State extends Electors where
  clock : Instant

inductive Event
  | tick (now : Instant)
  | act (identity : String) (fate : Fate)

namespace State

variable {s : State}

def step (s : State) : Event → State
  | .tick now => if s.clock.seconds ≤ now.seconds then { s with clock := now } else s
  | .act k fate => { s with toElectors := s.toElectors.step ⟨k, s.clock, fate⟩ }

/-- The elector leads, and the Lease that it has stored is not expired. -/
def Leads (s : State) (k : String) : Prop :=
  (s.elector k).isLeader = true ∧
    ∃ w t, (s.elector k).won = some w ∧ w.expiry = some t ∧ s.clock.seconds < t

/-- The time has passed, or the Lease is the elector's own and expires no earlier. -/
def Holds (s : State) (k : String) (t : ℤ) : Prop :=
  t ≤ s.clock.seconds ∨
    ∃ u t', s.lease = some u ∧ u.holder = some k ∧ u.expiry = some t' ∧ t ≤ t'

structure Sound (s : State) : Prop where
  informed : s.Informed (sharedClock s.clock)
  won : ∀ k w t, (s.elector k).won = some w → w.expiry = some t → s.Holds k t

lemma Sound.act (h : s.Sound) (k : String) (fate : Fate) : (s.step (.act k fate)).Sound := by
  let turn : Turn := ⟨k, s.clock, fate⟩
  have hview : (sharedClock s.clock).Suits turn.clock := suits_sharedClock s.clock
  have hacts := h.informed.acts hview
  have hkeeps : ∀ j t, s.Holds j t → (s.step (.act k fate)).Holds j t := by
    rintro j t (hle | ⟨u, t', hu, hholder, hexpiry, hle⟩)
    · exact .inl hle
    rcases hacts.lease with heq | ⟨w, hw, hstores⟩
    · exact .inr ⟨u, t', heq.trans hu, hholder, hexpiry, hle⟩
    rcases (hstores.replaces u hu).2 with hpassed | ⟨hown, hextends⟩
    · exact .inl (Int.le_trans hle (hpassed t' hexpiry))
    · obtain ⟨t'', hexpiry', hle'⟩ := hextends t' hexpiry
      cases hholder.symm.trans hown
      exact .inr ⟨w, t'', hw, hstores.holder, hexpiry', Int.le_trans hle hle'⟩
  refine ⟨h.informed.step hview, fun j w t hwon hexpiry => ?_⟩
  by_cases hj : j = k
  · subst hj
    replace hwon :=
      (congrArg LeaderElector.won (s.elector_step_self ⟨j, s.clock, fate⟩)).symm.trans hwon
    rcases hacts.won with ⟨heq, -⟩ | ⟨w', hwon', hlease, hholder⟩
    · exact hkeeps j t (h.won j w t (heq.symm.trans hwon) hexpiry)
    · cases hwon.symm.trans hwon'
      exact .inr ⟨w, t, hlease, hholder, hexpiry, Int.le_refl _⟩
  · replace hwon :=
      (congrArg LeaderElector.won (s.elector_step_of_ne ⟨k, s.clock, fate⟩ hj)).symm.trans hwon
    exact hkeeps j t (h.won j w t hwon hexpiry)

lemma Sound.step (h : s.Sound) (e : Event) : (s.step e).Sound := by
  cases e with
  | act k fate => exact h.act k fate
  | tick now =>
    rw [State.step]
    split
    next hclock =>
      refine ⟨⟨fun v hv => (h.informed.good v hv).mono hclock, fun k => ?_⟩,
        fun k w t hwon hexpiry => ?_⟩
      · exact (h.informed.knows k).later (fun _ hle => Int.le_trans hle hclock)
          (fun _ hv => Version.Timely.mono hclock hv) (fun _ _ h => h) fun u hu => ⟨u, hu, .inl rfl⟩
      · exact (h.won k w t hwon hexpiry).imp_left fun hle => Int.le_trans hle hclock
    · exact h

lemma Sound.leads_eq (h : s.Sound) {j k : String} (hj : s.Leads j) (hk : s.Leads k) : j = k := by
  obtain ⟨-, w, t, hwon, ht, hlt⟩ := hj
  obtain ⟨-, w', t', hwon', ht', hlt'⟩ := hk
  obtain ⟨u, _, hu, hholder, -⟩ := (h.won j w t hwon ht).resolve_left (Int.not_le.2 hlt)
  obtain ⟨u', _, hu', hholder', -⟩ := (h.won k w' t' hwon' ht').resolve_left (Int.not_le.2 hlt')
  cases hu.symm.trans hu'
  exact Option.some.inj (hholder.symm.trans hholder')

/-- **At most one scheduler leads within its Lease**, in every state of every run of any number of
schedulers with identities of their own, whichever requests fail and however late they are carried
out. -/
theorem leads_unique (clock : Instant) (duration : String → Seconds)
    (lease : { lease : Option Version // ∀ v, lease = some v → v.Timely clock })
    (events : List Event) :
    Run.AllStates State.step (fun s => ∀ j k, s.Leads j → s.Leads k → j = k)
      ⟨Electors.start lease duration, clock⟩ events := by
  refine Run.AllStates.of_invariant (I := Sound) (G := fun _ _ => True)
    (fun _ e h _ => h.step e) (fun _ h _ _ => h.leads_eq) _ events ?_
    (Run.allSteps_of_forall fun _ _ => trivial)
  exact ⟨⟨lease.2, fun _ => trivial⟩, fun _ _ _ hwon => by cases hwon⟩

end State

end Tugboat.LeaderElection
