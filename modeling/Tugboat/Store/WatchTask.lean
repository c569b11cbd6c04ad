import Tugboat.Lib.Run
import Tugboat.Store.Watch

/-!
# The task behind a watch

The task that `get_from_start_revision` spawns subscribes to the key-value store, emits the events
of the responses, and subscribes again when the stream ends.  What it subscribes from then is
`currentRevision`: the start revision at first, later the revision after the header of the last
response.

The header has the revision of the store, and not that up to which the stream has sent its events: a
stream that catches up sends old changes in several responses, and a stream that is cancelled after
a compaction sends a response without any.  And a task without a start revision has none to resume
from before the first response.  `WatchTask.gapFree` says that nothing else goes wrong.

A transaction writes all its changes at one revision, and a response has all changes of a revision
or none.
-/

namespace Tugboat

variable {D : Type}

def emittedEvents (rs : List (StoreReport D)) : List (WatchEvent (KeyValue D)) :=
  rs.filterMap Report.storeEvent

/-- A watch task and the part of the key-value store under its key. -/
structure WatchTask (D : Type) where
  /-- All changes under the key so far, and the revision of the store. -/
  history : List (StoreReport D) := []
  now : ℕ := 0
  currentRevision : Option ℕ
  /-- The open stream: the first revision it has still to send. -/
  stream : Option ℕ := none
  emitted : List (WatchEvent (KeyValue D)) := []
  /-- The first revision whoever follows the task wants to hear of: the start revision, or without
  one the next revision when the first stream was opened. -/
  owedFrom : Option ℕ
  deriving Repr

inductive WatchTask.Event (D : Type)
  /-- A transaction with its changes under the key. -/
  | write (changes : List (StoreReport D))
  | subscribe
  | subscribeError
  /-- A response with the changes up to a revision.  A cancellation is a response without any. -/
  | response (upto : ℕ) (header : Option ℕ)
  /-- The stream ends, or an error is read from it. -/
  | streamEnd
  deriving Repr

namespace WatchTask

def spawn (history : List (StoreReport D)) (now : ℕ) (startRevision : Option ℕ) :
    WatchTask D :=
  { history, now, currentRevision := startRevision, owedFrom := startRevision }

/-- Where a stream that is opened now starts. -/
def resumesFrom (task : WatchTask D) : ℕ :=
  firstWatched (task.currentRevision.map Int.ofNat) task.now

/-- After a transaction. -/
def written (task : WatchTask D) (changes : List (StoreReport D)) : WatchTask D :=
  { task with history := task.history ++ changes, now := task.now + 1 }

/-- With a new stream. -/
def subscribed (task : WatchTask D) : WatchTask D :=
  { task with
    stream := some task.resumesFrom
    owedFrom := task.owedFrom.or (some (task.now + 1)) }

/-- After a response of a stream that has sent what is before `next`. -/
def received (task : WatchTask D) (next upto : ℕ) (header : Option ℕ) : WatchTask D :=
  { task with
    stream := some (if next ≤ upto then upto + 1 else next)
    currentRevision := (header.map (· + 1)).or task.currentRevision
    emitted := task.emitted ++ emittedEvents
      ((changesFrom next task.history).filter fun r => r.change.revision ≤ upto) }

def ended (task : WatchTask D) : WatchTask D := { task with stream := none }

def step (task : WatchTask D) : Event D → WatchTask D
  | .write changes =>
    if ∀ r ∈ changes, r.change.revision = task.now + 1 then task.written changes else task
  | .subscribe => if task.stream = none then task.subscribed else task
  | .subscribeError => task
  | .response upto header =>
    match task.stream with
    | none => task
    | some next =>
      -- neither the events nor the header are of a revision that does not exist yet
      if upto ≤ task.now ∧ header.all (· ≤ task.now) then task.received next upto header
      else task
  | .streamEnd => task.ended

/-- What should be emitted. -/
def owed (task : WatchTask D) : List (StoreReport D) :=
  task.owedFrom.elim [] fun first => changesFrom first task.history

/-- The first revision of which the task has still to be told: by the open stream, or by the next
one. -/
def position (task : WatchTask D) : ℕ := task.stream.getD task.resumesFrom

/-- What was emitted, and what the task is still going to be told, is what should be emitted, each
change once and in order. -/
def GapFree (task : WatchTask D) : Prop :=
  task.emitted ++ emittedEvents (changesFrom task.position task.history) =
    emittedEvents task.owed

def hasRevision (task : WatchTask D) : Bool := task.currentRevision.any (0 < ·)

/-- What keeps a task from losing or repeating changes.  A header names a revision up to which all
changes, and no others, have been sent (without a header, nothing), and not one before the start;
and as long as there is no revision to resume from, no change is left unsent by a stream or made
between streams. -/
def Safe (task : WatchTask D) : Event D → Prop
  | .write changes => task.stream = none → task.owedFrom ≠ none →
      task.hasRevision = true ∨ changes = []
  | .subscribe | .subscribeError => True
  | .response upto (some revision) => ∀ next ∈ task.stream, next ≤ revision + 1 ∧
      ∀ r ∈ changesFrom next task.history, r.change.revision ≤ upto ↔ r.change.revision ≤ revision
  | .response upto none => ∀ next ∈ task.stream,
      ∀ r ∈ changesFrom next task.history, ¬ r.change.revision ≤ upto
  | .streamEnd => ∀ next ∈ task.stream, task.hasRevision = true ∨ changesFrom next task.history = []

instance (task : WatchTask D) : ∀ event, Decidable (task.Safe event) := by
  intro e
  unfold Safe
  split <;> infer_instance

/-! ## The invariant -/

/-- Two revisions to start from that cannot be told apart, now or later. -/
structure SameStart (history : List (StoreReport D)) (now : ℕ) (a b : ℕ) :
    Prop where
  past : changesFrom a history = changesFrom b history
  future : (a ≤ now + 1 ∧ b ≤ now + 1) ∨ a = b

/-- What holds in every state of a run with safe steps. -/
structure Sound (task : WatchTask D) : Prop where
  ordered : task.history.Pairwise fun r r' => r.change.revision ≤ r'.change.revision
  written : ∀ r ∈ task.history, r.change.revision ≤ task.now
  gapFree : task.GapFree
  owed : ∀ first ∈ task.owedFrom,
    (task.position ≤ task.now + 1 ∧ first ≤ task.now + 1) ∨ task.position = first
  unsubscribed : task.owedFrom = none → task.stream = none ∧ task.currentRevision = none
  resumes : ∀ next ∈ task.stream, task.hasRevision = true →
    SameStart task.history task.now next task.resumesFrom
  fresh : ∀ next ∈ task.stream, task.hasRevision = false → next ≤ task.now + 1

/-! ### Revisions -/

section

variable {task : WatchTask D}

/-- With a revision to resume from, time does not matter. -/
lemma resumesFrom_of_hasRevision (h : task.hasRevision = true) :
    ∃ revision, 0 < revision ∧ task.currentRevision = some revision ∧
      task.resumesFrom = revision := by
  obtain ⟨revision, hcurrent, hpos⟩ := (Option.any_eq_true _ _).1 h
  have hpos := of_decide_eq_true hpos
  refine ⟨revision, hpos, hcurrent, ?_⟩
  rw [resumesFrom, hcurrent]
  show firstWatched (some (revision : Int)) task.now = revision
  rw [firstWatched_natCast, if_neg (Nat.ne_of_gt hpos)]

/-- Without one, a new stream starts with what comes next. -/
lemma resumesFrom_of_not_hasRevision (h : task.hasRevision = false) :
    task.resumesFrom = task.now + 1 := by
  rw [resumesFrom]
  cases hcurrent : task.currentRevision with
  | none => rfl
  | some revision =>
    show firstWatched (some (revision : Int)) task.now = task.now + 1
    rw [hasRevision, hcurrent, Option.any_some, decide_eq_false_iff_not] at h
    rw [firstWatched_natCast, if_pos (by omega)]

variable {first : ℕ} {r : StoreReport D}

lemma changesFrom_cons_of_le (h : first ≤ r.change.revision) (history : List (StoreReport D)) :
    changesFrom first (r :: history) = r :: changesFrom first history :=
  List.filter_cons_of_pos (decide_eq_true h)

lemma changesFrom_cons_of_lt (h : ¬ first ≤ r.change.revision) (history : List (StoreReport D)) :
    changesFrom first (r :: history) = changesFrom first history :=
  List.filter_cons_of_neg (by simpa using h)

lemma emittedEvents_append (rs rs' : List (StoreReport D)) :
    emittedEvents (rs ++ rs') = emittedEvents rs ++ emittedEvents rs' :=
  List.filterMap_append ..

variable {changes : List (StoreReport D)} {now : ℕ}

lemma changesFrom_eq_of_future {a b : ℕ} (hchanges : ∀ r ∈ changes, r.change.revision = now + 1)
    (h : (a ≤ now + 1 ∧ b ≤ now + 1) ∨ a = b) :
    changesFrom a changes = changesFrom b changes := by
  refine List.filter_congr fun r hr => ?_
  rw [hchanges r hr, decide_eq_decide]
  omega

variable {history : List (StoreReport D)}

lemma SameStart.write {a b : ℕ} (h : SameStart history now a b)
    (hchanges : ∀ r ∈ changes, r.change.revision = now + 1) :
    SameStart (history ++ changes) (now + 1) a b where
  past := by
    rw [changesFrom_append, changesFrom_append, h.past, changesFrom_eq_of_future hchanges h.future]
  future := by
    have hfuture := h.future
    omega

/-! ### One step -/

lemma resumesFrom_written (h : task.hasRevision = true) (changes : List (StoreReport D)) :
    (task.written changes).resumesFrom = task.resumesFrom := by
  obtain ⟨revision, -, hcurrent, hresumes⟩ := resumesFrom_of_hasRevision h
  obtain ⟨revision', -, hcurrent', hresumes'⟩ :=
    resumesFrom_of_hasRevision (show (task.written changes).hasRevision = true from h)
  cases hcurrent.symm.trans hcurrent'
  rw [hresumes, hresumes']

lemma position_of_unresumable (hstream : task.stream = none) (h : task.hasRevision = false) :
    task.position = task.now + 1 := by
  rw [position, hstream, Option.getD_none, resumesFrom_of_not_hasRevision h]

lemma changesFrom_position_eq_nil (hwritten : ∀ r ∈ task.history, r.change.revision ≤ task.now)
    (hstream : task.stream = none) (h : task.hasRevision = false) :
    changesFrom task.position task.history = [] := by
  rw [position_of_unresumable hstream h]
  exact changesFrom_eq_nil hwritten (Nat.lt_succ_self _)

section

variable (h : task.Sound) (hchanges : ∀ r ∈ changes, r.change.revision = task.now + 1)

include h hchanges

lemma Sound.written_le :
    ∀ r ∈ (task.written changes).history, r.change.revision ≤ (task.written changes).now := by
  intro r hr
  show r.change.revision ≤ task.now + 1
  rcases List.mem_append.1 hr with hr | hr
  · exact Nat.le_succ_of_le (h.written r hr)
  · exact Nat.le_of_eq (hchanges r hr)

lemma Sound.ordered_written : (task.written changes).history.Pairwise
      fun r r' => r.change.revision ≤ r'.change.revision := by
  refine List.pairwise_append.2 ⟨h.ordered, ?_, fun r hr r' hr' => ?_⟩
  · refine List.pairwise_iff_forall_sublist.2 fun {r r'} hsub => ?_
    rw [hchanges r (hsub.subset List.mem_cons_self),
      hchanges r' (hsub.subset (List.mem_cons_of_mem _ List.mem_cons_self))]
  · rw [hchanges r' hr']
    exact Nat.le_succ_of_le (h.written r hr)

lemma Sound.write (hsafe : task.Safe (.write changes)) : (task.written changes).Sound := by
  have hwritten := h.written_le hchanges
  have hresumes : ∀ next ∈ task.stream, task.hasRevision = true →
      SameStart (task.history ++ changes) (task.now + 1) next
        (task.written changes).resumesFrom := by
    intro next hnext hrevision
    rw [resumesFrom_written hrevision]
    exact (h.resumes next hnext hrevision).write hchanges
  have hfresh : ∀ next ∈ task.stream, task.hasRevision = false → next ≤ task.now + 1 + 1 :=
    fun next hnext hrevision => Nat.le_succ_of_le (h.fresh next hnext hrevision)
  by_cases hmoves : task.stream ≠ none ∨ task.hasRevision = true
  · have hposition : (task.written changes).position = task.position := by
      show task.stream.getD (task.written changes).resumesFrom = task.position
      rw [position]
      cases hstream : task.stream with
      | some next => rfl
      | none => exact resumesFrom_written (hmoves.resolve_left (not_not.2 hstream)) changes
    refine ⟨h.ordered_written hchanges, hwritten, ?_, fun first hfirst => ?_, h.unsubscribed,
      hresumes, hfresh⟩
    · cases howed : task.owedFrom with
      | some first =>
        -- a change is owed if and only if it is still to come
        have hgap := h.gapFree
        rw [GapFree, WatchTask.owed, howed, Option.elim_some] at hgap
        have howed' : (task.written changes).owedFrom = some first := howed
        have hsame := changesFrom_eq_of_future hchanges (h.owed first howed)
        rw [GapFree, WatchTask.owed, howed', hposition, Option.elim_some]
        show task.emitted ++ emittedEvents (changesFrom task.position (task.history ++ changes)) =
          emittedEvents (changesFrom first (task.history ++ changes))
        rw [changesFrom_append, changesFrom_append, emittedEvents_append, emittedEvents_append,
          ← List.append_assoc, hgap, hsame]
      | none =>
        obtain ⟨hstream, hcurrent⟩ := h.unsubscribed howed
        exact absurd hmoves (by simp [hstream, hasRevision, hcurrent])
    · have hfuture := h.owed first hfirst
      rw [hposition]
      show (task.position ≤ task.now + 1 + 1 ∧ first ≤ task.now + 1 + 1) ∨ task.position = first
      omega
  · -- no stream and nothing to resume from: nothing is owed, or only other keys were written
    obtain ⟨hstream, hrevision⟩ : task.stream = none ∧ task.hasRevision = false := by
      simpa using hmoves
    have howed : (task.written changes).owed = task.owed := by
      show task.owedFrom.elim [] (changesFrom · (task.history ++ changes)) = task.owed
      rw [WatchTask.owed]
      cases howed : task.owedFrom with
      | none => rfl
      | some first =>
        have hempty := (hsafe hstream (by simp [howed])).resolve_left (by simp [hrevision])
        rw [hempty, List.append_nil]
    have hposition : (task.written changes).position = task.now + 1 + 1 :=
      position_of_unresumable hstream hrevision
    refine ⟨h.ordered_written hchanges, hwritten, ?_, fun first hfirst => ?_, h.unsubscribed,
      hresumes, hfresh⟩
    · have hgap := h.gapFree
      rw [GapFree, changesFrom_position_eq_nil h.written hstream hrevision, ← howed] at hgap
      rw [GapFree, changesFrom_position_eq_nil hwritten hstream hrevision]
      exact hgap
    · have hfuture := h.owed first hfirst
      rw [position_of_unresumable hstream hrevision] at hfuture
      rw [hposition]
      show (_ ≤ task.now + 1 + 1 ∧ first ≤ task.now + 1 + 1) ∨ _ = first
      omega

end

lemma Sound.subscribe (h : task.Sound) (hstream : task.stream = none) : task.subscribed.Sound := by
  have hposition : task.position = task.resumesFrom := by
    rw [position, hstream, Option.getD_none]
  obtain ⟨first, hfirst, hfuture, howed⟩ : ∃ first, task.subscribed.owedFrom = some first ∧
      ((task.resumesFrom ≤ task.now + 1 ∧ first ≤ task.now + 1) ∨ task.resumesFrom = first) ∧
      changesFrom first task.history = task.owed := by
    rw [subscribed, WatchTask.owed]
    cases howed : task.owedFrom with
    | some first => exact ⟨first, rfl, hposition ▸ h.owed first howed, rfl⟩
    | none =>
      -- the first stream without a start revision: from now on, changes are owed
      refine ⟨task.now + 1, rfl, .inr (resumesFrom_of_not_hasRevision ?_), ?_⟩
      · rw [hasRevision, (h.unsubscribed howed).2]
        rfl
      · exact changesFrom_eq_nil h.written (Nat.lt_succ_self _)
  refine ⟨h.ordered, h.written, ?_, fun first' hfirst' => ?_, fun hnone => ?_,
    fun next hnext _ => ?_, fun next hnext hrevision => ?_⟩
  · have hgap := h.gapFree
    rw [GapFree, hposition, ← howed] at hgap
    rw [GapFree, WatchTask.owed, hfirst]
    exact hgap
  · cases hfirst.symm.trans hfirst'
    exact hfuture
  · cases hfirst.symm.trans hnone
  · cases hnext
    exact ⟨rfl, .inr rfl⟩
  · cases hnext
    have hnone : task.hasRevision = false := hrevision
    exact Nat.le_of_eq (resumesFrom_of_not_hasRevision hnone)

lemma Sound.streamEnd (h : task.Sound) (hsafe : task.Safe .streamEnd) : task.ended.Sound := by
  cases hstream : task.stream with
  | none =>
    have hended : task.ended = task := by rw [ended, ← hstream]
    rwa [hended]
  | some next =>
    have hposition : task.position = next := by rw [position, hstream, Option.getD_some]
    have hsame : SameStart task.history task.now next task.resumesFrom := by
      by_cases hrevision : task.hasRevision = true
      · exact h.resumes next hstream hrevision
      have hfresh := h.fresh next hstream (Bool.not_eq_true _ ▸ hrevision)
      have hfrom := resumesFrom_of_not_hasRevision (Bool.not_eq_true _ ▸ hrevision)
      refine ⟨?_, .inl ⟨hfresh, Nat.le_of_eq hfrom⟩⟩
      rw [(hsafe next hstream).resolve_left hrevision, hfrom,
        changesFrom_eq_nil h.written (Nat.lt_succ_self _)]
    refine ⟨h.ordered, h.written, ?_, fun first hfirst => ?_, fun hnone => ?_,
      fun next hnext => ?_, fun next hnext => ?_⟩
    · have hgap := h.gapFree
      rw [GapFree, hposition, hsame.past] at hgap
      exact hgap
    · have hfuture := h.owed first hfirst
      have hfuture' := hsame.future
      rw [hposition] at hfuture
      show (task.resumesFrom ≤ task.now + 1 ∧ first ≤ task.now + 1) ∨ task.resumesFrom = first
      omega
    · have hunsubscribed := (h.unsubscribed hnone).1
      cases hstream.symm.trans hunsubscribed
    · cases hnext
    · cases hnext

/-- What a response sends and what is then still to come is what was to come before. -/
lemma changesFrom_split
    (hsorted : history.Pairwise fun r r' => r.change.revision ≤ r'.change.revision)
    (next upto : ℕ) : (changesFrom next history).filter (fun r => r.change.revision ≤ upto) ++
      changesFrom (if next ≤ upto then upto + 1 else next) history = changesFrom next history := by
  induction history with
  | nil => rfl
  | cons r history ih =>
    obtain ⟨hfirst, hrest⟩ := List.pairwise_cons.1 hsorted
    by_cases hsent : r.change.revision ≤ upto
    · -- the first change is sent, or it is older than what the stream sends
      have hlater : ¬ (if next ≤ upto then upto + 1 else next) ≤ r.change.revision := by
        split <;> omega
      rw [changesFrom_cons_of_lt hlater]
      by_cases hnext : next ≤ r.change.revision
      · rw [changesFrom_cons_of_le hnext, List.filter_cons_of_pos (by simpa using hsent),
          List.cons_append, ih hrest]
      · rw [changesFrom_cons_of_lt hnext, ih hrest]
    · -- no change is sent
      have hafter : ∀ x ∈ r :: history, upto < x.change.revision := by
        intro x hx
        rcases List.mem_cons.1 hx with rfl | hx
        · exact Nat.lt_of_not_le hsent
        · exact Nat.lt_of_lt_of_le (Nat.lt_of_not_le hsent) (hfirst x hx)
      have hnone : (changesFrom next (r :: history)).filter
          (fun x => x.change.revision ≤ upto) = [] := by
        refine List.filter_eq_nil_iff.2 fun x hx => ?_
        have hx := hafter x (List.mem_filter.1 hx).1
        simpa using hx
      rw [hnone, List.nil_append]
      refine List.filter_congr fun x hx => ?_
      have hx := hafter x hx
      rw [decide_eq_decide]
      split <;> omega

lemma Sound.response (h : task.Sound) {next upto : ℕ} {header : Option ℕ}
    (hstream : task.stream = some next) (hupto : upto ≤ task.now)
    (hheader : ∀ revision ∈ header, revision ≤ task.now)
    (hsafe : task.Safe (.response upto header)) : (task.received next upto header).Sound := by
  have hposition : task.position = next := by rw [position, hstream, Option.getD_some]
  have hposition' : (task.received next upto header).position =
      if next ≤ upto then upto + 1 else next := rfl
  refine ⟨h.ordered, h.written, ?_, fun first hfirst => ?_, fun hnone => ?_,
    fun next' hnext hrevision => ?_, fun next' hnext hrevision => ?_⟩
  · have hgap := h.gapFree
    rw [GapFree, hposition, ← changesFrom_split h.ordered next upto, emittedEvents_append,
      ← List.append_assoc] at hgap
    exact hgap
  · have hfuture := h.owed first hfirst
    rw [hposition] at hfuture
    rw [hposition']
    show (_ ≤ task.now + 1 ∧ first ≤ task.now + 1) ∨ _
    split <;> omega
  · have hunsubscribed := (h.unsubscribed hnone).1
    cases hstream.symm.trans hunsubscribed
  · cases hnext
    cases header with
    | none =>
      -- nothing was sent, so what is to come has not changed
      obtain ⟨hpast, hfuture⟩ := h.resumes next hstream hrevision
      constructor
      · show changesFrom _ task.history = changesFrom task.resumesFrom task.history
        rw [← hpast]
        refine List.filter_congr fun r hr => ?_
        rw [decide_eq_decide]
        by_cases hle : next ≤ r.change.revision
        · have hunsent := hsafe next hstream r (List.mem_filter.2 ⟨hr, decide_eq_true hle⟩)
          split <;> omega
        · split <;> omega
      · show (_ ≤ task.now + 1 ∧ task.resumesFrom ≤ task.now + 1) ∨ _ = task.resumesFrom
        split <;> omega
    | some revision =>
      -- what was sent is what is before the header
      obtain ⟨hstart, hsent⟩ := hsafe next hstream
      have hbound := hheader revision rfl
      have hfrom : (task.received next upto (some revision)).resumesFrom = revision + 1 := by
        obtain ⟨revision', -, hcurrent, hfrom⟩ := resumesFrom_of_hasRevision hrevision
        cases hcurrent
        exact hfrom
      rw [hfrom]
      refine ⟨?_, .inl ⟨?_, Nat.succ_le_succ hbound⟩⟩
      · refine List.filter_congr fun r hr => ?_
        rw [decide_eq_decide]
        by_cases hle : next ≤ r.change.revision
        · have hiff := hsent r (List.mem_filter.2 ⟨hr, decide_eq_true hle⟩)
          split <;> omega
        · split <;> omega
      · show _ ≤ task.now + 1
        split <;> omega
  · cases hnext
    cases header with
    | none =>
      have hfresh := h.fresh next hstream hrevision
      show _ ≤ task.now + 1
      split <;> omega
    | some revision => cases hrevision

lemma Sound.step (h : task.Sound) {event : Event D} (hsafe : task.Safe event) :
    (task.step event).Sound := by
  cases event with
  | write changes =>
    by_cases hchanges : ∀ r ∈ changes, r.change.revision = task.now + 1
    · rw [WatchTask.step, if_pos hchanges]
      exact h.write hchanges hsafe
    · rwa [WatchTask.step, if_neg hchanges]
  | subscribe =>
    by_cases hstream : task.stream = none
    · rw [WatchTask.step, if_pos hstream]
      exact h.subscribe hstream
    · rwa [WatchTask.step, if_neg hstream]
  | subscribeError => exact h
  | response upto header =>
    cases hstream : task.stream with
    | none => simpa only [WatchTask.step, hstream] using h
    | some next =>
      simp only [WatchTask.step, hstream]
      by_cases hexists : upto ≤ task.now ∧ header.all (· ≤ task.now) = true
      · rw [if_pos hexists]
        refine h.response hstream hexists.1 (fun revision hrevision => ?_) hsafe
        have hall := hexists.2
        rw [Option.mem_def.1 hrevision, Option.all_some] at hall
        exact of_decide_eq_true hall
      · rwa [if_neg hexists]
  | streamEnd => exact h.streamEnd hsafe

/-- A new task has everything still to come, but for the start revision zero. -/
lemma sound_spawn {startRevision : Option ℕ}
    (hordered : history.Pairwise fun r r' => r.change.revision ≤ r'.change.revision)
    (hwritten : ∀ r ∈ history, r.change.revision ≤ now)
    (hzero : startRevision = some 0 → history = []) :
    (spawn history now startRevision).Sound := by
  have hstream : (spawn history now startRevision).stream = none := rfl
  cases startRevision with
  | none =>
    refine ⟨hordered, hwritten, ?_, fun _ h => ?_, fun _ => ⟨rfl, rfl⟩, fun _ h => ?_,
      fun _ h => ?_⟩
    · rw [GapFree, changesFrom_position_eq_nil hwritten hstream rfl]
      rfl
    · cases h
    · cases h
    · cases h
  | some first =>
    have hposition : (spawn history now (some first)).position =
        if first = 0 then now + 1 else first := firstWatched_natCast first now
    refine ⟨hordered, hwritten, ?_, fun _ h => ?_, fun h => ?_, fun _ h => ?_, fun _ h => ?_⟩
    · rw [GapFree, hposition]
      show [] ++ emittedEvents (changesFrom _ history) = emittedEvents (changesFrom first history)
      by_cases hfirst : first = 0
      · rw [hzero (by rw [hfirst])]
        rfl
      · rw [if_neg hfirst, List.nil_append]
    · cases h
      rw [hposition]
      show (_ ≤ now + 1 ∧ first ≤ now + 1) ∨ _ = first
      split <;> omega
    · cases h
    · cases h
    · cases h

end

/-! ## Runs -/

/-- **When a watch has no gaps.**  Whatever the past of the store and the start revision: if every
step of a run is safe, and nothing is asked of the past with the start revision zero, then what the
task has emitted and what it is still going to be told are always exactly the changes from the start
revision on (without one, those after the first subscription). -/
theorem gapFree {history : List (Report String (ContentData D))} {now : ℕ}
    {startRevision : Option ℕ} {events : List (Event D)}
    (hordered : history.Pairwise fun r r' => r.change.revision ≤ r'.change.revision)
    (hwritten : ∀ r ∈ history, r.change.revision ≤ now)
    (hzero : startRevision = some 0 → history = [])
    (hsafe : Run.AllSteps step Safe (spawn history now startRevision) events) :
    Run.AllStates step GapFree (spawn history now startRevision) events :=
  Run.AllStates.of_invariant (fun _ _ h => h.step) (fun _ h => h.gapFree) _ events
    (sound_spawn hordered hwritten hzero) hsafe

namespace CatchUp

/-- Three versions of a key, written at revisions 2, 3 and 4. -/
def change (revision : ℕ) : Report String (ContentData Unit) :=
  ⟨⟨"/tugboat/registry/core/configmaps/default/demo", revision, some ⟨(), revision⟩⟩,
    if revision = 2 then none else some ⟨(), revision - 1⟩⟩

def past : List (Report String (ContentData Unit)) := [change 2, change 3]

/-- The old changes come in one response, then the stream breaks, and goes on after a write. -/
def inOneResponse : List (Event Unit) :=
  [.subscribe, .response 3 (some 3), .streamEnd, .write [change 4], .subscribe,
    .response 4 (some 4)]

/-- The old changes come one by one, each with the revision of the store in the header, and the
stream breaks after the first. -/
def inTwoResponses : List (Event Unit) := [.subscribe, .response 2 (some 3), .streamEnd, .subscribe]

/-- A stream without a start revision breaks before the first response. -/
def withoutResponse : List (Event Unit) :=
  [.subscribe, .streamEnd, .write [change 4], .subscribe]

end CatchUp

open CatchUp in
/-- A run that reconnects and has no gap. -/
theorem gapFree_inOneResponse :
    Run.AllStates step GapFree (spawn past 3 (some 2)) inOneResponse ∧
      (Run.exec step (spawn past 3 (some 2)) inOneResponse).emitted =
        emittedEvents [change 2, change 3, change 4] :=
  ⟨gapFree (by decide) (by decide) (by decide) (by decide), by decide⟩

open CatchUp in
/-- The change of revision 3 is never emitted: the stream is resumed after the header of a response
that did not have it.  And without a start revision a change between two streams is not. -/
theorem change_is_skipped :
    (let task := Run.exec step (spawn past 3 (some 2)) inTwoResponses
     task.emitted = emittedEvents [change 2] ∧ task.owed = [change 2, change 3] ∧
      task.stream = some 4 ∧ ¬ task.GapFree) ∧
    (let task := Run.exec step (spawn past 3 none) withoutResponse
     task.emitted = [] ∧ task.owed = [change 4] ∧ task.stream = some 5 ∧ ¬ task.GapFree) := by
  refine ⟨⟨by decide, by decide, by decide, ?_⟩, by decide, by decide, by decide, ?_⟩
  · unfold GapFree
    decide
  · unfold GapFree
    decide

end WatchTask

end Tugboat
