import Tugboat.ApiServer.FilteredWatch
import Tugboat.ApiServer.WatchStream

/-!
# Where a watch is resumed

A watch request names a resource version and is sent what happened after it.  Built-in kinds turn
the resource version `N` into the start revision `N + 1`.  Custom resources pass `N` itself, so that
the change of revision `N` is sent again; and `0` asks for nothing of the past.

Clients take the resource version to resume from out of the events they have seen.  A put carries
the revision of the change.  A deletion carries that of the object that is gone, from which the
deletion itself is sent again.  And a transaction changes several objects at one revision: resuming
from the first of its events leaves out the others.
-/

namespace Tugboat

open Json WatchMuxAggregator WatchEndpoint

/-! ## Start revisions -/

section

variable {D : Type}

/-- What a watch with resource version `N` is told of the history of its collection, if the last
revision is `now` when it is set up. -/
def WatchEndpoint.deliver (endpoint : WatchEndpoint) (resourceVersion : Option String) (now : ℕ)
    (history : List (StoreReport D)) :
    Except StatusResponse (List (StoreReport D)) :=
  (endpoint.startRevision resourceVersion).map fun start => watchedFrom start now history

def changesAfter (N : ℕ) (history : List (StoreReport D)) :
    List (StoreReport D) :=
  history.filter fun r => N < r.change.revision

lemma filter_eq_filter_iff {α : Type} {p q : α → Bool} {l : List α} :
    l.filter p = l.filter q ↔ ∀ a ∈ l, p a = q a := by
  constructor
  · intro h a ha
    have hiff : a ∈ l.filter p ↔ a ∈ l.filter q := by rw [h]
    rw [List.mem_filter, List.mem_filter, and_iff_right ha, and_iff_right ha] at hiff
    exact Bool.eq_iff_iff.2 hiff
  · exact fun h => List.filter_congr h

lemma startRevision_builtin (n : ℕ) : builtin.startRevision (some (toString n)) =
      if n ≤ maxRevision then .ok (some (nextRevision n))
      else .error (.ofStoreError (.invalidField "resourceVersion" "must be a valid integer")) := by
  have hparse := parseResourceVersion_toString n
  rw [startRevision]
  by_cases hn : n ≤ maxRevision
  · have hnext : 0 ≤ nextRevision n := by
      unfold nextRevision
      split <;> omega
    rw [if_pos hn] at hparse
    rw [if_pos hn, get_of_parseResourceVersion hparse, Option.map_some,
      getFromStartRevision_of_nonneg hnext]
    rfl
  · rw [if_neg hn] at hparse
    rw [if_neg hn, WatchMuxAggregator.get, hparse]
    rfl

lemma startRevision_custom (n : ℕ) : custom.startRevision (some (toString n)) =
      if n ≤ maxRevision then .ok (some (n : Int))
      else .error (.badRequest "resourceVersion must be a valid integer") := by
  have hbound : n ≤ maxRevision ↔ n < 2 ^ 63 := by
    unfold maxRevision
    omega
  rw [startRevision, Decimal.parseInt64_toString]
  by_cases hn : n ≤ maxRevision
  · rw [if_pos hn, if_pos (hbound.1 hn)]
    show (getFromStartRevision (some (n : Int))).mapError _ = _
    rw [getFromStartRevision_of_nonneg (Int.natCast_nonneg n)]
    rfl
  · rw [if_neg hn, if_neg (mt hbound.2 hn)]

variable {n : ℕ}

/-- What a built-in watch is told: what comes after its resource version, and at the largest
revision also the change of that revision. -/
lemma deliver_builtin (hn : n ≤ maxRevision) (now : ℕ) (history : List (StoreReport D)) :
    builtin.deliver (some (toString n)) now history = .ok (history.filter fun r =>
        (if n < maxRevision then n + 1 else maxRevision) ≤ r.change.revision) := by
  have hpos : 0 < maxRevision := by
    unfold maxRevision
    omega
  have hfirst : firstWatched (some (nextRevision n)) now =
      if n < maxRevision then n + 1 else maxRevision := by
    rw [firstWatched, nextRevision]
    by_cases hlt : n < maxRevision
    · rw [if_pos (Int.ofNat_lt.2 hlt), if_pos hlt, if_neg (by omega)]
      omega
    · rw [if_neg (mt Int.ofNat_lt.1 hlt), if_neg hlt, if_neg (by omega)]
      omega
  rw [deliver, startRevision_builtin, if_pos hn]
  simp only [Except.map, watchedFrom, hfirst]

/-- What a custom watch is told: what comes from its resource version on, and nothing of the past
for the resource version zero. -/
lemma deliver_custom (hn : n ≤ maxRevision) (now : ℕ) (history : List (StoreReport D)) :
    custom.deliver (some (toString n)) now history =
      .ok (history.filter fun r => (if n = 0 then now + 1 else n) ≤ r.change.revision) := by
  rw [deliver, startRevision_custom, if_pos hn]
  simp only [Except.map, watchedFrom, firstWatched_natCast]

lemma deliver_of_maxRevision_lt (endpoint : WatchEndpoint) (hn : maxRevision < n) (now : ℕ)
    (history : List (StoreReport D)) :
    ∃ e, endpoint.deliver (some (toString n)) now history = .error e := by
  cases endpoint with
  | builtin =>
    rw [deliver, startRevision_builtin, if_neg (Nat.not_le.2 hn)]
    exact ⟨_, rfl⟩
  | custom =>
    rw [deliver, startRevision_custom, if_neg (Nat.not_le.2 hn)]
    exact ⟨_, rfl⟩

/-- The changes a watch with resource version `n` has to be told of and only those, for a built-in
kind: always, but for a change at the largest revision. -/
lemma deliver_builtin_eq_iff (hn : n ≤ maxRevision) (now : ℕ) (history : List (StoreReport D)) :
    builtin.deliver (some (toString n)) now history = .ok (changesAfter n history) ↔
      (n = maxRevision → ∀ r ∈ history, r.change.revision ≠ n) := by
  rw [deliver_builtin hn, Except.ok.injEq, changesAfter, filter_eq_filter_iff]
  constructor
  · intro h hmax r hr heq
    have hiff := h r hr
    rw [decide_eq_decide, if_neg (by omega)] at hiff
    omega
  · intro h r hr
    rw [decide_eq_decide]
    by_cases hlt : n < maxRevision
    · rw [if_pos hlt]
      omega
    · have hne := h (by omega) r hr
      rw [if_neg hlt]
      omega

/-- The same for a custom resource: if nothing happened at revision `n`, or for zero, nothing at
all so far. -/
lemma deliver_custom_eq_iff (hn : n ≤ maxRevision) (now : ℕ) (history : List (StoreReport D)) :
    custom.deliver (some (toString n)) now history = .ok (changesAfter n history) ↔
      ∀ r ∈ history, if n = 0 then r.change.revision = 0 ∨ now < r.change.revision
        else r.change.revision ≠ n := by
  rw [deliver_custom hn, Except.ok.injEq, changesAfter, filter_eq_filter_iff]
  refine forall₂_congr fun r _ => ?_
  rw [decide_eq_decide]
  by_cases hzero : n = 0
  · rw [if_pos hzero, if_pos hzero]
    omega
  · rw [if_neg hzero, if_neg hzero]
    omega

/-- **Where built-in and custom watches start.**  Both are told exactly of the changes after
revision `n`, if and only if `n` is a revision at all, the custom resources have no change of
revision `n` (for zero: no change before the watch is set up), and `n` is not the largest revision
with a change of the built-in kind. -/
theorem deliver_eq_changesAfter_iff {D' : Type} (n now : ℕ)
    (history : List (Report String (ContentData D)))
    (customHistory : List (Report String (ContentData D'))) :
    (WatchEndpoint.builtin.deliver (some (toString n)) now history =
        .ok (changesAfter n history) ∧
      WatchEndpoint.custom.deliver (some (toString n)) now customHistory =
        .ok (changesAfter n customHistory)) ↔
    n ≤ maxRevision ∧ (n = maxRevision → ∀ r ∈ history, r.change.revision ≠ n) ∧
      ∀ r ∈ customHistory, if n = 0 then r.change.revision = 0 ∨ now < r.change.revision
        else r.change.revision ≠ n := by
  by_cases hn : n ≤ maxRevision
  · rw [deliver_builtin_eq_iff hn, deliver_custom_eq_iff hn, and_iff_right hn]
  obtain ⟨e, he⟩ := deliver_of_maxRevision_lt .builtin (Nat.not_le.1 hn) now history
  rw [he]
  simp [hn]

/-- A custom resource that is written at revision 5. -/
def writtenAtFive : Report String (ContentData Value) :=
  ⟨⟨"/registry/ships.dev/boats/default/b", 5, some ⟨.object [], 5⟩⟩, none⟩

/-- A watch of custom resources from the resource version of the object is sent the object again,
and one from zero is not sent it; a watch of a built-in kind does both right. -/
theorem custom_watch_starts_at_the_resource_version :
    WatchEndpoint.custom.deliver (some (toString 5)) 7 [writtenAtFive] = .ok [writtenAtFive] ∧
      changesAfter 5 [writtenAtFive] = [] ∧
      WatchEndpoint.custom.deliver (some (toString 0)) 7 [writtenAtFive] = .ok [] ∧
      changesAfter 0 [writtenAtFive] = [writtenAtFive] ∧
      WatchEndpoint.builtin.deliver (some (toString 5)) 7 [writtenAtFive] = .ok [] ∧
      WatchEndpoint.builtin.deliver (some (toString 0)) 7 [writtenAtFive] =
        .ok [writtenAtFive] := by
  have hfive : 5 < maxRevision := by decide
  refine ⟨?_, rfl, ?_, rfl, ?_, ?_⟩
  · rw [deliver_custom hfive.le]
    rfl
  · rw [deliver_custom (Nat.zero_le _)]
    rfl
  · rw [deliver_builtin hfive.le]
    simp only [if_pos hfive]
    rfl
  · have hzero : 0 < maxRevision := by decide
    rw [deliver_builtin hzero.le]
    simp only [if_pos hzero]
    rfl

end

/-! ## Histories -/

section

variable {D O : Type} {kind : WatchedKind D O}

/-- What the key-value store does with revisions: they start at one and grow, and no transaction
changes a key twice.  `stored` is what the changes find. -/
structure StoredObjects.Precedes (stored : StoredObjects kind)
    (changes : List (StoredChange kind)) : Prop where
  positive : ∀ change ∈ changes, 0 < change.revision
  stored_lt : ∀ change ∈ changes, ∀ c, stored.kvs change.key = some c →
    0 < c.revision ∧ c.revision < change.revision
  ordered : changes.Pairwise fun change change' => change.revision ≤ change'.revision ∧
    (change.key = change'.key → change.revision < change'.revision)

variable {stored : StoredObjects kind} {changes : List (StoredChange kind)}

/-- The other changes of a history find what the first one has left. -/
lemma StoredObjects.Precedes.apply {change : StoredChange kind}
    (h : stored.Precedes (change :: changes)) : (stored.apply change).Precedes changes where
  positive later hlater := h.positive later (List.mem_cons_of_mem _ hlater)
  stored_lt later hlater c hc := by
    have hbefore := (List.pairwise_cons.1 h.ordered).1 later hlater
    by_cases hkey : change.key = later.key
    · rw [← hkey, stored.kvs_apply_self] at hc
      obtain ⟨d, -, rfl⟩ := Option.map_eq_some_iff.1 hc
      exact ⟨h.positive change List.mem_cons_self, hbefore.2 hkey⟩
    · rw [stored.kvs_apply_of_ne (Ne.symm hkey)] at hc
      exact h.stored_lt later (List.mem_cons_of_mem _ hlater) c hc
  ordered := (List.pairwise_cons.1 h.ordered).2

structure WatchHistory (kind : WatchedKind D O) where
  stored : StoredObjects kind
  changes : List (StoredChange kind)
  precedes : stored.Precedes changes

abbrev WatchHistory.reports {kind : WatchedKind D O} (history : WatchHistory kind) :
    List (StoreReport D) := storeReports history.stored history.changes

/-- What one report of a history says: a put is at the revision of the change, a removal shows a
version of an earlier revision, and what is shown is an object of its key. -/
structure ReportOf (kind : WatchedKind D O) (r : StoreReport D) : Prop where
  put : ∀ c, r.change.entry = some c → c.revision = r.change.revision
  positive : ∀ c, r.shown = some c → 0 < c.revision
  removed : ∀ c, r.change.entry = none → r.shown = some c → c.revision < r.change.revision
  shown : ∀ c, r.shown = some c → kind.Shown r.change.key c

lemma ReportOf.revision_of_put {r : StoreReport D} {c : ContentData D}
    (h : ReportOf kind r) (hput : r.change.entry.isSome) (hshown : r.shown = some c) :
    c.revision = r.change.revision := by
  obtain ⟨new, hentry⟩ := Option.isSome_iff_exists.1 hput
  rw [Report.shown, hentry, Option.some_or] at hshown
  cases hshown
  exact h.put _ hentry

lemma reportOf_change {change : StoredChange kind} (h : stored.Precedes (change :: changes)) :
    ReportOf kind ⟨change.toChange, stored.kvs change.key⟩ := by
  have hlt := h.stored_lt change List.mem_cons_self
  cases hdata : change.data with
  | some d =>
    have hentry : change.toChange.entry = some ⟨d, change.revision⟩ := by
      rw [StoredChange.toChange, hdata, Option.map_some]
    have hshown : Report.shown ⟨change.toChange, stored.kvs change.key⟩ =
        some ⟨d, change.revision⟩ := by
      rw [Report.shown, hentry, Option.some_or]
    refine ⟨fun c hc => ?_, fun c hc => ?_, fun c hc => ?_, shown_of_change stored change⟩
    · cases hentry.symm.trans hc
      rfl
    · cases hshown.symm.trans hc
      exact h.positive change List.mem_cons_self
    · cases hentry.symm.trans hc
  | none =>
    have hentry : change.toChange.entry = none := by
      rw [StoredChange.toChange, hdata, Option.map_none]
    have hshown : Report.shown ⟨change.toChange, stored.kvs change.key⟩ =
        stored.kvs change.key := by
      rw [Report.shown, hentry, Option.none_or]
    refine ⟨fun c hc => ?_, fun c hc => ?_, fun c _ hc => ?_, shown_of_change stored change⟩
    · cases hentry.symm.trans hc
    · exact (hlt c (hshown ▸ hc)).1
    · exact (hlt c (hshown ▸ hc)).2

lemma reportOf_of_mem (h : stored.Precedes changes) :
    ∀ r ∈ storeReports stored changes, ReportOf kind r := by
  induction changes generalizing stored with
  | nil =>
    intro r hr
    cases hr
  | cons change changes ih =>
    intro r hr
    rcases List.mem_cons.1 hr with rfl | hr
    · exact reportOf_change h
    · exact ih h.apply r hr

lemma storeReports_pairwise (h : stored.Precedes changes) :
    (storeReports stored changes).Pairwise fun r r' => r.change.revision ≤ r'.change.revision := by
  have hchanges : ((storeReports stored changes).map (·.change)).Pairwise
      fun c c' => c.revision ≤ c'.revision := by
    rw [storeReports, map_change_reports, List.pairwise_map]
    exact h.ordered.imp And.left
  rwa [List.pairwise_map] at hchanges

end

/-! ## Resuming from an event -/

namespace WatchRequest

section

variable {D O : Type} (kind : WatchedKind D O)

/-- A new watch from the resource version of an event. -/
def resume (request : WatchRequest) (now : ℕ) (rs : List (StoreReport D))
    (event : WatchEvent O) :
    Except StatusResponse (List (Except StatusResponse (WatchEvent O))) :=
  (kind.endpoint.deliver (kind.resourceVersion event.content) now rs).map (request.sendAll kind)

end

/-- The resource version of an event, as a number. -/
def eventRevision {D O : Type} (kind : WatchedKind D O) :
    Except StatusResponse (WatchEvent O) → Option Int
  | .ok event => (kind.resourceVersion event.content).bind Decimal.parseInt64
  | .error _ => none

section

variable {D O : Type} {kind : WatchedKind D O}

/-- The resource versions of a watch stream are resume points: they do not decrease, and from each
of them a new watch sends what follows. -/
structure Resumable (request : WatchRequest) (history : WatchHistory kind) (start : Option Int)
    (now later : ℕ) : Prop where
  nondecreasing : ((request.sendAll kind (watchedFrom start now
    (storeReports history.stored history.changes))).filterMap (eventRevision kind)).Pairwise (· ≤ ·)
  resumes : ∀ before event after, request.sendAll kind (watchedFrom start now
      (storeReports history.stored history.changes)) = before ++ .ok event :: after →
    request.resume kind later (storeReports history.stored history.changes) event = .ok after

/-- When the resource versions are resume points.  For a built-in kind, no selected object is
removed, no two are written at one revision and none at the largest one; for custom resources
nothing happens to selected objects. -/
def ResumeSafe (request : WatchRequest) (kind : WatchedKind D O)
    (rs : List (StoreReport D)) : Prop :=
  match kind.endpoint with
  | .builtin =>
    (∀ r ∈ rs, request.concerns kind r = true →
      r.change.entry.isSome ∧ r.change.revision < maxRevision) ∧
    rs.Pairwise fun r r' => request.concerns kind r = true → request.concerns kind r' = true →
      r.change.revision < r'.change.revision
  | .custom => ∀ r ∈ rs, request.concerns kind r = false

/-! ### What a new watch sends -/

section

variable {request : WatchRequest} {rs : List (StoreReport D)} {event : WatchEvent O} {v : ℕ}
  (hversion : kind.resourceVersion event.content = some (toString v))

include hversion

lemma resume_eq (later : ℕ) :
    request.resume kind later rs event =
      (kind.endpoint.deliver (some (toString v)) later rs).map (request.sendAll kind) := by
  rw [resume, hversion]

lemma resume_builtin (hend : kind.endpoint = .builtin) (hv : v ≤ maxRevision)
    (later : ℕ) :
    request.resume kind later rs event = .ok (request.sendAll kind (rs.filter fun r =>
      (if v < maxRevision then v + 1 else maxRevision) ≤ r.change.revision)) := by
  rw [resume_eq hversion, hend, deliver_builtin hv]
  rfl

lemma le_maxRevision_of_resume {later : ℕ} {after : List (Except StatusResponse (WatchEvent O))}
    (h : request.resume kind later rs event = .ok after) : v ≤ maxRevision := by
  by_contra hv
  obtain ⟨e, he⟩ := deliver_of_maxRevision_lt kind.endpoint (Nat.not_le.1 hv) later rs
  rw [resume_eq hversion, he] at h
  cases h

end

/-! ### Splitting a stream -/

section

variable {request : WatchRequest} {rs before after : List (StoreReport D)}
  {start : Option Int} {now : ℕ} {r : StoreReport D}

/-- A filter that leaves all results there leaves out nothing with a result. -/
lemma of_filterMap_filter_eq {α β : Type} {f : α → Option β} {p : α → Bool} {l : List α}
    (h : (l.filter p).filterMap f = l.filterMap f) {a : α} (ha : a ∈ l) (hf : (f a).isSome) :
    p a = true := by
  have hsub : ((l.filter p).filter fun a => (f a).isSome).Sublist
      (l.filter fun a => (f a).isSome) := List.filter_sublist.filter _
  have hlength := congrArg List.length h
  simp only [List.length_filterMap_eq_countP, List.countP_eq_length_filter] at hlength
  have hmem : a ∈ (l.filter p).filter fun a => (f a).isSome := by
    rw [hsub.eq_of_length hlength]
    exact List.mem_filter.2 ⟨ha, hf⟩
  exact (List.mem_filter.1 (List.mem_filter.1 hmem).1).2

/-- What is true of each element and those after it is true of each pair. -/
lemma pairwise_of_splits {α : Type} {R : α → α → Prop} {l : List α}
    (h : ∀ before a after, l = before ++ a :: after → ∀ b ∈ after, R a b) : l.Pairwise R := by
  induction l with
  | nil => exact List.Pairwise.nil
  | cons a l ih =>
    refine List.Pairwise.cons (h [] a l rfl) (ih fun before b after hl => ?_)
    exact h (a :: before) b after (by rw [hl, List.cons_append])

end

/-! ### Which streams can be resumed -/

section

variable {request : WatchRequest} {history : WatchHistory kind} {start : Option Int}
  {now later : ℕ} {before after : List (StoreReport D)}
  {r : StoreReport D}

lemma reportOf_of_mem_watchedFrom (hr : r ∈ watchedFrom start now history.reports) :
    ReportOf kind r :=
  reportOf_of_mem history.precedes r (List.mem_filter.1 hr).1

/-- A watch that starts at a revision that is not after a change sends the change and all that
follow it. -/
lemma sendAll_ne_of_le (hsplit : watchedFrom start now history.reports = before ++ r :: after)
    (hconcerns : request.concerns kind r = true) {first : ℕ} (hfirst : first ≤ r.change.revision) :
    request.sendAll kind (history.reports.filter fun r => first ≤ r.change.revision) ≠
      request.sendAll kind after := by
  intro heq
  have hsub : (r :: after).Sublist history.reports := by
    have hwatched : (before ++ r :: after).Sublist history.reports := hsplit ▸ List.filter_sublist
    exact (List.sublist_append_right before (r :: after)).trans hwatched
  have hlater : ∀ r' ∈ r :: after, r.change.revision ≤ r'.change.revision := by
    intro r' hr'
    rcases List.mem_cons.1 hr' with rfl | hr'
    · exact le_rfl
    · exact (List.pairwise_cons.1 ((storeReports_pairwise history.precedes).sublist hsub)).1 r' hr'
  have hself : (r :: after).filter (fun r => first ≤ r.change.revision) = r :: after :=
    List.filter_eq_self.2 fun r' hr' => decide_eq_true (hfirst.trans (hlater r' hr'))
  have hsent : (request.sendAll kind (r :: after)).Sublist
      (request.sendAll kind (history.reports.filter fun r => first ≤ r.change.revision)) := by
    have hfilter := hsub.filter (fun r => first ≤ r.change.revision)
    rw [hself] at hfilter
    exact hfilter.filterMap _
  obtain ⟨c, event, -, hsend, -⟩ :=
    send_of_concerns (reportOf_of_mem history.precedes r (hsub.subset List.mem_cons_self)).shown
      hconcerns
  rw [heq, sendAll, List.filterMap_cons_some hsend] at hsent
  have hlength := hsent.length_le
  rw [List.length_cons] at hlength
  exact absurd hlength (Nat.not_succ_le_self _)

/-- What comes after the revision of a change is found among what is reported after it. -/
lemma filter_lt_of_split (hsplit : watchedFrom start now history.reports = before ++ r :: after) :
    history.reports.filter (fun r' => r.change.revision < r'.change.revision) =
      after.filter fun r' => r.change.revision < r'.change.revision := by
  have hmem : r ∈ watchedFrom start now history.reports :=
    hsplit ▸ List.mem_append_right _ List.mem_cons_self
  have hfirst : firstWatched start now ≤ r.change.revision :=
    of_decide_eq_true (List.mem_filter.1 hmem).2
  have hwatched : history.reports.filter (fun r' => r.change.revision < r'.change.revision) =
      (watchedFrom start now history.reports).filter
        fun r' => r.change.revision < r'.change.revision := by
    rw [watchedFrom, List.filter_filter]
    refine List.filter_congr fun r' _ => ?_
    rw [Bool.eq_iff_iff]
    simp only [decide_eq_true_eq, Bool.and_eq_true]
    omega
  have hordered : (before ++ r :: after).Pairwise
      fun r r' => r.change.revision ≤ r'.change.revision :=
    hsplit ▸ (storeReports_pairwise history.precedes).sublist List.filter_sublist
  have hbefore : before.filter (fun r' => r.change.revision < r'.change.revision) = [] := by
    refine List.filter_eq_nil_iff.2 fun r' hr' => ?_
    have hle := (List.pairwise_append.1 hordered).2.2 r' hr' r List.mem_cons_self
    simp only [decide_eq_true_eq]
    omega
  rw [hwatched, hsplit, List.filter_append, hbefore, List.nil_append,
    List.filter_cons_of_neg (by simp)]

section

variable (h : request.Resumable history start now later)

include h

lemma Resumable.resume_of_split
    (hsplit : watchedFrom start now history.reports = before ++ r :: after)
    (hconcerns : request.concerns kind r = true) :
    ∃ c event, r.shown = some c ∧ request.send kind r = some (.ok event) ∧
      kind.resourceVersion event.content = some (toString c.revision) ∧
      request.resume kind later history.reports event =
        .ok (request.sendAll kind after) := by
  have hmem : r ∈ watchedFrom start now history.reports :=
    hsplit ▸ List.mem_append_right _ List.mem_cons_self
  obtain ⟨c, event, hshown, hsend, hversion⟩ :=
    send_of_concerns (reportOf_of_mem_watchedFrom hmem).shown hconcerns
  refine ⟨c, event, hshown, hsend, hversion, h.resumes (request.sendAll kind before) event _ ?_⟩
  rw [hsplit, sendAll, List.filterMap_append, List.filterMap_cons_some hsend]
  rfl

lemma Resumable.put_of_concerns
    (hend : kind.endpoint = .builtin) (hmem : r ∈ watchedFrom start now history.reports)
    (hconcerns : request.concerns kind r = true) :
    r.change.entry.isSome ∧ r.change.revision < maxRevision := by
  have hr := reportOf_of_mem_watchedFrom hmem
  obtain ⟨before, after, hsplit⟩ := List.append_of_mem hmem
  obtain ⟨c, event, hshown, -, hversion, hresume⟩ := h.resume_of_split hsplit hconcerns
  have hmax := le_maxRevision_of_resume hversion hresume
  rw [resume_builtin hversion hend hmax, Except.ok.injEq] at hresume
  -- the new watch starts after the change, or it would send it again
  have hafter : r.change.revision <
      if c.revision < maxRevision then c.revision + 1 else maxRevision := by
    refine Nat.lt_of_not_le fun hle => ?_
    exact sendAll_ne_of_le hsplit hconcerns hle hresume
  cases hentry : r.change.entry with
  | none =>
    have hlt := hr.removed c hentry hshown
    split at hafter <;> omega
  | some new =>
    refine ⟨rfl, ?_⟩
    split at hafter <;> omega

lemma Resumable.not_concerns
    (hend : kind.endpoint = .custom) (hmem : r ∈ watchedFrom start now history.reports) :
    request.concerns kind r = false := by
  by_contra hconcerns
  rw [Bool.not_eq_false] at hconcerns
  have hr := reportOf_of_mem_watchedFrom hmem
  obtain ⟨before, after, hsplit⟩ := List.append_of_mem hmem
  obtain ⟨c, event, hshown, -, hversion, hresume⟩ := h.resume_of_split hsplit hconcerns
  have hmax := le_maxRevision_of_resume hversion hresume
  rw [resume_eq hversion, hend, deliver_custom hmax, if_neg (hr.positive c hshown).ne'] at hresume
  refine sendAll_ne_of_le hsplit hconcerns ?_ (Except.ok.inj hresume)
  cases hentry : r.change.entry with
  | none => exact (hr.removed c hentry hshown).le
  | some new => exact (hr.revision_of_put (hentry ▸ rfl) hshown).le

end

lemma send_of_put (hr : ReportOf kind r) (hconcerns : request.concerns kind r = true)
    (hput : r.change.entry.isSome) :
    ∃ event, request.send kind r = some (.ok event) ∧
      kind.resourceVersion event.content = some (toString r.change.revision) := by
  obtain ⟨c, event, hshown, hsend, hversion⟩ := send_of_concerns hr.shown hconcerns
  rw [hr.revision_of_put hput hshown] at hversion
  exact ⟨event, hsend, hversion⟩

lemma eventRevision_of_put (hr : ReportOf kind r) (hput : r.change.entry.isSome)
    (hmax : r.change.revision < maxRevision) (hconcerns : request.concerns kind r = true) :
    (request.send kind r).bind (eventRevision kind) = some (r.change.revision : Int) := by
  obtain ⟨event, hsend, hversion⟩ := send_of_put hr hconcerns hput
  have hbound : r.change.revision < 2 ^ 63 := by
    unfold maxRevision at hmax
    omega
  rw [hsend, Option.bind_some, eventRevision, hversion, Option.bind_some,
    Decimal.parseInt64_toString, if_pos hbound]

lemma Resumable.revision_lt (h : request.Resumable history start now later)
    (hend : kind.endpoint = .builtin) (hsplit : watchedFrom start now history.reports =
      before ++ r :: after)
    (hconcerns : request.concerns kind r = true) {r' : StoreReport D}
    (hr' : r' ∈ after) (hconcerns' : request.concerns kind r' = true) :
    r.change.revision < r'.change.revision := by
  have hafter : ∀ x ∈ r :: after,
      x ∈ watchedFrom start now history.reports :=
    fun x hx => hsplit ▸ List.mem_append_right _ hx
  have hmem := hafter r List.mem_cons_self
  obtain ⟨hput, hmax⟩ := h.put_of_concerns hend hmem hconcerns
  -- the later events are those of the later reports with a larger revision
  have hsame : request.sendAll kind
      (after.filter fun x => r.change.revision < x.change.revision) =
        request.sendAll kind after := by
    obtain ⟨c, event, hshown, -, hversion, hresume⟩ := h.resume_of_split hsplit hconcerns
    rw [(reportOf_of_mem_watchedFrom hmem).revision_of_put hput hshown] at hversion
    rw [resume_builtin hversion hend hmax.le, Except.ok.injEq] at hresume
    simp only [if_pos hmax] at hresume
    rw [← filter_lt_of_split hsplit]
    exact hresume
  -- so no report with an event is left out
  have hmem' := hafter r' (List.mem_cons_of_mem _ hr')
  obtain ⟨_, event, -, hsend, -⟩ :=
    send_of_concerns (reportOf_of_mem_watchedFrom hmem').shown hconcerns'
  exact of_decide_eq_true (of_filterMap_filter_eq hsame hr' (by rw [hsend]; rfl))

lemma resumable_builtin (hend : kind.endpoint = .builtin)
    (hput : ∀ r ∈ watchedFrom start now history.reports,
      request.concerns kind r = true → r.change.entry.isSome ∧ r.change.revision < maxRevision)
    (hlt : (watchedFrom start now history.reports).Pairwise
      fun r r' => request.concerns kind r = true → request.concerns kind r' = true →
        r.change.revision < r'.change.revision) :
    request.Resumable history start now later := by
  have hconcerns : ∀ r ∈ watchedFrom start now history.reports,
      ∀ item, request.send kind r = some item → request.concerns kind r = true := by
    intro r hr item hsend
    by_contra hnot
    simp [send_eq_none (reportOf_of_mem_watchedFrom hr).shown (by simpa using hnot)] at hsend
  refine ⟨?_, fun sent event sent' hsent => ?_⟩
  · rw [sendAll, List.filterMap_filterMap, List.pairwise_filterMap]
    refine (List.Pairwise.imp_of_mem ?_
      ((storeReports_pairwise history.precedes).sublist List.filter_sublist))
    intro r r' hr hr' hle v hv v' hv'
    obtain ⟨item, hsend, -⟩ := Option.bind_eq_some_iff.1 hv
    obtain ⟨item', hsend', -⟩ := Option.bind_eq_some_iff.1 hv'
    have hc := hconcerns r hr item hsend
    have hc' := hconcerns r' hr' item' hsend'
    rw [eventRevision_of_put (reportOf_of_mem_watchedFrom hr) (hput r hr hc).1 (hput r hr hc).2 hc,
      Option.some.injEq] at hv
    rw [eventRevision_of_put (reportOf_of_mem_watchedFrom hr') (hput r' hr' hc').1
      (hput r' hr' hc').2 hc', Option.some.injEq] at hv'
    omega
  · -- where the stream is split at an event, the reports are
    obtain ⟨before, rest, hreports, -, hrest⟩ := List.filterMap_eq_append_iff.1 hsent
    obtain ⟨skipped, r, after, rfl, -, hsend, rfl⟩ := List.filterMap_eq_cons_iff.1 hrest
    have hsplit := hreports.trans (List.append_assoc ..).symm
    have hafter : ∀ x ∈ r :: after,
        x ∈ watchedFrom start now history.reports :=
      fun x hx => hsplit ▸ List.mem_append_right _ hx
    have hmem := hafter r List.mem_cons_self
    have hc := hconcerns r hmem _ hsend
    obtain ⟨event', hsend', hversion⟩ :=
      send_of_put (reportOf_of_mem_watchedFrom hmem) hc (hput r hmem hc).1
    cases hsend.symm.trans hsend'
    have hmax := (hput r hmem hc).2
    rw [resume_builtin hversion hend hmax.le]
    simp only [if_pos hmax]
    show Except.ok (request.sendAll kind (List.filter (fun x => r.change.revision <
      x.change.revision) _)) = _
    rw [filter_lt_of_split hsplit, Except.ok.injEq]
    -- a later report that is left out has the revision of the event, so nothing is sent for it
    rw [sendAll, List.filterMap_filter]
    refine List.filterMap_congr fun x hx => ?_
    by_cases hx' : request.concerns kind x = true
    · rw [hsplit] at hlt
      have hrevision := (List.pairwise_cons.1 (List.pairwise_append.1 hlt).2.1).1 x hx hc hx'
      rw [if_pos (decide_eq_true hrevision)]
    · have hnone : request.send kind x = none :=
        send_eq_none (reportOf_of_mem_watchedFrom (hafter x (List.mem_cons_of_mem _ hx))).shown
          (by simpa using hx')
      rw [hnone, ite_self]

/-- **Which events are resume points.**  The resource versions of a watch stream do not decrease and
from each of them a new watch sends what follows, if and only if for a built-in kind the stream has
only puts, at different revisions below the largest, and for custom resources it is empty. -/
theorem resumable_iff (request : WatchRequest) (history : WatchHistory kind) (start : Option Int)
    (now later : ℕ) :
    request.Resumable history start now later ↔ request.ResumeSafe kind
      (watchedFrom start now (storeReports history.stored history.changes)) := by
  cases hend : kind.endpoint with
  | builtin =>
    simp only [ResumeSafe, hend]
    constructor
    · intro h
      refine ⟨fun r hr hc => h.put_of_concerns hend hr hc, ?_⟩
      exact pairwise_of_splits fun before r after hsplit r' hr' hc hc' =>
        h.revision_lt hend hsplit hc hr' hc'
    · rintro ⟨hput, hlt⟩
      exact resumable_builtin hend hput hlt
  | custom =>
    simp only [ResumeSafe, hend]
    constructor
    · exact fun h r hr => h.not_concerns hend hr
    intro h
    have hnil : request.sendAll kind
        (watchedFrom start now (storeReports history.stored history.changes)) = [] :=
      List.filterMap_eq_nil_iff.2 fun r hr =>
        send_eq_none (reportOf_of_mem_watchedFrom hr).shown (h r hr)
    refine ⟨by rw [hnil]; exact List.Pairwise.nil, fun sent event sent' hsent => ?_⟩
    rw [hnil] at hsent
    exact absurd hsent.symm (List.append_ne_nil_of_right_ne_nil _ (List.cons_ne_nil _ _))

end

end

/-! ### A removal is sent again -/

namespace Removed

open Fixture Watching.Sample

def history : WatchHistory configMaps where
  stored := .ofCollection _ .empty
  changes := [creation, .ofErase _ key 3]
  precedes := by
    refine ⟨?_, fun _ _ _ h => ?_, ?_⟩
    · simp [creation, StoredChange.ofPut, StoredChange.ofErase]
    · cases h
    · simp [creation, StoredChange.ofPut, StoredChange.ofErase]

/-- The object that is shown, before and after. -/
def shown : ConfigMap := (ContentData.mk (configMap "stable") 2).applyRevision

end Removed

open Fixture Watching.Sample Removed in
/-- The event of a removal has the resource version of the creation, and a new watch from there
sends the removal again. -/
theorem removal_is_sent_again :
    stable.sendAll configMaps (watchedFrom none 1 (storeReports history.stored history.changes)) =
        [.ok (.added shown), .ok (.deleted shown)] ∧
      stable.resume configMaps 3 (storeReports history.stored history.changes) (.deleted shown) =
        .ok [.ok (.deleted shown)] ∧
      ¬ stable.Resumable history none 1 3 := by
  have hsent : stable.sendAll configMaps
      (watchedFrom none 1 (storeReports history.stored history.changes)) =
        [.ok (.added shown), .ok (.deleted shown)] := by rfl
  have hresume : stable.resume configMaps 3 (storeReports history.stored history.changes)
      (.deleted shown) = .ok [.ok (.deleted shown)] := by
    have htwo : 2 < maxRevision := by decide
    rw [resume_builtin rfl rfl htwo.le]
    simp only [if_pos htwo]
    rfl
  refine ⟨hsent, hresume, fun h => ?_⟩
  have hnil := h.resumes [.ok (.added shown)] (.deleted shown) [] hsent
  cases hresume.symm.trans hnil

end WatchRequest

end Tugboat
