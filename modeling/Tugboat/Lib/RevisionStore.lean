import Mathlib.Data.List.Nodup
import Mathlib.Logic.Function.Basic
import Tugboat.Lib.Program

/-!
# A key-value store with revisions

Every entry carries the revision of the transaction that wrote it, and a put or a removal can be
made conditional on the revision its key has; a key that is not there has revision zero.  Revisions
are signed integers of 64 bits, and a store that has used them up takes no more writes.

The calls of the store are the `Op`s, each of them atomic; `Op.exec` is what a call does, and
`Op.Effect` all it can do.  A call can fail, and it can take effect although its reply is lost.

What a caller has read is a version of the past.  `RevisionStore.Seen` is what stays true of it
whatever is called in between: if its key still has its revision, it is still what is stored.  So a
conditional write takes effect on the version its caller looked at (`Seen.entry_of_holds`).
-/

namespace Tugboat

section Update

variable {K V : Type} [DecidableEq K] {f : K → Option V} {k k' : K} {v : Option V} {e : V}

lemma of_update_eq_some (h : Function.update f k v k' = some e) :
    k' = k ∧ v = some e ∨ k' ≠ k ∧ f k' = some e := by
  rw [Function.update_apply] at h
  split at h
  next hk =>
    exact .inl ⟨hk, h⟩
  next hk =>
    exact .inr ⟨hk, h⟩

lemma of_update_none_eq_some (h : Function.update f k none k' = some e) : f k' = some e := by
  rcases of_update_eq_some h with ⟨-, ⟨⟩⟩ | ⟨-, h⟩
  exact h

end Update

/-- How a call to the key-value store ends. -/
inductive Access
  /-- The call takes effect and is answered. -/
  | answered
  /-- The call fails without effect. -/
  | unreachable
  /-- The call takes effect, but the caller gets an error. -/
  | replyLost
  deriving DecidableEq, Repr

namespace RevisionStore

/-- A value with the revision of the transaction that wrote it. -/
structure Entry (V : Type) where
  value : V
  revision : ℕ
  deriving DecidableEq, Repr

def maxRevision : ℕ := 9223372036854775807

end RevisionStore

/-- The store: the last revision, and the entries with the keys in use. -/
structure RevisionStore (K V : Type) where
  /-- The revision of the last transaction. -/
  revision : ℕ
  entry : K → Option (RevisionStore.Entry V)
  keys : List K
  revision_le : revision ≤ RevisionStore.maxRevision
  /-- Every entry was written by a transaction, and no later than the last one. -/
  revision_range : ∀ k e, entry k = some e → 0 < e.revision ∧ e.revision ≤ revision
  mem_keys : ∀ k e, entry k = some e → k ∈ keys
  nodup_keys : keys.Nodup

namespace RevisionStore

variable {K V : Type} {k : K} {e : Entry V}

/-- The store before anything is written. -/
def empty : RevisionStore K V where
  revision := 0
  entry _ := none
  keys := []
  revision_le := Nat.zero_le _
  revision_range := by simp
  mem_keys := by simp
  nodup_keys := List.nodup_nil

/-- The revision of a key, which is zero if it is not there. -/
def modRevision (s : RevisionStore K V) (k : K) : ℕ := ((s.entry k).map (·.revision)).getD 0

/-- The comparison of a conditional write. -/
def holds (s : RevisionStore K V) (k : K) : Option Int → Bool
  | none => true
  | some expected => (s.modRevision k : Int) = expected

def range (s : RevisionStore K V) (select : K → Bool) : List (Entry V) :=
  (s.keys.filter select).filterMap s.entry

variable {s : RevisionStore K V}

lemma mem_range {select : K → Bool} :
    e ∈ s.range select ↔ ∃ k, select k = true ∧ s.entry k = some e := by
  simp only [range, List.mem_filterMap, List.mem_filter]
  constructor
  · rintro ⟨k, ⟨-, hselect⟩, he⟩
    exact ⟨k, hselect, he⟩
  · rintro ⟨k, hselect, he⟩
    exact ⟨k, ⟨s.mem_keys k e he, hselect⟩, he⟩

/-- The entries of a range are of different keys. -/
lemma nodup_map_range {select : K → Bool} {f : Entry V → Option K}
    (hf : ∀ k e, select k = true → s.entry k = some e → f e = some k) :
    ((s.range select).map f).Nodup := by
  have hkeys : ∀ k ∈ s.keys.filter select,
      (s.entry k).map f = if (s.entry k).isSome then some (some k) else none := by
    intro k hk
    cases hentry : s.entry k with
    | none => rfl
    | some e => simp [hf k e (List.mem_filter.1 hk).2 hentry]
  rw [range, List.map_filterMap, List.filterMap_congr hkeys]
  refine (s.nodup_keys.filter select).filterMap fun k k' b hb hb' => ?_
  split at hb
  · split at hb'
    · simp only [Option.mem_def, Option.some.injEq] at hb hb'
      exact Option.some.inj (hb.trans hb'.symm)
    · cases hb'
  · cases hb

/-- `e` was read under `k` at some time: if the key still has its revision, it is what is stored. -/
structure Seen (s : RevisionStore K V) (k : K) (e : Entry V) : Prop where
  pos : 0 < e.revision
  le : e.revision ≤ s.revision
  same : ∀ e', s.entry k = some e' → e'.revision = e.revision → e' = e

lemma seen_of_entry (h : s.entry k = some e) : s.Seen k e where
  pos := (s.revision_range k e h).1
  le := (s.revision_range k e h).2
  same _ he' _ := Option.some.inj (he'.symm.trans h)

/-- **A comparison with the revision of a version of the past holds only if the version is still
there.** -/
lemma Seen.entry_of_holds (h : s.Seen k e) (hholds : s.holds k (some (e.revision : Int)) = true) :
    s.entry k = some e := by
  have hcast : (s.modRevision k : Int) = e.revision := of_decide_eq_true hholds
  have hrev : s.modRevision k = e.revision := by omega
  have hpos := h.pos
  cases hentry : s.entry k with
  | none =>
    simp only [modRevision, hentry, Option.map_none, Option.getD_none] at hrev
    omega
  | some e' =>
    simp only [modRevision, hentry, Option.map_some, Option.getD_some] at hrev
    rw [h.same e' hentry hrev]

variable [DecidableEq K]

def write (s : RevisionStore K V) (k : K) (v : V) (h : s.revision < maxRevision) :
    RevisionStore K V where
  revision := s.revision + 1
  entry := Function.update s.entry k (some ⟨v, s.revision + 1⟩)
  keys := s.keys.insert k
  revision_le := h
  revision_range k' e he := by
    rcases of_update_eq_some he with ⟨-, ⟨⟩⟩ | ⟨-, he⟩
    · exact ⟨Nat.succ_pos _, Nat.le_refl _⟩
    · have hrange := s.revision_range k' e he
      omega
  mem_keys k' e he := by
    rcases of_update_eq_some he with ⟨hk, -⟩ | ⟨-, he⟩
    · exact List.mem_insert_iff.2 (.inl hk)
    · exact List.mem_insert_of_mem (s.mem_keys k' e he)
  nodup_keys := s.nodup_keys.insert

/-- Remove an entry. -/
def erase (s : RevisionStore K V) (k : K) (h : s.revision < maxRevision) : RevisionStore K V where
  revision := s.revision + 1
  entry := Function.update s.entry k none
  keys := s.keys
  revision_le := h
  revision_range k' e he := by
    have hrange := s.revision_range k' e (of_update_none_eq_some he)
    omega
  mem_keys k' e he := s.mem_keys k' e (of_update_none_eq_some he)
  nodup_keys := s.nodup_keys

section Fields

variable (s : RevisionStore K V) (k : K) (v : V) (h : s.revision < maxRevision)

@[simp] lemma entry_write_self : (s.write k v h).entry k = some ⟨v, s.revision + 1⟩ :=
  Function.update_self ..

@[simp] lemma entry_erase_self : (s.erase k h).entry k = none := Function.update_self ..

variable {k}

lemma entry_write_of_ne {k' : K} (hk : k' ≠ k) : (s.write k v h).entry k' = s.entry k' :=
  Function.update_of_ne hk ..

lemma entry_erase_of_ne {k' : K} (hk : k' ≠ k) : (s.erase k h).entry k' = s.entry k' :=
  Function.update_of_ne hk ..

end Fields

/-! ## Calls -/

/-- The calls of the store. -/
inductive Op (K V : Type)
  | get (k : K)
  | range (select : K → Bool)
  | put (k : K) (v : V) (expected : Option Int)
  | delete (k : K) (expected : Option Int)

/-- A call that was not answered. -/
structure Unavailable where
  deriving DecidableEq, Repr

namespace Op

/-- The reply to each call.  A put returns its revision and a removal whether there was anything to
remove, or nothing if the comparison did not hold. -/
abbrev Result : Op K V → Type
  | .get _ => Option (Entry V)
  | .range _ => List (Entry V)
  | .put _ _ _ => Option ℕ
  | .delete _ _ => Option Bool

variable (K V) in
/-- The store as an interface for programs. -/
abbrev interface : Interface where
  Op := Op K V
  Reply op := Except Unavailable op.Result

/-- The effect and the reply of a call that is answered. -/
def apply (s : RevisionStore K V) : (op : Op K V) → RevisionStore K V × Except Unavailable op.Result
  | .get k => (s, .ok (s.entry k))
  | .range select => (s, .ok (s.range select))
  | .put k v expected =>
    if s.holds k expected then
      if h : s.revision < maxRevision then (s.write k v h, .ok (some (s.revision + 1)))
      else (s, .error {})
    else (s, .ok none)
  | .delete k expected =>
    if s.holds k expected then
      if (s.entry k).isSome then
        if h : s.revision < maxRevision then (s.erase k h, .ok (some true)) else (s, .error {})
      else (s, .ok (some false))
    else (s, .ok none)

/-- The effect and the reply of a call. -/
def exec : Program.Semantics (interface K V) (RevisionStore K V) Access
  | s, .answered, op => apply s op
  | s, .unreachable, _ => (s, .error {})
  | s, .replyLost, op => ((apply s op).1, .error {})

/-- **All a call can do**: nothing, or write or remove its key, if its comparison holds. -/
inductive Effect (s : RevisionStore K V) : Op K V → RevisionStore K V → Prop
  | none (op : Op K V) : Effect s op s
  | write {k : K} {v : V} {expected : Option Int} (hholds : s.holds k expected = true)
      (h : s.revision < maxRevision) : Effect s (.put k v expected) (s.write k v h)
  | erase {k : K} {expected : Option Int} {e : Entry V} (hholds : s.holds k expected = true)
      (hentry : s.entry k = some e) (h : s.revision < maxRevision) :
      Effect s (.delete k expected) (s.erase k h)

lemma effect_apply (s : RevisionStore K V) (op : Op K V) : Effect s op (apply s op).1 := by
  cases op with
  | get k | range select => exact .none _
  | put k v expected =>
    simp only [apply]
    split
    next hholds =>
      split
      · exact .write hholds _
      · exact .none _
    · exact .none _
  | delete k expected =>
    simp only [apply]
    split
    next hholds =>
      split
      next hsome =>
        obtain ⟨e, he⟩ := Option.isSome_iff_exists.1 hsome
        split
        · exact .erase hholds he _
        · exact .none _
      · exact .none _
    · exact .none _

lemma effect_exec (s : RevisionStore K V) (access : Access) (op : Op K V) :
    Effect s op (exec s access op).1 := by
  cases access with
  | answered | replyLost => exact effect_apply s op
  | unreachable => exact .none op

variable {s : RevisionStore K V} {op : Op K V} {k : K}

lemma put_of_new {s' : RevisionStore K V} (h : op.Effect s s') {e : Entry V}
    (hafter : s'.entry k = some e) (hbefore : s.entry k ≠ some e) :
    ∃ expected, op = .put k e.value expected ∧ s.holds k expected = true := by
  cases h with
  | none => exact absurd hafter hbefore
  | @write k' v expected hholds hrev =>
    rcases of_update_eq_some hafter with ⟨rfl, ⟨⟩⟩ | ⟨-, hafter⟩
    · exact ⟨expected, rfl, hholds⟩
    · exact absurd hafter hbefore
  | erase hholds hentry hrev => exact absurd (of_update_none_eq_some hafter) hbefore

lemma delete_of_gone {s' : RevisionStore K V} (h : op.Effect s s') {e : Entry V}
    (hbefore : s.entry k = some e) (hafter : s'.entry k = none) :
    ∃ expected, op = .delete k expected ∧ s.holds k expected = true := by
  cases h with
  | none => cases hbefore.symm.trans hafter
  | @write k' v expected hholds hrev =>
    by_cases hk : k = k'
    · subst hk
      simp [entry_write_self] at hafter
    · rw [entry_write_of_ne s v hrev hk] at hafter
      cases hbefore.symm.trans hafter
  | @erase k' expected e' hholds hentry hrev =>
    by_cases hk : k = k'
    · subst hk
      exact ⟨expected, rfl, hholds⟩
    · rw [entry_erase_of_ne s hrev hk] at hafter
      cases hbefore.symm.trans hafter

variable {access : Access}

lemma exec_eq_of_ok {r : op.Result} (h : (exec s access op).2 = .ok r) :
    exec s access op = apply s op := by
  cases access with
  | answered => rfl
  | unreachable | replyLost => cases h

lemma entry_of_exec_get {found : Option (Entry V)} (h : (exec s access (.get k)).2 = .ok found) :
    s.entry k = found := by
  rw [exec_eq_of_ok h] at h
  exact Except.ok.inj h

/-- A put writes its entry, or does nothing and does not report a revision. -/
lemma exec_put (s : RevisionStore K V) (access : Access) (k : K) (v : V) (expected : Option Int) :
    (∃ h, s.holds k expected = true ∧ (exec s access (.put k v expected)).1 = s.write k v h) ∨
      ((exec s access (.put k v expected)).1 = s ∧
        ∀ r, (exec s access (.put k v expected)).2 ≠ .ok (some r)) := by
  have happly :
      (∃ h, s.holds k expected = true ∧ (apply s (.put k v expected)).1 = s.write k v h) ∨
      ((apply s (.put k v expected)).1 = s ∧
        ∀ r, (apply s (.put k v expected)).2 ≠ .ok (some r)) := by
    simp only [apply]
    split
    next hholds =>
      split
      next hlt =>
        exact .inl ⟨hlt, hholds, rfl⟩
      · exact .inr ⟨rfl, by simp⟩
    · exact .inr ⟨rfl, by simp⟩
  cases access with
  | answered => exact happly
  | unreachable => exact .inr ⟨rfl, fun r hr => by cases hr⟩
  | replyLost =>
    rcases happly with hwrite | ⟨hsame, -⟩
    · exact .inl hwrite
    · exact .inr ⟨hsame, fun r hr => by cases hr⟩

lemma entry_of_exec_delete {expected : Option Int} {removed : Bool}
    (h : (exec s access (.delete k expected)).2 = .ok (some removed)) :
    (exec s access (.delete k expected)).1.entry k = none := by
  have heq := exec_eq_of_ok h
  rw [heq] at h ⊢
  simp only [apply] at h ⊢
  split at h
  next hholds =>
    rw [if_pos hholds]
    split at h
    next hsome =>
      rw [if_pos hsome]
      split at h
      next hlt =>
        rw [dif_pos hlt]
        exact entry_erase_self ..
      · cases h
    next hnone =>
      rw [if_neg hnone]
      simpa using hnone
  · cases h

end Op

/-! ## Versions of the past -/

lemma Seen.effect {s' : RevisionStore K V} (h : s.Seen k e) {op : Op K V}
    (heffect : op.Effect s s') : s'.Seen k e := by
  cases heffect with
  | none => exact h
  | @write k' v expected hholds hrev =>
    refine ⟨h.pos, Nat.le_succ_of_le h.le, fun e' he' hsame => ?_⟩
    rcases of_update_eq_some he' with ⟨-, ⟨⟩⟩ | ⟨-, he'⟩
    · -- a write is at a revision that nobody has read yet
      have hle := h.le
      have hlast : s.revision + 1 = e.revision := hsame
      omega
    · exact h.same e' he' hsame
  | erase hholds hentry hrev =>
    exact ⟨h.pos, Nat.le_succ_of_le h.le, fun e' he' hsame =>
      h.same e' (of_update_none_eq_some he') hsame⟩

lemma Seen.exec (h : s.Seen k e) (access : Access) (op : Op K V) : (op.exec s access).1.Seen k e :=
  h.effect (Op.effect_exec s access op)

end RevisionStore

end Tugboat
