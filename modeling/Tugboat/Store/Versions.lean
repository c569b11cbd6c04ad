import Tugboat.Lib.Concurrent
import Tugboat.Store.ResourceStore

/-!
# Versions of stored objects

What a caller has read from the store is a version of the past: other callers may have written the
key since.  `ResourceStore.Past` is what stays true of it, namely that the revision still identifies
the version.  So a put that is conditional on the revision of a version of the past
(`ReplacesVersion`) and succeeds replaces exactly that version.

What becomes of a put is decided by the resource version its object carries: `put_of_invalid`,
`put_of_conflict` and `put_of_match` are the three outcomes.  The last section is about what the
next call of a thread reads, so that a condition on it can be stated before the step is taken.
-/

namespace Tugboat

open ResourceStore

variable {T : Type} [ObjectMetaResource T]

/-! ## Versions of the past -/

/-- `current` was read from the store at some time: if the store still has an object of that
revision under the key, it is that object. -/
def ResourceStore.Past (s : ResourceStore T) (current : ContentData T) : Prop :=
  (0 < current.revision ∧ current.revision ≤ s.revision) ∧
    ∀ key, keyOf current.data = .ok key →
      ∀ c, s.kvs key = some c → c.revision = current.revision → c = current

variable {s : ResourceStore T} {key : String} {current : ContentData T}

lemma ResourceStore.past_of_get {ns : Option String} {name : String}
    (h : s.get ns name = .ok (some current)) : s.Past current := by
  obtain ⟨key, -, hkey⟩ := kvs_of_get h
  refine ⟨s.revision_range key current hkey, fun key' hkey' c hc _ => ?_⟩
  have hkeys : key' = key := Except.ok.inj (hkey'.symm.trans (s.keyed key current hkey))
  rw [hkeys, hkey] at hc
  exact (Option.some.inj hc).symm

lemma ResourceStore.Past.exec (h : s.Past current) (access : Access) (op : StoreOp T) :
    (StoreOp.exec s access op).1.Past current := by
  obtain ⟨hrange, hsame⟩ := h
  rcases StoreOp.exec_world s access op with hw | ⟨request, -, hw⟩ | ⟨key', -, hw⟩
  · rw [hw]
    exact ⟨hrange, hsame⟩
  · -- a write is at a revision that no read has seen yet
    rw [hw]
    refine ⟨⟨hrange.1, Nat.le_succ_of_le hrange.2⟩, fun key hkey c hc hrev => ?_⟩
    rcases writeAll_cases (s.revision + 1) [request] s.kvs key with hk | ⟨r, -, -, hk⟩
    · exact hsame key hkey c (hk ▸ hc) hrev
    have hc' : some (ContentData.mk r.value (s.revision + 1)) = some c := hk.symm.trans hc
    cases hc'
    have : s.revision + 1 = current.revision := hrev
    omega
  · rw [hw]
    refine ⟨⟨hrange.1, ?_⟩, fun key hkey c hc hrev => ?_⟩
    · show current.revision ≤ if (s.kvs key').isSome then s.revision + 1 else s.revision
      split <;> omega
    · exact hsame key hkey c (of_update_none_eq_some hc) hrev

/-- The version a caller has read last, after one more call. -/
def StoreOp.lastRead (read : Option (ContentData T)) :
    (op : StoreOp T) → Except StoreError op.Result → Option (ContentData T)
  | .get _ _, .ok (some current) => some current
  | _, _ => read

/-- What a caller has read last stays a version of the past, also when it is read just now. -/
lemma StoreOp.past_lastRead {read : Option (ContentData T)}
    (h : ∀ current, read = some current → s.Past current) (access : Access) (op : StoreOp T)
    (current : ContentData T) (hread : lastRead read op (exec s access op).2 = some current) :
    (exec s access op).1.Past current := by
  refine Past.exec ?_ access op
  cases op with
  | put value | putIfNotExists value | delete ns name => exact h current hread
  | get ns name =>
    cases hreply : (exec s access (.get ns name)).2 with
    | error e =>
      rw [hreply] at hread
      exact h current hread
    | ok found =>
      rw [hreply] at hread
      cases found with
      | none => exact h current hread
      | some found =>
        cases hread
        exact past_of_get (get_of_exec_get hreply)

/-! ## Puts that replace the version that was read -/

/-- If `value` can be put at all, the put is conditional on the revision of `current` and goes
to its key. -/
def ReplacesVersion (current : ContentData T) (value : T) : Prop :=
  ∀ request, ResourceStore.preparePut value = .ok request →
    request.expectedRevision = some (current.revision : Int) ∧
      ResourceStore.keyOf value = ResourceStore.keyOf current.data

variable {value : T}

lemma ResourceStore.keyOf_of_preparePut {request : PutRequest T}
    (h : preparePut value = .ok request) : keyOf value = .ok request.key :=
  (preparePut_eq_ok h).1 ▸ request.keyed

variable {m : ObjectMeta}

lemma ResourceStore.keyOf_data_of_objectMeta (hm : Resource.objectMeta value = some m)
    (hname : m.name = ((Resource.objectMeta current.data).getD {}).name)
    (hns : m.namespace = ((Resource.objectMeta current.data).getD {}).namespace)
    (hkey : keyOf value = .ok key) : keyOf current.data = .ok key := by
  cases hdata : Resource.objectMeta current.data with
  | some m₀ =>
    rw [← hkey]
    refine (keyOf_congr hdata hm ?_ ?_).symm
    · rw [hname, hdata]
      rfl
    · rw [hns, hdata]
      rfl
  | none =>
    -- an object without metadata has no name, so `value` has none and no key
    obtain ⟨m₁, name, hm₁, hsome⟩ := keyOf_eq_ok hkey
    cases hm.symm.trans hm₁
    simp [hname, hdata] at hsome

/-- An object with the name and namespace of `current` replaces it, if the put is conditional on
the revision of `current`. -/
lemma replacesVersion_of_objectMeta (hm : Resource.objectMeta value = some m)
    (hname : m.name = ((Resource.objectMeta current.data).getD {}).name)
    (hns : m.namespace = ((Resource.objectMeta current.data).getD {}).namespace)
    (hversion : ∀ expected, expectedRevision m = .ok expected →
      expected = some (current.revision : Int)) : ReplacesVersion current value := by
  intro request hrequest
  obtain ⟨-, m', hm', hexpected⟩ := preparePut_eq_ok hrequest
  cases hm.symm.trans hm'
  have hkey : keyOf value = .ok request.key := keyOf_of_preparePut hrequest
  refine ⟨hversion _ hexpected, ?_⟩
  rw [hkey, keyOf_data_of_objectMeta hm hname hns hkey]

lemma ResourceStore.expectedRevision_toString {revision : ℕ}
    (h : m.resourceVersion = some (toString revision)) {expected : Option Int}
    (hexpected : expectedRevision m = .ok expected) :
    expected = some (revision : Int) := by
  obtain ⟨r, hr, hsome⟩ := expectedRevision_of_some _ h hexpected
  rw [hsome, Decimal.eq_of_parseInt64_toString hr]

/-- A put that replaces a version of the past, and whose comparison holds, finds that version. -/
lemma ReplacesVersion.kvs_of_holds {request : PutRequest T}
    (hreplaces : ReplacesVersion current value) (hpast : s.Past current)
    (hrequest : preparePut value = .ok request) (hholds : s.holds request = true) :
    s.kvs request.key = some current := by
  obtain ⟨hexpected, hkeyOf⟩ := hreplaces request hrequest
  obtain ⟨hrange, hsame⟩ := hpast
  have hkey : keyOf value = .ok request.key := keyOf_of_preparePut hrequest
  have hrev : s.modRevision request.key = current.revision := by
    simp only [holds, hexpected, decide_eq_true_eq] at hholds
    exact_mod_cast hholds
  cases hc : s.kvs request.key with
  | none =>
    simp only [modRevision, hc, Option.map_none, Option.getD_none] at hrev
    omega
  | some c =>
    simp only [modRevision, hc, Option.map_some, Option.getD_some] at hrev
    rw [hsame request.key (hkeyOf ▸ hkey) c hc hrev]

/-! ## What a call replaces -/

/-- All a put can do: nothing, or write its request, if the comparison holds. -/
lemma StoreOp.exec_put_world (s : ResourceStore T) (access : Access) (value : T) :
    (exec s access (.put value)).1 = s ∨
      ∃ request, preparePut value = .ok request ∧ s.holds request = true ∧
        (exec s access (.put value)).1 = s.commit [request] := by
  have happly : (apply s (.put value)).1 = s ∨
      ∃ request, preparePut value = .ok request ∧ s.holds request = true ∧
        (apply s (.put value)).1 = s.commit [request] := by
    simp only [apply, ResourceStore.put, putMany]
    split
    · exact .inl rfl
    rename_i request hrequest
    cases hholds : s.holds request with
    | true => exact .inr ⟨request, hrequest, hholds, by simp [hholds]⟩
    | false => exact .inl (by simp [hholds])
  cases access with
  | answered => exact happly
  | unreachable => exact .inl rfl
  | replyLost => exact happly

lemma ResourceStore.kvs_commit_singleton (s : ResourceStore T) (request : PutRequest T) :
    (s.commit [request]).kvs =
      Function.update s.kvs request.key (some ⟨request.value, s.revision + 1⟩) := rfl

/-- **Only a put whose comparison holds replaces a stored version**, by its own object. -/
lemma StoreOp.put_of_replaces {access : Access} {op : StoreOp T} {before after : ContentData T}
    (hbefore : s.kvs key = some before)
    (hafter : (exec s access op).1.kvs key = some after) (hne : after ≠ before) :
    ∃ value request, op = .put value ∧ preparePut value = .ok request ∧
      s.holds request = true ∧ request.key = key ∧ after = ⟨value, s.revision + 1⟩ := by
  -- a call that leaves the key alone replaces nothing
  have hsame : (exec s access op).1.kvs key = s.kvs key → False := by
    intro h
    rw [h, hbefore] at hafter
    exact hne (Option.some.inj hafter).symm
  cases op with
  | get ns name => exact (hsame (by cases access <;> rfl)).elim
  | put value =>
    rcases exec_put_world s access value with hw | ⟨request, hrequest, hholds, hw⟩
    · exact (hsame (by rw [hw])).elim
    by_cases hkey : key = request.key
    · refine ⟨value, request, rfl, hrequest, hholds, hkey.symm, ?_⟩
      rw [hw, kvs_commit_singleton, hkey, Function.update_self,
        (preparePut_eq_ok hrequest).1] at hafter
      exact (Option.some.inj hafter).symm
    · exact (hsame (by rw [hw, kvs_commit_singleton, Function.update_of_ne hkey])).elim
  | putIfNotExists value =>
    have happly : (apply s (.putIfNotExists value)).1.kvs key = s.kvs key := by
      simp only [apply, ResourceStore.putIfNotExists]
      split
      · rfl
      rename_i key' hkey'
      split
      · rfl
      rename_i habsent
      -- the key that is written was free, so it is not this one
      have hkey : key ≠ key' := by
        rintro rfl
        exact habsent (by rw [hbefore]; rfl)
      simp only [kvs_commit_singleton, Function.update_of_ne hkey]
    cases access with
    | answered | replyLost => exact (hsame happly).elim
    | unreachable => exact (hsame rfl).elim
  | delete ns name =>
    rcases exec_world s access (.delete ns name) with hw | ⟨r, hr, -⟩ | ⟨key', -, hw⟩
    · exact (hsame (by rw [hw])).elim
    · cases hr
    rw [hw] at hafter
    have := of_update_none_eq_some hafter
    rw [hbefore] at this
    exact (hne (Option.some.inj this).symm).elim

/-! ## What becomes of a put -/

section Put

variable {s : ResourceStore T} {value : T} {m : ObjectMeta} {key rv : String} {n : Int}
  (hm : Resource.objectMeta value = some m) (hrv : m.resourceVersion = some rv)
  (hkey : keyOf value = .ok key)

include hm hkey in
lemma ResourceStore.exists_nameOf : ∃ name, nameOf value = .ok (m, name) := by
  obtain ⟨m', name, hm', hname⟩ := keyOf_eq_ok hkey
  cases hm.symm.trans hm'
  exact ⟨name, by simp only [nameOf, hm, hname]⟩

include hm hrv hkey

lemma ResourceStore.preparePut_of_version (hn : Decimal.parseInt64 rv = some n) :
    preparePut value = .ok { key, value, expectedRevision := some n, keyed := hkey } := by
  obtain ⟨name, hnameOf⟩ := exists_nameOf hm hkey
  have hexpected : expectedRevision m = .ok (some n) := by
    simp only [expectedRevision, hrv, hn]
  unfold preparePut
  rw [hnameOf]
  dsimp only
  rw [hexpected]
  dsimp only
  split
  next e he =>
    cases hkey.symm.trans he
  next key' hkey' =>
    obtain rfl : key = key' := Except.ok.inj (hkey.symm.trans hkey')
    rfl

lemma ResourceStore.put_of_invalid (hn : Decimal.parseInt64 rv = none) : s.put value =
      (s, .error (.invalidField "metadata.resourceVersion" "must be a valid integer")) := by
  obtain ⟨name, hnameOf⟩ := exists_nameOf hm hkey
  have hexpected : expectedRevision m =
      .error (.invalidField "metadata.resourceVersion" "must be a valid integer") := by
    simp only [expectedRevision, hrv, hn]
  simp only [put, preparePut, hnameOf, hexpected]

lemma ResourceStore.put_of_conflict
    (hn : Decimal.parseInt64 rv = some n) (hne : (s.modRevision key : Int) ≠ n) :
    s.put value = (s, .error (.optimisticLockFailed n)) := by
  have hholds : s.holds { key, value, expectedRevision := some n, keyed := hkey } = false :=
    decide_eq_false hne
  simp only [put, preparePut_of_version hm hrv hkey hn, putMany, hholds,
    List.isEmpty_cons, List.all_cons, Bool.false_and, Bool.false_eq_true, if_false]
  rfl

lemma ResourceStore.put_of_match
    (hn : Decimal.parseInt64 rv = some n) (heq : (s.modRevision key : Int) = n) :
    (s.put value).2 = .ok ⟨value, s.revision + 1⟩ ∧
      (s.put value).1.kvs key = some ⟨value, s.revision + 1⟩ := by
  have hholds : s.holds { key, value, expectedRevision := some n, keyed := hkey } = true :=
    decide_eq_true heq
  simp only [put, preparePut_of_version hm hrv hkey hn, putMany, hholds,
    List.isEmpty_cons, List.all_cons, List.all_nil, Bool.true_and, Bool.false_eq_true, if_false,
    if_true, kvs_commit_singleton, Function.update_self, and_true]
  rfl

/-- A put under a resource version that is told to have succeeded has found its revision. -/
lemma StoreOp.parseInt64_of_exec_put {access : Access}
    {data : ContentData T} (h : (exec s access (.put value)).2 = .ok data) :
    access = .answered ∧ Decimal.parseInt64 rv = some (s.modRevision key : Int) := by
  cases access with
  | unreachable | replyLost => cases h
  | answered =>
    replace h : (s.put value).2 = .ok data := h
    refine ⟨rfl, ?_⟩
    cases hn : Decimal.parseInt64 rv with
    | none =>
      simp [put_of_invalid hm hrv hkey hn] at h
    | some n =>
      by_cases heq : (s.modRevision key : Int) = n
      · rw [heq]
      · simp [put_of_conflict hm hrv hkey hn heq] at h

end Put

/-! ## What a thread is about to read or put -/

/-- `A` holds of the version a call returns, if it is a read that finds one. -/
def StoreOp.OnRead (A : ContentData T → Prop) :
    (op : StoreOp T) → Except StoreError op.Result → Prop
  | .get _ _, .ok (some current) => A current
  | _, _ => True

variable {κ γ α : Type}

/-- The version the next call of thread `k` reads. -/
def Config.nextRead (c : Config (StoreOp.interface T) κ (ResourceStore T) γ α) (k : κ) :
    Option (ContentData T) :=
  match c.thread k with
  | .call (.get ns name) _ => (c.world.get ns name).toOption.join
  | _ => none

/-- The object the next call of thread `k` puts. -/
def Config.nextPut (c : Config (StoreOp.interface T) κ (ResourceStore T) γ α) (k : κ) : Option T :=
  match c.thread k with
  | .call (.put value) _ => some value
  | _ => none

/-- What holds of the version a thread is about to read holds of what its next call returns. -/
lemma Config.onRead_exec {c : Config (StoreOp.interface T) κ (ResourceStore T) γ α} {k : κ}
    {op : StoreOp T} {next : Except StoreError op.Result → Program (StoreOp.interface T) α}
    {A : ContentData T → Prop} (hk : c.thread k = .call op next)
    (h : ∀ current ∈ c.nextRead k, A current) (access : Access) :
    StoreOp.OnRead A op (StoreOp.exec c.world access op).2 := by
  cases op with
  | put value | putIfNotExists value | delete ns name => trivial
  | get ns name =>
    cases hreply : (StoreOp.exec c.world access (.get ns name)).2 with
    | error e => trivial
    | ok found =>
      cases found with
      | none => trivial
      | some current =>
        refine h current ?_
        simp only [Config.nextRead, hk, StoreOp.get_of_exec_get hreply]
        rfl

end Tugboat
