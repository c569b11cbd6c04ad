import Mathlib.Data.List.Basic
import Mathlib.Data.List.Perm.Basic
import Mathlib.Data.List.Zip

/-!
# Lists that are edited by key

An entry of a list of keys that does not occur in another one has been added or removed.  A second
list holds a value for every key, in the order of the keys, and is edited along: values are taken
out at the positions of the removed keys, from the last to the first.  What is left are the values
of the keys that stay, and what was behind them (`taken_of_foldlM_takeAt`).
-/

namespace Tugboat.KeyDiff

variable {α β : Type} [DecidableEq α]

/-! ## Positions -/

/-- The positions of the keys that are not among `other`, counted from `n`. -/
def absentFrom (other keys : List α) (n : ℕ) : List ℕ :=
  (keys.zipIdx n).filterMap fun p => if p.1 ∈ other then none else some p.2

variable {other keys : List α} {n : ℕ}

lemma absentFrom_cons_of_mem {k : α} (h : k ∈ other) :
    absentFrom other (k :: keys) n = absentFrom other keys (n + 1) := by
  simp [absentFrom, List.zipIdx_cons, h]

lemma absentFrom_cons_of_notMem {k : α} (h : k ∉ other) :
    absentFrom other (k :: keys) n = n :: absentFrom other keys (n + 1) := by
  simp [absentFrom, List.zipIdx_cons, h]

lemma length_absentFrom (other keys : List α) (n : ℕ) :
    (absentFrom other keys n).length = (keys.filter (· ∉ other)).length := by
  induction keys generalizing n with
  | nil => rfl
  | cons k keys ih =>
    by_cases h : k ∈ other
    · rw [absentFrom_cons_of_mem h, ih, List.filter_cons_of_neg (by simpa using h)]
    · rw [absentFrom_cons_of_notMem h, List.filter_cons_of_pos (by simpa using h),
        List.length_cons, List.length_cons, ih]

lemma absentFrom_eq_nil_iff : absentFrom other keys n = [] ↔ keys.filter (· ∉ other) = [] := by
  rw [← List.length_eq_zero_iff, length_absentFrom, List.length_eq_zero_iff]

/-! ## Values in step with the keys -/

def kept (other keys : List α) (vals : List β) : List β :=
  ((keys.zip vals).filter (·.1 ∈ other)).map (·.2)

def dropped (other keys : List α) (vals : List β) : List β :=
  ((keys.zip vals).filter (·.1 ∉ other)).map (·.2)

structure Taken (β : Type) where
  rest : List β
  taken : List β := []

/-- Take out the value at a position. -/
def takeAt (t : Taken β) (i : ℕ) : Option (Taken β) :=
  t.rest[i]?.map fun b => ⟨t.rest.eraseIdx i, t.taken ++ [b]⟩

lemma takeAt_append_cons (front vals taken : List β) (b : β) :
    takeAt ⟨front ++ b :: vals, taken⟩ front.length = some ⟨front ++ vals, taken ++ [b]⟩ := by
  simp [takeAt, List.eraseIdx_append_of_length_le]

variable {vals : List β}

lemma le_of_mem_absentFrom {i : ℕ} (h : i ∈ absentFrom other keys n) : n ≤ i := by
  obtain ⟨⟨k, j⟩, hmem, hi⟩ := List.mem_filterMap.1 h
  have hle := (List.mem_zipIdx hmem).1
  split at hi
  · cases hi
  · exact Option.some.inj hi ▸ hle

/-- Nothing can be taken out behind the end. -/
lemma foldlM_takeAt_of_length_le {indexes : List ℕ} {t t' : Taken β}
    (hout : ∀ i ∈ indexes, t.rest.length ≤ i) (h : indexes.foldlM takeAt t = some t') :
    indexes = [] := by
  cases indexes with
  | nil => rfl
  | cons i indexes =>
    have hnone : takeAt t i = none := by
      rw [takeAt, List.getElem?_eq_none (hout i List.mem_cons_self)]
      rfl
    rw [List.foldlM_cons, hnone] at h
    cases h

/-- Taking out the values of the absent keys, from the last one to the first: if all of them are
there, the values of the keys that stay are left, and what is behind the keys. -/
theorem taken_of_foldlM_takeAt {t : Taken β} (front taken : List β)
    (h : (absentFrom other keys front.length).reverse.foldlM takeAt ⟨front ++ vals, taken⟩ =
      some t) :
    t = ⟨front ++ (kept other keys vals ++ vals.drop keys.length),
      taken ++ (dropped other keys vals).reverse⟩ := by
  induction keys generalizing front taken vals t with
  | nil =>
    cases h
    simp [kept, dropped]
  | cons k keys ih =>
    cases vals with
    | nil =>
      have hnone := foldlM_takeAt_of_length_le (fun i hi => ?_) h
      · rw [hnone] at h
        cases h
        simp [kept, dropped]
      · rw [List.append_nil]
        exact le_of_mem_absentFrom (List.mem_reverse.1 hi)
    | cons b vals =>
      have hfront : (front ++ [b]).length = front.length + 1 := by simp
      have hvals : front ++ b :: vals = (front ++ [b]) ++ vals := by simp
      by_cases hk : k ∈ other
      · rw [absentFrom_cons_of_mem hk, hvals, ← hfront] at h
        rw [ih (front ++ [b]) taken h]
        simp [kept, dropped, hk]
      · -- the head goes last, when the positions behind it are done
        rw [absentFrom_cons_of_notMem hk, List.reverse_cons, List.foldlM_append, hvals,
          ← hfront] at h
        obtain ⟨t', htail, hhead⟩ := Option.bind_eq_some_iff.1 h
        rw [ih (front ++ [b]) taken htail, List.foldlM_cons] at hhead
        have hstep := takeAt_append_cons front (kept other keys vals ++ vals.drop keys.length)
          (taken ++ (dropped other keys vals).reverse) b
        have hshape : front ++ [b] ++ (kept other keys vals ++ vals.drop keys.length) =
            front ++ b :: (kept other keys vals ++ vals.drop keys.length) := by simp
        rw [hshape, hstep] at hhead
        cases hhead
        simp [kept, dropped, hk]

omit [DecidableEq α] in
/-- Keys that are in step with values are selected by a condition on the pairs. -/
lemma map_fst_filter_zip (p : α → Bool) (hlen : keys.length = vals.length) :
    ((keys.zip vals).filter fun x => p x.1).map Prod.fst = keys.filter p := by
  calc ((keys.zip vals).filter (p ∘ Prod.fst)).map Prod.fst
      = ((keys.zip vals).map Prod.fst).filter p := List.filter_map.symm
    _ = keys.filter p := by rw [List.map_fst_zip (Nat.le_of_eq hlen)]

/-! ## Things that are made for the keys -/

variable {ι : Type}

omit [DecidableEq α] in
lemma map_eq_map_of_map_eq {ι' δ : Type} {key : ι → α} {key' : ι' → α} {label : ι → δ}
    {label' : ι' → δ} {l : List ι} {l' : List ι'} (h : l.map key = l'.map key')
    (hlabel : ∀ x ∈ l, ∀ y ∈ l', key x = key' y → label x = label' y) :
    l.map label = l'.map label' := by
  induction l generalizing l' with
  | nil =>
    cases l' with
    | nil => rfl
    | cons y l' => cases h
  | cons x l ih =>
    cases l' with
    | nil => cases h
    | cons y l' =>
      obtain ⟨hhead, htail⟩ := List.cons.inj h
      rw [List.map_cons, List.map_cons, hlabel x (by simp) y (by simp) hhead,
        ih htail fun a ha b hb => hlabel a (List.mem_cons_of_mem x ha) b
          (List.mem_cons_of_mem y hb)]

end Tugboat.KeyDiff
