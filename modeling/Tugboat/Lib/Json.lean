import Mathlib.Algebra.Ring.Int.Defs
import Mathlib.Algebra.Ring.Nat
import Mathlib.Tactic.Common

/-!
# JSON values

The JSON values a server computes with after parsing, with objects as the ordered maps the
parser builds: an object is a list of fields in increasing order of their keys, and
`Json.Map.insert` and `Json.Map.remove` keep it so.  Strings are compared by code points, which
is the order of their UTF-8 bytes.

The second half are the decoders a derived deserializer is made of.  A record is read field by
field from the map: a missing field takes its default, an unknown field is ignored, a field of
the wrong shape makes the whole record fail.
-/

namespace Tugboat.Json

/-- A JSON number: an integer, or a finite floating point value. -/
inductive Number
  | int (n : Int)
  | float (q : Rat)
  deriving DecidableEq, Repr

inductive Value
  | null
  | bool (b : Bool)
  | number (n : Number)
  | string (s : String)
  | array (items : List Value)
  | object (fields : List (String × Value))
  deriving Repr, Inhabited

/-- The fields of an object, in increasing order of their keys. -/
abbrev Map : Type := List (String × Value)

/-! ## Equality -/

mutual

/-- Equality of values is decidable; the nested lists are why it is not derived. -/
def decEqValue : (v w : Value) → Decidable (v = w)
  | .null, .null => .isTrue rfl
  | .bool a, .bool b => decidable_of_iff (a = b) (by simp)
  | .number a, .number b => decidable_of_iff (a = b) (by simp)
  | .string a, .string b => decidable_of_iff (a = b) (by simp)
  | .array a, .array b => @decidable_of_iff _ (a = b) (by simp) (decEqItems a b)
  | .object a, .object b => @decidable_of_iff _ (a = b) (by simp) (decEqFields a b)
  | .null, .bool _ | .null, .number _ | .null, .string _ | .null, .array _ | .null, .object _
  | .bool _, .null | .bool _, .number _ | .bool _, .string _ | .bool _, .array _
  | .bool _, .object _ | .number _, .null | .number _, .bool _ | .number _, .string _
  | .number _, .array _ | .number _, .object _ | .string _, .null | .string _, .bool _
  | .string _, .number _ | .string _, .array _ | .string _, .object _ | .array _, .null
  | .array _, .bool _ | .array _, .number _ | .array _, .string _ | .array _, .object _
  | .object _, .null | .object _, .bool _ | .object _, .number _ | .object _, .string _
  | .object _, .array _ => .isFalse (by simp)

def decEqItems : (vs ws : List Value) → Decidable (vs = ws)
  | [], [] => .isTrue rfl
  | [], _ :: _ | _ :: _, [] => .isFalse (by simp)
  | v :: vs, w :: ws =>
    @decidable_of_iff _ (v = w ∧ vs = ws) (by simp)
      (@instDecidableAnd _ _ (decEqValue v w) (decEqItems vs ws))

def decEqFields : (fs gs : List (String × Value)) → Decidable (fs = gs)
  | [], [] => .isTrue rfl
  | [], _ :: _ | _ :: _, [] => .isFalse (by simp)
  | (k, v) :: fs, (l, w) :: gs =>
    @decidable_of_iff _ (k = l ∧ v = w ∧ fs = gs) (by simp [and_assoc])
      (@instDecidableAnd _ _ _
        (@instDecidableAnd _ _ (decEqValue v w) (decEqFields fs gs)))

end

instance : DecidableEq Value := decEqValue

/-! ## Ordered maps -/

namespace Map

/-- The value stored under `k`. -/
def get (m : Map) (k : String) : Option Value := m.lookup k

/-- Store `v` under `k`, replacing what was there. -/
def insert (k : String) (v : Value) : Map → Map
  | [] => [(k, v)]
  | (l, w) :: m =>
    if k = l then (k, v) :: m
    else if k < l then (k, v) :: (l, w) :: m
    else (l, w) :: insert k v m

/-- Drop the field `k`. -/
def remove (k : String) (m : Map) : Map := m.filter (·.1 ≠ k)

def addField (m : Map) (f : String × Option Value) : Map :=
  match f.2 with
  | some v => m.insert f.1 v
  | none => m

/-- The map of the given fields; a field without a value is not there. -/
def ofFields (fields : List (String × Option Value)) : Map := fields.foldl addField []

variable {k l : String}

lemma get_cons (k l : String) (w : Value) (m : Map) :
    get ((l, w) :: m) k = if k = l then some w else get m k := by
  by_cases h : k = l
  · simp [get, h]
  · have hbeq : (k == l) = false := by simpa using h
    simp [get, List.lookup_cons, h, hbeq]

@[simp] lemma get_insert_self (k : String) (v : Value) :
    ∀ m : Map, (m.insert k v).get k = some v
  | [] => by simp [insert, get]
  | (l, w) :: m => by
    have ih := get_insert_self k v m
    unfold insert
    split
    · simp [get_cons]
    rename_i hne
    split
    · simp [get_cons]
    · rw [get_cons, if_neg hne, ih]

@[simp] lemma get_insert_of_ne (h : l ≠ k) (v : Value) :
    ∀ m : Map, (m.insert k v).get l = m.get l
  | [] => by simp [insert, get_cons, h]
  | (j, w) :: m => by
    have ih := get_insert_of_ne h v m
    unfold insert
    split
    next hk =>
      simp [get_cons, ← hk, h]
    · split
      · simp [get_cons, h]
      · rw [get_cons, get_cons, ih]

@[simp] lemma get_remove_self (k : String) : ∀ m : Map, (m.remove k).get k = none
  | [] => rfl
  | (l, w) :: m => by
    have ih := get_remove_self k m
    by_cases hl : l = k
    · rw [remove, List.filter_cons_of_neg (by simp [hl])]
      exact ih
    · rw [remove, List.filter_cons_of_pos (by simp [hl]), get_cons, if_neg (Ne.symm hl)]
      exact ih

@[simp] lemma get_remove_of_ne (h : l ≠ k) : ∀ m : Map, (m.remove k).get l = m.get l
  | [] => rfl
  | (j, w) :: m => by
    have ih := get_remove_of_ne h m
    by_cases hj : j = k
    · rw [remove, List.filter_cons_of_neg (by simp [hj]), get_cons, if_neg (hj ▸ h)]
      exact ih
    · rw [remove, List.filter_cons_of_pos (by simp [hj]), get_cons, get_cons]
      rw [remove] at ih
      rw [ih]

lemma get_addField (k l : String) (o : Option Value) (m : Map) :
    (m.addField (l, o)).get k = if k = l then o.or (m.get k) else m.get k := by
  cases o with
  | none => simp [addField]
  | some v =>
    by_cases hk : k = l <;> simp [addField, hk]

/-- Adding fields to a map one after the other.  The names of the fields are distinct, so each
is found under its name. -/
lemma get_foldl_addField (k : String) :
    ∀ (fields : List (String × Option Value)) (m : Map), (fields.map Prod.fst).Nodup →
      (fields.foldl addField m).get k = (fields.lookup k).join.or (m.get k)
  | [], m, _ => rfl
  | (l, o) :: fields, m, hnodup => by
    obtain ⟨hl, hrest⟩ := List.nodup_cons.1 hnodup
    rw [List.foldl_cons, get_foldl_addField k fields _ hrest, get_addField]
    by_cases hk : k = l
    · subst hk
      have hnone : fields.lookup k = none := by
        rw [List.lookup_eq_none_iff]
        intro f hf
        have hne : k ≠ f.1 := fun h => hl (List.mem_map.2 ⟨f, hf, h.symm⟩)
        simpa using hne
      simp [hnone]
    · have hbeq : (k == l) = false := by simpa using hk
      simp [List.lookup_cons, hk, hbeq]

/-- The fields of a record with distinct names are found under their names. -/
lemma get_ofFields (fields : List (String × Option Value)) (k : String)
    (h : (fields.map Prod.fst).Nodup) : (ofFields fields).get k = (fields.lookup k).join := by
  rw [ofFields, get_foldl_addField k fields [] h]
  exact Option.or_none

end Map

namespace Value

def asStr : Value → Option String
  | .string s => some s
  | _ => none

lemma eq_string_of_asStr {v : Value} {s : String} (h : v.asStr = some s) : v = .string s := by
  cases v with
  | string t =>
    cases h
    rfl
  | null | bool b | number n | array items | object fields => cases h

def asObject : Value → Option Map
  | .object m => some m
  | _ => none

def asArray : Value → Option (List Value)
  | .array items => some items
  | _ => none

/-- The field `k` of an object; other values have no fields. -/
def get (v : Value) (k : String) : Option Value :=
  v.asObject.bind (·.get k)

/-- The fields of a record with the given names.  A derived deserializer also takes the array of the
fields in their order; those that are missing at its end have their defaults. -/
def asRecord (names : List String) : Value → Option Map
  | .object m => some m
  | .array items => if items.length ≤ names.length then some (names.zip items) else none
  | _ => none

@[simp] lemma asRecord_object (names : List String) (m : Map) :
    asRecord names (.object m) = some m := rfl

mutual

/-- No object in the value has a key twice; this is so of every value the parser builds. -/
def wellFormed : Value → Bool
  | .object fields => decide (fields.map Prod.fst).Nodup && wellFormedFields fields
  | .array items => wellFormedItems items
  | .null | .bool _ | .number _ | .string _ => true

def wellFormedItems : List Value → Bool
  | [] => true
  | v :: vs => wellFormed v && wellFormedItems vs

def wellFormedFields : List (String × Value) → Bool
  | [] => true
  | (_, v) :: fields => wellFormed v && wellFormedFields fields

end

lemma nodup_of_wellFormed {m : Map} (h : wellFormed (.object m) = true) :
    (m.map Prod.fst).Nodup := by
  rw [wellFormed, Bool.and_eq_true, decide_eq_true_eq] at h
  exact h.1

lemma wellFormed_of_get {m : Map} {k : String} {v : Value} (h : wellFormed (.object m) = true)
    (hget : m.get k = some v) : wellFormed v = true := by
  rw [wellFormed, Bool.and_eq_true] at h
  replace h := h.2
  induction m with
  | nil => cases hget
  | cons f m ih =>
    obtain ⟨l, w⟩ := f
    rw [wellFormedFields, Bool.and_eq_true] at h
    rw [Map.get_cons] at hget
    split at hget
    · cases hget
      exact h.1
    · exact ih hget h.2

end Value

/-! ## Encoding and decoding records -/

def encodeUnlessDefault {α : Type} [DecidableEq α] (dflt : α) (encode : α → Value) (a : α) :
    Option Value :=
  if a = dflt then none else some (encode a)

/-- Decode an optional field: absent and `null` both mean that there is no value. -/
def decodeOption {α : Type} (m : Map) (k : String) (decode : Value → Option α) :
    Option (Option α) :=
  match m.get k with
  | none | some .null => some none
  | some v => (decode v).map some

variable {α : Type} {k : String}

lemma exists_of_decodeOption {m : Map} {decode : Value → Option α} {a : α}
    (h : decodeOption m k decode = some (some a)) :
    ∃ v, m.get k = some v ∧ decode v = some a := by
  unfold decodeOption at h
  split at h
  · cases h
  · cases h
  rename_i v _ hv
  obtain ⟨b, hb, hba⟩ := Option.map_eq_some_iff.1 h
  cases hba
  exact ⟨v, hv, hb⟩

/-- Decode a field that falls back to its default when absent (but not when `null`). -/
def decodeDefault {α : Type} (m : Map) (k : String) (dflt : α) (decode : Value → Option α) :
    Option α :=
  match m.get k with
  | none => some dflt
  | some v => decode v

/-- Decode an integer of 64 bits. -/
def decodeInt64 : Value → Option Int
  | .number (.int n) => if -2 ^ 63 ≤ n ∧ n < 2 ^ 63 then some n else none
  | _ => none

def decodeNat (bound : ℕ) : Value → Option ℕ
  | .number (.int n) => if 0 ≤ n ∧ n < bound then some n.toNat else none
  | _ => none

def decodeBool : Value → Option Bool
  | .bool b => some b
  | _ => none

def decodeList {α : Type} (decode : Value → Option α) : Value → Option (List α)
  | .array items => items.mapM decode
  | _ => none

def decodeStringMap : Value → Option (List (String × String))
  | .object m => m.mapM fun f => f.2.asStr.map fun s => (f.1, s)
  | _ => none

def encodeStringMap (m : List (String × String)) : Value :=
  .object (m.map fun f => (f.1, .string f.2))

section RoundTrip

variable {α : Type} {m : Map} {k : String} {encode : α → Value} {decode : Value → Option α}

lemma decodeOption_of_get {a : Option α} (hget : m.get k = a.map encode)
    (hdecode : ∀ a, decode (encode a) = some a) (hnull : ∀ a, encode a ≠ .null) :
    decodeOption m k decode = some a := by
  cases a with
  | none => simp [decodeOption, hget]
  | some a =>
    rw [Option.map_some] at hget
    unfold decodeOption
    split
    next hnone =>
      cases hget.symm.trans hnone
    next hsome =>
      rw [hget] at hsome
      exact absurd (Option.some.inj hsome) (hnull a)
    next v _ hv =>
      cases hget.symm.trans hv
      simp [hdecode a]

lemma decodeDefault_of_get [DecidableEq α] {a dflt : α}
    (hget : m.get k = encodeUnlessDefault dflt encode a)
    (hdecode : ∀ a, decode (encode a) = some a) : decodeDefault m k dflt decode = some a := by
  by_cases ha : a = dflt
  · simp [decodeDefault, hget, encodeUnlessDefault, ha]
  · simp [decodeDefault, hget, encodeUnlessDefault, ha, hdecode]

end RoundTrip

end Tugboat.Json
