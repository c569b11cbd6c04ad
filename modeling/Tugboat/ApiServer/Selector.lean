import Tugboat.ApiServer.Status
import Tugboat.Lib.Text
import Tugboat.Resources.Meta

/-!
# Label and field selectors

The selectors of `endpoints/selector`, which narrow a list or a watch.  A label selector looks at
the labels in the metadata, a field selector follows a dotted path through the JSON form.  A watch
asks `checkSelector` about the object of each event.
-/

namespace Tugboat

open Json

inductive Selector
  | equal (key value : String)
  | notEqual (key value : String)
  deriving DecidableEq, Repr

namespace Selector

/-- The parts before and after the first `!=`. -/
def splitOnceNotEqual : List Char → Option (List Char × List Char)
  | '!' :: '=' :: value => some ([], value)
  | [] => none
  | c :: cs => (splitOnceNotEqual cs).map fun part => (c :: part.1, part.2)

def emptyKey : StatusResponse := .badRequest "Invalid selector format: key must not be empty"

/-- One of the parts between the commas. -/
def parseFragment (fragment : String) : Except StatusResponse Selector :=
  match splitOnceNotEqual fragment.toList with
  | some (key, value) =>
    if key = [] then .error emptyKey else .ok (.notEqual (String.ofList key) (String.ofList value))
  | none =>
    match Text.splitOnce '=' fragment with
    | some (key, value) => if key = "" then .error emptyKey else .ok (.equal key value)
    | none => .error (.badRequest
        "Invalid selector format: must be key=value or key!=value, separated by commas")

def tryParse (s : String) : Except StatusResponse (List Selector) :=
  (Text.split ',' s).mapM parseFragment

end Selector

/-- A requirement on a field, with the path to it. -/
inductive FieldSelector
  | equal (key : List String) (value : String)
  | notEqual (key : List String) (value : String)
  deriving DecidableEq, Repr

/-- The path of a field selector is its key, cut at the dots. -/
def FieldSelector.ofSelector : Selector → FieldSelector
  | .equal key value => .equal (Text.split '.' key) value
  | .notEqual key value => .notEqual (Text.split '.' key) value

/-- The value at the end of a path through nested objects. -/
def follow (value : Value) : List String → Option Value
  | [] => some value
  | key :: route => (value.get key).bind fun data => follow data route

/-- A field that is missing counts as empty, and so does one that is null, for equality. -/
def FieldSelector.isMatch (value : Value) : FieldSelector → Bool
  | .equal key expected =>
    match follow value key with
    | none => expected = ""
    | some actual => actual = .string expected || (expected = "" && actual = .null)
  | .notEqual key expected =>
    match follow value key with
    | none => expected ≠ ""
    | some actual => actual ≠ .string expected

def fieldsMatch (value : Value) (s : String) : Except StatusResponse Bool :=
  (Selector.tryParse s).map (·.all fun sel => (FieldSelector.ofSelector sel).isMatch value)

lemma map_all_mapM_eq_ok_true {α β ε : Type} (f : α → Except ε β) (p : β → Bool) :
    ∀ l : List α, (l.mapM f).map (·.all p) = .ok true ↔ ∀ a ∈ l, (f a).map p = .ok true
  | [] => by simp [Except.map, pure, Except.pure]
  | a :: l => by
    have ih := map_all_mapM_eq_ok_true f p l
    rw [List.mapM_cons, List.forall_mem_cons, ← ih]
    cases f a <;> cases l.mapM f <;> simp [Except.map, bind, Except.bind, pure, Except.pure]

lemma FieldSelector.fieldsMatch_eq_ok_true (value : Value) (s : String) :
    fieldsMatch value s = .ok true ↔
      ∀ part ∈ Text.split ',' s, fieldsMatch value part = .ok true := by
  have hsingle : ∀ part ∈ Text.split ',' s, Text.split ',' part = [part] := by
    intro part hpart
    have hcomma : ∀ p ∈ [part], ',' ∉ p.toList := by
      simpa using Text.notMem_of_mem_split hpart
    simpa [Text.join_singleton] using Text.split_join hcomma (by simp)
  rw [fieldsMatch, Selector.tryParse, map_all_mapM_eq_ok_true]
  refine forall₂_congr fun part hpart => ?_
  rw [fieldsMatch, Selector.tryParse, hsingle part hpart, map_all_mapM_eq_ok_true]
  simp

/-- **Field selectors negate exactly**, but for a field that is null and the empty value, which both
selectors match; and a selector of several parts matches if each of them does. -/
theorem FieldSelector.notEqual_iff (value : Value) (key : List String) (expected s : String) :
    (((FieldSelector.notEqual key expected).isMatch value =
          !(FieldSelector.equal key expected).isMatch value) ↔
        ¬(expected = "" ∧ follow value key = some .null)) ∧
      (fieldsMatch value s = .ok true ↔
        ∀ part ∈ Text.split ',' s, fieldsMatch value part = .ok true) := by
  refine ⟨?_, fieldsMatch_eq_ok_true value s⟩
  cases hfollow : follow value key with
  | none => simp [isMatch, hfollow]
  | some actual =>
    by_cases hnull : actual = .null
    · simp [isMatch, hfollow, hnull]
    · simp [isMatch, hfollow, hnull]

/-- A custom resource with a field that is null. -/
theorem FieldSelector.null_matches_both :
    let value : Value := .object [("spec", .object [("node", .null)])]
    (FieldSelector.equal ["spec", "node"] "").isMatch value = true ∧
      (FieldSelector.notEqual ["spec", "node"] "").isMatch value = true := by decide

/-- A label that is missing is different from every value. -/
def Selector.isLabelMatch (m : ObjectMeta) : Selector → Bool
  | .equal key value =>
    match m.labels.lookup key with
    | none => false
    | some actualValue => actualValue = value
  | .notEqual key value =>
    match m.labels.lookup key with
    | none => true
    | some actualValue => actualValue ≠ value

section

variable {T : Type} [Resource T]

def matchesLabels (labelSelector : List Selector) (content : T) : Bool :=
  match Resource.objectMeta content with
  | none => false
  | some m => labelSelector.all (Selector.isLabelMatch m)

/-- The object has a JSON form, and its fields match. -/
def matchesFields (fieldSelector : List FieldSelector) (content : T) : Bool :=
  match Resource.toValue content with
  | none => false
  | some value => fieldSelector.all (FieldSelector.isMatch value)

/-! ## Checking the object of an event -/

/-- A selector that is not given matches everything. -/
def checkSelector (fieldSelector : Option (List FieldSelector))
    (labelSelector : Option (List Selector)) (content : T) : Bool :=
  fieldSelector.all (matchesFields · content) && labelSelector.all (matchesLabels · content)

end

end Tugboat
