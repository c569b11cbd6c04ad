import Tugboat.Resources.Meta

/-!
# Names, and a kind in full

`NameValidator` is the check every kind makes of its objects' names.  `ConfigMap` is the simplest
built-in kind, with its JSON form as the deserializer derives it; it is the kind concrete runs of
the generic handlers are shown on.
-/

namespace Tugboat

open Json

namespace NameValidator

/-- Lower case letters and digits. -/
def isAlnum (c : Char) : Bool := ('a' ≤ c && c ≤ 'z') || ('0' ≤ c && c ≤ '9')

/-- A name: letters, digits and hyphens, with no hyphen at either end.  All characters are one
byte long, so the bound on the length in bytes is one on the number of characters. -/
def isValidName (name : String) : Bool :=
  let cs := name.toList
  cs.length ≤ 253 && cs.all (fun c => isAlnum c || c == '-') &&
    (cs.head?.any isAlnum) && (cs.getLast?.any isAlnum)

/-- The base of a generated name, which may end in a hyphen. -/
def isValidGenerateName (name : String) : Bool :=
  let cs := name.toList
  cs.length ≤ 253 - 5 && cs.all (fun c => isAlnum c || c == '-') && (cs.head?.any isAlnum)

/-- An object needs a valid name, or a valid base to generate one from. -/
def validate (m : Option ObjectMeta) : Bool :=
  match m with
  | none => false
  | some m =>
    match m.name, m.generateName with
    | some name, _ => isValidName name
    | none, some base => isValidGenerateName base
    | none, none => false

lemma notMem_of_isValidName {c : Char} (hc : (isAlnum c || c == '-') = false) {name : String}
    (h : isValidName name = true) : c ∉ name.toList := by
  intro hmem
  simp only [isValidName, Bool.and_eq_true, List.all_eq_true] at h
  cases hc.symm.trans (h.1.1.2 c hmem)

end NameValidator

structure ConfigMap where
  typeMeta : Option TypeMeta := none
  objectMeta : Option ObjectMeta := none
  data : List (String × String) := []
  deriving DecidableEq, Repr

namespace ConfigMap

variable [TimeCodec]

def toValue (c : ConfigMap) : Option Value := do
  let metadata ← match c.objectMeta with
    | none => some none
    | some m => m.toValue.map some
  return .object <| Map.ofFields <|
    ((c.typeMeta.map TypeMeta.toFields).getD []) ++
      [("metadata", metadata), ("data", encodeUnlessDefault [] encodeStringMap c.data)]

def fromValue (v : Value) : Option ConfigMap := do
  let m ← v.asObject
  return {
    typeMeta := TypeMeta.fromFields m
    objectMeta := ← decodeOption m "metadata" ObjectMeta.fromValue
    data := ← decodeDefault m "data" [] decodeStringMap }

instance : Resource ConfigMap where
  resourceKind := .configMap
  objectMeta := objectMeta
  setObjectMeta m c := { c with objectMeta := m }
  setTypeMeta t c := { c with typeMeta := some t }
  toValue := toValue
  fromValue := fromValue
  validate c := NameValidator.validate c.objectMeta

end ConfigMap

end Tugboat
