import Tugboat.Lib.Decimal
import Tugboat.Resources.Workload

/-!
# Node selectors

A node matches a selector if it matches one of its terms, and a term if it meets all of its
requirements.  When a node is rejected, the scheduler names the key of a requirement that the node
does not meet.  There is one whenever the selector has a term at all
(`firstUnsatisfiedNodeSelectorKey_spec`).
-/

namespace Tugboat.Workload

/-- Both values are there and are numbers, and compare as asked. -/
def compareI64 (value threshold : Option String) (f : Int → Int → Bool) : Bool :=
  match value.bind Decimal.parseInt64, threshold.bind Decimal.parseInt64 with
  | some value, some threshold => f value threshold
  | _, _ => false

def nodeSelectorRequirementMatches (requirement : NodeSelectorRequirement)
    (labels : List (String × String)) : Bool :=
  let value := labels.lookup requirement.key
  match requirement.operator with
  | "In" => value.any (requirement.values.contains ·)
  | "NotIn" => value.all (!requirement.values.contains ·)
  | "Exists" => value.isSome
  | "DoesNotExist" => value.isNone
  | "Gt" => compareI64 value requirement.values.head? fun a b => a > b
  | "Lt" => compareI64 value requirement.values.head? fun a b => a < b
  | _ => false

def NodeSelectorTerm.requirements (term : NodeSelectorTerm) : List NodeSelectorRequirement :=
  term.matchExpressions ++ term.matchFields

def nodeSelectorTermMatches (term : NodeSelectorTerm) (labels : List (String × String)) : Bool :=
  term.requirements.all (nodeSelectorRequirementMatches · labels)

def nodeSelectorMatches (selector : NodeSelector) (labels : List (String × String)) : Bool :=
  !selector.nodeSelectorTerms.isEmpty &&
    selector.nodeSelectorTerms.any (nodeSelectorTermMatches · labels)

/-- The key of a requirement to name when the node is rejected. -/
def firstUnsatisfiedNodeSelectorKey (selector : NodeSelector) (labels : List (String × String)) :
    Option String :=
  if nodeSelectorMatches selector labels then none
  else
    ((selector.nodeSelectorTerms.flatMap (·.requirements)).find?
      (!nodeSelectorRequirementMatches · labels)).map (·.key)

variable {selector : NodeSelector} {labels : List (String × String)}

lemma nodeSelectorMatches_iff : nodeSelectorMatches selector labels = true ↔
    ∃ term ∈ selector.nodeSelectorTerms, nodeSelectorTermMatches term labels = true := by
  unfold nodeSelectorMatches
  cases selector.nodeSelectorTerms <;> simp

lemma nodeSelectorTermMatches_iff {term : NodeSelectorTerm} :
    nodeSelectorTermMatches term labels = true ↔
      ∀ r ∈ term.requirements, nodeSelectorRequirementMatches r labels = true := by
  simp [nodeSelectorTermMatches]

/-- **The explanation agrees with the decision.**  There is none if the node matches, or if the
selector has no term; a key that is named is that of a requirement the node does not meet. -/
theorem firstUnsatisfiedNodeSelectorKey_spec (selector : NodeSelector)
    (labels : List (String × String)) :
    (firstUnsatisfiedNodeSelectorKey selector labels = none ↔
        nodeSelectorMatches selector labels = true ∨ selector.nodeSelectorTerms = []) ∧
      (∀ key, firstUnsatisfiedNodeSelectorKey selector labels = some key →
        ∃ term ∈ selector.nodeSelectorTerms, ∃ r ∈ term.requirements,
          r.key = key ∧ nodeSelectorRequirementMatches r labels = false) ∧
      (nodeSelectorMatches selector labels = true ↔ ∃ term ∈ selector.nodeSelectorTerms,
        nodeSelectorTermMatches term labels = true) ∧
      ∀ term, nodeSelectorTermMatches term labels = true ↔
        ∀ r ∈ term.requirements, nodeSelectorRequirementMatches r labels = true := by
  refine ⟨?_, ?_, nodeSelectorMatches_iff, fun _ => nodeSelectorTermMatches_iff⟩
  · unfold firstUnsatisfiedNodeSelectorKey
    split
    next hmatch => simp [hmatch]
    next hmatch =>
      rw [Option.map_eq_none_iff, List.find?_eq_none, or_iff_right hmatch]
      constructor
      · -- a first term whose requirements are all met would have been a match
        intro hall
        rw [List.eq_nil_iff_forall_not_mem]
        intro term hterm
        refine hmatch (nodeSelectorMatches_iff.2
          ⟨term, hterm, nodeSelectorTermMatches_iff.2 fun r hr => ?_⟩)
        simpa using hall r (List.mem_flatMap.2 ⟨term, hterm, hr⟩)
      · intro hnil
        simp [hnil]
  · intro key hkey
    unfold firstUnsatisfiedNodeSelectorKey at hkey
    split at hkey
    · cases hkey
    obtain ⟨r, hfind, rfl⟩ := Option.map_eq_some_iff.1 hkey
    obtain ⟨term, hterm, hr⟩ := List.mem_flatMap.1 (List.mem_of_find?_eq_some hfind)
    exact ⟨term, hterm, r, hr, rfl, by simpa using List.find?_some hfind⟩

/-- A selector without terms matches no node, and no key is named. -/
theorem firstUnsatisfiedNodeSelectorKey_empty :
    firstUnsatisfiedNodeSelectorKey {} [] = none ∧ nodeSelectorMatches {} [] = false := by decide

end Tugboat.Workload
