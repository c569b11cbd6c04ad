import Mathlib.Data.List.Basic
import Mathlib.Data.List.TakeWhile

/-!
# Text

Functions on strings as lists of characters, where they can be computed with and reasoned about:
splitting at a separator, and trimming white space.
-/

namespace Tugboat.Text

def isWhitespace (c : Char) : Bool :=
  let n := c.toNat
  (9 ≤ n && n ≤ 13) || n == 0x20 || n == 0x85 || n == 0xA0 || n == 0x1680 ||
    (0x2000 ≤ n && n ≤ 0x200A) || n == 0x2028 || n == 0x2029 || n == 0x202F || n == 0x205F ||
    n == 0x3000

/-- The string without white space at either end. -/
def trim (s : String) : String :=
  String.ofList
    (((s.toList.dropWhile isWhitespace).reverse.dropWhile isWhitespace).reverse)

/-- The parts of the string between the separators. -/
def split (sep : Char) (s : String) : List String :=
  (s.toList.splitOn sep).map String.ofList

/-- The parts before and after the first separator, if there is one. -/
def splitOnce (sep : Char) (s : String) : Option (String × String) :=
  match s.toList.dropWhile (· ≠ sep) with
  | [] => none
  | _ :: rest => some (String.ofList (s.toList.takeWhile (· ≠ sep)), String.ofList rest)

variable {sep : Char} {s : String}

lemma splitOnce_eq_some {a b : String} : splitOnce sep s = some (a, b) ↔
      s = a ++ String.singleton sep ++ b ∧ sep ∉ a.toList := by
  have hsplit := s.toList.takeWhile_append_dropWhile (p := fun c => decide (c ≠ sep))
  have htake : sep ∉ s.toList.takeWhile (fun c => decide (c ≠ sep)) := by
    intro hmem
    simpa using List.mem_takeWhile_imp hmem
  constructor
  · intro h
    unfold splitOnce at h
    split at h
    · cases h
    rename_i c rest hdrop
    have hc : c = sep := by
      have hhead := List.head?_dropWhile_not (fun c => decide (c ≠ sep)) s.toList
      rw [hdrop] at hhead
      simpa using hhead
    obtain ⟨rfl, rfl⟩ := Prod.mk.inj (Option.some.inj h)
    refine ⟨String.toList_inj.1 ?_, by rwa [String.toList_ofList]⟩
    rw [hdrop, hc] at hsplit
    simpa using hsplit.symm
  · rintro ⟨rfl, hsep⟩
    have hall : ∀ c ∈ a.toList, decide (c ≠ sep) = true := fun c hc =>
      decide_eq_true fun heq => hsep (heq ▸ hc)
    have hlist : (a ++ String.singleton sep ++ b).toList = a.toList ++ sep :: b.toList := by
      simp
    have hdrop : (a.toList ++ sep :: b.toList).dropWhile (fun c => decide (c ≠ sep)) =
        sep :: b.toList := by
      rw [List.dropWhile_append_of_pos hall]
      simp
    have htake' : (a.toList ++ sep :: b.toList).takeWhile (fun c => decide (c ≠ sep)) =
        a.toList := by
      rw [List.takeWhile_append_of_pos hall]
      simp
    rw [splitOnce, hlist, hdrop, htake']
    simp

def stripStart (stem s : String) : Option String :=
  if stem.toList <+: s.toList then some (String.ofList (s.toList.drop stem.toList.length))
  else none

def join (sep : Char) (l : List String) : String :=
  String.ofList ([sep].intercalate (l.map String.toList))

lemma notMem_of_mem_split {part : String} (h : part ∈ split sep s) : sep ∉ part.toList := by
  obtain ⟨cs, hcs, rfl⟩ := List.mem_map.1 h
  rw [String.toList_ofList]
  generalize s.toList = l at hcs
  clear h
  induction l generalizing cs with
  | nil =>
    rw [List.splitOn_nil, List.mem_singleton] at hcs
    simp [hcs]
  | cons c l ih =>
    rw [List.splitOn_cons_eq_if_modifyHead] at hcs
    split at hcs
    · rcases List.mem_cons.1 hcs with rfl | hcs
      · exact List.not_mem_nil
      · exact ih cs hcs
    next hc =>
      obtain ⟨w, ws, hw⟩ := List.exists_cons_of_ne_nil (List.splitOn_ne_nil sep l)
      rw [hw, List.modifyHead_cons] at hcs
      rcases List.mem_cons.1 hcs with rfl | hmem
      · have hsep : sep ≠ c := fun heq => hc (beq_iff_eq.2 heq.symm)
        simp only [List.mem_cons, hsep, false_or]
        exact ih w (hw ▸ List.mem_cons_self)
      · exact ih cs (hw ▸ List.mem_cons_of_mem w hmem)

variable {l : List String}

lemma split_join (hl : ∀ s ∈ l, sep ∉ s.toList) (hne : l ≠ []) : split sep (join sep l) = l := by
  have hlists : (join sep l).toList.splitOn sep = l.map String.toList := by
    rw [join, String.toList_ofList]
    refine List.splitOn_intercalate sep ?_ (by simpa using hne)
    intro cs hcs
    obtain ⟨s, hs, rfl⟩ := List.mem_map.1 hcs
    exact hl s hs
  rw [split, hlists, List.map_map]
  exact List.map_id'' (fun s => String.ofList_toList) l

/-- Strings without the separator can be read back from what they are joined to. -/
lemma join_inj {l' : List String} (hl : ∀ s ∈ l, sep ∉ s.toList) (hl' : ∀ s ∈ l', sep ∉ s.toList)
    (hne : l ≠ []) (hne' : l' ≠ []) :
    join sep l = join sep l' ↔ l = l' :=
  ⟨fun h => (split_join hl hne).symm.trans (h ▸ split_join hl' hne'), fun h => h ▸ rfl⟩

lemma join_split (sep : Char) (s : String) : join sep (split sep s) = s := by
  have hmap : ((s.toList.splitOn sep).map String.ofList).map String.toList =
      s.toList.splitOn sep := by
    rw [List.map_map]
    exact List.map_id'' (fun cs => String.toList_ofList) _
  rw [join, split, hmap, List.intercalate_splitOn, String.ofList_toList]

lemma notMem_join {c : Char} (hc : c ≠ sep) (h : ∀ s ∈ l, c ∉ s.toList) :
    c ∉ (join sep l).toList := by
  rw [join, String.toList_ofList]
  induction l with
  | nil => simp
  | cons s l ih =>
    have hs : c ∉ s.toList := h s List.mem_cons_self
    have hl := ih fun s' hs' => h s' (List.mem_cons_of_mem s hs')
    cases l with
    | nil => simpa using hs
    | cons s' l' =>
      rw [List.map_cons, List.intercalate_cons_of_ne_nil (by simp)]
      simp only [List.mem_append, List.mem_singleton, not_or]
      exact ⟨⟨hs, hc⟩, hl⟩

lemma join_cons (s : String) (hne : l ≠ []) :
    join sep (s :: l) = s ++ String.singleton sep ++ join sep l := by
  refine String.toList_inj.1 ?_
  simp only [join, String.toList_append, String.toList_ofList, List.map_cons]
  rw [List.intercalate_cons_of_ne_nil (by simpa using hne)]
  simp

lemma join_singleton (s : String) : join sep [s] = s := by
  simp [join]

variable {a b c : List Char}

/-- A list can be cut at the first separator in one way only. -/
lemma append_cons_inj {d : List Char} (ha : sep ∉ a) (hb : sep ∉ b)
    (h : a ++ sep :: c = b ++ sep :: d) : a = b ∧ c = d := by
  rcases List.append_eq_append_iff.1 h with ⟨t, rfl, ht⟩ | ⟨t, rfl, ht⟩
  all_goals
    cases t with
    | nil => simpa [eq_comm] using ht
    | cons x t => simp_all

lemma append_cons_isPrefix_iff {d : List Char} (ha : sep ∉ a) (hb : sep ∉ b) :
    a ++ sep :: c <+: b ++ sep :: d ↔ a = b ∧ c <+: d := by
  constructor
  · rintro ⟨tail, htail⟩
    rw [List.append_assoc, List.cons_append] at htail
    obtain ⟨heq, hrest⟩ := append_cons_inj ha hb htail
    exact ⟨heq, tail, hrest⟩
  · rintro ⟨rfl, tail, rfl⟩
    exact ⟨tail, by rw [List.append_assoc, List.cons_append]⟩

/-- A list without the separator does not start with one that has it. -/
lemma not_append_cons_isPrefix (hb : sep ∉ b) :
    ¬ a ++ sep :: c <+: b := fun h =>
  hb (h.subset (List.mem_append_right a List.mem_cons_self))

lemma toList_join_cons (s : String) (hne : l ≠ []) :
    (join sep (s :: l)).toList = s.toList ++ sep :: (join sep l).toList := by
  rw [join_cons s hne]
  simp

/-- Joined strings start with `l` and a separator exactly if they are more strings than `l`, and the
first ones are those of `l`. -/
lemma join_append_isPrefix_join {m : List String} (hl : ∀ s ∈ l, sep ∉ s.toList)
    (hm : ∀ s ∈ m, sep ∉ s.toList) (hne : l ≠ []) (hne' : m ≠ []) (x : List Char) :
    (join sep l).toList ++ sep :: x <+: (join sep m).toList ↔
      ∃ rest, rest ≠ [] ∧ m = l ++ rest ∧ x <+: (join sep rest).toList := by
  induction l generalizing m with
  | nil => exact absurd rfl hne
  | cons s l ih =>
    obtain ⟨t, m, rfl⟩ := List.exists_cons_of_ne_nil hne'
    have hs : sep ∉ s.toList := hl s List.mem_cons_self
    have ht : sep ∉ t.toList := hm t List.mem_cons_self
    have hl' : ∀ s ∈ l, sep ∉ s.toList := fun s' hs' => hl s' (List.mem_cons_of_mem s hs')
    have hm' : ∀ s ∈ m, sep ∉ s.toList := fun s' hs' => hm s' (List.mem_cons_of_mem t hs')
    by_cases hmne : m = []
    · -- a single string has no separator in it
      subst hmne
      rw [join_singleton]
      refine iff_of_false (not_append_cons_isPrefix ht) ?_
      rintro ⟨rest, hrest, heq, -⟩
      exact hrest (List.append_eq_nil_iff.1 (List.cons.inj heq).2.symm).2
    · rw [toList_join_cons t hmne]
      by_cases hlne : l = []
      · subst hlne
        rw [join_singleton, append_cons_isPrefix_iff hs ht]
        constructor
        · rintro ⟨heq, hx⟩
          exact ⟨m, hmne, by rw [String.toList_inj.1 heq, List.singleton_append], hx⟩
        · rintro ⟨rest, -, heq, hx⟩
          obtain ⟨rfl, rfl⟩ := List.cons.inj heq
          exact ⟨rfl, hx⟩
      · rw [toList_join_cons s hlne, List.append_assoc, List.cons_append,
          append_cons_isPrefix_iff hs ht, ih hl' hm' hlne hmne]
        constructor
        · rintro ⟨heq, rest, hrest, rfl, hx⟩
          exact ⟨rest, hrest, by rw [String.toList_inj.1 heq, List.cons_append], hx⟩
        · rintro ⟨rest, hrest, heq, hx⟩
          obtain ⟨rfl, rfl⟩ := List.cons.inj heq
          exact ⟨rfl, rest, hrest, rfl, hx⟩

end Tugboat.Text
