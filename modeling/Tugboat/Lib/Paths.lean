import Tugboat.Lib.Text

/-!
# Paths

Paths as strings, joined as the standard library of the source does, and the place a path leads to
when `.` and `..` are resolved without looking at a file system.  A path that is joined from a
directory and a relative path without such segments leads to a place strictly inside the directory
(`inside_join`), and two names lead to directories that have nothing in common (`apart_join`).
-/

namespace Tugboat.Paths

open Text

def isAbsolute (p : String) : Bool := p.toList.head? = some '/'

def join (base p : String) : String :=
  if isAbsolute p then p
  else if base = "" ∨ base.toList.getLast? = some '/' then base ++ p
  else base ++ "/" ++ p

/-- A place: the segments that lead to it, the last one first, from the root or from the working
directory. -/
structure Place where
  rooted : Bool
  segments : List String
  deriving DecidableEq, Repr

/-- Go on by one segment of a path. -/
def enter (rooted : Bool) (segments : List String) (segment : String) : List String :=
  if segment = "" ∨ segment = "." then segments
  else if segment = ".." then
    match segments with
    | [] => if rooted then [] else [".."]
    | top :: rest => if top = ".." then ".." :: top :: rest else rest
  else segment :: segments

def resolve (p : String) : Place where
  rooted := isAbsolute p
  segments := (split '/' p).foldl (enter (isAbsolute p)) []

/-- The names along a path. -/
def names (p : String) : List String := (split '/' p).filter (· ≠ "")

/-- A path that leads downwards. -/
structure Downwards (p : String) : Prop where
  nonempty : p ≠ ""
  relative : isAbsolute p = false
  segments : ∀ segment ∈ split '/' p, segment ≠ "." ∧ segment ≠ ".."

def Place.below (place : Place) (names : List String) : Place :=
  { place with segments := names.reverse ++ place.segments }

def Inside (dir p : String) : Prop :=
  ∃ names ≠ [], ".." ∉ names ∧ resolve p = (resolve dir).below names

/-- No place is in both directories. -/
def Apart (dir dir' : String) : Prop :=
  ∀ names names', (resolve dir).below names ≠ (resolve dir').below names'

variable {base dir p name name' : String}

lemma foldl_enter (rooted : Bool) {segments : List String}
    (h : ∀ segment ∈ segments, segment ≠ "." ∧ segment ≠ "..") (stack : List String) :
    segments.foldl (enter rooted) stack = (segments.filter (· ≠ "")).reverse ++ stack := by
  induction segments generalizing stack with
  | nil => rfl
  | cons segment segments ih =>
    rw [List.forall_mem_cons] at h
    rw [List.foldl_cons, ih h.2]
    by_cases hempty : segment = ""
    · simp [enter, hempty]
    · simp [enter, hempty, h.1.1, h.1.2]

lemma split_append_slash (a b : String) :
    split '/' (a ++ "/" ++ b) = split '/' a ++ split '/' b := by
  have hlists : (a ++ "/" ++ b).toList = a.toList ++ '/' :: b.toList := by simp
  rw [split, hlists, List.splitOn_append_cons_self, List.map_append, split, split]

/-- Joining goes on from where the first path leads. -/
lemma resolve_join (h : isAbsolute p = false) : resolve (join base p) = ⟨isAbsolute base,
      (split '/' p).foldl (enter (isAbsolute base)) (resolve base).segments⟩ := by
  have hrooted : isAbsolute (join base p) = isAbsolute base := by
    rw [join, if_neg (by simp [h])]
    by_cases hempty : base = ""
    · rw [if_pos (.inl hempty), hempty, String.empty_append, h]
      rfl
    · obtain ⟨c, cs, hbase⟩ := List.exists_cons_of_ne_nil (mt String.toList_eq_nil_iff.1 hempty)
      split <;> simp [isAbsolute, hbase]
  rw [resolve, hrooted, join, if_neg (by simp [h])]
  congr 1
  by_cases hempty : base = ""
  · rw [if_pos (.inl hempty), hempty, String.empty_append]
    rfl
  by_cases hslash : base.toList.getLast? = some '/'
  · obtain ⟨cs, hcs⟩ := List.getLast?_eq_some_iff.1 hslash
    obtain rfl : base = String.ofList cs ++ "/" := String.toList_inj.1 (by simp [hcs])
    have hend : split '/' (String.ofList cs ++ "/") = split '/' (String.ofList cs) ++ [""] := by
      rw [← String.append_empty (s := String.ofList cs ++ "/"), split_append_slash]
      rfl
    rw [if_pos (.inr hslash), split_append_slash, List.foldl_append, resolve, hend,
      List.foldl_append]
    simp [enter]
  · rw [if_neg (by simp [hempty, hslash]), split_append_slash, List.foldl_append, resolve]

lemma resolve_join_of_downwards (h : Downwards p) :
    resolve (join base p) = (resolve base).below (names p) := by
  rw [resolve_join h.relative, foldl_enter _ h.segments]
  rfl

lemma names_ne_nil (h : Downwards p) : names p ≠ [] := by
  obtain ⟨c, cs, hp⟩ := List.exists_cons_of_ne_nil (mt String.toList_eq_nil_iff.1 h.nonempty)
  have hc : (c == '/') = false := by
    have hrelative := h.relative
    rw [isAbsolute, hp] at hrelative
    simpa using hrelative
  obtain ⟨w, ws, hw⟩ := List.exists_cons_of_ne_nil (List.splitOn_ne_nil '/' cs)
  refine List.ne_nil_of_mem (a := String.ofList (c :: w)) (List.mem_filter.2 ⟨?_, by simp⟩)
  rw [split, hp, List.splitOn_cons_eq_if_modifyHead, hc, hw]
  simp

theorem inside_join (h : Downwards p) : Inside dir (join dir p) := by
  refine ⟨names p, names_ne_nil h, fun hmem => ?_, resolve_join_of_downwards h⟩
  exact (h.segments _ (List.mem_of_mem_filter hmem)).2 rfl

lemma split_of_notMem (h : '/' ∉ name.toList) : split '/' name = [name] := by
  have hjoin : split '/' (Text.join '/' [name]) = [name] := split_join (by simpa using h) (by simp)
  rwa [join_singleton] at hjoin

/-- A name is a path of one segment. -/
structure IsName (name : String) : Prop where
  nonempty : name ≠ ""
  noSlash : '/' ∉ name.toList
  notDots : name ≠ "." ∧ name ≠ ".."

lemma IsName.names_eq (h : IsName name) : names name = [name] := by
  rw [names, split_of_notMem h.noSlash]
  simp [h.nonempty]

lemma IsName.downwards (h : IsName name) : Downwards name where
  nonempty := h.nonempty
  relative := by
    rw [isAbsolute, decide_eq_false_iff_not]
    exact fun hhead => h.noSlash (List.mem_of_head? hhead)
  segments segment hsegment := by
    rw [split_of_notMem h.noSlash, List.mem_singleton] at hsegment
    exact hsegment ▸ h.notDots

theorem apart_join (h : IsName name) (h' : IsName name') (hne : name ≠ name') :
    Apart (join dir name) (join dir name') := by
  intro below below' heq
  rw [resolve_join_of_downwards h.downwards, resolve_join_of_downwards h'.downwards, h.names_eq,
    h'.names_eq] at heq
  have hsegments := congrArg Place.segments heq
  simp only [Place.below, List.reverse_singleton, ← List.append_assoc, List.append_left_inj]
    at hsegments
  exact hne (List.singleton_inj.1 (List.append_inj' hsegments rfl).2)

end Tugboat.Paths
