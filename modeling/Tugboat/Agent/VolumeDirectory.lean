import Mathlib.Data.List.Infix
import Tugboat.Agent.MaterializedVolumes

/-!
# The directory of a materialized volume

The agent writes the files of a volume one by one, each under a temporary name that is then renamed,
and removes what is not among them, whenever a source has changed, in the directory it finds.

The new files are written before the old ones are removed, so an old file is in the way of a new one
below it: the ConfigMap of `materialize_stuck` goes from the path `a` to `a/b`.  Which files and
directories stand when a file is written is said by the lists alone (`Stands`): a file stands until
a later one has its path, or puts its temporary file there.  An update succeeds and leaves the new
files exactly if the file system accepts the paths, nothing that stands is in the way of a file when
it is written, and all new files stand in the end (`materialized_mirrors_iff`).

Paths are lists of names.  `room` is the number of bytes a path may have below the directory of the
volume.  Modes of files, and faults of the disk, are left out.
-/

namespace Tugboat.Volume

open Paths

/-- What the file system says when it refuses. -/
inductive IoError
  | invalidPath (path : List String)
  | notADirectory (path : List String)
  | isADirectory (path : List String)
  deriving DecidableEq, Repr

structure Directory where
  files : List (List String × Contents) := []
  dirs : List (List String) := []
  deriving DecidableEq, Repr

/-- The file system takes names of at most 255 bytes, without a NUL. -/
def acceptable (name : String) : Bool := name.utf8ByteSize ≤ 255 ∧ Char.ofNat 0 ∉ name.toList

def tmpName (name : String) : String := "." ++ name ++ ".tugboat-tmp"

/-- Where a file is written before it is renamed. -/
def tmpPath (p : List String) : List String := p.dropLast ++ [tmpName (p.getLastD "")]

/-- The same as it is given to the file system, where the parent is as in the path of the file. -/
def tmpFile (path : String) : String :=
  let parent := (path.toList.reverse.dropWhile (· ≠ '/')).dropWhile (· = '/')
  if parent = [] then tmpName ((names path).getLastD "")
  else String.ofList parent.reverse ++ "/" ++ tmpName ((names path).getLastD "")

def fits (room : ℕ) (path : String) : Bool :=
  path.utf8ByteSize ≤ room ∧ (tmpFile path).utf8ByteSize ≤ room

namespace Directory

def createDirAll (d : Directory) (p : List String) : Except IoError Directory :=
  if p.all acceptable then
    if d.files.any (·.1 ∈ p.inits) then .error (.notADirectory p)
    else .ok { d with dirs := p.inits ++ d.dirs }
  else .error (.invalidPath p)

/-- A file is not renamed to a directory, nor to a path that has to be one. -/
def writeFileAtomically (room : ℕ) (d : Directory) (path : String) (contents : Contents) :
    Except IoError Directory :=
  let p := names path
  if acceptable (tmpName (p.getLastD "")) && fits room path then
    if tmpPath p ∈ d.dirs then .error (.isADirectory (tmpPath p))
    else if p ∈ d.dirs then .error (.isADirectory p)
    else if path.toList.getLast? = some '/' then .error (.notADirectory p)
    else .ok { d with files := (p, contents) :: d.files.filter fun f => f.1 ≠ p ∧ f.1 ≠ tmpPath p }
  else .error (.invalidPath p)

def writeFile (room : ℕ) (d : Directory) (file : MaterializedFile) : Except IoError Directory := do
  let d ← d.createDirAll (names file.path).dropLast
  d.writeFileAtomically room file.path file.contents

def writeFiles (room : ℕ) : List MaterializedFile → Directory → Except IoError Directory
  | [], d => .ok d
  | file :: files, d => do writeFiles room files (← d.writeFile room file)

/-- Files that are not desired are removed, and directories with nothing in them. -/
def cleanupStaleFiles (d : Directory) (desired : List (List String)) : Directory :=
  let files := d.files.filter (·.1 ∈ desired)
  { files, dirs := d.dirs.filter fun dir => dir = [] ∨ ∃ f ∈ files, dir <+: f.1 }

end Directory

open Directory

def materializeVolume (room : ℕ) (files : List MaterializedFile) (d : Directory) :
    Except IoError Directory := do
  let d ← writeFiles room files d
  return d.cleanupStaleFiles (files.map fun file => names file.path)

/-! ## What stands, and what is in the way -/

def MaterializedFile.entry (file : MaterializedFile) : List String × Contents :=
  (names file.path, file.contents)

/-- Writing the file replaces what is at its path, and what is where its temporary file goes. -/
def MaterializedFile.replaces (file : MaterializedFile) (p : List String) : Prop :=
  p = names file.path ∨ p = tmpPath (names file.path)

/-- The entry is that of one of the files, and no later one replaces it. -/
def Stands : List MaterializedFile → List String × Contents → Prop
  | [], _ => False
  | file :: later, e => (file.entry = e ∧ ∀ g ∈ later, ¬ g.replaces e.1) ∨ Stands later e

/-- The path is that of a directory on the way to `p`. -/
def Above (dir p : List String) : Prop := dir <+: p ∧ dir ≠ p

/-- The file system accepts the path of a file, and that of its temporary file. -/
def Nameable (room : ℕ) (path : String) : Prop :=
  (names path).dropLast.all acceptable ∧ acceptable (tmpName ((names path).getLastD "")) ∧
    fits room path ∧ path.toList.getLast? ≠ some '/'

/-- The files of `old` were written, what does not belong to them was removed, and those of `done`
were written since.  No file is where a directory has to be for the next one, and no directory is
where the next one or its temporary file has to be. -/
structure Clear (old done : List MaterializedFile) (file : MaterializedFile) : Prop where
  files : ∀ e, Stands (old ++ done) e → ¬ Above e.1 (names file.path)
  dirs : ∀ e, Stands old e ∨ e ∈ done.map (·.entry) →
    ¬ Above (names file.path) e.1 ∧ ¬ Above (tmpPath (names file.path)) e.1

/-- Nothing is in the way of a file when it is written. -/
def Free (old files : List MaterializedFile) : Prop :=
  ∀ done file rest, files = done ++ file :: rest → Clear old done file

section Stands

variable {files later : List MaterializedFile} {file : MaterializedFile}
  {e : List String × Contents}

lemma Stands.mem (h : Stands files e) : e ∈ files.map (·.entry) := by
  induction files with
  | nil => cases h
  | cons file later ih =>
    rcases h with ⟨heq, -⟩ | h
    · exact heq ▸ List.mem_cons_self
    · exact List.mem_cons_of_mem _ (ih h)

/-- The files of a second list come later. -/
lemma stands_append : Stands (files ++ later) e ↔
    (Stands files e ∧ ∀ g ∈ later, ¬ g.replaces e.1) ∨ Stands later e := by
  induction files with
  | nil => simp [Stands]
  | cons file files ih =>
    rw [List.cons_append, Stands, ih, Stands, List.forall_mem_append]
    tauto

lemma stands_concat : Stands (files ++ [file]) e ↔
    file.entry = e ∨ Stands files e ∧ ¬ file.replaces e.1 := by
  rw [stands_append]
  simp [Stands, or_comm]

/-- Of the files with the paths of a second list, those of the second list stand. -/
lemma stands_append_of_mem (hmem : e.1 ∈ later.map fun file => names file.path) :
    Stands (files ++ later) e ↔ Stands later e := by
  rw [stands_append, or_iff_right]
  rintro ⟨-, hnone⟩
  obtain ⟨file, hfile, hpath⟩ := List.mem_map.mp hmem
  exact hnone file hfile (.inl hpath.symm)

end Stands

/-! ## Writing a file -/

variable {room : ℕ} {old done files : List MaterializedFile} {file : MaterializedFile}
  {d d' : Directory} {p dir : List String}

lemma above_iff_prefix_dropLast (hp : p ≠ []) : Above dir p ↔ dir <+: p.dropLast := by
  constructor
  · rintro ⟨hle, hne⟩
    rw [List.prefix_iff_eq_take] at hle ⊢
    have hlt : dir.length < p.length :=
      lt_of_le_of_ne (hle ▸ List.length_take_le' _ _) fun heq => hne (hle.trans (by simp [heq]))
    rw [List.dropLast_eq_take, List.take_take, min_eq_left (by omega)]
    exact hle
  · intro hle
    refine ⟨hle.trans (List.dropLast_prefix _), fun heq => ?_⟩
    have hlength := hle.length_le
    rw [List.length_dropLast, heq] at hlength
    have := List.length_pos_iff.2 hp
    omega

/-- What the directory has after the files of `old` were written and cleaned up, and then those of
`done`. -/
structure Holds (old done : List MaterializedFile) (d : Directory) : Prop where
  files : ∀ e, e ∈ d.files ↔ Stands (old ++ done) e
  dirs : ∀ dir ≠ [], dir ∈ d.dirs ↔
    ∃ e, (Stands old e ∨ e ∈ done.map (·.entry)) ∧ Above dir e.1
  apart : ∀ e ∈ d.files, e.1 ∉ d.dirs

section Step

variable (hd : Holds old done d) (hne : names file.path ≠ [])

include hd hne

lemma createDirAll_eq_ok_iff : d.createDirAll (names file.path).dropLast = .ok d' ↔
    (names file.path).dropLast.all acceptable = true ∧
      (∀ e, Stands (old ++ done) e → ¬ Above e.1 (names file.path)) ∧
      d' = { d with dirs := (names file.path).dropLast.inits ++ d.dirs } := by
  have hway : d.files.any (·.1 ∈ (names file.path).dropLast.inits) = false ↔
      ∀ e, Stands (old ++ done) e → ¬ Above e.1 (names file.path) := by
    simp [above_iff_prefix_dropLast hne, hd.files]
  unfold createDirAll
  by_cases haccept : (names file.path).dropLast.all acceptable = true
  · rw [if_pos haccept]
    by_cases hany : d.files.any (·.1 ∈ (names file.path).dropLast.inits) = true
    · rw [if_pos hany]
      refine iff_of_false nofun fun h => ?_
      cases hany.symm.trans (hway.mpr h.2.1)
    · rw [if_neg hany]
      have hfree := hway.mp (Bool.eq_false_of_not_eq_true hany)
      exact ⟨fun h => ⟨haccept, hfree, (Except.ok.inj h).symm⟩, fun h => congrArg _ h.2.2.symm⟩
  · rw [if_neg haccept]
    exact iff_of_false nofun fun h => haccept h.1

/-- The directories once those for the file are there. -/
lemma mem_dirs_iff (hdir : dir ≠ []) : dir ∈ (names file.path).dropLast.inits ++ d.dirs ↔
    ∃ e, (Stands old e ∨ e ∈ (done ++ [file]).map (·.entry)) ∧ Above dir e.1 := by
  rw [List.mem_append, List.mem_inits, ← above_iff_prefix_dropLast hne, hd.dirs dir hdir,
    List.map_append]
  constructor
  · rintro (habove | ⟨e, he, habove⟩)
    · exact ⟨file.entry, .inr (by simp), habove⟩
    · exact ⟨e, he.imp_right (List.mem_append_left _), habove⟩
  · rintro ⟨e, he, habove⟩
    rw [List.mem_append, ← or_assoc] at he
    rcases he with he | he
    · exact .inr ⟨e, he, habove⟩
    · rw [List.map_singleton, List.mem_singleton] at he
      subst he
      exact .inl habove

/-- No directory is where the file or its temporary file goes. -/
lemma notMem_dirs_iff : (tmpPath (names file.path) ∉ (names file.path).dropLast.inits ++ d.dirs ∧
      names file.path ∉ (names file.path).dropLast.inits ++ d.dirs) ↔
    ∀ e, Stands old e ∨ e ∈ done.map (·.entry) →
      ¬ Above (names file.path) e.1 ∧ ¬ Above (tmpPath (names file.path)) e.1 := by
  have hmem : ∀ p ≠ [], ¬ Above p (names file.path) →
      (p ∈ (names file.path).dropLast.inits ++ d.dirs ↔
        ∃ e, (Stands old e ∨ e ∈ done.map (·.entry)) ∧ Above p e.1) := by
    intro p hp hown
    rw [List.mem_append, List.mem_inits, ← above_iff_prefix_dropLast hne, hd.dirs p hp,
      or_iff_right hown]
  have htmp : ¬ Above (tmpPath (names file.path)) (names file.path) := by
    rintro ⟨hle, hother⟩
    refine hother (hle.eq_of_length ?_)
    have := List.length_pos_iff.2 hne
    simp only [tmpPath, List.length_append, List.length_dropLast, List.length_singleton]
    omega
  rw [hmem _ (by simp [tmpPath]) htmp, hmem _ hne fun h => h.2 rfl]
  constructor
  · exact fun ⟨htmp, hdir⟩ e he => ⟨fun h => hdir ⟨e, he, h⟩, fun h => htmp ⟨e, he, h⟩⟩
  · exact fun h => ⟨fun ⟨e, he, hle⟩ => (h e he).2 hle, fun ⟨e, he, hle⟩ => (h e he).1 hle⟩

lemma writeFile_eq_ok_iff : d.writeFile room file = .ok d' ↔
    Nameable room file.path ∧ Clear old done file ∧ d' =
      { files := file.entry :: d.files.filter fun f =>
          f.1 ≠ names file.path ∧ f.1 ≠ tmpPath (names file.path)
        dirs := (names file.path).dropLast.inits ++ d.dirs } := by
  rw [writeFile, bind_eq_ok_iff]
  simp only [createDirAll_eq_ok_iff hd hne]
  constructor
  · rintro ⟨_, ⟨haccept, hfiles, rfl⟩, hwrite⟩
    simp only [writeFileAtomically] at hwrite
    split at hwrite
    next hname =>
      rw [Bool.and_eq_true] at hname
      split at hwrite
      · cases hwrite
      next htmp =>
        split at hwrite
        · cases hwrite
        next hdir =>
          split at hwrite
          · cases hwrite
          next hslash =>
            cases hwrite
            have hdirs := (notMem_dirs_iff hd hne).mp ⟨htmp, hdir⟩
            exact ⟨⟨haccept, hname.1, hname.2, hslash⟩, ⟨hfiles, hdirs⟩, rfl⟩
    · cases hwrite
  · rintro ⟨⟨haccept, hname, hfits, hslash⟩, ⟨hfiles, hway⟩, rfl⟩
    refine ⟨_, ⟨haccept, hfiles, rfl⟩, ?_⟩
    obtain ⟨htmp, hdir⟩ := (notMem_dirs_iff hd hne).mpr hway
    simp only [writeFileAtomically]
    rw [if_pos (by rw [hname, hfits]; rfl), if_neg htmp, if_neg hdir, if_neg hslash]
    rfl

lemma holds_writeFile (h : d.writeFile room file = .ok d') : Holds old (done ++ [file]) d' := by
  obtain ⟨-, hclear, rfl⟩ := (writeFile_eq_ok_iff hd hne).mp h
  refine ⟨fun e => ?_, fun dir hdir => mem_dirs_iff hd hne hdir, fun e he => ?_⟩
  · rw [← List.append_assoc, stands_concat, List.mem_cons, List.mem_filter, hd.files, eq_comm,
      decide_eq_true_eq, MaterializedFile.replaces, not_or]
  · rcases List.mem_cons.mp he with rfl | he
    · exact ((notMem_dirs_iff hd hne).mpr hclear.dirs).2
    · have hold := List.mem_of_mem_filter he
      rw [List.mem_append, List.mem_inits, ← above_iff_prefix_dropLast hne, not_or]
      exact ⟨hclear.files e ((hd.files e).mp hold), hd.apart e hold⟩

end Step

/-! ## The loop -/

variable (room) in
/-- The loop writes every file if nothing is in the way of one after the other. -/
lemma writeFiles_ok_iff (hd : Holds old done d) (hne : ∀ f ∈ files, names f.path ≠ []) :
    (∃ d', writeFiles room files d = .ok d') ↔
      (∀ f ∈ files, Nameable room f.path) ∧
        ∀ before file rest, files = before ++ file :: rest → Clear old (done ++ before) file := by
  induction files generalizing done d with
  | nil => simp [writeFiles]
  | cons file files ih =>
    rw [List.forall_mem_cons] at hne ⊢
    have hsplit : (∀ before f rest, file :: files = before ++ f :: rest →
        Clear old (done ++ before) f) ↔ Clear old done file ∧
        ∀ before f rest, files = before ++ f :: rest →
          Clear old (done ++ [file] ++ before) f := by
      constructor
      · refine fun h => ⟨by simpa using h [] file files rfl, fun before f rest heq => ?_⟩
        simpa using h (file :: before) f rest (congrArg (file :: ·) heq)
      · rintro ⟨hfirst, hrest⟩ before f rest heq
        cases before with
        | nil =>
          cases heq
          simpa using hfirst
        | cons first before =>
          cases heq
          simpa using hrest before f rest rfl
    rw [hsplit]
    constructor
    · rintro ⟨d', hd'⟩
      rw [writeFiles, bind_eq_ok_iff] at hd'
      obtain ⟨written, hwrite, hloop⟩ := hd'
      obtain ⟨hname, hclear, -⟩ := (writeFile_eq_ok_iff hd hne.1).mp hwrite
      obtain ⟨hnames, hfree⟩ := (ih (holds_writeFile hd hne.1 hwrite) hne.2).mp ⟨d', hloop⟩
      exact ⟨⟨hname, hnames⟩, hclear, hfree⟩
    · rintro ⟨⟨hname, hnames⟩, hclear, hfree⟩
      have hwrite := (writeFile_eq_ok_iff hd hne.1).mpr ⟨hname, hclear, rfl⟩
      obtain ⟨d', hloop⟩ := (ih (holds_writeFile hd hne.1 hwrite) hne.2).mpr ⟨hnames, hfree⟩
      exact ⟨d', by rw [writeFiles, hwrite]; exact hloop⟩

lemma holds_writeFiles (hd : Holds old done d) (hne : ∀ f ∈ files, names f.path ≠ [])
    (h : writeFiles room files d = .ok d') : Holds old (done ++ files) d' := by
  induction files generalizing done d with
  | nil =>
    cases h
    rwa [List.append_nil]
  | cons file files ih =>
    rw [List.forall_mem_cons] at hne
    rw [writeFiles, bind_eq_ok_iff] at h
    obtain ⟨written, hwrite, hloop⟩ := h
    simpa using ih (holds_writeFile hd hne.1 hwrite) hne.2 hloop

section Materialize

variable (hd : Holds old [] d) (hne : ∀ f ∈ files, names f.path ≠ [])

include hd hne

/-- What was there of the old files is removed. -/
lemma mem_files_materializeVolume (h : materializeVolume room files d = .ok d')
    (e : List String × Contents) : e ∈ d'.files ↔ Stands files e := by
  rw [materializeVolume, bind_eq_ok_iff] at h
  obtain ⟨written, hwrite, hclean⟩ := h
  cases hclean
  have hholds := holds_writeFiles hd hne hwrite
  simp only [cleanupStaleFiles, List.mem_filter, hholds.files, List.nil_append,
    decide_eq_true_eq]
  constructor
  · rintro ⟨hstands, hmem⟩
    exact (stands_append_of_mem hmem).mp hstands
  · intro hstands
    obtain ⟨file, hfile, heq⟩ := List.mem_map.mp hstands.mem
    have hmem : e.1 ∈ files.map fun file => names file.path :=
      List.mem_map.mpr ⟨file, hfile, congrArg Prod.fst heq⟩
    exact ⟨(stands_append_of_mem hmem).mpr hstands, hmem⟩

lemma holds_materializeVolume (h : materializeVolume room files d = .ok d') :
    Holds files [] d' := by
  have hfiles := mem_files_materializeVolume hd hne h
  rw [materializeVolume, bind_eq_ok_iff] at h
  obtain ⟨written, hwrite, hclean⟩ := h
  cases hclean
  have hholds := holds_writeFiles hd hne hwrite
  have hapart : ∀ e, Stands files e → e.1 ∉ written.dirs := fun e he =>
    hholds.apart e (List.mem_of_mem_filter ((hfiles e).mpr he))
  refine ⟨fun e => by rw [hfiles, List.append_nil], fun dir hdir => ?_, fun e he hmem =>
    hapart e ((hfiles e).mp he) (List.mem_of_mem_filter hmem)⟩
  constructor
  · intro hmem
    obtain ⟨hmem, hkept⟩ := List.mem_filter.mp hmem
    obtain ⟨e, he, hle⟩ := (of_decide_eq_true hkept).resolve_left hdir
    have hstands := (hfiles e).mp he
    exact ⟨e, .inl hstands, hle, fun heq => hapart e hstands (heq ▸ hmem)⟩
  · rintro ⟨e, he, habove⟩
    have hstands : Stands files e := he.resolve_right List.not_mem_nil
    refine List.mem_filter.mpr ⟨(hholds.dirs dir hdir).mpr ⟨e, .inr hstands.mem, habove⟩, ?_⟩
    exact decide_eq_true (.inr ⟨e, (hfiles e).mpr hstands, habove.1⟩)

variable (room) in
lemma materializeVolume_ok_iff : (∃ d', materializeVolume room files d = .ok d') ↔
    (∀ f ∈ files, Nameable room f.path) ∧ Free old files := by
  have hloop := writeFiles_ok_iff room hd hne
  simp only [List.nil_append] at hloop
  rw [Free, ← hloop]
  constructor
  · rintro ⟨d', h⟩
    rw [materializeVolume, bind_eq_ok_iff] at h
    obtain ⟨written, hwrite, -⟩ := h
    exact ⟨written, hwrite⟩
  · rintro ⟨written, hwrite⟩
    exact ⟨_, by rw [materializeVolume, hwrite]; rfl⟩

end Materialize

lemma free_singleton (h : Clear old [] file) : Free old [file] := by
  intro done f rest heq
  cases done with
  | nil =>
    cases heq
    exact h
  | cons first done => simp at heq

/-- **When updates mirror the sources.**  If the files of two accepted volumes are written one after
the other, this succeeds and the directory has the new files, each with its contents, and no others,
exactly if the file system accepts all paths, nothing is in the way of a file when it is written,
and of the new files none is replaced by a later one. -/
theorem materialized_mirrors_iff (room : ℕ) {spec spec' : Workload.ShipSpec}
    {volumes volumes' : List NormalizedVolume} (h : normalizedShipVolumes spec = .ok volumes)
    (h' : normalizedShipVolumes spec' = .ok volumes') {volume volume' : NormalizedVolume}
    (hvolume : volume ∈ volumes) (hvolume' : volume' ∈ volumes') {sources sources' : Sources}
    {info info' : MaterializedVolumeInfo}
    (hload : loadMaterializedVolume sources volume = some (.ok info))
    (hload' : loadMaterializedVolume sources' volume' = some (.ok info')) :
    (∃ d d', materializeVolume room info.files {} = .ok d ∧
      materializeVolume room info'.files d = .ok d' ∧
      ∀ e, e ∈ d'.files ↔ e ∈ info'.files.map (·.entry)) ↔
    (∀ file ∈ info.files ++ info'.files, Nameable room file.path) ∧ Free [] info.files ∧
      Free info.files info'.files ∧ ∀ file ∈ info'.files, Stands info'.files file.entry := by
  have hnames : ∀ {spec volumes volume sources info}, normalizedShipVolumes spec = .ok volumes →
      volume ∈ volumes → loadMaterializedVolume sources volume = some (.ok info) →
      ∀ file ∈ info.files, names file.path ≠ [] := fun h hvolume hload file hfile =>
    names_ne_nil ((downwards_of_load (ensures_normalizedShipVolumes _ _ h _ hvolume) hload).2.2 _
      (List.mem_map_of_mem hfile))
  have hold := hnames h hvolume hload
  have hnew := hnames h' hvolume' hload'
  have hempty : Holds [] [] {} := ⟨by simp [Stands], by simp [Stands], by simp⟩
  have hfirst := materializeVolume_ok_iff room hempty hold
  rw [List.forall_mem_append]
  constructor
  · rintro ⟨d, d', hd, hd', hfiles⟩
    obtain ⟨hnamesOld, hfreeOld⟩ := hfirst.mp ⟨d, hd⟩
    have hholds := holds_materializeVolume hempty hold hd
    obtain ⟨hnamesNew, hfreeNew⟩ := (materializeVolume_ok_iff room hholds hnew).mp ⟨d', hd'⟩
    refine ⟨⟨hnamesOld, hnamesNew⟩, hfreeOld, hfreeNew, fun file hfile => ?_⟩
    rw [← mem_files_materializeVolume hholds hnew hd', hfiles]
    exact List.mem_map_of_mem hfile
  · rintro ⟨⟨hnamesOld, hnamesNew⟩, hfreeOld, hfreeNew, hstand⟩
    obtain ⟨d, hd⟩ := hfirst.mpr ⟨hnamesOld, hfreeOld⟩
    have hholds := holds_materializeVolume hempty hold hd
    obtain ⟨d', hd'⟩ := (materializeVolume_ok_iff room hholds hnew).mpr ⟨hnamesNew, hfreeNew⟩
    refine ⟨d, d', hd, hd', fun e => ?_⟩
    rw [mem_files_materializeVolume hholds hnew hd']
    refine ⟨Stands.mem, fun he => ?_⟩
    obtain ⟨file, hfile, rfl⟩ := List.mem_map.mp he
    exact hstand file hfile

/-- The volume has three paths, of which its ConfigMap has one at a time. -/
def movingItems : List Workload.KeyToPath := [⟨"old", "a"⟩, ⟨"new", "a/b"⟩, ⟨"other", "c/d"⟩]

theorem materialized_mirrors_iff_moved : ∃ d d',
    materializeVolume 4000 [⟨"a", [], 420⟩] {} = .ok d ∧
      materializeVolume 4000 [⟨"c/d", [], 420⟩] d = .ok d' ∧
      ∀ e, e ∈ d'.files ↔ e ∈ [(["c", "d"], [])] := by
  have hspec : normalizedShipVolumes (configSpec movingItems) =
      .ok [configVolume movingItems] := rfl
  have hload : loadMaterializedVolume (oneKey "old") (configVolume movingItems) =
      some (.ok ⟨"config", [⟨"a", [], 420⟩]⟩) := rfl
  have hload' : loadMaterializedVolume (oneKey "other") (configVolume movingItems) =
      some (.ok ⟨"config", [⟨"c/d", [], 420⟩]⟩) := rfl
  refine (materialized_mirrors_iff 4000 hspec hspec (List.mem_singleton_self _)
    (List.mem_singleton_self _) hload hload').mpr ⟨?_, ?_, ?_, ?_⟩
  · exact List.forall_mem_cons.mpr ⟨by unfold Nameable; decide +kernel,
      List.forall_mem_singleton.mpr (by unfold Nameable; decide +kernel)⟩
  · exact free_singleton ⟨nofun, by simp [Stands]⟩
  · have hone : ∀ e, Stands [⟨"a", [], 420⟩] e → e = (["a"], []) := by
      rintro e (⟨rfl, -⟩ | h)
      · decide +kernel
      · cases h
    refine free_singleton ⟨fun e he => ?_, fun e he => ?_⟩
    · rw [hone e he, Above]
      decide +kernel
    · rw [hone e (he.resolve_right List.not_mem_nil), Above, Above]
      decide +kernel
  · exact List.forall_mem_singleton.mpr (.inl ⟨rfl, by simp⟩)

/-- Both versions of the volume are accepted, and the second cannot be written after the first. -/
theorem materialize_stuck :
    normalizedShipVolumes (configSpec movingItems) = .ok [configVolume movingItems] ∧
      loadMaterializedVolume (oneKey "old") (configVolume movingItems) =
        some (.ok ⟨"config", [⟨"a", [], 420⟩]⟩) ∧
      loadMaterializedVolume (oneKey "new") (configVolume movingItems) =
        some (.ok ⟨"config", [⟨"a/b", [], 420⟩]⟩) ∧
      (materializeVolume 4000 [⟨"a", [], 420⟩] {} >>= materializeVolume 4000 [⟨"a/b", [], 420⟩]) =
        .error (.notADirectory ["a"]) :=
  ⟨rfl, rfl, rfl, by decide +kernel⟩

end Tugboat.Volume
