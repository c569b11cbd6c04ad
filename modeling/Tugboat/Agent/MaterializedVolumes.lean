import Mathlib.Data.List.Sort
import Tugboat.Agent.ShipVolumes
import Tugboat.Lib.Paths

/-!
# Materialized volumes

A volume whose source is a ConfigMap, a Secret or a projection of such sources is made by the agent:
it computes a list of files and writes them below a directory of the volume.

The paths of the files come from users, in the items of a source or as the keys of its data.  All of
them are checked, so every file is written strictly inside the directory of its volume, and the
directories of two volumes of a Ship have nothing in common (`files_inside_volume`).
-/

namespace Tugboat.Volume

open Workload Paths

abbrev Contents : Type := List UInt8

structure MaterializedFile where
  path : String
  contents : Contents
  mode : ℕ
  deriving DecidableEq, Repr

structure MaterializedVolumeInfo where
  name : String
  files : List MaterializedFile
  deriving DecidableEq, Repr

/-- The data of a ConfigMap, or of a Secret once it is decoded. -/
abbrev KeyedData : Type := List (String × Contents)

/-- What a load reads, in the namespace of the Ship. -/
structure Sources where
  «namespace» : String
  configMap : String → Except ReconcileError (Option KeyedData)
  secret : String → Except ReconcileError (Option KeyedData)
  token : Option String → Option ℕ → Except ReconcileError Contents
  /-- The certificate of the API server, if the agent has a path of it. -/
  caCert : Option (Except ReconcileError Contents)

/-! ## Files of a source -/

def duplicatePath (volumeName path : String) : ReconcileError :=
  (VolumeError.duplicateVolumeItemPath volumeName path).toReconcileError

/-- The loop over all data; `seen` are the paths so far. -/
def filesOfData (volumeName : String) (mode : ℕ) :
    List String → KeyedData → Except ReconcileError (List MaterializedFile)
  | _, [] => .ok []
  | seen, (key, contents) :: entries => do
    (validateRelativeTargetPath volumeName key).mapError VolumeError.toReconcileError
    if key ∈ seen then .error (duplicatePath volumeName key)
    else return ⟨key, contents, mode⟩ :: (← filesOfData volumeName mode (key :: seen) entries)

def filesOfItems (volumeName kind resourceName : String) (data : KeyedData) (mode : ℕ)
    (optional : Bool) :
    List String → List KeyToPath → Except ReconcileError (List MaterializedFile)
  | _, [] => .ok []
  | seen, item :: items =>
    if item.path ∈ seen then .error (duplicatePath volumeName item.path)
    else do
      let rest := filesOfItems volumeName kind resourceName data mode optional
        (item.path :: seen) items
      match data.lookup item.key with
      | some contents => return ⟨item.path, contents, mode⟩ :: (← rest)
      | none =>
        if optional then rest
        else .error (.other ("Ship volume '" ++ volumeName ++ "' references missing key '" ++
          item.key ++ "' in " ++ kind ++ " '" ++ resourceName ++ "'"))

def buildMaterializedFiles (volumeName kind resourceName : String) (data : KeyedData)
    (items : List KeyToPath) (defaultMode : ℕ) (optional : Bool) :
    Except ReconcileError (List MaterializedFile) :=
  if items = [] then
    filesOfData volumeName defaultMode [] (data.insertionSort fun a b => a.1 ≤ b.1)
  else filesOfItems volumeName kind resourceName data defaultMode optional [] items

/-- The files of a ConfigMap or of a Secret. -/
def loadKeyedVolume (kind ns : String) (found : Except ReconcileError (Option KeyedData))
    (volumeName name : String) (items : List KeyToPath) (defaultMode : ℕ) (optional : Bool) :
    Except ReconcileError (List MaterializedFile) := do
  match ← found with
  | some data => buildMaterializedFiles volumeName kind name data items defaultMode optional
  | none =>
    if optional then return []
    else .error (.other (kind ++ " '" ++ ns ++ "/" ++ name ++ "' referenced by Ship volume '" ++
      volumeName ++ "' was not found"))

section Load

variable (sources : Sources)

def loadConfigMapVolume (volumeName name : String) :
    List KeyToPath → ℕ → Bool → Except ReconcileError (List MaterializedFile) :=
  loadKeyedVolume "ConfigMap" sources.namespace (sources.configMap name) volumeName name

def loadSecretVolume (volumeName name : String) :
    List KeyToPath → ℕ → Bool → Except ReconcileError (List MaterializedFile) :=
  loadKeyedVolume "Secret" sources.namespace (sources.secret name) volumeName name

def projectionFiles (volumeName : String) (defaultMode : ℕ) :
    NormalizedVolumeProjection → Except ReconcileError (List MaterializedFile)
  | .serviceAccountToken audience expirationSeconds path => do
    -- `0o600`
    return [⟨path, ← sources.token audience expirationSeconds, 384⟩]
  | .configMap name items optional =>
    loadConfigMapVolume sources volumeName name items defaultMode optional
  | .secret name items optional =>
    loadSecretVolume sources volumeName name items defaultMode optional

/-- Add files, unless a path is there already. -/
def addFiles (volumeName : String) :
    List MaterializedFile → List MaterializedFile → Except ReconcileError (List MaterializedFile)
  | files, [] => .ok files
  | files, file :: rest =>
    if file.path ∈ files.map (·.path) then .error (duplicatePath volumeName file.path)
    else addFiles volumeName (files ++ [file]) rest

def projectedFiles (volumeName : String) (defaultMode : ℕ) :
    List MaterializedFile → List NormalizedVolumeProjection →
      Except ReconcileError (List MaterializedFile)
  | files, [] => .ok files
  | files, projection :: projections => do
    let added ← projectionFiles sources volumeName defaultMode projection
    projectedFiles volumeName defaultMode (← addFiles volumeName files added) projections

/-- Every projection has the namespace with it, and the certificate of the API server. -/
def loadProjectedVolume (volumeName : String) (projections : List NormalizedVolumeProjection)
    (defaultMode : ℕ) : Except ReconcileError (List MaterializedFile) := do
  let files ← projectedFiles sources volumeName defaultMode [] projections
  let seen := files.map (·.path)
  let files := if "namespace" ∈ seen then files
    else files ++ [⟨"namespace", sources.namespace.toUTF8.toList, defaultMode⟩]
  match sources.caCert with
  | some read =>
    if "ca.crt" ∈ seen then return files
    else return files ++ [⟨"ca.crt", ← read, defaultMode⟩]
  | none => return files

/-- The volume as it is to be written; one that is backed by a claim is none of these. -/
def loadMaterializedVolume (volume : NormalizedVolume) :
    Option (Except ReconcileError MaterializedVolumeInfo) :=
  match volume.source with
  | .persistentVolumeClaim _ => none
  | .configMap name items defaultMode optional => some do
      return ⟨volume.name,
        ← loadConfigMapVolume sources volume.name name items defaultMode optional⟩
  | .secret name items defaultMode optional => some do
      return ⟨volume.name, ← loadSecretVolume sources volume.name name items defaultMode optional⟩
  | .projected projections defaultMode => some do
      return ⟨volume.name, ← loadProjectedVolume sources volume.name projections defaultMode⟩

end Load

def materializedShipDir (volumeDataDir shipId : String) : String :=
  join (join volumeDataDir shipId) ".materialized"

def materializedVolumeDir (volumeDataDir shipId volumeName : String) : String :=
  join (materializedShipDir volumeDataDir shipId) volumeName

/-! ## What the checks ensure -/

lemma ensures_validateRelativeTargetPath {volumeName path : String} :
    Ensures (fun _ => Downwards path) (validateRelativeTargetPath volumeName path) := by
  refine ensures_unless fun hvalid => ensures_ok ?_
  simp only [not_or, List.any_eq_true, not_exists, not_and, Bool.or_eq_true,
    decide_eq_true_eq] at hvalid
  exact ⟨hvalid.1, by simpa [isAbsolute] using hvalid.2.1, hvalid.2.2⟩

lemma ensures_validateMaterializedVolumeName {volumeName : String} :
    Ensures (fun _ => IsName volumeName) (validateMaterializedVolumeName volumeName) := by
  refine ensures_unless fun hvalid => ensures_ok ?_
  simp only [not_or] at hvalid
  exact ⟨hvalid.2.1, hvalid.1, hvalid.2.2⟩

def NormalizedVolumeSource.paths : NormalizedVolumeSource → List String
  | .persistentVolumeClaim _ => []
  | .configMap _ items _ _ | .secret _ items _ _ => items.map (·.path)
  | .projected projections _ => projections.flatMap projectedPaths

abbrev AllDownwards (paths : List String) : Prop := ∀ path ∈ paths, Downwards path

variable {volumeName : String}

lemma ensures_normalizeItemsFrom {items : List KeyToPath} {seen : List String} :
    Ensures (fun normalized => AllDownwards (normalized.map (·.path)))
      (normalizeItemsFrom volumeName seen items) := by
  induction items generalizing seen with
  | nil => exact ensures_ok nofun
  | cons item items ih =>
    refine ensures_unless fun _ => ensures_validateRelativeTargetPath.bind fun _ hpath => ?_
    refine ensures_unless fun _ => ih.bind fun rest hrest => ensures_ok ?_
    exact List.forall_mem_cons.2 ⟨hpath, hrest⟩

lemma ensures_normalizeProjection {projection : VolumeProjection} :
    Ensures (fun normalized => AllDownwards (projectedPaths normalized))
      (normalizeProjection volumeName projection) := by
  unfold normalizeProjection
  split
  · refine ensures_validateRelativeTargetPath.bind fun _ hpath => ?_
    exact ensures_unless fun _ => ensures_unless fun _ =>
      ensures_ok (List.forall_mem_singleton.2 hpath)
  · exact ensures_unless fun _ => ensures_normalizeItemsFrom.bind fun _ h => ensures_ok h
  · exact ensures_unless fun _ => ensures_normalizeItemsFrom.bind fun _ h => ensures_ok h
  · exact ensures_error _

lemma ensures_normalizeProjectionsFrom {projections : List VolumeProjection} {seen : List String} :
    Ensures (fun normalized => AllDownwards (normalized.flatMap projectedPaths))
      (normalizeProjectionsFrom volumeName seen projections) := by
  induction projections generalizing seen with
  | nil => exact ensures_ok nofun
  | cons projection projections ih =>
    refine ensures_normalizeProjection.bind fun first hfirst => ?_
    refine ensures_bind fun _ => ih.bind fun rest hrest => ensures_ok ?_
    rw [List.flatMap_cons]
    exact List.forall_mem_append.2 ⟨hfirst, hrest⟩

lemma ensures_normalizeSource {volume : ShipVolume} :
    Ensures (fun source => AllDownwards source.paths) (normalizeSource volume) := by
  unfold normalizeSource
  split
  · exact ensures_unless fun _ => ensures_ok nofun
  · exact ensures_unless fun _ => ensures_normalizeItemsFrom.bind fun _ h =>
      ensures_bind fun _ => ensures_ok h
  · exact ensures_unless fun _ => ensures_normalizeItemsFrom.bind fun _ h =>
      ensures_bind fun _ => ensures_ok h
  · exact ensures_unless fun _ => ensures_normalizeProjectionsFrom.bind fun _ h =>
      ensures_bind fun _ => ensures_ok h
  · exact ensures_error _

/-- What is known of a volume that is not backed by a claim. -/
def Checked (volume : NormalizedVolume) : Prop :=
  volume.pvcClaim = none → IsName volume.name ∧ AllDownwards volume.source.paths

lemma ensures_normalizedShipVolumes (spec : Workload.ShipSpec) :
    Ensures (fun volumes => ∀ volume ∈ volumes, Checked volume) (normalizedShipVolumes spec) := by
  have hclaims : ∀ {claims seen}, Ensures (fun volumes => ∀ volume ∈ volumes, Checked volume)
      (claimVolumes seen claims) := by
    intro claims seen
    induction claims generalizing seen with
    | nil => exact ensures_ok nofun
    | cons claim claims ih =>
      refine ensures_unless fun _ => ensures_unless fun _ => ?_
      refine ih.bind fun rest hrest => ensures_ok ?_
      exact List.forall_mem_cons.2 ⟨nofun, hrest⟩
  have hnamed : ∀ {named seen}, Ensures (fun volumes => ∀ volume ∈ volumes, Checked volume)
      (namedVolumes seen named) := by
    intro named seen
    induction named generalizing seen with
    | nil => exact ensures_ok nofun
    | cons volume volumes ih =>
      have hfirst : Ensures Checked (normalizeShipVolume volume) := by
        refine ensures_unless fun _ => ?_
        refine ensures_validateMaterializedVolumeName.bind fun _ hname => ?_
        refine ensures_normalizeSource.bind fun source hpaths => ensures_ok fun _ => ?_
        exact ⟨hname, hpaths⟩
      refine hfirst.bind fun first hfirst => ensures_unless fun _ => ih.bind fun rest hrest =>
        ensures_ok ?_
      exact List.forall_mem_cons.2 ⟨hfirst, hrest⟩
  refine hclaims.bind fun claims hclaims => hnamed.bind fun named hnamed => ensures_ok ?_
  exact List.forall_mem_append.2 ⟨hclaims, hnamed⟩

/-! ## The files -/

abbrev FilesDownwards (files : List MaterializedFile) : Prop := AllDownwards (files.map (·.path))

lemma ensures_filesOfData {mode : ℕ} {data : KeyedData} {seen : List String} :
    Ensures FilesDownwards (filesOfData volumeName mode seen data) := by
  induction data generalizing seen with
  | nil => exact ensures_ok nofun
  | cons entry data ih =>
    have hvalid : Ensures (fun _ => Downwards entry.1)
        ((validateRelativeTargetPath volumeName entry.1).mapError
          VolumeError.toReconcileError) := by
      intro u hu
      cases hpath : validateRelativeTargetPath volumeName entry.1 with
      | ok u => exact ensures_validateRelativeTargetPath u hpath
      | error e => rw [hpath] at hu; cases hu
    refine hvalid.bind fun _ hpath => ensures_unless fun _ => ih.bind fun rest hrest =>
      ensures_ok ?_
    exact List.forall_mem_cons.2 ⟨hpath, hrest⟩

lemma ensures_filesOfItems {kind resourceName : String} {data : KeyedData} {mode : ℕ}
    {optional : Bool} {items : List KeyToPath} (h : AllDownwards (items.map (·.path)))
    {seen : List String} : Ensures FilesDownwards
      (filesOfItems volumeName kind resourceName data mode optional seen items) := by
  induction items generalizing seen with
  | nil => exact ensures_ok nofun
  | cons item items ih =>
    rw [List.map_cons, AllDownwards, List.forall_mem_cons] at h
    refine ensures_unless fun _ => ?_
    split
    · exact (ih h.2).bind fun rest hrest => ensures_ok (List.forall_mem_cons.2 ⟨h.1, hrest⟩)
    split
    · exact ih h.2
    · exact ensures_error _

lemma ensures_loadKeyedVolume {kind ns name : String}
    {found : Except ReconcileError (Option KeyedData)} {items : List KeyToPath} {mode : ℕ}
    {optional : Bool} (h : AllDownwards (items.map (·.path))) : Ensures FilesDownwards
      (loadKeyedVolume kind ns found volumeName name items mode optional) := by
  refine ensures_bind fun data => ?_
  split
  · unfold buildMaterializedFiles
    split
    · exact ensures_filesOfData
    · exact ensures_filesOfItems h
  · split
    · exact ensures_ok nofun
    · exact ensures_error _

lemma ensures_addFiles {files : List MaterializedFile} (h : FilesDownwards files)
    {added : List MaterializedFile} (hadded : FilesDownwards added) :
    Ensures FilesDownwards (addFiles volumeName files added) := by
  induction added generalizing files with
  | nil => exact ensures_ok h
  | cons file added ih =>
    rw [FilesDownwards, List.map_cons, AllDownwards, List.forall_mem_cons] at hadded
    refine ensures_unless fun _ => ih ?_ hadded.2
    rw [FilesDownwards, List.map_append]
    exact List.forall_mem_append.2 ⟨h, List.forall_mem_singleton.2 hadded.1⟩

lemma ensures_projectedFiles {sources : Sources} {mode : ℕ}
    {projections : List NormalizedVolumeProjection}
    (h : AllDownwards (projections.flatMap projectedPaths)) {files : List MaterializedFile}
    (hfiles : FilesDownwards files) :
    Ensures FilesDownwards (projectedFiles sources volumeName mode files projections) := by
  induction projections generalizing files with
  | nil => exact ensures_ok hfiles
  | cons projection projections ih =>
    rw [List.flatMap_cons, AllDownwards, List.forall_mem_append] at h
    have hfirst : Ensures FilesDownwards (projectionFiles sources volumeName mode projection) := by
      cases projection with
      | serviceAccountToken audience expirationSeconds path =>
        exact ensures_bind fun contents => ensures_ok h.1
      | configMap name items optional | secret name items optional =>
        exact ensures_loadKeyedVolume h.1
    exact hfirst.bind fun added hadded => (ensures_addFiles hfiles hadded).bind fun _ => ih h.2

lemma isName_namespace : IsName "namespace" := ⟨by decide, by decide, by decide⟩

lemma isName_caCert : IsName "ca.crt" := ⟨by decide, by decide, by decide⟩

lemma ensures_loadProjectedVolume {sources : Sources} {mode : ℕ}
    {projections : List NormalizedVolumeProjection}
    (h : AllDownwards (projections.flatMap projectedPaths)) :
    Ensures FilesDownwards (loadProjectedVolume sources volumeName projections mode) := by
  have happend : ∀ {files : List MaterializedFile} {name : String} (contents : Contents),
      FilesDownwards files → IsName name → FilesDownwards (files ++ [⟨name, contents, mode⟩]) := by
    intro files name contents hfiles hname
    rw [FilesDownwards, List.map_append]
    exact List.forall_mem_append.2 ⟨hfiles, List.forall_mem_singleton.2 hname.downwards⟩
  have hnil : FilesDownwards [] := nofun
  refine (ensures_projectedFiles h hnil).bind fun files hfiles => ?_
  have hnamespace : FilesDownwards (if "namespace" ∈ files.map (·.path) then files
      else files ++ [⟨"namespace", sources.namespace.toUTF8.toList, mode⟩]) := by
    split
    · exact hfiles
    · exact happend _ hfiles isName_namespace
  dsimp only
  split
  · split
    · exact ensures_ok hnamespace
    · exact ensures_bind fun contents => ensures_ok (happend contents hnamespace isName_caCert)
  · exact ensures_ok hnamespace

lemma downwards_of_load {sources : Sources} {volume : NormalizedVolume}
    {info : MaterializedVolumeInfo} (h : Checked volume)
    (hload : loadMaterializedVolume sources volume = some (.ok info)) :
    info.name = volume.name ∧ IsName volume.name ∧ FilesDownwards info.files := by
  obtain ⟨name, source⟩ := volume
  have hchecked : IsName name ∧ AllDownwards source.paths := by
    cases source with
    | persistentVolumeClaim claimName => cases hload
    | configMap | secret | projected => exact h rfl
  have hnamed : ∀ {x : Except ReconcileError (List MaterializedFile)},
      Ensures FilesDownwards x →
      some (do return (⟨name, ← x⟩ : MaterializedVolumeInfo)) = some (Except.ok info) →
      info.name = name ∧ IsName name ∧ FilesDownwards info.files := by
    intro x hx heq
    have hinfo : Ensures (fun info => info.name = name ∧ IsName name ∧ FilesDownwards info.files)
        (do return (⟨name, ← x⟩ : MaterializedVolumeInfo)) :=
      hx.bind fun files hfiles => ensures_ok ⟨rfl, hchecked.1, hfiles⟩
    exact hinfo info (Option.some.inj heq)
  cases source with
  | persistentVolumeClaim claimName => cases hload
  | configMap name items mode optional | secret name items mode optional =>
    exact hnamed (ensures_loadKeyedVolume hchecked.2) hload
  | projected projections mode => exact hnamed (ensures_loadProjectedVolume hchecked.2) hload

/-- **Files stay inside their volumes.**  Whatever a spec says and its sources hold, a volume that
is written has a directory strictly inside that of its Ship and all its files strictly inside its
directory; and the directories of two volumes have nothing in common. -/
theorem files_inside_volume (sources : Sources) (volumeDataDir shipId : String)
    (spec : Workload.ShipSpec) (volumes : List NormalizedVolume)
    (h : normalizedShipVolumes spec = .ok volumes) :
    (∀ volume ∈ volumes, ∀ info, loadMaterializedVolume sources volume = some (.ok info) →
      Inside (materializedShipDir volumeDataDir shipId)
        (materializedVolumeDir volumeDataDir shipId info.name) ∧
      ∀ file ∈ info.files, Inside (materializedVolumeDir volumeDataDir shipId info.name)
        (join (materializedVolumeDir volumeDataDir shipId info.name) file.path)) ∧
    volumes.Pairwise fun volume volume' =>
      ∀ info info', loadMaterializedVolume sources volume = some (.ok info) →
        loadMaterializedVolume sources volume' = some (.ok info') →
        Apart (materializedVolumeDir volumeDataDir shipId info.name)
          (materializedVolumeDir volumeDataDir shipId info'.name) := by
  have hchecked := ensures_normalizedShipVolumes spec volumes h
  constructor
  · intro volume hvolume info hload
    obtain ⟨hname, hisName, hfiles⟩ := downwards_of_load (hchecked volume hvolume) hload
    rw [← hname] at hisName
    refine ⟨inside_join hisName.downwards, fun file hfile => inside_join ?_⟩
    exact hfiles file.path (List.mem_map_of_mem hfile)
  · refine (List.pairwise_map.1 (nodup_map_name h)).imp_of_mem ?_
    intro volume volume' hvolume hvolume' hne info info' hload hload'
    obtain ⟨hname, hisName, -⟩ := downwards_of_load (hchecked volume hvolume) hload
    obtain ⟨hname', hisName', -⟩ := downwards_of_load (hchecked volume' hvolume') hload'
    rw [hname, hname']
    exact apart_join hisName hisName' hne

/-- Every ConfigMap has one key. -/
def oneKey (key : String) : Sources where
  «namespace» := "ns"
  configMap _ := .ok (some [(key, [])])
  secret _ := .ok none
  token _ _ := .ok []
  caCert := none

def configSpec (items : List KeyToPath) : Workload.ShipSpec :=
  { volumes :=
      [{ name := "config", configMap := some { name := "app", items, optional := some true } }] }

def configVolume (items : List KeyToPath) : NormalizedVolume :=
  ⟨"config", .configMap "app" items 420 true⟩

theorem files_inside_volume_nested :
    loadMaterializedVolume (oneKey "key") (configVolume [⟨"key", "etc/app.conf"⟩]) =
        some (.ok ⟨"config", [⟨"etc/app.conf", [], 420⟩]⟩) ∧
      Inside (materializedVolumeDir "/data" "ship" "config")
        (join (materializedVolumeDir "/data" "ship" "config") "etc/app.conf") := by
  have hinside := (files_inside_volume (oneKey "key") "/data" "ship"
    (configSpec [⟨"key", "etc/app.conf"⟩]) [configVolume [⟨"key", "etc/app.conf"⟩]] rfl).1
    _ (List.mem_singleton_self _) _ rfl
  exact ⟨rfl, hinside.2 ⟨"etc/app.conf", [], 420⟩ (List.mem_singleton_self _)⟩

end Tugboat.Volume
