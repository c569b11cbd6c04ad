import Mathlib.Data.List.Nodup
import Tugboat.Agent.Context
import Tugboat.Lib.Text
import Tugboat.Resources.Workload

/-!
# The volumes of a Ship

A Ship names its volumes in two places: `volumeClaimRef`, the older one, lists claims, and `volumes`
lists volumes with a name and one source.  The agent brings both into one list
(`normalizedShipVolumes`) and refuses a spec whose volumes are not well formed.  A claim of the
first place becomes a volume that is named like the claim.

A volume that is backed by a claim is called by its alias, the name of the volume; the aliases of
a spec are distinct (`nodup_map_name`), so a spec maps each alias to one claim (`pvcClaims`).
-/

namespace Tugboat.Volume

open Workload

/-! ## Errors -/

inductive VolumeError
  | invalidVolumeClaimRef (name : String)
  | duplicateVolumeClaimRef (name : String)
  | duplicateShipVolume (name : String)
  | invalidShipVolume (volume reason : String)
  | invalidVolumeItemPath (volume path : String)
  | duplicateVolumeItemPath (volume path : String)
  deriving DecidableEq, Repr

def VolumeError.text : VolumeError → String
  | .invalidVolumeClaimRef name => "Invalid VolumeClaimRef: " ++ name
  | .duplicateVolumeClaimRef name => "Duplicate VolumeClaimRef '" ++ name ++ "'"
  | .duplicateShipVolume name => "Duplicate Ship volume name '" ++ name ++ "'"
  | .invalidShipVolume volume reason => "Invalid Ship volume '" ++ volume ++ "': " ++ reason
  | .invalidVolumeItemPath volume path =>
    "Ship volume '" ++ volume ++ "' has invalid target path '" ++ path ++ "'"
  | .duplicateVolumeItemPath volume path =>
    "Ship volume '" ++ volume ++ "' defines duplicate target path '" ++ path ++ "'"

def VolumeError.toReconcileError (e : VolumeError) : ReconcileError := .other e.text

/-! ## Normalized volumes -/

inductive NormalizedVolumeProjection
  | serviceAccountToken (audience : Option String) (expirationSeconds : Option ℕ) (path : String)
  | configMap (name : String) (items : List KeyToPath) (optional : Bool)
  | secret (name : String) (items : List KeyToPath) (optional : Bool)
  deriving DecidableEq, Repr

inductive NormalizedVolumeSource
  | persistentVolumeClaim (claimName : String)
  | configMap (name : String) (items : List KeyToPath) (defaultMode : ℕ) (optional : Bool)
  | secret (secretName : String) (items : List KeyToPath) (defaultMode : ℕ) (optional : Bool)
  | projected (sources : List NormalizedVolumeProjection) (defaultMode : ℕ)
  deriving DecidableEq, Repr

structure NormalizedVolume where
  name : String
  source : NormalizedVolumeSource
  deriving DecidableEq, Repr

/-- `0o644`. -/
def defaultFileMode : ℕ := 420

/-- A path below the volume.  A relative path without `.` and `..` has only normal components, so
the source's loop over the components refuses nothing more. -/
def validateRelativeTargetPath (volumeName path : String) : Except VolumeError Unit :=
  if path = "" ∨ path.toList.head? = some '/' ∨
      (Text.split '/' path).any (fun segment => segment = "." || segment = "..") then
    .error (.invalidVolumeItemPath volumeName path)
  else .ok ()

def validateMaterializedVolumeName (volumeName : String) : Except VolumeError Unit :=
  if '/' ∈ volumeName.toList ∨ volumeName = "" ∨ volumeName = "." ∨ volumeName = ".." then
    .error (.invalidShipVolume volumeName "volume name must be a single relative path segment")
  else .ok ()

/-- The loop of `normalize_items`; `seen` are the paths so far. -/
def normalizeItemsFrom (volumeName : String) :
    List String → List KeyToPath → Except VolumeError (List KeyToPath)
  | _, [] => .ok []
  | seen, item :: items =>
    if item.key = "" then
      .error (.invalidShipVolume volumeName "volume items[].key must not be empty")
    else do
      validateRelativeTargetPath volumeName item.path
      if item.path ∈ seen then .error (.duplicateVolumeItemPath volumeName item.path)
      else return item :: (← normalizeItemsFrom volumeName (item.path :: seen) items)

def normalizeItems (volumeName : String) (items : List KeyToPath) :
    Except VolumeError (List KeyToPath) := normalizeItemsFrom volumeName [] items

def normalizeDefaultMode (volumeName : String) : Option Int → Except VolumeError ℕ
  | none => .ok defaultFileMode
  | some mode =>
    if mode < 0 then
      .error (.invalidShipVolume volumeName "defaultMode must be a positive integer")
    else if mode > 511 then
      .error (.invalidShipVolume volumeName "defaultMode must be between 0 and 0o777")
    else .ok mode.toNat

def normalizePersistentVolumeClaimSource (volumeName claimName : String) :
    Except VolumeError NormalizedVolumeSource :=
  if claimName = "" then
    .error (.invalidShipVolume volumeName "persistentVolumeClaim.claimName must not be empty")
  else .ok (.persistentVolumeClaim claimName)

def normalizeConfigMapSource (volumeName : String) (source : ConfigMapVolumeSource) :
    Except VolumeError NormalizedVolumeSource :=
  if source.name = "" then
    .error (.invalidShipVolume volumeName "configMap.name must not be empty")
  else do
    let items ← normalizeItems volumeName source.items
    let defaultMode ← normalizeDefaultMode volumeName source.defaultMode
    return .configMap source.name items defaultMode (source.optional.getD false)

def normalizeSecretSource (volumeName : String) (source : SecretVolumeSource) :
    Except VolumeError NormalizedVolumeSource :=
  if source.secretName = "" then
    .error (.invalidShipVolume volumeName "secret.secretName must not be empty")
  else do
    let items ← normalizeItems volumeName source.items
    let defaultMode ← normalizeDefaultMode volumeName source.defaultMode
    return .secret source.secretName items defaultMode (source.optional.getD false)

def normalizeServiceAccountTokenProjection (volumeName : String)
    (projection : ServiceAccountTokenProjection) :
    Except VolumeError NormalizedVolumeProjection := do
  validateRelativeTargetPath volumeName projection.path
  if projection.expirationSeconds.any (· < 0) then
    .error (.invalidShipVolume volumeName
      "serviceAccountToken.expirationSeconds must be a positive integer")
  else if projection.expirationSeconds = some 0 then
    .error (.invalidShipVolume volumeName
      "serviceAccountToken.expirationSeconds must be greater than zero")
  else
    return .serviceAccountToken projection.audience (projection.expirationSeconds.map Int.toNat)
      projection.path

def normalizeConfigMapProjection (volumeName : String) (projection : KeyProjection) :
    Except VolumeError NormalizedVolumeProjection :=
  if projection.name = "" then
    .error (.invalidShipVolume volumeName "projected.configMap.name must not be empty")
  else do
    let items ← normalizeItems volumeName projection.items
    return .configMap projection.name items (projection.optional.getD false)

def normalizeSecretProjection (volumeName : String) (projection : KeyProjection) :
    Except VolumeError NormalizedVolumeProjection :=
  if projection.name = "" then
    .error (.invalidShipVolume volumeName "projected.secret.name must not be empty")
  else do
    let items ← normalizeItems volumeName projection.items
    return .secret projection.name items (projection.optional.getD false)

def normalizeProjection (volumeName : String) (projection : VolumeProjection) :
    Except VolumeError NormalizedVolumeProjection :=
  match projection.serviceAccountToken, projection.configMap, projection.secret with
  | some token, none, none => normalizeServiceAccountTokenProjection volumeName token
  | none, some configMap, none => normalizeConfigMapProjection volumeName configMap
  | none, none, some secret => normalizeSecretProjection volumeName secret
  | _, _, _ => .error (.invalidShipVolume volumeName ("each projected source must set " ++
      "exactly one of serviceAccountToken, configMap, or secret"))

/-- The paths a projection is going to use, as far as they are in the spec. -/
def projectedPaths : NormalizedVolumeProjection → List String
  | .serviceAccountToken _ _ path => [path]
  | .configMap _ items _ | .secret _ items _ => items.map (·.path)

/-- Note the paths of a projection, unless one of them is there already. -/
def notePaths (volumeName : String) : List String → List String → Except VolumeError (List String)
  | seen, [] => .ok seen
  | seen, path :: paths =>
    if path ∈ seen then .error (.duplicateVolumeItemPath volumeName path)
    else notePaths volumeName (path :: seen) paths

/-- The loop of `normalize_projected_source`; `seen` are the paths so far. -/
def normalizeProjectionsFrom (volumeName : String) :
    List String → List VolumeProjection → Except VolumeError (List NormalizedVolumeProjection)
  | _, [] => .ok []
  | seen, projection :: projections => do
    let normalized ← normalizeProjection volumeName projection
    let seen ← notePaths volumeName seen (projectedPaths normalized)
    return normalized :: (← normalizeProjectionsFrom volumeName seen projections)

def normalizeProjectedSource (volumeName : String) (source : ProjectedVolumeSource) :
    Except VolumeError NormalizedVolumeSource :=
  if source.sources = [] then
    .error (.invalidShipVolume volumeName "projected.sources must not be empty")
  else do
    let sources ← normalizeProjectionsFrom volumeName [] source.sources
    let defaultMode ← normalizeDefaultMode volumeName source.defaultMode
    return .projected sources defaultMode

def normalizeSource (volume : ShipVolume) : Except VolumeError NormalizedVolumeSource :=
  match volume.persistentVolumeClaim, volume.configMap, volume.secret, volume.projected with
  | some claimName, none, none, none => normalizePersistentVolumeClaimSource volume.name claimName
  | none, some source, none, none => normalizeConfigMapSource volume.name source
  | none, none, some source, none => normalizeSecretSource volume.name source
  | none, none, none, some source => normalizeProjectedSource volume.name source
  | _, _, _, _ => .error (.invalidShipVolume volume.name
      "exactly one of persistentVolumeClaim, configMap, secret, or projected must be set")

def normalizeShipVolume (volume : ShipVolume) : Except VolumeError NormalizedVolume :=
  if volume.name = "" then
    .error (.invalidShipVolume "<unnamed>" "volume name must not be empty")
  else do
    validateMaterializedVolumeName volume.name
    let source ← normalizeSource volume
    return ⟨volume.name, source⟩

/-- The first loop of `normalized_ship_volumes`.  The names that were seen are the claims that were
seen, so its check of the names never fails. -/
def claimVolumes : List String → List String → Except VolumeError (List NormalizedVolume)
  | _, [] => .ok []
  | seen, claim :: claims =>
    if claim = "" then .error (.invalidVolumeClaimRef claim)
    else if claim ∈ seen then .error (.duplicateVolumeClaimRef claim)
    else do return ⟨claim, .persistentVolumeClaim claim⟩ :: (← claimVolumes (claim :: seen) claims)

/-- The second loop. -/
def namedVolumes : List String → List ShipVolume → Except VolumeError (List NormalizedVolume)
  | _, [] => .ok []
  | seen, volume :: volumes => do
    let normalized ← normalizeShipVolume volume
    if normalized.name ∈ seen then .error (.duplicateShipVolume normalized.name)
    else return normalized :: (← namedVolumes (normalized.name :: seen) volumes)

def normalizedShipVolumes (spec : Workload.ShipSpec) :
    Except VolumeError (List NormalizedVolume) := do
  let claims ← claimVolumes [] spec.volumeClaimRef
  let volumes ← namedVolumes (claims.map (·.name)) spec.volumes
  return claims ++ volumes

/-! ## Volumes that are backed by claims -/

def NormalizedVolume.pvcClaim (volume : NormalizedVolume) : Option (String × String) :=
  match volume.source with
  | .persistentVolumeClaim claimName => some (volume.name, claimName)
  | _ => none

def pvcClaims (volumes : List NormalizedVolume) : List (String × String) :=
  volumes.filterMap NormalizedVolume.pvcClaim

def pvcAliases (spec : Workload.ShipSpec) : Except VolumeError (List String) :=
  (normalizedShipVolumes spec).map fun volumes => (pvcClaims volumes).map (·.1)

/-- The aliases of the hotplug classifier: a spec that is refused has none. -/
def pvcVolumeAliases (spec : Workload.ShipSpec) : List String :=
  match normalizedShipVolumes spec with
  | .ok volumes => (pvcClaims volumes).map (·.1)
  | .error _ => []

/-! ## Aliases are distinct -/

/-- Volumes with distinct names, none of which was seen before. -/
def Fresh (seen : List String) (volumes : List NormalizedVolume) : Prop :=
  (volumes.map (·.name)).Nodup ∧ ∀ volume ∈ volumes, volume.name ∉ seen

lemma Fresh.nil (seen : List String) : Fresh seen [] := ⟨List.nodup_nil, by simp⟩

variable {seen : List String} {volumes : List NormalizedVolume}

lemma Fresh.cons {volume : NormalizedVolume} (hnew : volume.name ∉ seen)
    (h : Fresh (volume.name :: seen) volumes) :
    Fresh seen (volume :: volumes) := by
  refine ⟨List.nodup_cons.mpr ⟨?_, h.1⟩, ?_⟩
  · intro hmem
    obtain ⟨other, hother, hname⟩ := List.mem_map.mp hmem
    exact h.2 other hother (by simp [hname])
  · intro other hother
    rcases List.mem_cons.mp hother with rfl | hother
    · exact hnew
    · exact fun hseen => h.2 other hother (List.mem_cons_of_mem _ hseen)

lemma fresh_claimVolumes {claims : List String} (h : claimVolumes seen claims = .ok volumes) :
    Fresh seen volumes := by
  induction claims generalizing seen volumes with
  | nil =>
    cases h
    exact Fresh.nil seen
  | cons claim claims ih =>
    rw [claimVolumes] at h
    split at h
    · cases h
    split at h
    · cases h
    rename_i hnew
    obtain ⟨rest, hrest, hvolumes⟩ := bind_eq_ok_iff.1 h
    cases hvolumes
    exact Fresh.cons hnew (ih hrest)

lemma fresh_namedVolumes {ships : List ShipVolume} (h : namedVolumes seen ships = .ok volumes) :
    Fresh seen volumes := by
  induction ships generalizing seen volumes with
  | nil =>
    cases h
    exact Fresh.nil seen
  | cons ship ships ih =>
    rw [namedVolumes] at h
    obtain ⟨normalized, -, h⟩ := bind_eq_ok_iff.1 h
    split at h
    · cases h
    rename_i hnew
    obtain ⟨rest, hrest, hvolumes⟩ := bind_eq_ok_iff.1 h
    cases hvolumes
    exact Fresh.cons hnew (ih hrest)

variable {spec : Workload.ShipSpec}

/-- The volumes of a spec have distinct names. -/
theorem nodup_map_name (h : normalizedShipVolumes spec = .ok volumes) :
    (volumes.map (·.name)).Nodup := by
  obtain ⟨claims, hclaims, h⟩ := bind_eq_ok_iff.1 h
  obtain ⟨named, hnamed, h⟩ := bind_eq_ok_iff.1 h
  cases h
  obtain ⟨hnodup, -⟩ := fresh_claimVolumes hclaims
  obtain ⟨hnodup', hapart⟩ := fresh_namedVolumes hnamed
  rw [List.map_append]
  refine List.Nodup.append hnodup hnodup' ?_
  intro name hmem hmem'
  obtain ⟨volume, hvolume, rfl⟩ := List.mem_map.mp hmem'
  exact hapart volume hvolume hmem

lemma map_fst_pvcClaims_sublist (volumes : List NormalizedVolume) :
    List.Sublist ((pvcClaims volumes).map (·.1)) (volumes.map (·.name)) := by
  induction volumes with
  | nil => exact List.Sublist.slnil
  | cons volume volumes ih =>
    obtain ⟨name, source⟩ := volume
    cases source with
    | persistentVolumeClaim claimName => exact ih.cons_cons name
    | configMap _ _ _ _ | secret _ _ _ _ | projected _ _ => exact ih.cons name

lemma nodup_aliases (h : normalizedShipVolumes spec = .ok volumes) :
    ((pvcClaims volumes).map (·.1)).Nodup :=
  (nodup_map_name h).sublist (map_fst_pvcClaims_sublist volumes)

lemma pvcVolumeAliases_eq (h : normalizedShipVolumes spec = .ok volumes) :
    pvcVolumeAliases spec = (pvcClaims volumes).map (·.1) := by
  rw [pvcVolumeAliases, h]

lemma pvcAliases_eq (h : normalizedShipVolumes spec = .ok volumes) :
    pvcAliases spec = .ok ((pvcClaims volumes).map (·.1)) := by
  rw [pvcAliases, h]
  rfl

end Tugboat.Volume
