import Tugboat.Resources.ConfigMap
import Tugboat.Resources.Ship

/-!
# The JSON form of Ships

Ships as the API server reads and writes them, and with that the kind as a `Resource`.  The server
computes updates on the JSON form, so what an update keeps of a Ship is a question about this
codec: a Ship read back from an object with the old `spec` field has the old spec, and one read
back from an object with the old `status` field is in the old phase.  (Points in time may be
rounded on the way, so nothing is said about the rest of the status.)
-/

namespace Tugboat

open Json

variable [TimeCodec]

/-! ## Writing and reading -/

/-- A natural number, written. -/
def encodeNat (n : ℕ) : Value := .number (.int n)

def ShipMigrationStatus.fields (m : ShipMigrationStatus) (timestamp : Option Value) :
    List (String × Option Value) :=
  [("phase", encodeUnlessDefault "" .string m.phase.text),
   ("sourceNodeName", m.sourceNodeName.map .string),
   ("targetNodeName", m.targetNodeName.map .string),
   ("targetAddress", m.targetAddress.map .string),
   ("targetPort", m.targetPort.map encodeNat),
   ("message", encodeUnlessDefault "" .string m.message),
   ("timestamp", timestamp),
   ("bytesTransferred", m.bytesTransferred.map encodeNat),
   ("bytesRemaining", m.bytesRemaining.map encodeNat)]

def ShipMigrationStatus.toValue (m : ShipMigrationStatus) : Option Value := do
  let timestamp ← encodeTime m.timestamp
  return .object (Map.ofFields (m.fields timestamp))

def ShipMigrationStatus.fromValue (v : Value) : Option ShipMigrationStatus := do
  let m ← v.asRecord ["phase", "sourceNodeName", "targetNodeName", "targetAddress", "targetPort",
    "message", "timestamp", "bytesTransferred", "bytesRemaining"]
  return {
    phase := .ofText (← decodeDefault m "phase" "" Value.asStr)
    sourceNodeName := ← decodeOption m "sourceNodeName" Value.asStr
    targetNodeName := ← decodeOption m "targetNodeName" Value.asStr
    targetAddress := ← decodeOption m "targetAddress" Value.asStr
    targetPort := ← decodeOption m "targetPort" (decodeNat (2 ^ 32))
    message := ← decodeDefault m "message" "" Value.asStr
    timestamp := ← decodeOption m "timestamp" decodeTime
    bytesTransferred := ← decodeOption m "bytesTransferred" (decodeNat (2 ^ 64))
    bytesRemaining := ← decodeOption m "bytesRemaining" (decodeNat (2 ^ 64)) }

def ShipCondition.toValue (c : ShipCondition) : Option Value := do
  let timestamp ← encodeTime c.timestamp
  return .object <| Map.ofFields
    [("status", encodeUnlessDefault "" .string c.status),
     ("message", encodeUnlessDefault "" .string c.message),
     ("timestamp", timestamp)]

def ShipCondition.fromValue (v : Value) : Option ShipCondition := do
  let m ← v.asRecord ["status", "message", "timestamp"]
  return {
    status := ← decodeDefault m "status" "" Value.asStr
    message := ← decodeDefault m "message" "" Value.asStr
    timestamp := ← decodeOption m "timestamp" decodeTime }

def ShipStatus.toValue (s : ShipStatus) : Option Value := do
  let conditions ← s.conditions.mapM ShipCondition.toValue
  let migration ← encodeOption ShipMigrationStatus.toValue s.migration
  return .object <| Map.ofFields
    [("conditions", encodeUnlessDefault [] .array conditions), ("migration", migration)]

def ShipStatus.fromValue (v : Value) : Option ShipStatus := do
  let m ← v.asRecord ["conditions", "ips", "migration", "actualAllocation"]
  return {
    conditions := ← decodeDefault m "conditions" [] (decodeList ShipCondition.fromValue)
    migration := ← decodeOption m "migration" ShipMigrationStatus.fromValue }

def ShipSpec.fields (s : ShipSpec) : List (String × Option Value) :=
  [("image", encodeUnlessDefault "" .string s.image),
   ("shipClass", encodeUnlessDefault "" .string s.shipClass),
   ("nodeName", s.nodeName.map .string),
   ("schedulerName", s.schedulerName.map .string),
   ("targetNodeName", s.targetNodeName.map .string),
   ("runtimeClass", s.runtimeClass.map .string),
   ("restoreFromSnapshot", s.restoreFromSnapshot.map .string)]

def ShipSpec.toValue (s : ShipSpec) : Value := .object (Map.ofFields s.fields)

def ShipSpec.fromValue (v : Value) : Option ShipSpec := do
  let m ← v.asRecord ["image", "shipClass", "nodeName", "networkClassRef", "uefi", "tolerations",
    "schedulerName", "volumeClaimRef", "volumes", "targetNodeName", "runtimeClass",
    "serviceAccountName", "automountServiceAccountToken", "affinity", "topologySpreadConstraints",
    "restoreFromSnapshot"]
  return {
    image := ← decodeDefault m "image" "" Value.asStr
    shipClass := ← decodeDefault m "shipClass" "" Value.asStr
    nodeName := ← decodeOption m "nodeName" Value.asStr
    schedulerName := ← decodeOption m "schedulerName" Value.asStr
    targetNodeName := ← decodeOption m "targetNodeName" Value.asStr
    runtimeClass := ← decodeOption m "runtimeClass" Value.asStr
    restoreFromSnapshot := ← decodeOption m "restoreFromSnapshot" Value.asStr }

namespace Ship

def toValue (s : Ship) : Option Value := do
  let metadata ← encodeOption ObjectMeta.toValue s.objectMeta
  let status ← encodeOption ShipStatus.toValue s.status
  return .object <| Map.ofFields <|
    ((s.typeMeta.map TypeMeta.toFields).getD []) ++
      [("metadata", metadata), ("spec", s.spec.map ShipSpec.toValue), ("status", status)]

def fromValue (v : Value) : Option Ship := do
  let m ← v.asObject
  return {
    typeMeta := TypeMeta.fromFields m
    objectMeta := ← decodeOption m "metadata" ObjectMeta.fromValue
    spec := ← decodeOption m "spec" ShipSpec.fromValue
    status := ← decodeOption m "status" ShipStatus.fromValue }

instance : ObjectMetaResource Ship where
  resourceKind := .ship
  objectMeta := objectMeta
  setObjectMeta m s := { s with objectMeta := m }

/-- The validation of the scheduling constraints concerns fields that are left out. -/
instance : Resource Ship where
  setTypeMeta t s := { s with typeMeta := some t }
  toValue := toValue
  fromValue := fromValue
  validate s := NameValidator.validate s.objectMeta

end Ship

/-! ## What is read back -/

omit [TimeCodec] in
/-- Specs hold no times and are read back as they are. -/
lemma ShipSpec.fromValue_toValue (s : ShipSpec) : ShipSpec.fromValue s.toValue = some s := by
  have hget := fun k => Map.get_ofFields s.fields k (by simp [ShipSpec.fields])
  have hstr : ∀ a : String, Value.asStr (.string a) = some a := fun _ => rfl
  have hnull : ∀ a : String, Value.string a ≠ .null := fun _ => by simp
  simp [ShipSpec.fromValue, ShipSpec.toValue,
    decodeDefault_of_get (hget "image") hstr, decodeDefault_of_get (hget "shipClass") hstr,
    decodeOption_of_get (hget "nodeName") hstr hnull,
    decodeOption_of_get (hget "schedulerName") hstr hnull,
    decodeOption_of_get (hget "targetNodeName") hstr hnull,
    decodeOption_of_get (hget "runtimeClass") hstr hnull,
    decodeOption_of_get (hget "restoreFromSnapshot") hstr hnull]

lemma ShipMigrationStatus.phase_of_fromValue {m m' : ShipMigrationStatus} {v : Value}
    (h : m.toValue = some v) (h' : ShipMigrationStatus.fromValue v = some m') :
    m'.phase = m.phase := by
  simp only [ShipMigrationStatus.toValue, Option.bind_eq_bind, Option.pure_def,
    Option.bind_eq_some_iff] at h
  obtain ⟨timestamp, -, h⟩ := h
  cases h
  simp only [ShipMigrationStatus.fromValue, Value.asRecord_object, Option.bind_eq_bind,
    Option.bind_some, Option.pure_def, Option.bind_eq_some_iff] at h'
  obtain ⟨text, htext, h'⟩ := h'
  have hget : (Map.ofFields (m.fields timestamp)).get "phase" =
      encodeUnlessDefault "" .string m.phase.text :=
    Map.get_ofFields _ _ (by simp [ShipMigrationStatus.fields])
  have hphase : decodeDefault (Map.ofFields (m.fields timestamp)) "phase" "" Value.asStr =
      some m.phase.text := decodeDefault_of_get hget fun _ => rfl
  cases hphase.symm.trans htext
  obtain ⟨_, -, _, -, _, -, _, -, _, -, _, -, _, -, _, -, h'⟩ := h'
  cases h'
  exact MigrationPhase.ofText_text m.phase

omit [TimeCodec] in
/-- A value read from an optional field comes from what was written there. -/
lemma eq_none_or_of_decodeOption {α β : Type} {encode : α → Option Value}
    {decode : Value → Option β} {m : Map} {k : String} {a : Option α} {b : Option β}
    (h : encodeOption encode a = some (m.get k)) (h' : decodeOption m k decode = some b)
    (hnull : ∀ a, encode a ≠ some .null) : (a = none ∧ b = none) ∨
      ∃ a' v b', a = some a' ∧ encode a' = some v ∧ decode v = some b' ∧ b = some b' := by
  cases a with
  | none =>
    simp only [encodeOption, Option.some.injEq] at h
    simp only [decodeOption, ← h, Option.some.injEq] at h'
    exact .inl ⟨rfl, h'.symm⟩
  | some a =>
    obtain ⟨v, hv, hget⟩ := Option.map_eq_some_iff.1 h
    unfold decodeOption at h'
    split at h'
    next hnone =>
      rw [← hget] at hnone
      cases hnone
    next hsome =>
      rw [← hget] at hsome
      cases hsome
      exact absurd hv (hnull a)
    next w _ hw =>
      rw [← hget] at hw
      cases hw
      obtain ⟨b', hb', hb⟩ := Option.map_eq_some_iff.1 h'
      exact .inr ⟨a, v, b', rfl, hv, hb', hb.symm⟩

lemma ShipMigrationStatus.toValue_ne_null (m : ShipMigrationStatus) : m.toValue ≠ some .null := by
  simp [ShipMigrationStatus.toValue, Option.bind_eq_some_iff]

lemma ShipStatus.toValue_ne_null (s : ShipStatus) : s.toValue ≠ some .null := by
  simp [ShipStatus.toValue, Option.bind_eq_some_iff]

lemma ShipStatus.phase_of_fromValue {s s' : ShipStatus} {v : Value}
    (h : s.toValue = some v) (h' : ShipStatus.fromValue v = some s') :
    s'.migration.map (·.phase) = s.migration.map (·.phase) := by
  simp only [ShipStatus.toValue, Option.bind_eq_bind, Option.pure_def,
    Option.bind_eq_some_iff] at h
  obtain ⟨conditions, -, migration, hmigration, h⟩ := h
  cases h
  simp only [ShipStatus.fromValue, Value.asRecord_object, Option.bind_eq_bind,
    Option.bind_some, Option.pure_def, Option.bind_eq_some_iff] at h'
  obtain ⟨conditions', -, migration', hmigration', h'⟩ := h'
  cases h'
  have hget : (Map.ofFields [("conditions", encodeUnlessDefault [] .array conditions),
      ("migration", migration)]).get "migration" = migration :=
    (Map.get_ofFields _ _ (by simp)).trans Option.join_some
  rw [← hget] at hmigration
  rcases eq_none_or_of_decodeOption hmigration hmigration'
    ShipMigrationStatus.toValue_ne_null with ⟨hnone, hnone'⟩ | ⟨m, w, m', hm, hw, hw', hm'⟩
  · simp [hnone, hnone']
  · simp [hm, hm', ShipMigrationStatus.phase_of_fromValue hw hw']

namespace Ship

lemma get_of_toValue {s : Ship} {v : Value} (h : s.toValue = some v) :
    ∃ m : Map, v = .object m ∧ m.get "spec" = s.spec.map ShipSpec.toValue ∧
      encodeOption ShipStatus.toValue s.status = some (m.get "status") := by
  simp only [toValue, Option.bind_eq_bind, Option.pure_def, Option.bind_eq_some_iff] at h
  obtain ⟨metadata, -, status, hstatus, h⟩ := h
  cases h
  have hnodup : ((((s.typeMeta.map TypeMeta.toFields).getD []) ++
      [("metadata", metadata), ("spec", s.spec.map ShipSpec.toValue),
        ("status", status)]).map Prod.fst).Nodup := by
    cases s.typeMeta with
    | none => simp
    | some t => simp [TypeMeta.toFields]
  refine ⟨_, rfl, ?_, ?_⟩
  · rw [Map.get_ofFields _ _ hnodup]
    cases s.typeMeta with
    | none | some t => rfl
  · rw [Map.get_ofFields _ _ hnodup, hstatus]
    cases s.typeMeta with
    | none | some t => rfl

lemma decode_of_fromValue {s : Ship} {m : Map} (h : fromValue (.object m) = some s) :
    decodeOption m "spec" ShipSpec.fromValue = some s.spec ∧
      decodeOption m "status" ShipStatus.fromValue = some s.status := by
  simp only [fromValue, Value.asObject, Option.bind_eq_bind, Option.bind_some, Option.pure_def,
    Option.bind_eq_some_iff] at h
  obtain ⟨objectMeta, -, spec, hspec, status, hstatus, h⟩ := h
  cases h
  exact ⟨hspec, hstatus⟩

lemma spec_of_fromValue {s s' : Ship} {m m' : Map} (h : s.toValue = some (.object m))
    (h' : fromValue (.object m') = some s') (hspec : m'.get "spec" = m.get "spec") :
    s'.spec = s.spec := by
  obtain ⟨_, ⟨⟩, hget, -⟩ := get_of_toValue h
  have hround : decodeOption m' "spec" ShipSpec.fromValue = some s.spec :=
    decodeOption_of_get (hspec.trans hget) ShipSpec.fromValue_toValue
      fun a => by simp [ShipSpec.toValue]
  rw [(decode_of_fromValue h').1] at hround
  exact Option.some.inj hround

lemma phase_of_fromValue {s s' : Ship} {m m' : Map} (h : s.toValue = some (.object m))
    (h' : fromValue (.object m') = some s') (hstatus : m'.get "status" = m.get "status") :
    s'.phase = s.phase := by
  obtain ⟨_, ⟨⟩, -, hencode⟩ := get_of_toValue h
  rw [← hstatus] at hencode
  rcases eq_none_or_of_decodeOption hencode (decode_of_fromValue h').2
    ShipStatus.toValue_ne_null with ⟨hnone, hnone'⟩ | ⟨st, v, st', hst, hv, hv', hst'⟩
  · simp [phase, migration, hnone, hnone']
  · simpa [phase, migration, hst, hst'] using ShipStatus.phase_of_fromValue hv hv'

end Ship

end Tugboat
