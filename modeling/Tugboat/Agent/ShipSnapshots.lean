import Tugboat.Lib.Run
import Tugboat.Lib.Text
import Tugboat.Resources.Ship

/-!
# Snapshots of Ships

Two programs write the status of a ShipSnapshot.  The agent of the Ship's node makes a snapshot of
the virtual machine and writes its handle; a controller writes the list of volume snapshots.  Each
works on a version that its watch has delivered, and its write replaces the whole status.

If each works on the stored version, and the handle of a new snapshot does get written, the virtual
machine is captured once and the outcome stays (`captured_once`).  A version from before the capture
that is reconciled after it makes the agent capture again (`captured_twice`).
-/

namespace Tugboat.ShipSnapshots

structure ShipSnapshotVolumeRef where
  pvcName : String
  volumeSnapshotName : String
  readyToUse : Option Bool := none
  deriving DecidableEq, Repr

structure ShipSnapshotStatus where
  phase : String := ""
  handle : Option String := none
  sourceShipId : Option String := none
  volumeSnapshots : List ShipSnapshotVolumeRef := []
  error : Option String := none
  deriving DecidableEq, Repr

structure ShipSnapshotSpec where
  shipName : String
  includeVolumes : Option Bool := none
  mode : Option String := none
  deriving DecidableEq, Repr

structure ShipSnapshot where
  spec : Option ShipSnapshotSpec := none
  status : Option ShipSnapshotStatus := none
  deriving DecidableEq, Repr

/-- The phase and the handle in the status. -/
def ShipSnapshot.verdict (snapshot : ShipSnapshot) : String × Option String :=
  match snapshot.status with
  | none => ("", none)
  | some status => (status.phase, status.handle)

/-- The agent has nothing to do any more. -/
def terminal (verdict : String × Option String) : Bool :=
  verdict.1 = "Ready" || verdict.1 = "Failed"

/-! ## The agent -/

inductive VmSnapshotMode
  | online
  | offline
  deriving DecidableEq, Repr

def parseMode : Option String → Except String VmSnapshotMode
  | none => .ok .online
  | some mode =>
    if mode = "Online" then .ok .online
    else if mode = "Offline" then .ok .offline
    else .error ("spec.mode must be 'Online' or 'Offline', got '" ++ mode ++ "'")

def allVolumeSnapshotsReady (refs : List ShipSnapshotVolumeRef) : Bool :=
  !refs.isEmpty && refs.all (·.readyToUse.getD false)

def failed (message : String) : ShipSnapshotStatus := { phase := "Failed", error := some message }

/-- The status that the agent of `node` writes.  It is answered with the Ship, if there is one, and
with the handle of the snapshot it makes, which then is in the status.  A reconcile that ends with
an error writes nothing. -/
def reconcile (node : String) (snapshot : ShipSnapshot) (ship : Option Ship)
    (create : Except String String) : Option ShipSnapshotStatus := do
  let volumeSnapshots := (snapshot.status.map (·.volumeSnapshots)).getD []
  let spec ← snapshot.spec
  if terminal snapshot.verdict then none
  else if Text.trim spec.shipName = "" then failed "spec.shipName must not be empty"
  else if ship.bind (·.nodeName) ≠ some node then none
  else if spec.includeVolumes.getD false && snapshot.status.isNone then none
  else if spec.includeVolumes.getD false && !volumeSnapshots.isEmpty &&
      !allVolumeSnapshotsReady volumeSnapshots then
    some { phase := "Capturing", volumeSnapshots }
  else
    let _ ← (parseMode spec.mode).toOption
    let shipId ← ship.bind (·.objectMeta.bind (·.uid))
    match create with
    | .ok handle => some {
        phase := "Ready"
        handle := some handle
        sourceShipId := some shipId
        volumeSnapshots }
    | .error message => failed message

/-- The snapshot that is deleted with the object. -/
def cleanup (snapshot : ShipSnapshot) : Option String := do
  let status ← snapshot.status
  let handle ← status.handle.filter (· ≠ "")
  let _ ← status.sourceShipId.filter (· ≠ "")
  return handle

/-- The agent writes nothing when the phase is final, and a handle in the phase `Ready` only. -/
lemma reconcile_eq_some {node : String} {snapshot : ShipSnapshot} {ship : Option Ship}
    {create : Except String String} {status : ShipSnapshotStatus}
    (h : reconcile node snapshot ship create = some status) :
    terminal snapshot.verdict = false ∧ (status.handle.isSome → status.phase = "Ready") := by
  simp only [reconcile, Option.bind_eq_bind, Option.bind_eq_some_iff] at h
  obtain ⟨spec, -, h⟩ := h
  obtain ⟨hterminal, h⟩ := Option.ite_none_left_eq_some.1 h
  refine ⟨Bool.eq_false_iff.2 hterminal, ?_⟩
  split_ifs at h
  · cases h
    exact nofun
  · cases h
    exact nofun
  · obtain ⟨_, -, h⟩ := Option.bind_eq_some_iff.1 h
    obtain ⟨shipId, -, h⟩ := Option.bind_eq_some_iff.1 h
    cases create with
    | ok handle =>
      cases h
      exact fun _ => rfl
    | error message =>
      cases h
      exact nofun

/-! ## The controller of the volumes -/

/-- The status the controller writes when it has found `refs`. -/
def patchStatusVolumeRefs (snapshot : ShipSnapshot) (refs : List ShipSnapshotVolumeRef) :
    Option ShipSnapshotStatus :=
  if (snapshot.spec.bind (·.includeVolumes)).getD false &&
      snapshot.status.map (·.volumeSnapshots) ≠ some refs then
    let status := snapshot.status.getD {}
    some { status with
      volumeSnapshots := refs
      phase := if status.phase = "" then "Pending" else status.phase }
  else none

/-- The controller keeps the handle, and the phase unless there is none. -/
lemma patchStatusVolumeRefs_keeps {snapshot : ShipSnapshot} {refs : List ShipSnapshotVolumeRef}
    {status : ShipSnapshotStatus} (h : patchStatusVolumeRefs snapshot refs = some status) :
    (status.phase, status.handle) = snapshot.verdict ∨ snapshot.verdict.1 = "" ∧
      (status.phase, status.handle) = ("Pending", snapshot.verdict.2) := by
  obtain ⟨-, h⟩ := Option.ite_none_right_eq_some.1 h
  cases h
  unfold ShipSnapshot.verdict
  cases snapshot.status with
  | none => exact .inr ⟨rfl, rfl⟩
  | some status =>
    by_cases hphase : status.phase = ""
    · exact .inr ⟨hphase, by simp [hphase]⟩
    · exact .inl (by simp [hphase])

/-! ## Runs -/

inductive Event
  /-- A user changes the spec. -/
  | edit (spec : Option ShipSnapshotSpec)
  /-- The agent of a node reconciles a version, up to its status write. -/
  | reconcile (node : String) (version : ℕ) (ship : Option Ship) (create : Except String String)
  /-- A status write of an agent is stored, or fails. -/
  | write (index : ℕ) (stored : Bool)
  /-- The controller of the volumes writes the status of a version. -/
  | fanOut (version : ℕ) (refs : List ShipSnapshotVolumeRef) (stored : Bool)
  /-- The agent cleans up after a version that is deleted. -/
  | cleanup (version : ℕ)

structure State where
  /-- The stored object. -/
  current : ShipSnapshot
  /-- What was stored before, the newest first. -/
  past : List ShipSnapshot := []
  /-- The status writes of agents under way. -/
  writing : List ShipSnapshotStatus := []
  /-- The snapshots made so far, the newest first. -/
  created : List String := []
  /-- Those of them that have not been deleted. -/
  live : List String := []

namespace State

/-- A version of the object; the stored one has number 0. -/
def version (s : State) (n : ℕ) : ShipSnapshot := (s.current :: s.past).getD n s.current

def store (s : State) (snapshot : ShipSnapshot) : State :=
  { s with current := snapshot, past := s.current :: s.past }

def writeStatus (s : State) (status : ShipSnapshotStatus) (stored : Bool) : State :=
  if stored then s.store { s.current with status := some status } else s

def step (s : State) : Event → State
  | .edit spec => s.store { s.current with spec }
  | .reconcile node version ship create =>
    let status := reconcile node (s.version version) ship create
    let handle := status.bind (·.handle)
    { s with
      writing := s.writing ++ status.toList
      created := handle.toList ++ s.created
      live := handle.toList ++ s.live }
  | .write index stored =>
    match s.writing[index]? with
    | some status => { s with writing := s.writing.eraseIdx index }.writeStatus status stored
    | none => s
  | .fanOut version refs stored =>
    match patchStatusVolumeRefs (s.version version) refs with
    | some status => s.writeStatus status stored
    | none => s
  | .cleanup version => { s with live := s.live.filter (some · ≠ cleanup (s.version version)) }

/-- Everybody works on the stored version, one reconcile at a time, and the handle of a new snapshot
does get written. -/
def Undisturbed (s : State) : Event → Prop
  | .reconcile _ version _ _ => version = 0 ∧ s.writing = []
  | .write index stored => stored = false → (s.writing[index]?.bind (·.handle)) = none
  | .fanOut version _ _ => version = 0
  | .edit _ | .cleanup _ => True

/-- At most one snapshot was made; unless it is deleted, its handle is in the status or on its way
there. -/
def Recorded (s : State) : Prop :=
  s.created.length ≤ 1 ∧ ∀ handle ∈ s.live,
    s.current.verdict.2 = some handle ∨ ∃ status ∈ s.writing, status.handle = some handle

/-- A step leaves a final phase, and the handle, as they are. -/
def Final (s : State) (e : Event) : Prop :=
  terminal s.current.verdict → (s.step e).current.verdict = s.current.verdict

structure Sound (s : State) : Prop where
  /-- At most one write is under way, and only while there is no outcome. -/
  writing : s.writing = [] ∨ ∃ status, s.writing = [status] ∧
    (status.handle.isSome → status.phase = "Ready") ∧ terminal s.current.verdict = false
  ready : s.current.verdict.2.isSome → s.current.verdict.1 = "Ready"
  created : s.created = (s.current.verdict.2.or (s.writing.head?.bind (·.handle))).toList
  live : ∀ handle ∈ s.live, handle ∈ s.created

variable {s : State}

lemma Sound.recorded (h : s.Sound) : s.Recorded := by
  refine ⟨h.created ▸ Option.length_toList_le, fun handle hlive => ?_⟩
  have hmem := h.live handle hlive
  rw [h.created, Option.mem_toList, Option.or_eq_some_iff] at hmem
  refine hmem.imp id fun ⟨_, hhead⟩ => ?_
  obtain ⟨status, hstatus, hhandle⟩ := Option.bind_eq_some_iff.1 hhead
  exact ⟨status, List.mem_of_mem_head? hstatus, hhandle⟩

lemma Sound.handle_eq_none (h : s.Sound) (hphase : terminal s.current.verdict = false) :
    s.current.verdict.2 = none := by
  by_contra hsome
  simp [terminal, h.ready (Option.isSome_iff_ne_none.2 hsome)] at hphase

/-- Users and the controller of the volumes do not touch an outcome. -/
lemma Sound.keep (h : s.Sound) {snapshot : ShipSnapshot} {past : List ShipSnapshot}
    (hverdict : snapshot.verdict = s.current.verdict ∨
      s.current.verdict.1 = "" ∧ snapshot.verdict = ("Pending", s.current.verdict.2)) :
    Sound { s with current := snapshot, past } := by
  rcases hverdict with hsame | ⟨hempty, hpending⟩
  · exact ⟨hsame ▸ h.writing, hsame ▸ h.ready, hsame ▸ h.created, h.live⟩
  have hnone := h.handle_eq_none (by simp [terminal, hempty])
  rw [hnone] at hpending
  refine ⟨h.writing.imp id ?_, ?_, ?_, h.live⟩
  · rintro ⟨status, hstatus, hready, -⟩
    exact ⟨status, hstatus, hready, by rw [hpending]; rfl⟩
  · rw [hpending]
    exact nofun
  · rw [h.created, hnone, hpending]

lemma Sound.reconcile (h : s.Sound) (hidle : s.writing = []) (node : String) (ship : Option Ship)
    (create : Except String String) : (s.step (.reconcile node 0 ship create)).Sound := by
  rw [step, show s.version 0 = s.current from rfl]
  cases hstatus : ShipSnapshots.reconcile node s.current ship create with
  | none => simpa using h
  | some status =>
    obtain ⟨hphase, hready⟩ := reconcile_eq_some hstatus
    have hnone := h.handle_eq_none hphase
    have hcreated : s.created = [] := by rw [h.created, hnone, hidle]; rfl
    refine ⟨.inr ⟨status, by simp [hidle], hready, hphase⟩, h.ready, ?_, ?_⟩
    · simp [hidle, hnone, hcreated]
    · simp only [List.mem_append]
      exact fun handle => .imp_right (h.live handle)

lemma Sound.write (h : s.Sound) {index : ℕ} {stored : Bool}
    (he : s.Undisturbed (.write index stored)) : (s.step (.write index stored)).Sound := by
  rw [step]
  split
  next status hstatus =>
    rcases h.writing with hnil | ⟨status', hsingle, hready, hphase⟩
    · simp [hnil] at hstatus
    obtain ⟨rfl, rfl⟩ : index = 0 ∧ status' = status := by
      rw [hsingle, List.getElem?_singleton] at hstatus
      obtain ⟨rfl, hstatus⟩ := Option.ite_none_right_eq_some.1 hstatus
      exact ⟨rfl, Option.some.inj hstatus⟩
    have hcreated : s.created = status'.handle.toList := by
      rw [h.created, h.handle_eq_none hphase, hsingle]
      rfl
    cases stored with
    | true =>
      refine ⟨.inl (by rw [hsingle]; rfl), hready, ?_, h.live⟩
      simp [writeStatus, store, ShipSnapshot.verdict, hsingle, hcreated]
    | false =>
      have hnone : status'.handle = none := by simpa [hstatus] using he rfl
      refine ⟨.inl (by rw [hsingle]; rfl), h.ready, ?_, h.live⟩
      simp [writeStatus, h.handle_eq_none hphase, hsingle, hcreated, hnone]
  · exact h

lemma Sound.step (h : s.Sound) (e : Event) (he : s.Undisturbed e) : (s.step e).Sound := by
  cases e with
  | edit spec => exact h.keep (.inl rfl)
  | reconcile node version ship create =>
    obtain ⟨rfl, hidle⟩ := he
    exact h.reconcile hidle node ship create
  | write index stored => exact h.write he
  | fanOut version refs stored =>
    obtain rfl : version = 0 := he
    rw [State.step]
    split
    next status hstatus =>
      rw [writeStatus]
      split
      · exact h.keep (patchStatusVolumeRefs_keeps hstatus)
      · exact h
    · exact h
  | cleanup version =>
    exact ⟨h.writing, h.ready, h.created, fun h' hmem => h.live h' (List.mem_of_mem_filter hmem)⟩

lemma Sound.final (h : s.Sound) (e : Event) (he : s.Undisturbed e) : s.Final e := by
  intro hterminal
  cases e with
  | edit spec => rfl
  | reconcile node version ship create => rfl
  | cleanup version => rfl
  | write index stored =>
    rcases h.writing with hnil | ⟨_, _, _, hphase⟩
    · simp [State.step, hnil]
    · exact nomatch hterminal.symm.trans hphase
  | fanOut version refs stored =>
    obtain rfl : version = 0 := he
    rw [State.step]
    split
    next status hstatus =>
      rw [writeStatus]
      split
      · refine (patchStatusVolumeRefs_keeps hstatus).resolve_right fun ⟨hempty, _⟩ => ?_
        have hempty : s.current.verdict.1 = "" := hempty
        simp [terminal, hempty] at hterminal
      · rfl
    · rfl

/-- If everybody works on the stored version, one reconcile at a time, and the handle of a new
snapshot gets written, then the machine is captured at most once, the handle is recorded until the
snapshot is deleted, and a final phase stays with its handle. -/
theorem captured_once (spec : Option ShipSnapshotSpec) (events : List Event)
    (h : Run.AllSteps step Undisturbed { current := { spec } } events) :
    Run.AllStates step Recorded { current := { spec } } events ∧
      Run.AllSteps step Final { current := { spec } } events := by
  have hstart : Sound { current := { spec } } := ⟨.inl rfl, nofun, rfl, nofun⟩
  exact ⟨Run.AllStates.of_invariant (fun _ e hs he => hs.step e he) (fun _ hs => hs.recorded) _ _
      hstart h,
    Run.AllSteps.of_invariant (fun _ e hs he => hs.step e he) (fun _ e hs he => hs.final e he) _ _
      hstart h⟩

/-- A snapshot without volumes. -/
def withoutVolumes : Option ShipSnapshotSpec := some { shipName := "web" }

def runningShip : Option Ship :=
  some { objectMeta := some { uid := some "u1" }, spec := some { nodeName := some "node-a" } }

def captureOnce : List Event := [.reconcile "node-a" 0 runningShip (.ok "snap-1"), .write 0 true]

theorem captured_once_plain :
    (Run.exec step { current := { spec := withoutVolumes } } captureOnce).created = ["snap-1"] ∧
      Run.AllStates step Recorded { current := { spec := withoutVolumes } } captureOnce := by
  refine ⟨by decide +kernel, (captured_once withoutVolumes captureOnce ?_).1⟩
  exact ⟨⟨rfl, rfl⟩, nofun, trivial⟩

/-- The object is changed before the agent reconciles its first version, and the second version is
reconciled after it. -/
def editedBefore : List Event :=
  [.edit withoutVolumes, .reconcile "node-a" 1 runningShip (.ok "snap-1"), .write 0 true,
    .reconcile "node-a" 1 runningShip (.ok "snap-2"), .write 0 true]

theorem captured_twice :
    let s := Run.exec step { current := { spec := withoutVolumes } } editedBefore
    s.created = ["snap-2", "snap-1"] ∧ s.live = ["snap-2", "snap-1"] ∧
      s.current.verdict = ("Ready", some "snap-2") := by
  decide +kernel

end State

end Tugboat.ShipSnapshots
