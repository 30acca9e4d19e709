-- Runs of the capture: what one event does to the store, and the record that an observer of the
-- store keeps of each session.
import Bbcom.CaptureBooks
import Bbcom.Lib.Runs

open bbcom.js bbcom.serial bbcom.ordered_map

namespace bbcom.capture

open SessionStore List

/-- `crypto.randomUUID()`: an id that is not in use. -/
structure RandomUuid where
  randomUUID : List String → String
  fresh : ∀ used, randomUUID used ∉ used

inductive CaptureEvent
  | createSession (uuid : RandomUuid) (runtimeOnly : Bool)
  | removeSession (sessionId : String)
  | undoLastRemovedSession (admitted : Bool)
  | replaceWorkspaceSessions (entries : List HydratedWorkspaceSession)
  | setMaxBufferFrames (value : JsNumber)
  | addFrame (sessionId : String) (frame : CapturedFrame) (createId : String) (now : JsNumber)
      (admitted : Bool)
  | updateDroppedBytes (sessionId : String) (total : JsNumber)
  | clearFrames (sessionId : String) (admitted : Bool)
  | setCapturePaused (sessionId : String) (paused admitted : Bool)

namespace SessionStore

variable (store : SessionStore)

def handle : CaptureEvent → SessionStore × List CaptureChange
  | .createSession uuid runtimeOnly =>
    (store.addSession (uuid.randomUUID (sessionIds store.sessions)) runtimeOnly, [])
  | .removeSession sessionId => (store.removeSession sessionId, [])
  | .undoLastRemovedSession admitted => (store.undoLastRemovedSession admitted, [])
  | .replaceWorkspaceSessions entries => (store.replaceWorkspaceSessions entries, [])
  | .setMaxBufferFrames value => ({ store with maxBufferFrames := clampBufferFrames value }, [])
  | .addFrame sessionId frame createId now admitted =>
    store.addFrame sessionId frame createId now admitted
  | .updateDroppedBytes sessionId total => (store.updateDroppedBytes sessionId total, [])
  | .clearFrames sessionId admitted => store.clearFrames sessionId admitted
  | .setCapturePaused sessionId paused admitted =>
    store.setCapturePaused sessionId paused admitted

/-- The sessions that an event initializes. -/
def joins : CaptureEvent → List SerialSession
  | .createSession uuid _ => [{ id := uuid.randomUUID (sessionIds store.sessions) }]
  | .undoLastRemovedSession admitted =>
    match store.lastDeletedSession with
    | none => []
    | some snapshot =>
      if (store.findSession snapshot.session.id).isSome || !admitted then []
      else [cloneStoppedSession snapshot.session]
  | .replaceWorkspaceSessions entries =>
    if (entries.map (·.id)).Nodup ∧ ∀ entry ∈ entries, entry.id ≠ "" then
      entries.map fun entry => cloneStoppedSession (hydratedSession entry)
    else []
  | _ => []

end SessionStore

/-! ## Records -/

def FrameDrop.plus (a b : FrameDrop) : FrameDrop where
  droppedFrames := a.droppedFrames + b.droppedFrames
  droppedBytes := a.droppedBytes + b.droppedBytes

/-- What an observer of the store knows of one session: the frames captured since the last
clear, the drops reported since then, and the bytes reported as dropped since it joined. A
session that joins with frames has captured them. -/
structure CaptureRecord where
  captured : List DataFrame := []
  dropped : FrameDrop := {}
  droppedInAll : Nat := 0

namespace CaptureRecord

variable (record : CaptureRecord)

def addFrame (frame : DataFrame) : CaptureRecord :=
  { record with captured := record.captured ++ [frame] }

def drop (dropped : FrameDrop) : CaptureRecord :=
  { record with
    dropped := record.dropped.plus dropped
    droppedInAll := record.droppedInAll + dropped.droppedBytes }

def clear : CaptureRecord := { record with captured := [], dropped := {} }

def observe (sessionId : String) : CaptureChange → CaptureRecord
  | .frameAdded id frame => if id = sessionId then record.addFrame frame else record
  | .captureTrimmed id droppedFrames droppedBytes =>
    if id = sessionId then record.drop ⟨droppedFrames, droppedBytes⟩ else record
  | .framesCleared id => if id = sessionId then record.clear else record
  | .captureCleared _ => record

/-- The frames that the session retains are those captured since the last clear, less the
drops that were reported since then, which took the oldest. -/
def Accounts (retained : List DataFrame) : Prop :=
  ∃ dropped, record.captured = dropped ++ retained ∧
    record.dropped = ⟨dropped.length, framesByteLength dropped⟩

@[simp] theorem drop_nil : record.drop {} = record := rfl

theorem drop_drop (a b : FrameDrop) : (record.drop a).drop b = record.drop (a.plus b) := by
  simp [drop, FrameDrop.plus, Nat.add_assoc]

variable {record}

theorem Accounts.addFrame {retained : List DataFrame} (h : record.Accounts retained)
    (frame : DataFrame) : (record.addFrame frame).Accounts (retained ++ [frame]) := by
  obtain ⟨dropped, hcaptured, hdropped⟩ := h
  refine ⟨dropped, ?_, hdropped⟩
  simp [CaptureRecord.addFrame, hcaptured]

theorem Accounts.drop {retained rest dropped : List DataFrame} (h : record.Accounts retained)
    (hrest : retained = dropped ++ rest) :
    (record.drop ⟨dropped.length, framesByteLength dropped⟩).Accounts rest := by
  obtain ⟨earlier, hcaptured, hdropped⟩ := h
  refine ⟨earlier ++ dropped, ?_, ?_⟩
  · simp [CaptureRecord.drop, hcaptured, hrest]
  · simp [CaptureRecord.drop, FrameDrop.plus, hdropped]

theorem Accounts.clear : record.clear.Accounts [] := ⟨[], rfl, rfl⟩

end CaptureRecord

variable {drops : OrderedMap String FrameDrop}

theorem trimEvents_eq (hpositive : ∀ entry ∈ drops, 0 < entry.2.droppedFrames) :
    trimEvents drops = drops.map fun entry =>
      .captureTrimmed entry.1 entry.2.droppedFrames entry.2.droppedBytes := by
  unfold trimEvents
  congr 1
  apply filter_eq_self.2
  intro entry hentry
  simpa using hpositive entry hentry

/-- What is heard of the drops of a trim is what the books of the trim say. -/
theorem observe_trimEvents (hkeys : (drops.map Prod.fst).Nodup)
    (hpositive : ∀ entry ∈ drops, 0 < entry.2.droppedFrames) (sessionId : String)
    (record : CaptureRecord) :
    (trimEvents drops).foldl (CaptureRecord.observe · sessionId) record =
      record.drop (dropOf drops sessionId) := by
  rw [trimEvents_eq hpositive, foldl_map]
  clear hpositive
  induction drops generalizing record with
  | nil => rfl
  | cons entry drops ih =>
    rw [map_cons, nodup_cons] at hkeys
    rw [foldl_cons, ih hkeys.2]
    unfold dropOf
    rw [OrderedMap.get_cons]
    by_cases hid : entry.1 = sessionId
    · subst hid
      have habsent := OrderedMap.get_eq_none.2 hkeys.1
      simp [CaptureRecord.observe, habsent]
    · simp [CaptureRecord.observe, hid]

/-! ## The machine -/

/-- The store and what is known of each session. -/
structure CaptureRun where
  store : SessionStore := {}
  records : String → CaptureRecord := fun _ => {}

namespace CaptureRun

/-- The record of a session that joins starts anew. -/
def joinRecord (joins : List SerialSession) (sessionId : String) (record : CaptureRecord) :
    CaptureRecord :=
  match joins.find? (·.id = sessionId) with
  | some session => { captured := session.contents }
  | none => record

def step (state : CaptureRun) (event : CaptureEvent) : CaptureRun where
  store := (state.store.handle event).1
  records := fun sessionId =>
    (state.store.handle event).2.foldl (CaptureRecord.observe · sessionId)
      (joinRecord (state.store.joins event) sessionId (state.records sessionId))

end CaptureRun

end bbcom.capture
