-- The frame buffers of a session (`session-store-helpers.ts`): frames go to the live buffer, or
-- to the paused one while capture is paused; what is dropped is always the oldest frame of both.
import Bbcom.CaptureAccounting
import Bbcom.DataFrame

open bbcom.js bbcom.serial bbcom.ordered_map

namespace bbcom.capture

def SESSION_FRAME_TRIM_THRESHOLD : Nat := 500
def MAX_SESSION_FRAME_BYTES : Nat := 64 * 1024 * 1024
def MAX_GLOBAL_FRAME_BYTES : Nat := 256 * 1024 * 1024

/-- The part of a session that its capture works on. -/
structure SerialSession where
  id : String
  frames : List DataFrame := []
  pausedFrames : List DataFrame := []
  capturePaused : Bool := false
  txBytes : Nat := 0
  rxBytes : Nat := 0
  txFrames : Nat := 0
  rxFrames : Nat := 0
  droppedBytes : Nat := 0
  deriving DecidableEq

/-- Everything that a session retains, the oldest frame first. -/
def SerialSession.contents (s : SerialSession) : List DataFrame := s.frames ++ s.pausedFrames

def frameBuffersByteLength (s : SerialSession) : Nat :=
  framesByteLength s.frames + framesByteLength s.pausedFrames

/-- Frames that a trim took away, and their bytes. -/
@[ext]
structure FrameDrop where
  droppedFrames : Nat := 0
  droppedBytes : Nat := 0
  deriving DecidableEq

def FrameDrop.add (drop : FrameDrop) (frame : DataFrame) : FrameDrop where
  droppedFrames := drop.droppedFrames + 1
  droppedBytes := drop.droppedBytes + frame.data.length

structure FrameBufferTrimResult extends FrameDrop where
  retainedBytes : Int
  deriving DecidableEq

/-! ## Taking the oldest frame -/

/-- `session.frames.shift()`. -/
def shiftLiveFrame (s : SerialSession) : Option (DataFrame × SerialSession) :=
  match s.frames with
  | [] => none
  | frame :: frames => some (frame, { s with frames })

/-- Live rows are older than paused ones. -/
def shiftOldestSessionFrame (s : SerialSession) : Option (DataFrame × SerialSession) :=
  match s.frames with
  | frame :: frames => some (frame, { s with frames })
  | [] =>
    match s.pausedFrames with
    | frame :: pausedFrames => some (frame, { s with pausedFrames })
    | [] => none

/-- The loop over `count` frames of a count trim. -/
def shiftFrames : Nat → SerialSession → FrameDrop → SerialSession × FrameDrop
  | 0, s, drop => (s, drop)
  | count + 1, s, drop =>
    match shiftOldestSessionFrame s with
    | none => (s, drop)
    | some (frame, s') => shiftFrames count s' (drop.add frame)

/-- The loop of a byte trim. Each round takes a frame, so as many rounds as there are frames
are enough. -/
def shiftToBytes (shift : SerialSession → Option (DataFrame × SerialSession)) (maxBytes : Int) :
    Nat → SerialSession → Int → FrameDrop → SerialSession × Int × FrameDrop
  | 0, s, retainedBytes, drop => (s, retainedBytes, drop)
  | rounds + 1, s, retainedBytes, drop =>
    if retainedBytes ≤ maxBytes then (s, retainedBytes, drop)
    else
      match shift s with
      | none => (s, retainedBytes, drop)
      | some (frame, s') =>
        shiftToBytes shift maxBytes rounds s' (retainedBytes - frame.data.length) (drop.add frame)

/-! ## Appending and flushing -/

/-- `target.push(frame)`. -/
def pushFrame (s : SerialSession) (frame : DataFrame) : SerialSession :=
  if s.capturePaused then { s with pausedFrames := s.pausedFrames ++ [frame] }
  else { s with frames := s.frames ++ [frame] }

/-- The length of the buffer that takes new frames. -/
def targetLength (s : SerialSession) : Nat :=
  if s.capturePaused then s.pausedFrames.length else s.frames.length

def countFrame (s : SerialSession) (frame : DataFrame) : SerialSession :=
  match frame.direction with
  | .TX => { s with txBytes := s.txBytes + frame.data.length, txFrames := s.txFrames + 1 }
  | .RX => { s with rxBytes := s.rxBytes + frame.data.length, rxFrames := s.rxFrames + 1 }

/-- Behind a push that went past the threshold: down to `maxFrames` of the buffer, but from the
front of the session. -/
def trimToCount (pushed : SerialSession) (maxFrames : Nat) : SerialSession × FrameDrop :=
  if targetLength pushed > maxFrames + SESSION_FRAME_TRIM_THRESHOLD then
    shiftFrames (targetLength pushed - maxFrames) pushed {}
  else (pushed, {})

def appendFrameToSession (s : SerialSession) (frame : DataFrame) (maxFrames : Nat)
    (currentBytes maxBytes : Int) : SerialSession × FrameBufferTrimResult :=
  let counted := trimToCount (pushFrame s frame) maxFrames
  let trimmed := shiftToBytes shiftOldestSessionFrame maxBytes counted.1.contents.length counted.1
    (currentBytes + frame.data.length - counted.2.droppedBytes) counted.2
  (countFrame trimmed.1 frame, { toFrameDrop := trimmed.2.2, retainedBytes := trimmed.2.1 })

def flushPausedFramesToLive (s : SerialSession) (maxFrames : Nat) (currentBytes maxBytes : Int) :
    SerialSession × FrameBufferTrimResult :=
  if s.pausedFrames.isEmpty then (s, { retainedBytes := currentBytes })
  else
    let live := { s with frames := s.frames ++ s.pausedFrames, pausedFrames := [] }
    let excess := if live.frames.length > maxFrames + SESSION_FRAME_TRIM_THRESHOLD then
      live.frames.length - maxFrames else 0
    let removed := live.frames.take excess
    let (trimmed, retainedBytes, drop) := shiftToBytes shiftLiveFrame maxBytes
      (live.frames.length - excess) { live with frames := live.frames.drop excess }
      (currentBytes - framesByteLength removed) ⟨removed.length, framesByteLength removed⟩
    (trimmed, { toFrameDrop := drop, retainedBytes })

def resetSessionFrames (s : SerialSession) : SerialSession :=
  { s with
    frames := []
    pausedFrames := []
    capturePaused := false
    txBytes := 0
    rxBytes := 0
    txFrames := 0
    rxFrames := 0 }

def sessionHasClearableCapture (s : SerialSession) : Bool :=
  !s.frames.isEmpty || !s.pausedFrames.isEmpty || decide (s.txBytes > 0) ||
    decide (s.rxBytes > 0) || decide (s.txFrames > 0) || decide (s.rxFrames > 0)

/-! ## The limit over all sessions -/

/-- `Number.isFinite(timestamp) ? timestamp : 0`. -/
def frameTime (frame : DataFrame) : ℚ :=
  if h : frame.timestamp.isFinite then FiniteNumber.toRat ⟨frame.timestamp, h⟩ else 0

/-- The session whose oldest frame is the oldest of all; of equal ones, the first. -/
def oldestSession (sessions : List SerialSession) : Option (String × ℚ) :=
  sessions.foldl
    (fun oldest s =>
      match s.contents.head? with
      | none => oldest
      | some candidate =>
        if oldest.any (fun o => decide (o.2 ≤ frameTime candidate)) then oldest
        else some (s.id, frameTime candidate))
    none

structure GlobalFrameTrimResult where
  sessions : List SerialSession
  retainedBytes : Int
  dropped : OrderedMap String FrameDrop

/-- `oldestBuffer.shift()` on the session of that id. -/
def shiftSession (sessions : List SerialSession) (id : String) :
    Option (DataFrame × List SerialSession) :=
  match sessions.find? (·.id = id) with
  | none => none
  | some s =>
    (shiftOldestSessionFrame s).map fun (frame, s') =>
      (frame, modifyKey SerialSession.id id (fun _ => s') sessions)

/-- The session that gives up its oldest frame next, what it gives up, and what is left. -/
def shiftOldest (sessions : List SerialSession) :
    Option (String × DataFrame × List SerialSession) :=
  (oldestSession sessions).bind fun oldest =>
    (shiftSession sessions oldest.1).map fun shifted => (oldest.1, shifted)

def dropOf (dropped : OrderedMap String FrameDrop) (id : String) : FrameDrop :=
  (dropped.get id).getD {}

/-- Drop the oldest frame of all sessions until the bytes fit. As many rounds as there are
frames, and one to see that there are none, are enough. -/
def trimSessions (maxBytes : Int) :
    Nat → List SerialSession → Int → OrderedMap String FrameDrop → GlobalFrameTrimResult
  | 0, sessions, retainedBytes, dropped => ⟨sessions, retainedBytes, dropped⟩
  | rounds + 1, sessions, retainedBytes, dropped =>
    if retainedBytes ≤ maxBytes then ⟨sessions, retainedBytes, dropped⟩
    else
      match shiftOldest sessions with
      | none => ⟨sessions, 0, dropped⟩
      | some (id, frame, sessions') =>
        trimSessions maxBytes rounds sessions' (retainedBytes - frame.data.length)
          (dropped.set id ((dropOf dropped id).add frame))

def framesInAll (sessions : List SerialSession) : Nat :=
  (sessions.map (·.contents.length)).sum

def trimSessionsToGlobalByteLimit (sessions : List SerialSession) (currentBytes maxBytes : Int) :
    GlobalFrameTrimResult :=
  trimSessions maxBytes (framesInAll sessions + 1) sessions currentBytes []

end bbcom.capture
