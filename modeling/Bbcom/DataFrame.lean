-- The frames that a session captures (`serial.ts`, `capture.ts`).
import Bbcom.Js

open bbcom.js

namespace bbcom.serial

inductive Direction
  | TX
  | RX
  deriving DecidableEq

/-- Where a frame came into the session. -/
inductive CaptureOrigin
  | serialRx
  | serialTx
  | mcumgrTrace
  deriving DecidableEq

inductive TxStatus
  | complete
  | partialUnknown
  deriving DecidableEq

structure DataFrame where
  id : String
  direction : Direction
  timestamp : JsNumber
  data : Uint8Array
  captureSeq : Option Nat
  origin : Option CaptureOrigin
  contentVersion : Option Nat
  omittedBytes : Option JsNumber
  txStatus : Option TxStatus
  requestedBytes : Option JsNumber
  deriving DecidableEq

/-- The bytes of the frames in all. -/
def framesByteLength (frames : List DataFrame) : Nat :=
  (frames.map fun frame => frame.data.length).sum

@[simp] theorem framesByteLength_nil : framesByteLength [] = 0 := rfl

@[simp] theorem framesByteLength_cons (frame : DataFrame) (frames : List DataFrame) :
    framesByteLength (frame :: frames) = frame.data.length + framesByteLength frames := rfl

@[simp] theorem framesByteLength_append (front back : List DataFrame) :
    framesByteLength (front ++ back) = framesByteLength front + framesByteLength back := by
  simp [framesByteLength]

end bbcom.serial
