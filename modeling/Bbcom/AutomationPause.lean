-- The pauses of the automation of a session (`automation-bridge.ts`): the triggers that answer what
-- comes in and the macro that sends step by step. Each event is what runs in one piece, between two
-- awaits.
import Bbcom.Lib.Histories
import Bbcom.Lib.Runs

open bbcom.histories bbcom.runs

namespace bbcom.automation

/-! ## What a pause promises -/

inductive Happening
  | sendStarted (data : String) (isHex : Bool)
  | sendSettled
  /-- A call of `pause` is fulfilled. -/
  | pauseResolved
  | resumed
  deriving DecidableEq, Repr

/-- A pause has been fulfilled, and no `resume` came after it. -/
def Held : List Happening → Prop
  | [] => False
  | .pauseResolved :: _ => True
  | .resumed :: _ => False
  | _ :: past => Held past

def InFlight : List Happening → Prop
  | [] => False
  | .sendStarted _ _ :: _ => True
  | .sendSettled :: _ => False
  | _ :: past => InFlight past

/-- Under a pause no send starts, and at its begin none is in flight. -/
def Allowed (past : List Happening) : Happening → Prop
  | .sendStarted _ _ => ¬Held past
  | .pauseResolved => ¬InFlight past
  | _ => True

/-- The pause is exclusive throughout a history. -/
def Exclusive (history : List Happening) : Prop := Lawful Allowed history

/-! ## The macro runner -/

def MIN_DELAY_MS : Nat := 0

def MAX_DELAY_MS : Nat := 3600000

/-- `none` stands for a number that is not finite. -/
def clampDelayMs (value : Option ℚ) : Nat :=
  match value with
  | none => 0
  | some value => max MIN_DELAY_MS (min MAX_DELAY_MS ⌊value⌋.toNat)

structure MacroStep where
  data : String
  isHex : Bool
  delayMs : Option ℚ
  deriving DecidableEq

/-- How the promise of a send settles. -/
inductive SendOutcome
  | sent (ok : Bool)
  | threw
  deriving DecidableEq, Repr

/-- The await at which `run` stands, with the steps from the one at hand on. -/
inductive RunStage
  | idle
  /-- In `waitWhilePaused`, among the `resumeWaiters`. -/
  | waitingResume (steps : List MacroStep)
  /-- Behind `waitWhilePaused`, the continuation not yet run. -/
  | checked (steps : List MacroStep)
  | sending (steps : List MacroStep)
  | sent (steps : List MacroStep) (outcome : SendOutcome)
  /-- In `cancellableDelay`, before the timer. -/
  | delaying (steps : List MacroStep)
  | delayed (steps : List MacroStep)
  deriving DecidableEq

/-- A call of `pause` that waits is named by a number. -/
structure MacroRunnerBridge where
  running : Bool := false
  aborted : Bool := false
  paused : Bool := false
  sendInFlight : Bool := false
  pauseWaiters : List Nat := []
  stage : RunStage := .idle
  log : List Happening := []

namespace MacroRunnerBridge

variable (s : MacroRunnerBridge)

def record (happening : Happening) : MacroRunnerBridge := { s with log := happening :: s.log }

/-- `resolveWaiters(this.resumeWaiters)`. -/
def resolveResumeWaiters : MacroRunnerBridge :=
  match s.stage with
  | .waitingResume steps => { s with stage := .checked steps }
  | _ => s

/-- `resolveWaiters(this.pauseWaiters)`. -/
def resolvePauseWaiters : MacroRunnerBridge :=
  { s with
    pauseWaiters := []
    log := List.replicate s.pauseWaiters.length .pauseResolved ++ s.log }

def abort : MacroRunnerBridge :=
  if s.aborted then s
  else
    let s := { s with aborted := true, paused := false }.resolveResumeWaiters
    match s.stage with
    | .delaying steps => { s with stage := .delayed steps }
    | _ => s

def pause (call : Nat) (signalAborted : Bool) : MacroRunnerBridge :=
  if signalAborted then { s with paused := false }
  else if !s.sendInFlight then { s with paused := true }.record .pauseResolved
  else { s with paused := true, pauseWaiters := call :: s.pauseWaiters }

/-- The signal of a call of `pause` that waits is aborted. -/
def pauseAborted (call : Nat) : MacroRunnerBridge :=
  if call ∈ s.pauseWaiters then
    { s with pauseWaiters := s.pauseWaiters.erase call, paused := false }
  else s

def resume : MacroRunnerBridge :=
  let s := s.record .resumed
  if !s.paused then s else { s with paused := false }.resolveResumeWaiters

/-- `run` returns or throws. -/
def finish : MacroRunnerBridge := { s with running := false, stage := .idle }

/-- The head of the loop of `run`. -/
def nextStep (steps : List MacroStep) : MacroRunnerBridge :=
  match steps with
  | [] => s.finish
  | _ =>
    if !s.paused || s.aborted then { s with stage := .checked steps }
    else { s with stage := .waitingResume steps }

def start (steps : List MacroStep) : MacroRunnerBridge :=
  if s.running then s else { s with aborted := false, running := true }.nextStep steps

/-- Behind `waitWhilePaused`. -/
def sendStep (steps : List MacroStep) : MacroRunnerBridge :=
  match steps with
  | [] => s.finish
  | step :: _ =>
    if s.aborted then s.finish
    else
      { s with sendInFlight := true, stage := .sending steps }.record
        (.sendStarted step.data step.isHex)

/-- Behind the send. -/
def afterSend (steps : List MacroStep) (outcome : SendOutcome) : MacroRunnerBridge :=
  let s := { s with sendInFlight := false }.resolvePauseWaiters
  match outcome, steps with
  | .sent true, step :: rest =>
    if s.aborted then s.finish
    else if rest = [] then s.finish
    else if clampDelayMs step.delayMs ≤ 0 then { s with stage := .delayed steps }
    else { s with stage := .delaying steps }
  | _, _ => s.finish

end MacroRunnerBridge

inductive MacroEvent
  | run (steps : List MacroStep)
  | abort
  | pause (call : Nat) (signalAborted : Bool)
  | pauseAborted (call : Nat)
  | resume
  /-- The promise of the send settles. -/
  | sendSettles (outcome : SendOutcome)
  | delayTimer
  /-- The continuation of `run` behind its await. -/
  | goOn
  deriving DecidableEq

def macroStep (s : MacroRunnerBridge) : MacroEvent → MacroRunnerBridge
  | .run steps => s.start steps
  | .abort => s.abort
  | .pause call signalAborted => s.pause call signalAborted
  | .pauseAborted call => s.pauseAborted call
  | .resume => s.resume
  | .sendSettles outcome =>
    match s.stage with
    | .sending steps => { s with stage := .sent steps outcome }.record .sendSettled
    | _ => s
  | .delayTimer =>
    match s.stage with
    | .delaying steps => { s with stage := .delayed steps }
    | _ => s
  | .goOn =>
    match s.stage with
    | .checked steps => s.sendStep steps
    | .sent steps outcome => s.afterSend steps outcome
    | .delayed steps => s.nextStep steps.tail
    | _ => s

/-! ## The triggers -/

structure TriggerFire where
  response : String
  responseIsHex : Bool
  deriving DecidableEq, Repr

/-- The send of the operation that runs, with the fires behind it. -/
structure OpenOperation where
  rest : List TriggerFire
  settled : Option SendOutcome
  deriving DecidableEq

/-- `queued` are the operations behind the tail that have not begun, `operations` counts all that
were queued and `ended` those that are over. A call of `pause` that waits is kept with the tail
that it waits for. -/
structure TriggersBridge where
  paused : Bool := false
  queued : List (List TriggerFire) := []
  current : Option OpenOperation := none
  operations : Nat := 0
  ended : Nat := 0
  pauses : List (Nat × Nat) := []
  log : List Happening := []

namespace TriggersBridge

variable (s : TriggersBridge)

def record (happening : Happening) : TriggersBridge := { s with log := happening :: s.log }

/-- `fires` is what the engine makes of the bytes. -/
def feedBytes (fires : List TriggerFire) : TriggersBridge :=
  if s.paused then s
  else if fires = [] then s
  else { s with queued := s.queued ++ [fires], operations := s.operations + 1 }

/-- The loop of an operation over its fires, up to the next send. -/
def sendFires (fires : List TriggerFire) : TriggersBridge :=
  match fires with
  | [] => { s with current := none, ended := s.ended + 1 }
  | fire :: rest =>
    if s.paused then { s with current := none, ended := s.ended + 1 }
    else { s with current := some ⟨rest, none⟩ }.record
      (.sendStarted fire.response fire.responseIsHex)

def pause (call : Nat) (signalAborted : Bool) : TriggersBridge :=
  if signalAborted then { s with paused := false }
  else { s with paused := true, pauses := (call, s.operations) :: s.pauses }

/-- The signal of a call of `pause` that waits is aborted. -/
def pauseAborted (call : Nat) : TriggersBridge :=
  if s.pauses.any (·.1 = call) then
    { s with pauses := s.pauses.eraseP (·.1 = call), paused := false }
  else s

/-- A call of `pause` goes on once the tail that it waits for has settled. -/
def pauseResolves (call : Nat) : TriggersBridge :=
  if s.pauses.any fun pause => pause.1 = call ∧ pause.2 ≤ s.ended then
    { s with
      pauses := s.pauses.eraseP fun pause => pause.1 = call ∧ pause.2 ≤ s.ended }.record
        .pauseResolved
  else s

def resume : TriggersBridge := { s.record .resumed with paused := false }

end TriggersBridge

inductive TriggerEvent
  | feedBytes (fires : List TriggerFire)
  | pause (call : Nat) (signalAborted : Bool)
  | pauseAborted (call : Nat)
  | pauseResolves (call : Nat)
  | resume
  /-- The first operation that was queued begins, its predecessor being over. -/
  | begin
  | sendSettles (outcome : SendOutcome)
  /-- The operation goes on behind its send. -/
  | goOn
  deriving DecidableEq

def triggerStep (s : TriggersBridge) : TriggerEvent → TriggersBridge
  | .feedBytes fires => s.feedBytes fires
  | .pause call signalAborted => s.pause call signalAborted
  | .pauseAborted call => s.pauseAborted call
  | .pauseResolves call => s.pauseResolves call
  | .resume => s.resume
  | .begin =>
    match s.current, s.queued with
    | none, fires :: queued => { s with queued := queued }.sendFires fires
    | _, _ => s
  | .sendSettles outcome =>
    match s.current with
    | some ⟨rest, none⟩ => { s with current := some ⟨rest, some outcome⟩ }.record .sendSettled
    | _ => s
  | .goOn =>
    match s.current with
    | some ⟨rest, some (.sent _)⟩ => s.sendFires rest
    | some ⟨_, some .threw⟩ => { s with current := none, ended := s.ended + 1 }
    | _ => s

end bbcom.automation
