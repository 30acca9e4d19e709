-- The coordinator of a close request (`shutdown-coordinator.ts`): it drains its participants in the
-- order of their priorities, each within its own time and all within one window, and a decision
-- follows when the window is over.
import Bbcom.Lib.Runs

namespace bbcom.shutdown

def SHUTDOWN_WAIT_LIMIT_MS : Nat := 8000

def MAX_PARTICIPANTS : Nat := 64

/-! ## Participants -/

/-- The bounds are those of `validateParticipant`. -/
structure ShutdownDrainParticipant where
  name : String
  priority : ℤ
  timeoutMs : Nat
  repeatableBarrier : Bool
  timeout_pos : 1 ≤ timeoutMs
  timeout_le : timeoutMs ≤ SHUTDOWN_WAIT_LIMIT_MS
  deriving DecidableEq

inductive ShutdownParticipantStatus
  | pending
  | running
  | completed
  | failed
  | timedOut
  deriving DecidableEq

/-- How the promise of a drain settles. -/
inductive DrainOutcome
  | completed
  | failed
  deriving DecidableEq

def DrainOutcome.status : DrainOutcome → ShutdownParticipantStatus
  | .completed => .completed
  | .failed => .failed

/-- Where the participant's `runParticipantInRound` stands: in `settleWithin` until a time, or
behind it with what the race gave. -/
inductive Runner
  | done
  | waiting (timerAt : Nat)
  | raced (settled : Bool)
  deriving DecidableEq

/-- `invoked` stands for an invocation that is not null. Its drain is called one microtask later
(`called`) and settles some time after that (`settled`). The last two fields record when, by the
number of the event. -/
structure AttemptParticipant where
  definition : ShutdownDrainParticipant
  status : ShutdownParticipantStatus
  invoked : Bool
  called : Bool
  settled : Bool
  invocationRound : ℤ
  runner : Runner
  calledAt : Nat
  settledAt : Nat
  deriving DecidableEq

namespace AttemptParticipant

def new (definition : ShutdownDrainParticipant) : AttemptParticipant where
  definition := definition
  status := .pending
  invoked := false
  called := false
  settled := false
  invocationRound := -1
  runner := .done
  calledAt := 0
  settledAt := 0

variable (participant : AttemptParticipant)

def priority : ℤ := participant.definition.priority

def shouldRunInRound (round : ℤ) : Bool :=
  if participant.definition.repeatableBarrier then
    decide (participant.invocationRound < round) || !participant.settled
  else decide (participant.status ≠ .completed ∧ participant.status ≠ .failed)

/-- The part of `startParticipant` that invokes the drain. -/
def invoke (round : ℤ) : AttemptParticipant :=
  { participant with
    status := .running
    invoked := true
    called := false
    settled := false
    invocationRound := round }

def startParticipant (round : ℤ) : AttemptParticipant :=
  if participant.invoked then
    if participant.settled = false then { participant with status := .running }
    else if participant.definition.repeatableBarrier = false ∨
        round ≤ participant.invocationRound then participant
    else participant.invoke round
  else participant.invoke round

def markTimedOut : AttemptParticipant := { participant with status := .timedOut }

/-- One pass of the loop of `runParticipantInRound`, up to its `await`. Its `continue` goes on like
a race that is won at once. -/
def enterLoop (closed : Bool) (now windowDeadline : Nat) (round : ℤ) : AttemptParticipant :=
  if closed = true ∨ windowDeadline ≤ now then { participant with runner := .done }
  else
    let participant := participant.startParticipant round
    if participant.settled then
      if participant.shouldRunInRound round = false then { participant with runner := .done }
      else { participant with runner := .raced true }
    else
      let remainingWindow := windowDeadline - now
      let timeoutMs := min participant.definition.timeoutMs remainingWindow
      { participant with runner := .waiting (now + timeoutMs) }

/-- The loop from its `await` on. -/
def afterWait (closed : Bool) (now windowDeadline : Nat) (round : ℤ) (settled : Bool) :
    AttemptParticipant :=
  if settled = false ∧ closed = false ∧ participant.settled = false then
    { participant.markTimedOut with runner := .done }
  else if participant.shouldRunInRound round = false then { participant with runner := .done }
  else participant.enterLoop closed now windowDeadline round

/-- The invocation settles; a race that is still open is won. -/
def settle (closed : Bool) (outcome : DrainOutcome) (at_ : Nat) : AttemptParticipant :=
  { participant with
    settled := true
    settledAt := at_
    status := if closed then participant.status else outcome.status
    runner := match participant.runner with
      | .waiting _ => .raced true
      | runner => runner }

end AttemptParticipant

/-! ## The attempt -/

inductive ShutdownState
  | idle
  | requested
  | draining
  | ready
  | timedOut
  | failed
  | confirming
  | confirmed
  | cancelled
  deriving DecidableEq

def LEGAL_TRANSITIONS : ShutdownState → List ShutdownState
  | .idle => [.requested]
  | .requested => [.draining]
  | .draining => [.ready, .timedOut, .failed]
  | .ready => [.confirming]
  | .timedOut => [.draining, .confirming]
  | .failed => [.draining, .confirming]
  | .confirming => [.confirmed, .cancelled]
  | .confirmed => []
  | .cancelled => [.idle]

/-- The call of `runDrainWindow` that waits for a group, with the priorities behind that group. -/
structure DrainWindow where
  windowDeadline : Nat
  priorities : List ℤ
  deriving DecidableEq

/-- `drainPending` is the microtask that `requestClose` leaves behind. `confirmation` holds whether
the exit was forced. -/
structure ShutdownAttempt where
  attemptId : String
  participants : List AttemptParticipant
  round : ℤ
  closed : Bool
  drainPending : Bool
  window : Option DrainWindow
  confirmation : Option Bool
  cancellation : Bool
  deriving DecidableEq

def classifyAttempt (participants : List AttemptParticipant) : ShutdownState :=
  if participants.any fun participant =>
      participant.status = .pending ∨ participant.status = .running ∨
        participant.status = .timedOut then .timedOut
  else if participants.any fun participant => participant.status = .failed then .failed
  else .ready

namespace ShutdownAttempt

variable (attempt : ShutdownAttempt)

/-- What the end of a window makes of a participant. -/
def endParticipant (participant : AttemptParticipant) : AttemptParticipant :=
  if participant.status = .running then participant.markTimedOut
  else if participant.definition.repeatableBarrier = true ∧
      participant.invocationRound < attempt.round then { participant with status := .timedOut }
  else participant

/-- The end of a window, with its outcome. A closed attempt throws. -/
def endWindow : ShutdownAttempt × Option ShutdownState :=
  if attempt.closed then ({ attempt with window := none }, none)
  else
    let participants := attempt.participants.map attempt.endParticipant
    ({ attempt with participants, window := none }, some (classifyAttempt participants))

def inGroup (priority : ℤ) (participant : AttemptParticipant) : Bool :=
  decide (participant.priority = priority) && participant.shouldRunInRound attempt.round

def startGroup (now windowDeadline : Nat) (priority : ℤ) : List AttemptParticipant :=
  attempt.participants.map fun participant =>
    if attempt.inGroup priority participant then
      participant.enterLoop attempt.closed now windowDeadline attempt.round
    else participant

/-- The loop of `runDrainWindow` over the priorities, up to the next group. -/
def drainLoop (now windowDeadline : Nat) : List ℤ → ShutdownAttempt × Option ShutdownState
  | [] => attempt.endWindow
  | priority :: priorities =>
    if attempt.closed = true ∨ windowDeadline ≤ now then attempt.endWindow
    else if attempt.participants.any (attempt.inGroup priority) then
      ({ attempt with
        participants := attempt.startGroup now windowDeadline priority
        window := some ⟨windowDeadline, priorities⟩ }, none)
    else drainLoop now windowDeadline priorities

/-- The priorities, the highest first. -/
def priorities : List ℤ :=
  (attempt.participants.map (·.priority)).dedup.insertionSort (· ≥ ·)

end ShutdownAttempt

/-! ## The coordinator -/

/-- `clock` counts the events, for the records of the participants. -/
structure ShutdownCoordinator where
  registrations : List ShutdownDrainParticipant
  state : ShutdownState
  attempt : Option ShutdownAttempt
  now : Nat
  clock : Nat

namespace ShutdownCoordinator

def new : ShutdownCoordinator := ⟨[], .idle, none, 0, 0⟩

variable (s : ShutdownCoordinator)

def transition (next : ShutdownState) : Except String ShutdownCoordinator :=
  if next ∈ LEGAL_TRANSITIONS s.state then .ok { s with state := next }
  else .error "illegal shutdown transition"

def register (participant : ShutdownDrainParticipant) : Except String ShutdownCoordinator :=
  if s.state ≠ .idle then .error "shutdown participants can only be registered while idle"
  else if s.registrations.any (·.name = participant.name) then
    .error "shutdown participant is already registered"
  else if MAX_PARTICIPANTS ≤ s.registrations.length then
    .error "shutdown participant limit exceeded"
  else .ok { s with registrations := s.registrations ++ [participant] }

def unregister (name : String) : ShutdownCoordinator :=
  { s with registrations := s.registrations.filter (·.name ≠ name) }

/-- The registrations, the highest priority first and else in the order they came. -/
def sortedRegistrations : List ShutdownDrainParticipant :=
  s.registrations.insertionSort fun left right => left.priority ≥ right.priority

def requestClose (attemptId : String) : Except String ShutdownCoordinator :=
  match s.attempt with
  | some attempt =>
    if attempt.attemptId = attemptId then .ok s
    else .error "shutdown attempt does not match the active close request"
  | none =>
    if s.state ≠ .idle then .error "cannot request close"
    else
      { s with attempt := some {
          attemptId := attemptId
          participants := s.sortedRegistrations.map AttemptParticipant.new
          round := 0
          closed := false
          drainPending := true
          window := none
          confirmation := none
          cancellation := false } }.transition .requested

/-- The window goes on until it waits for a group or is over. -/
def drain (attempt : ShutdownAttempt) (windowDeadline : Nat) (priorities : List ℤ) :
    Except String ShutdownCoordinator :=
  match attempt.drainLoop s.now windowDeadline priorities with
  | (attempt, none) => .ok { s with attempt := some attempt }
  | (attempt, some outcome) => { s with attempt := some attempt }.transition outcome

/-- `runDrainWindow` behind its first transition. -/
def runDrainWindow (attempt : ShutdownAttempt) : Except String ShutdownCoordinator :=
  s.drain attempt (s.now + SHUTDOWN_WAIT_LIMIT_MS) attempt.priorities

/-- The microtask of `requestClose`. -/
def drainBegins : Except String ShutdownCoordinator :=
  match s.attempt with
  | some attempt =>
    if attempt.drainPending then do
      let s ← s.transition .draining
      s.runDrainWindow { attempt with drainPending := false }
    else .ok s
  | none => .ok s

/-- All of a group is through. -/
def groupDone : Except String ShutdownCoordinator :=
  match s.attempt with
  | some attempt =>
    match attempt.window with
    | some window =>
      if attempt.participants.all (·.runner = .done) then
        s.drain attempt window.windowDeadline window.priorities
      else .ok s
    | none => .ok s
  | none => .ok s

def requireAttempt (attemptId : String) : Except String ShutdownAttempt :=
  match s.attempt with
  | some attempt =>
    if attempt.attemptId = attemptId then .ok attempt
    else .error "shutdown attempt does not match the active close request"
  | none => .error "shutdown attempt does not match the active close request"

def wait (attemptId : String) : Except String ShutdownCoordinator := do
  let attempt ← s.requireAttempt attemptId
  if s.state ≠ .timedOut ∧ s.state ≠ .failed then .error "wait is not allowed"
  else do
    let s ← s.transition .draining
    s.runDrainWindow { attempt with round := attempt.round + 1 }

def cancel (attemptId : String) : Except String ShutdownCoordinator := do
  let attempt ← s.requireAttempt attemptId
  if attempt.cancellation then .ok s
  else if s.state ≠ .ready ∧ s.state ≠ .timedOut ∧ s.state ≠ .failed then
    .error "cancel is not allowed"
  else
    transition { s with attempt := some { attempt with closed := true, cancellation := true } }
      .confirming

def acknowledgeCancellation (attemptId : String) : Except String ShutdownCoordinator := do
  let attempt ← s.requireAttempt attemptId
  if attempt.cancellation = false ∨ s.state ≠ .confirming then
    .error "cancel acknowledgement requires confirming state"
  else do
    let s ← s.transition .cancelled
    transition { s with attempt := none } .idle

def confirm (attempt : ShutdownAttempt) (forced : Bool) : Except String ShutdownCoordinator :=
  { s with attempt := some { attempt with closed := true, confirmation := some forced } }.transition
    .confirming

def confirmExit (attemptId : String) : Except String ShutdownCoordinator := do
  let attempt ← s.requireAttempt attemptId
  if attempt.confirmation.isSome then .ok s
  else if s.state ≠ .ready then .error "confirmExit requires ready state"
  else s.confirm attempt false

def force (attemptId : String) : Except String ShutdownCoordinator := do
  let attempt ← s.requireAttempt attemptId
  if attempt.confirmation.isSome then .ok s
  else if s.state ≠ .timedOut ∧ s.state ≠ .failed then
    .error "force requires timed-out or failed state"
  else s.confirm attempt true

def acknowledgeConfirmation (attemptId : String) : Except String ShutdownCoordinator := do
  let attempt ← s.requireAttempt attemptId
  if attempt.confirmation = none ∨ s.state ≠ .confirming then
    .error "confirm acknowledgement requires confirming state"
  else s.transition .confirmed

/-- Something happens to one participant of the attempt. -/
def onParticipant (i : Nat) (f : ShutdownAttempt → AttemptParticipant → AttemptParticipant) :
    ShutdownCoordinator :=
  match s.attempt with
  | some attempt =>
    { s with attempt := some { attempt with
        participants := attempt.participants.modify i (f attempt) } }
  | none => s

end ShutdownCoordinator

/-! ## Events -/

inductive Event
  | register (participant : ShutdownDrainParticipant)
  | unregister (name : String)
  | requestClose (attemptId : String)
  | drainBegins
  | wait (attemptId : String)
  | cancel (attemptId : String)
  | acknowledgeCancellation (attemptId : String)
  | confirmExit (attemptId : String)
  | force (attemptId : String)
  | acknowledgeConfirmation (attemptId : String)
  /-- The drain of the newest invocation is called. -/
  | call (i : Nat)
  | settle (i : Nat) (outcome : DrainOutcome)
  /-- The timer of `settleWithin`. -/
  | timer (i : Nat)
  /-- The loop of a participant goes on behind `settleWithin`. -/
  | goOn (i : Nat)
  | groupDone
  | tick (ms : Nat)

def callDrain (clock : Nat) (participant : AttemptParticipant) : AttemptParticipant :=
  if participant.invoked = true ∧ participant.called = false then
    { participant with called := true, calledAt := clock }
  else participant

def settleDrain (clock : Nat) (outcome : DrainOutcome) (attempt : ShutdownAttempt)
    (participant : AttemptParticipant) : AttemptParticipant :=
  if participant.called = true ∧ participant.settled = false then
    participant.settle attempt.closed outcome clock
  else participant

def fireTimer (now : Nat) (participant : AttemptParticipant) : AttemptParticipant :=
  match participant.runner with
  | .waiting timerAt =>
    if timerAt ≤ now then { participant with runner := .raced false } else participant
  | _ => participant

def goOnRunner (now : Nat) (attempt : ShutdownAttempt) (participant : AttemptParticipant) :
    AttemptParticipant :=
  match participant.runner, attempt.window with
  | .raced settled, some window =>
    participant.afterWait attempt.closed now window.windowDeadline attempt.round settled
  | _, _ => participant

/-- A call that throws leaves the coordinator as it is. -/
def step (s : ShutdownCoordinator) (e : Event) : ShutdownCoordinator :=
  let s := { s with clock := s.clock + 1 }
  match e with
  | .register participant => (s.register participant).toOption.getD s
  | .unregister name => s.unregister name
  | .requestClose attemptId => (s.requestClose attemptId).toOption.getD s
  | .drainBegins => s.drainBegins.toOption.getD s
  | .wait attemptId => (s.wait attemptId).toOption.getD s
  | .cancel attemptId => (s.cancel attemptId).toOption.getD s
  | .acknowledgeCancellation attemptId => (s.acknowledgeCancellation attemptId).toOption.getD s
  | .confirmExit attemptId => (s.confirmExit attemptId).toOption.getD s
  | .force attemptId => (s.force attemptId).toOption.getD s
  | .acknowledgeConfirmation attemptId => (s.acknowledgeConfirmation attemptId).toOption.getD s
  | .call i => s.onParticipant i fun _ => callDrain s.clock
  | .settle i outcome => s.onParticipant i (settleDrain s.clock outcome)
  | .timer i => s.onParticipant i fun _ => fireTimer s.now
  | .goOn i => s.onParticipant i (goOnRunner s.now)
  | .groupDone => s.groupDone.toOption.getD s
  | .tick ms => { s with now := s.now + ms }

end bbcom.shutdown
