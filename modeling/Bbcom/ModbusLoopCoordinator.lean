-- The coordinator of the two loops of the Modbus master (`modbus-loop-coordinator.ts`): one task on
-- the bus at a time, one timer for each loop, and a tick that falls due meanwhile is made up for.
import Bbcom.Lib.Runs

namespace bbcom.modbus_loops

open Function

/-! ## The coordinator -/

inductive Loop
  | read
  | write
  deriving DecidableEq

/-- What the callbacks of the coordinator say at the time. -/
structure ModbusLoopCoordinatorOptions where
  shouldRunRead : Bool
  shouldRunWrite : Bool
  getReadIntervalMs : Nat
  getWriteIntervalMs : Nat

namespace ModbusLoopCoordinatorOptions

variable (options : ModbusLoopCoordinatorOptions)

def shouldRun : Loop → Bool
  | .read => options.shouldRunRead
  | .write => options.shouldRunWrite

def readIntervalMs : Nat := max 100 options.getReadIntervalMs
def writeIntervalMs : Nat := max 100 options.getWriteIntervalMs

def intervalMs : Loop → Nat
  | .read => options.readIntervalMs
  | .write => options.writeIntervalMs

end ModbusLoopCoordinatorOptions

/-- A timer of the host that is set and has not fired. -/
structure LoopTimer where
  id : Nat
  loop : Loop
  delayMs : Nat
  deriving DecidableEq

/-- The fields that exist for reads and for writes go by the loop. The last two are the host's. -/
structure ModbusLoopCoordinator where
  timer : Loop → Option Nat
  busy : Bool
  stopped : Bool
  dueWhileBusy : Loop → Bool
  idleWaiters : List Nat
  liveTimers : List LoopTimer
  nextTimer : Nat

namespace ModbusLoopCoordinator

def new : ModbusLoopCoordinator where
  timer _ := none
  busy := false
  stopped := false
  dueWhileBusy _ := false
  idleWaiters := []
  liveTimers := []
  nextTimer := 0

variable (s : ModbusLoopCoordinator) (options : ModbusLoopCoordinatorOptions)

def setDue (loop : Loop) (due : Bool) : ModbusLoopCoordinator :=
  { s with dueWhileBusy := update s.dueWhileBusy loop due }

def setLoopTimeout (loop : Loop) (delayMs : Nat) : ModbusLoopCoordinator :=
  { s with
    timer := update s.timer loop (some s.nextTimer)
    liveTimers := s.liveTimers ++ [⟨s.nextTimer, loop, delayMs⟩]
    nextTimer := s.nextTimer + 1 }

def schedule (loop : Loop) (delayMs : Nat) : ModbusLoopCoordinator :=
  if s.timer loop ≠ none then s
  else if s.stopped = true ∨ options.shouldRun loop = false then s.setDue loop false
  else if s.busy = true then s.setDue loop true
  else s.setLoopTimeout loop delayMs

def scheduleRead (delayMs : Nat) : ModbusLoopCoordinator := s.schedule options .read delayMs
def scheduleWrite (delayMs : Nat) : ModbusLoopCoordinator := s.schedule options .write delayMs

def clearTimer (loop : Loop) : ModbusLoopCoordinator :=
  match s.timer loop with
  | none => s
  | some id => { s with
      timer := update s.timer loop none
      liveTimers := s.liveTimers.filter fun timer => timer.id ≠ id }

def clearReadTimer : ModbusLoopCoordinator := s.clearTimer .read
def clearWriteTimer : ModbusLoopCoordinator := s.clearTimer .write

def pause : ModbusLoopCoordinator :=
  { s with dueWhileBusy := fun _ => false }.clearReadTimer.clearWriteTimer

def stop : ModbusLoopCoordinator := { s with stopped := true }.pause

/-- A write that is overdue goes first. -/
def resume : ModbusLoopCoordinator :=
  let readOverdue := s.dueWhileBusy .read
  let writeOverdue := s.dueWhileBusy .write
  let s := { s with dueWhileBusy := fun _ => false }
  let s := if writeOverdue then s.scheduleWrite options 0 else s
  let s := if readOverdue then s.scheduleRead options 0 else s
  (s.scheduleRead options options.readIntervalMs).scheduleWrite options options.writeIntervalMs

def start : ModbusLoopCoordinator := { s with stopped := false }.resume options

/-- The first lines of a timer's callback; whether it goes on to its task. -/
def onTimer (timer : LoopTimer) : ModbusLoopCoordinator × Bool :=
  let s := { s with
    timer := update s.timer timer.loop none
    liveTimers := s.liveTimers.filter fun live => live.id ≠ timer.id }
  if s.stopped then (s, false)
  else if s.busy then (s.setDue timer.loop true, false)
  else (s, true)

def resolveIdleWaiters : ModbusLoopCoordinator × List Nat :=
  if s.busy then (s, []) else ({ s with idleWaiters := [] }, s.idleWaiters)

/-- The `finally` of `runExclusive`, with the waiters it resolves. -/
def leave : ModbusLoopCoordinator × List Nat :=
  let (s, waiters) := { s with busy := false }.resolveIdleWaiters
  (s.resume options, waiters)

end ModbusLoopCoordinator

/-! ## Tasks on the bus -/

/-- What runs with the bus held: a loop's callback, or a call from outside. -/
inductive Task (Call : Type)
  | loop (loop : Loop)
  | call (call : Call)

def Task.isLoop {Call : Type} : Task Call → Bool
  | .loop _ => true
  | .call _ => false

/-- The coordinator with all that waits on it. `sleeping` are the calls of `runExclusive` between
two looks at `busy`, `running` the tasks begun and not settled, `returning` the timer callbacks
behind their task. `started`, `resolved` and `rejected` record what has come to pass. -/
structure System (Call : Type) where
  loops : ModbusLoopCoordinator
  options : ModbusLoopCoordinatorOptions
  sleeping : List (Task Call)
  running : List (Task Call)
  returning : List Loop
  started : List (Task Call)
  resolved : List Nat
  rejected : List Nat

namespace System

variable {Call : Type}

def new (options : ModbusLoopCoordinatorOptions) : System Call :=
  ⟨.new, options, [], [], [], [], [], []⟩

variable (s : System Call)

/-- One look at `busy`, and the task if the bus is free. -/
def runExclusive (task : Task Call) : System Call :=
  if s.loops.busy then { s with sleeping := s.sleeping ++ [task] }
  else { s with
    loops := { s.loops with busy := true }
    running := s.running ++ [task]
    started := s.started ++ [task] }

/-- The sleep of a call is over. -/
def wake (i : Nat) : System Call :=
  match s.sleeping[i]? with
  | none => s
  | some task => { s with sleeping := s.sleeping.eraseIdx i }.runExclusive task

/-- A timer fires. -/
def fire (id : Nat) : System Call :=
  match s.loops.liveTimers.find? (·.id = id) with
  | none => s
  | some timer =>
    let (loops, go) := s.loops.onTimer timer
    let s := { s with loops }
    if go then s.runExclusive (.loop timer.loop) else s

/-- A task settles; a callback that is not thrown out of goes on. -/
def settle (i : Nat) (fulfilled : Bool) : System Call :=
  match s.running[i]? with
  | none => s
  | some task =>
    let (loops, waiters) := s.loops.leave s.options
    { s with
      loops
      running := s.running.eraseIdx i
      resolved := s.resolved ++ waiters
      returning := match task, fulfilled with
        | .loop loop, true => s.returning ++ [loop]
        | _, _ => s.returning }

/-- The last line of a timer's callback. -/
def goOn (i : Nat) : System Call :=
  match s.returning[i]? with
  | none => s
  | some loop =>
    { s with
      loops := s.loops.schedule s.options loop (s.options.intervalMs loop)
      returning := s.returning.eraseIdx i }

def waitForIdle (waiter : Nat) (aborted : Bool) : System Call :=
  if s.loops.busy = false then { s with resolved := s.resolved ++ [waiter] }
  else if aborted then { s with rejected := s.rejected ++ [waiter] }
  else
    let (loops, waiters) :=
      { s.loops with idleWaiters := s.loops.idleWaiters ++ [waiter] }.resolveIdleWaiters
    { s with loops, resolved := s.resolved ++ waiters }

def abort (waiter : Nat) : System Call :=
  if waiter ∈ s.loops.idleWaiters then
    { s with
      loops := { s.loops with idleWaiters := s.loops.idleWaiters.filter (· ≠ waiter) }
      rejected := s.rejected ++ [waiter] }
  else s

end System

inductive Event (Call : Type)
  /-- The registers or the settings change. -/
  | options (options : ModbusLoopCoordinatorOptions)
  | start
  | stop
  | pause
  | resume
  /-- `scheduleRead` and `scheduleWrite`. -/
  | schedule (loop : Loop) (delayMs : Option Nat)
  | fire (id : Nat)
  | runExclusive (call : Call)
  | wake (i : Nat)
  | settle (i : Nat) (fulfilled : Bool)
  | goOn (i : Nat)
  | waitForIdle (waiter : Nat) (aborted : Bool)
  | abort (waiter : Nat)

variable {Call : Type}

def step (s : System Call) : Event Call → System Call
  | .options options => { s with options }
  | .start => { s with loops := s.loops.start s.options }
  | .stop => { s with loops := s.loops.stop }
  | .pause => { s with loops := s.loops.pause }
  | .resume => { s with loops := s.loops.resume s.options }
  | .schedule loop delayMs =>
    { s with loops := s.loops.schedule s.options loop (delayMs.getD (s.options.intervalMs loop)) }
  | .fire id => s.fire id
  | .runExclusive call => s.runExclusive (.call call)
  | .wake i => s.wake i
  | .settle i fulfilled => s.settle i fulfilled
  | .goOn i => s.goOn i
  | .waitForIdle waiter aborted => s.waitForIdle waiter aborted
  | .abort waiter => s.abort waiter

end bbcom.modbus_loops
