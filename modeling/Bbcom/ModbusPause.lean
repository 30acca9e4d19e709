-- The pause of the Modbus master for a serial transaction: what may run while it is in force.
import Bbcom.ModbusMaster

open bbcom.runs bbcom.modbus_batches
open bbcom.modbus_loops

namespace bbcom.modbus_master

open System ModbusMaster List ModbusLoopCoordinatorOptions

/-! ## What a step of the loops leaves alone -/

section
variable {s : System Operation} {e : Event Operation}

/-- With nothing to do for either loop no timer comes up. -/
theorem off_step (h : Inv s) (hoff : ∀ loop, s.options.shouldRun loop = false)
    (hnone : s.loops.liveTimers = []) : (step s e).loops.liveTimers = [] := by
  have hschedule : ∀ (t : ModbusLoopCoordinator) (loop : Loop) (delayMs : Nat),
      t.liveTimers = [] → (t.schedule s.options loop delayMs).liveTimers = [] :=
    fun t loop delayMs ht => (schedule_off (Or.inr (hoff loop)) delayMs).trans ht
  have hresume : ∀ t : ModbusLoopCoordinator, t.liveTimers = [] →
      (t.resume s.options).liveTimers = [] :=
    fun t ht => resume_keeps (P := fun u => u.liveTimers = []) hschedule ht
  have hrun : ∀ (s : System Operation) task, s.loops.liveTimers = [] →
      (s.runExclusive task).loops.liveTimers = [] := by
    intro s task hs
    unfold System.runExclusive
    split_ifs
    · exact hs
    · exact hs
  cases e with
  | options options => exact hnone
  | start => exact hresume _ hnone
  | stop =>
    have hstopped : Timed { s.loops with stopped := true } := h.loops.timed.congr rfl rfl rfl
    exact hstopped.pause_live
  | pause => exact h.loops.timed.pause_live
  | resume => exact hresume _ hnone
  | schedule loop delayMs => exact hschedule _ _ _ hnone
  | fire id =>
    simp only [step]
    unfold System.fire
    rw [hnone, find?_nil]
    exact hnone
  | runExclusive call => exact hrun _ _ hnone
  | wake i =>
    simp only [step]
    unfold System.wake
    cases s.sleeping[i]? with
    | none => exact hnone
    | some task => exact hrun _ _ hnone
  | settle i fulfilled =>
    simp only [step]
    unfold System.settle
    cases s.running[i]? with
    | none => exact hnone
    | some task => exact hresume _ hnone
  | goOn i =>
    simp only [step]
    unfold System.goOn
    cases s.returning[i]? with
    | none => exact hnone
    | some loop => exact hschedule _ _ _ hnone
  | waitForIdle waiter aborted =>
    simp only [step]
    unfold System.waitForIdle
    split_ifs with hfree haborted
    · exact hnone
    · exact hnone
    · rw [Bool.not_eq_false] at hfree
      rw [resolveIdleWaiters_busy (by exact hfree)]
      exact hnone
  | abort waiter =>
    simp only [step]
    unfold System.abort
    split_ifs
    · exact hnone
    · exact hnone

/-- These events begin no task. -/
def Quiet : Event Operation → Prop
  | .fire _ => False
  | .runExclusive _ => False
  | .wake _ => False
  | _ => True

theorem started_step (he : Quiet e) : (step s e).started = s.started := by
  cases e with
  | options options => rfl
  | start => rfl
  | stop => rfl
  | pause => rfl
  | resume => rfl
  | schedule loop delayMs => rfl
  | fire id => exact he.elim
  | runExclusive call => exact he.elim
  | wake i => exact he.elim
  | settle i fulfilled => exact settle_started i fulfilled
  | goOn i =>
    simp only [step]
    unfold goOn
    cases s.returning[i]? <;> rfl
  | waitForIdle waiter aborted =>
    simp only [step]
    unfold waitForIdle
    split_ifs <;> rfl
  | abort waiter =>
    simp only [step]
    unfold abort
    split_ifs <;> rfl

theorem runExclusive_begins {task : modbus_loops.Task Operation} (hfree : s.running = [])
    (hsame : (s.runExclusive task).started = s.started) : (s.runExclusive task).running = [] := by
  unfold runExclusive at hsame ⊢
  split_ifs at hsame ⊢
  · exact hfree
  · exact absurd hsame (by simp)

/-- A bus without a task stays without one as long as none begins. -/
theorem running_step (hfree : s.running = []) (hsame : (step s e).started = s.started) :
    (step s e).running = [] := by
  cases e with
  | options options => exact hfree
  | start => exact hfree
  | stop => exact hfree
  | pause => exact hfree
  | resume => exact hfree
  | schedule loop delayMs => exact hfree
  | fire id =>
    simp only [step] at hsame ⊢
    unfold System.fire at hsame ⊢
    cases hfind : s.loops.liveTimers.find? (·.id = id) with
    | none => exact hfree
    | some timer =>
      rw [hfind] at hsame
      simp only at hsame ⊢
      split_ifs at hsame ⊢
      · exact runExclusive_begins hfree hsame
      · exact hfree
  | runExclusive call => exact runExclusive_begins hfree hsame
  | wake i =>
    simp only [step] at hsame ⊢
    unfold System.wake at hsame ⊢
    cases hi : s.sleeping[i]? with
    | none => exact hfree
    | some task =>
      rw [hi] at hsame
      exact runExclusive_begins hfree hsame
  | settle i fulfilled =>
    simp only [step]
    unfold System.settle
    rw [hfree]
    exact hfree
  | goOn i =>
    simp only [step]
    unfold System.goOn
    cases s.returning[i]? with
    | none => exact hfree
    | some loop => exact hfree
  | waitForIdle waiter aborted =>
    simp only [step]
    unfold System.waitForIdle
    split_ifs
    · exact hfree
    · exact hfree
    · exact hfree
  | abort waiter =>
    simp only [step]
    unfold System.abort
    split_ifs
    · exact hfree
    · exact hfree

end

/-! ## The requests of a task -/

variable {m : ModbusMaster}

/-- The batches make requests and nothing else. -/
theorem runBatches_spec (m : ModbusMaster) (skip : Batch → Bool) (sweep : Sweep)
    (batches : List Batch) :
    ∃ made progress, m.runBatches skip sweep batches =
        { m with requests := m.requests ++ made, progress } ∧
      ∀ request ∈ made, request.duringPause = m.pauseResolved := by
  induction batches with
  | nil => exact ⟨[], .ended true, by rw [append_nil]; rfl, by rintro request ⟨⟩⟩
  | cons batch batches ih =>
    unfold runBatches
    split_ifs
    · exact ⟨[], .ended true, by rw [append_nil], by rintro request ⟨⟩⟩
    · exact ih
    · cases batch.wireRequest sweep.transport with
      | error e => exact ⟨[], .ended false, by rw [append_nil], by rintro request ⟨⟩⟩
      | ok request =>
        refine ⟨[⟨request.wire, m.pauseResolved⟩], .transacting sweep batches, rfl, ?_⟩
        intro made hmade
        rw [mem_singleton.1 hmade]

theorem beginTask_spec (m : ModbusMaster) (skip : Batch → Bool) (targets : List ModbusRegister)
    (task : modbus_loops.Task Operation) :
    ∃ made progress, m.beginTask skip targets task =
        { m with requests := m.requests ++ made, progress } ∧
      ∀ request ∈ made, request.duringPause = m.pauseResolved := by
  cases task with
  | loop loop =>
    cases loop with
    | read => exact runBatches_spec m skip _ _
    | write => exact runBatches_spec m skip _ _
  | call operation =>
    cases operation with
    | readOnce transport batch => exact runBatches_spec m skip _ _
    | readAll => exact runBatches_spec m skip _ _
    | sendRow batches => exact runBatches_spec m skip _ _
    | sendAll => exact runBatches_spec m skip _ _

/-! ## What holds as long as no waiting operation gets the bus in a pause -/

/-- No request was made between a pause and its resume. -/
def NoRequestInPause (m : ModbusMaster) : Prop :=
  ∀ request ∈ m.requests, request.duringPause = false

/-- The master but for the timers of its loops. -/
structure Calm (m : ModbusMaster) : Prop where
  loops : Inv m.loops
  open_ : m.serialTransactionPaused = false → m.pausing = [] ∧ m.pauseResolved = false
  idle : m.pauseResolved = true → m.loops.running = []
  requests : NoRequestInPause m

theorem Calm.withRequests (h : Calm m) {made : List SerialRequest} {progress : Progress}
    (hmade : ∀ request ∈ made, request.duringPause = m.pauseResolved)
    (hopen : m.pauseResolved = false) :
    Calm { m with requests := m.requests ++ made, progress } := by
  refine ⟨h.loops, h.open_, h.idle, ?_⟩
  intro request hrequest
  rcases mem_append.1 hrequest with hrequest | hrequest
  · exact h.requests request hrequest
  · rw [hmade request hrequest, hopen]

theorem Calm.foldl_beginTask (h : Calm m) (hopen : m.pauseResolved = false) (skip : Batch → Bool)
    (targets : List ModbusRegister) (begun : List (modbus_loops.Task Operation)) :
    Calm (begun.foldl (fun m task => m.beginTask skip targets task) m) := by
  induction begun generalizing m with
  | nil => exact h
  | cons task begun ih =>
    obtain ⟨made, progress, heq, hmade⟩ := beginTask_spec m skip targets task
    rw [foldl_cons, heq]
    exact ih (h.withRequests hmade hopen) hopen

theorem foldl_beginTask_loops (m : ModbusMaster) (skip : Batch → Bool)
    (targets : List ModbusRegister) (begun : List (modbus_loops.Task Operation)) :
    (begun.foldl (fun m task => m.beginTask skip targets task) m).loops = m.loops ∧
    (begun.foldl (fun m task => m.beginTask skip targets task) m).serialTransactionPaused =
      m.serialTransactionPaused := by
  induction begun generalizing m with
  | nil => exact ⟨rfl, rfl⟩
  | cons task begun ih =>
    obtain ⟨made, progress, heq, -⟩ := beginTask_spec m skip targets task
    rw [foldl_cons, heq]
    exact ih _

/-- The loops with what the callbacks say now. -/
def current (m : ModbusMaster) : System Operation := { m.loops with options := m.options }

theorem onLoops_loops (m : ModbusMaster) (skip : Batch → Bool) (targets : List ModbusRegister)
    (e : Event Operation) :
    (m.onLoops skip targets e).loops = step (current m) e ∧
      (m.onLoops skip targets e).serialTransactionPaused = m.serialTransactionPaused :=
  foldl_beginTask_loops _ skip targets _

theorem Calm.current (h : Calm m) : Inv (modbus_master.current m) :=
  ⟨h.loops.loops, h.loops.busy, h.loops.one, h.loops.sleeping⟩

variable {e : Event Operation}

/-- A step of the loops that begins no task in a pause. -/
theorem Calm.onLoops (h : Calm m) (hbegins : m.serialTransactionPaused = true →
      (step (modbus_master.current m) e).started = (modbus_master.current m).started)
    (skip : Batch → Bool) (targets : List ModbusRegister) : Calm (m.onLoops skip targets e) := by
  have hloops : Inv (step (modbus_master.current m) e) := inv_step h.current e
  obtain ⟨idle, hidle⟩ : ∃ idle, idle =
    (step (modbus_master.current m) e).resolved.drop m.loops.resolved.length := ⟨_, rfl⟩
  obtain ⟨next, hnext⟩ : ∃ next : ModbusMaster, next = { m with
    loops := step (modbus_master.current m) e
    pauseResolved := m.pauseResolved || idle.any (· ∈ m.pausing)
    pausing := m.pausing.filter (· ∉ idle) } := ⟨_, rfl⟩
  obtain ⟨begun, hbegun⟩ : ∃ begun, begun =
    (step (modbus_master.current m) e).started.drop m.loops.started.length := ⟨_, rfl⟩
  have hgoal : m.onLoops skip targets e =
      begun.foldl (fun m task => m.beginTask skip targets task) next := by
    rw [hbegun, hnext, hidle]
    rfl
  rw [hgoal]
  cases hpaused : m.serialTransactionPaused with
  | false =>
    obtain ⟨hpausing, hopen⟩ := h.open_ hpaused
    have hstill : next.pauseResolved = false := by
      rw [hnext]
      simp [hpausing, hopen]
    apply Calm.foldl_beginTask _ hstill
    refine ⟨?_, fun _ => ⟨?_, hstill⟩, ?_, ?_⟩
    · rw [hnext]
      exact hloops
    · rw [hnext]
      simp [hpausing]
    · rw [hstill]
      rintro ⟨⟩
    · rw [hnext]
      exact h.requests
  | true =>
    have hnone : begun = [] := by
      rw [hbegun, hbegins hpaused]
      exact drop_length
    rw [hnone, foldl_nil, hnext]
    refine ⟨hloops, by rw [hpaused]; rintro ⟨⟩, ?_, h.requests⟩
    intro hresolved
    rcases Bool.or_eq_true_iff.1 hresolved with hbefore | hnow
    · exact running_step (h.idle hbefore) (hbegins hpaused)
    · apply resolved_step h.current
      intro hsame
      have hnil : idle = [] := by
        rw [hidle, hsame]
        exact drop_length
      rw [hnil] at hnow
      cases hnow

/-! ## The master with its timers -/

structure Guarded (m : ModbusMaster) : Prop where
  calm : Calm m
  timers : m.serialTransactionPaused = true → m.loops.loops.liveTimers = []

theorem options_off (hpaused : m.serialTransactionPaused = true) (loop : Loop) :
    m.options.shouldRun loop = false := by
  cases loop with
  | read =>
    unfold shouldRun ModbusMaster.options ModbusMaster.shouldRunRead
    simp [hpaused]
  | write =>
    unfold shouldRun ModbusMaster.options ModbusMaster.shouldRunWrite
    simp [hpaused]

theorem Guarded.onLoops (h : Guarded m) (hbegins : m.serialTransactionPaused = true →
      (step (modbus_master.current m) e).started = (modbus_master.current m).started)
    (skip : Batch → Bool) (targets : List ModbusRegister) :
    Guarded (m.onLoops skip targets e) := by
  refine ⟨h.calm.onLoops hbegins skip targets, ?_⟩
  obtain ⟨hloops, hflag⟩ := onLoops_loops m skip targets e
  rw [hloops, hflag]
  intro hpaused
  exact off_step h.calm.current (options_off hpaused) (h.timers hpaused)

theorem Guarded.quietly (h : Guarded m) (he : Quiet e) :
    Guarded (m.quietly e) :=
  h.onLoops (fun _ => started_step he) _ _

variable {next : ModbusMaster}

/-- The fields that this does not look at. -/
theorem Guarded.congr (h : Guarded m) (hloops : next.loops = m.loops)
    (hflag : next.serialTransactionPaused = m.serialTransactionPaused)
    (hpausing : next.pausing = m.pausing) (hresolved : next.pauseResolved = m.pauseResolved)
    (hrequests : next.requests = m.requests) : Guarded next := by
  obtain ⟨⟨hinv, hopen, hidle, hmade⟩, htimers⟩ := h
  refine ⟨⟨?_, ?_, ?_, ?_⟩, ?_⟩
  · rw [hloops]
    exact hinv
  · rw [hflag, hpausing, hresolved]
    exact hopen
  · rw [hresolved, hloops]
    exact hidle
  · unfold NoRequestInPause
    rw [hrequests]
    exact hmade
  · rw [hflag, hloops]
    exact htimers

theorem Guarded.resume (h : Guarded m) : Guarded m.resumeAfterSerialTransaction := by
  unfold resumeAfterSerialTransaction
  by_cases hpaused : m.serialTransactionPaused = false
  · rw [if_pos hpaused]
    exact h
  · rw [if_neg hpaused]
    have hopen : Guarded { m with
        serialTransactionPaused := false, pausing := [], pauseResolved := false } :=
      ⟨⟨h.calm.loops, fun _ => ⟨rfl, rfl⟩, by rintro ⟨⟩, h.calm.requests⟩, by rintro ⟨⟩⟩
    simp only
    split_ifs
    · exact hopen
    · exact hopen.quietly trivial

theorem Guarded.orResume (h : Guarded next) : Guarded (m.orResume next) := by
  unfold ModbusMaster.orResume
  split_ifs
  · exact h.resume
  · exact h

/-- The pause clears the timers. -/
theorem Guarded.taken (h : Guarded m) :
    Guarded ({ m with serialTransactionPaused := true }.quietly .pause) := by
  have hcalm : Calm { m with serialTransactionPaused := true } :=
    ⟨h.calm.loops, by rintro ⟨⟩, h.calm.idle, h.calm.requests⟩
  refine ⟨hcalm.onLoops (fun _ => rfl) _ _, fun _ => ?_⟩
  rw [ModbusMaster.quietly, (onLoops_loops _ _ _ _).1]
  exact h.calm.loops.loops.timed.pause_live

theorem Guarded.pause (h : Guarded m) (aborted : Bool) :
    Guarded (m.pauseForSerialTransaction aborted) := by
  obtain ⟨taken, htaken⟩ : ∃ taken, taken =
    { m with serialTransactionPaused := true }.quietly .pause := ⟨_, rfl⟩
  have hpaused : taken.serialTransactionPaused = true := by
    rw [htaken]
    exact (onLoops_loops _ _ _ _).2
  have hheld : Guarded taken := by
    rw [htaken]
    exact h.taken
  have hcalled : Guarded { taken with
      pausing := taken.pausing ++ [taken.nextPause], nextPause := taken.nextPause + 1 } := by
    refine ⟨⟨hheld.calm.loops, ?_, hheld.calm.idle, hheld.calm.requests⟩, hheld.timers⟩
    intro hopen
    rw [hpaused] at hopen
    cases hopen
  unfold pauseForSerialTransaction
  rw [← htaken]
  exact Guarded.orResume (hcalled.quietly trivial)

theorem Guarded.transacted (h : Guarded m) (skip : Batch → Bool) : Guarded (m.transacted skip) := by
  unfold ModbusMaster.transacted
  cases hrunning : m.loops.running with
  | nil => exact h
  | cons task tasks =>
    cases m.progress with
    | ended fulfilled => exact h
    | transacting sweep batches =>
      have hopen : m.pauseResolved = false := by
        by_contra hresolved
        rw [Bool.not_eq_false] at hresolved
        rw [h.calm.idle hresolved] at hrunning
        cases hrunning
      obtain ⟨made, progress, heq, hmade⟩ := runBatches_spec m skip sweep batches
      simp only
      rw [heq]
      exact ⟨h.calm.withRequests hmade hopen, h.timers⟩

theorem Guarded.settle (h : Guarded m) : Guarded m.settle := by
  unfold ModbusMaster.settle
  cases m.loops.running with
  | nil => exact h
  | cons task tasks =>
    cases m.progress with
    | transacting sweep batches => exact h
    | ended fulfilled =>
      have hsettled : Guarded (m.quietly (.settle 0 fulfilled)) := h.quietly trivial
      simp only
      split
      · exact hsettled.congr rfl rfl rfl rfl rfl
      · exact hsettled

/-! ## Every run -/

/-- A waiting operation is let onto the bus while a pause is in force. -/
def entersPause (m : ModbusMaster) : MasterEvent → Bool
  | .wake i _ =>
    m.serialTransactionPaused && !m.loops.loops.busy && decide (i < m.loops.sleeping.length)
  | _ => false

theorem wake_begins_none {s : System Operation} {i : Nat}
    (h : s.loops.busy = true ∨ s.sleeping.length ≤ i) : (step s (.wake i)).started = s.started := by
  simp only [step]
  unfold wake
  cases hi : s.sleeping[i]? with
  | none => rfl
  | some task =>
    rcases h with hbusy | hout
    · unfold runExclusive
      simp only
      rw [if_pos (by exact hbusy)]
    · rw [getElem?_eq_none hout] at hi
      cases hi

theorem guarded_step (h : Guarded m) {e : MasterEvent} (he : entersPause m e = false) :
    Guarded (masterStep m e) := by
  cases e with
  | configure config => exact h.congr rfl rfl rfl rfl rfl
  | connection isConnected => exact h.congr rfl rfl rfl rfl rfl
  | edit registers => exact h.congr rfl rfl rfl rfl rfl
  | linkChanged =>
    simp only [masterStep]
    unfold linkChanged
    split_ifs
    · exact h.quietly trivial
    · exact h.quietly trivial
  | start =>
    simp only [masterStep]
    unfold start
    split_ifs
    · exact h
    · have hnext : Guarded { m with running := true, stopped := false } :=
        h.congr rfl rfl rfl rfl rfl
      exact hnext.quietly trivial
  | stop =>
    have hnext : Guarded { m with stopped := true, running := false } := h.congr rfl rfl rfl rfl rfl
    exact hnext.quietly trivial
  | pause aborted => exact h.pause aborted
  | abortPause pause => exact Guarded.orResume (h.quietly trivial)
  | resume => exact h.resume
  | readOnce reg =>
    simp only [masterStep]
    unfold readOnce
    split_ifs with hpaused hread
    · exact h
    · exact h
    · exact h.onLoops (fun hp => absurd hp hpaused) _ _
  | readAll skip =>
    simp only [masterStep]
    unfold readAll
    split_ifs with hpaused
    · exact h
    · exact h.onLoops (fun hp => absurd hp hpaused) _ _
  | sendRow reg =>
    simp only [masterStep]
    unfold sendRow
    simp only
    split_ifs with hpaused hnone
    · exact h
    · exact h
    · exact h.onLoops (fun hp => absurd hp hpaused) _ _
  | sendAll =>
    simp only [masterStep]
    unfold sendAll
    split_ifs with hpaused
    · exact h
    · exact h.onLoops (fun hp => absurd hp hpaused) _ _
  | fire id skip targets =>
    apply h.onLoops
    intro hpaused
    have hnone : (current m).loops.liveTimers = [] := h.timers hpaused
    simp only [step]
    unfold fire
    rw [hnone]
    rfl
  | wake i skip =>
    apply h.onLoops
    intro hpaused
    apply wake_begins_none
    unfold entersPause at he
    rw [hpaused, Bool.true_and, Bool.and_eq_false_iff, Bool.not_eq_false', decide_eq_false_iff_not,
      not_lt] at he
    exact he
  | transacted skip => exact h.transacted skip
  | settle => exact h.settle
  | goOn i => exact h.quietly trivial
  | rearm =>
    simp only [masterStep]
    unfold rearm
    split_ifs
    · exact h
    · have hnext : Guarded { m with rearming := m.rearming - 1 } := h.congr rfl rfl rfl rfl rfl
      exact hnext.quietly trivial

theorem guarded_new (config : ModbusMasterConfig) (isConnected : Bool)
    (registers : List ModbusRow) : Guarded (.new config isConnected registers) := by
  have hinitial : Guarded (.initial config isConnected registers) :=
    ⟨⟨inv_new _, fun _ => ⟨rfl, rfl⟩, by rintro ⟨⟩, by rintro request ⟨⟩⟩, by rintro ⟨⟩⟩
  exact guarded_step hinitial (e := .linkChanged) rfl

/-- No step of the run lets a waiting operation onto the bus in a pause. -/
def NoneEnters : ModbusMaster → List MasterEvent → Prop
  | _, [] => True
  | m, e :: events => entersPause m e = false ∧ NoneEnters (masterStep m e) events

theorem guarded_run (h : Guarded m) {events : List MasterEvent} (hnone : NoneEnters m events) :
    Guarded (run masterStep m events) := by
  induction events generalizing m with
  | nil => exact h
  | cons e events ih => exact ih (guarded_step h hnone.1) hnone.2

/-- The master after some events. -/
def after (config : ModbusMasterConfig) (isConnected : Bool) (registers : List ModbusRow)
    (events : List MasterEvent) : ModbusMaster :=
  run masterStep (.new config isConnected registers) events

def link : ModbusMasterConfig := ⟨true, .pdu, 1000, 1000⟩

/-- A holding register to read. -/
def level : ModbusRegister where
  id := "level"
  slaveAddress := 1
  functionCode := .readHoldingRegisters
  address := 0
  quantity := none
  type := .uint16
  waveformChannel := none
  value := none
  values := none
  slave_in_range := one_is_a_slave
  address_in_range := zero_is_an_address

/-- Two reads are asked for, a pause comes while the first has the bus, and once it is over and
the pause has resolved the second goes out. -/
def queuedRead : List MasterEvent :=
  [.readOnce level, .readOnce level, .pause false, .transacted (fun _ => false), .settle,
    .wake 0 (fun _ => false)]

theorem a_queued_read_goes_out_in_the_pause :
    ¬ ∀ config isConnected registers events,
      NoRequestInPause (after config isConnected registers events) := by
  intro h
  have hlast := h link true [] queuedRead ⟨[0x03, 0x00, 0x00, 0x00, 0x01], true⟩ (by decide +kernel)
  cases hlast

/-- A pause is exclusive in every run in which no operation that waits for the bus gets it while
the pause is in force. -/
theorem no_request_in_a_pause_that_no_waiting_operation_enters (config : ModbusMasterConfig)
    (isConnected : Bool) (registers : List ModbusRow) (events : List MasterEvent)
    (hnone : NoneEnters (.new config isConnected registers) events) :
    NoRequestInPause (after config isConnected registers events) :=
  (guarded_run (guarded_new config isConnected registers) hnone).calm.requests

/-- Two reads and then a pause, which waits for the second of them. -/
theorem a_pause_behind_two_reads :
    NoRequestInPause (after link true [] [.readOnce level, .transacted (fun _ => false), .settle,
      .readOnce level, .pause false, .transacted (fun _ => false), .settle, .resume]) :=
  no_request_in_a_pause_that_no_waiting_operation_enters link true [] _ (by
    simp only [NoneEnters, entersPause, and_self])

end bbcom.modbus_master
