-- What each log of the auto-log gets (`automation-bridge.ts`): its frames in order and once, in
-- batches within the limits, and in the end one of `finish` and `abort`.
import Bbcom.AutoLogBridge

open bbcom.histories bbcom.serial

namespace bbcom.auto_log

open SessionAutoLogState List

/-! ## The claim about one log -/

def acceptedOf : List Happening → List DataFrame
  | [] => []
  | .accepted frame :: past => acceptedOf past ++ [frame]
  | _ :: past => acceptedOf past

def appendedOf : List Happening → List DataFrame
  | [] => []
  | .append batch :: past => appendedOf past ++ batch
  | _ :: past => appendedOf past

def acknowledgedOf : List Happening → List DataFrame
  | [] => []
  | .answered batch true :: past => acknowledgedOf past ++ batch
  | _ :: past => acknowledgedOf past

/-- The append for which the worker waits. -/
def outstanding : List Happening → Option (List DataFrame)
  | [] => none
  | .append batch :: _ => some batch
  | .answered _ _ :: _ => none
  | _ :: past => outstanding past

def Ended (history : List Happening) : Prop := .finish ∈ history ∨ .abort ∈ history

def Allowed (past : List Happening) : Happening → Prop
  | .accepted _ => ¬Ended past
  | .append batch =>
    outstanding past = none ∧ ¬Ended past ∧ appendedOf past ++ batch <+: acceptedOf past ∧
      batch.length ≤ AUTO_LOG_MAX_BATCH_FRAMES ∧ framesByteLength batch ≤ AUTO_LOG_MAX_BATCH_BYTES
  | .answered batch _ => outstanding past = some batch
  | .finish => ¬Ended past ∧ acknowledgedOf past = acceptedOf past
  | .abort => ¬Ended past

/-! ## The invariant of one log -/

/-- The batch that is taken and not yet appended. -/
def Worker.uncalled : Worker → List DataFrame
  | appending batch false _ => batch
  | _ => []

def Worker.called : Worker → Option (List DataFrame)
  | appending batch true _ => some batch
  | _ => Option.none

structure Sound (s : SessionAutoLogState) : Prop where
  lawful : Lawful Allowed s.history
  mode : s.accepting = true ↔ s.shutdownMode = .none
  debounce : s.debounceTimer = true → s.accepting = true
  frames : ∃ dropped,
    acceptedOf s.history = appendedOf s.history ++ s.worker.uncalled ++ s.queue ++ dropped ∧
      (s.shutdownMode ≠ .abort → dropped = [])
  acknowledged : s.shutdownMode ≠ .abort →
    appendedOf s.history = acknowledgedOf s.history ++ s.worker.called.getD []
  outstanding : outstanding s.history = s.worker.called
  bytes : s.outstandingBytes = framesByteLength s.queue + framesByteLength s.worker.batch
  entries : s.outstandingEntries = s.queue.length + s.worker.batch.length
  bytesMax : s.outstandingBytes ≤ AUTO_LOG_MAX_QUEUED_BYTES
  entriesMax : s.outstandingEntries ≤ AUTO_LOG_MAX_QUEUED_ENTRIES
  small : ∀ frame ∈ s.queue, frame.data.length ≤ AUTO_LOG_MAX_BATCH_BYTES
  batch : s.worker.batch.length ≤ AUTO_LOG_MAX_BATCH_FRAMES ∧
    framesByteLength s.worker.batch ≤ AUTO_LOG_MAX_BATCH_BYTES
  dropped : s.shutdownMode = .abort → s.queue = []
  busy : s.shutdownMode ≠ .none → s.terminal = .none → s.worker ≠ .none ∧ s.worker ≠ .terminal
  over_ : s.terminal ≠ .none → s.shutdownMode ≠ .none ∧ s.queue = [] ∧
    ∀ batch called cancelled, s.worker = .appending batch called cancelled →
      called = true ∧ cancelled = true ∧ s.shutdownMode = .abort
  terminal : s.worker = .terminal → s.terminal ≠ .none
  cancelled : ∀ batch called, s.worker = .appending batch called true → s.terminal ≠ .none
  ended : Ended s.history ↔ s.terminal = .called ∨ s.terminal = .settled

variable {s : SessionAutoLogState}

variable {terminal : Terminal}

/-- What holds of a log without frames that has no worker. -/
theorem sound_idle {accepting : Bool} {shutdownMode : ShutdownMode} {history : List Happening}
    (sessionId : String) (hlawful : Lawful Allowed history)
    (hmode : accepting = true ↔ shutdownMode = .none) (haccepted : acceptedOf history = [])
    (happended : appendedOf history = []) (hacknowledged : acknowledgedOf history = [])
    (houtstanding : outstanding history = none) (hbusy : shutdownMode ≠ .none → terminal ≠ .none)
    (hover : terminal ≠ .none → shutdownMode ≠ .none)
    (hended : Ended history ↔ terminal = .called ∨ terminal = .settled) :
    Sound { sessionId, accepting, shutdownMode, terminal, history } where
  lawful := hlawful
  mode := hmode
  debounce := by simp
  frames := by
    refine ⟨[], ?_, fun _ => rfl⟩
    simp [haccepted, happended, Worker.uncalled]
  acknowledged _ := by simp [happended, hacknowledged, Worker.called]
  outstanding := houtstanding
  bytes := by simp [Worker.batch]
  entries := by simp [Worker.batch]
  bytesMax := Int.natCast_nonneg _
  entriesMax := Int.natCast_nonneg _
  small := by simp
  batch := by simp [Worker.batch]
  dropped _ := rfl
  busy hshut hterminal := absurd hterminal (hbusy hshut)
  over_ hterminal := ⟨hover hterminal, rfl, by simp⟩
  terminal := by simp
  cancelled := by simp
  ended := hended

theorem sound_new (sessionId : String) : Sound { sessionId := sessionId } := by
  apply sound_idle
  · trivial
  all_goals simp [acceptedOf, appendedOf, acknowledgedOf, bbcom.auto_log.outstanding, Ended]

/-- A log that is aborted as soon as it was begun. -/
theorem sound_stale (sessionId : String) :
    Sound { sessionId := sessionId, accepting := false, shutdownMode := .abort,
            terminal := .settled, history := [.abort] } := by
  apply sound_idle
  · exact ⟨by simp [Allowed, Ended], trivial⟩
  all_goals simp [acceptedOf, appendedOf, acknowledgedOf, bbcom.auto_log.outstanding, Ended]

theorem Sound.not_ended (h : Sound s) (hterminal : s.terminal = .none) : ¬Ended s.history := by
  rw [h.ended, hterminal]
  rintro (hcalled | hsettled)
  · cases hcalled
  · cases hsettled

/-- A log that accepts has no terminal. -/
theorem Sound.accepting_terminal (h : Sound s) (haccepting : s.accepting = true) :
    s.terminal = .none := by
  by_contra hterminal
  exact (h.over_ hterminal).1 (h.mode.1 haccepting)

/-! ## Batches -/

theorem batchCount_spec (count rawBytes : Nat) (queue : List DataFrame) :
    ∃ taken, batchCount count rawBytes queue = count + taken ∧
      (count ≤ AUTO_LOG_MAX_BATCH_FRAMES → count + taken ≤ AUTO_LOG_MAX_BATCH_FRAMES) ∧
      ((∀ frame ∈ queue, frame.data.length ≤ AUTO_LOG_MAX_BATCH_BYTES) →
        rawBytes ≤ AUTO_LOG_MAX_BATCH_BYTES → (count = 0 → rawBytes = 0) →
        rawBytes + framesByteLength (queue.take taken) ≤ AUTO_LOG_MAX_BATCH_BYTES) := by
  induction queue generalizing count rawBytes with
  | nil => exact ⟨0, rfl, id, fun _ h _ => by simpa using h⟩
  | cons next rest ih =>
    unfold batchCount
    split
    · exact ⟨0, rfl, id, fun _ h _ => by simpa using h⟩
    · rename_i hroom
      split
      · exact ⟨0, rfl, id, fun _ h _ => by simpa using h⟩
      · rename_i hfits
        obtain ⟨taken, hcount, hmax, hbytes⟩ := ih (count + 1) (rawBytes + next.data.length)
        refine ⟨taken + 1, by omega, fun _ => ?_, fun hsmall hraw hfirst => ?_⟩
        · have := hmax (by omega)
          omega
        · have hnext := hsmall next mem_cons_self
          have hsum := hbytes (fun frame hframe => hsmall frame (mem_cons_of_mem _ hframe))
            (by omega) (by omega)
          rw [take_succ_cons, framesByteLength_cons]
          omega

theorem take_batch_length (hmax : batchCount 0 0 s.queue ≤ AUTO_LOG_MAX_BATCH_FRAMES) :
    s.takeNextBatch.1.length ≤ AUTO_LOG_MAX_BATCH_FRAMES := by
  unfold takeNextBatch
  dsimp only
  rw [length_take]
  omega

/-- The next batch keeps the limits. -/
theorem takeNextBatch_limits (hsmall : ∀ frame ∈ s.queue,
    frame.data.length ≤ AUTO_LOG_MAX_BATCH_BYTES) :
    s.takeNextBatch.1.length ≤ AUTO_LOG_MAX_BATCH_FRAMES ∧
      framesByteLength s.takeNextBatch.1 ≤ AUTO_LOG_MAX_BATCH_BYTES := by
  obtain ⟨taken, hcount, hmax, hbytes⟩ := batchCount_spec 0 0 s.queue
  have hlimit := hmax (by decide)
  refine ⟨take_batch_length (hcount ▸ hlimit), ?_⟩
  have hsum := hbytes hsmall (by decide) fun _ => rfl
  unfold takeNextBatch
  dsimp only
  rw [hcount, Nat.zero_add]
  omega

/-! ## What each piece keeps -/

theorem Sound.cancelDebounce (h : Sound s) : Sound { s with debounceTimer := false } :=
  { h with debounce := by simp }

theorem Sound.armDebounce (h : Sound s) : Sound s.armDebounce := by
  unfold SessionAutoLogState.armDebounce
  split
  · exact h
  · rename_i hidle
    have haccepting : s.accepting = true := by
      by_contra hclosed
      exact hidle (.inr (.inr (by simpa using hclosed)))
    exact { h with debounce := fun _ => haccepting }

theorem Sound.startWorker (h : Sound s) (hworker : s.worker = .none) :
    Sound { s with worker := .starting } where
  lawful := h.lawful
  mode := h.mode
  debounce := h.debounce
  frames := by
    have hframes := h.frames
    rwa [hworker] at hframes
  acknowledged := by
    have hacknowledged := h.acknowledged
    rwa [hworker] at hacknowledged
  outstanding := by
    have houtstanding := h.outstanding
    rwa [hworker] at houtstanding
  bytes := by
    have hbytes := h.bytes
    rwa [hworker] at hbytes
  entries := by
    have hentries := h.entries
    rwa [hworker] at hentries
  bytesMax := h.bytesMax
  entriesMax := h.entriesMax
  small := h.small
  batch := by simp [Worker.batch]
  dropped := h.dropped
  busy _ _ := by simp
  over_ hterminal := ⟨(h.over_ hterminal).1, (h.over_ hterminal).2.1, by simp⟩
  terminal := by simp
  cancelled := by simp
  ended := h.ended

theorem Sound.ensureWorker (h : Sound s) : Sound s.ensureWorker := by
  unfold SessionAutoLogState.ensureWorker
  dsimp only
  split
  · rename_i hworker
    exact (h.cancelDebounce).startWorker hworker
  · exact h.cancelDebounce

theorem ensureWorker_worker (s : SessionAutoLogState) : s.ensureWorker.worker ≠ .none := by
  unfold ensureWorker
  dsimp only
  split
  · simp
  · assumption

theorem ensureWorker_debounce (s : SessionAutoLogState) :
    s.ensureWorker.debounceTimer = false := by
  unfold ensureWorker
  dsimp only
  split <;> rfl

/-- While no shutdown has begun, the worker is not at the terminal. -/
theorem Sound.worker_ne_terminal (h : Sound s) (hmode : s.shutdownMode = .none) :
    s.worker ≠ .terminal := by
  intro hworker
  exact (h.over_ (h.terminal hworker)).1 hmode

/-- The log accepts no more, and a worker goes on with it. -/
theorem Sound.close (h : Sound s) (hdebounce : s.debounceTimer = false)
    (hworker : s.worker ≠ .none) (hmode : s.shutdownMode = .none) :
    Sound { s with accepting := false, shutdownMode := .graceful } where
  lawful := h.lawful
  mode := by simp
  debounce := by simp [hdebounce]
  frames := by
    obtain ⟨dropped, hframes, hdropped⟩ := h.frames
    exact ⟨dropped, hframes, fun _ => hdropped (by simp [hmode])⟩
  acknowledged _ := h.acknowledged (by simp [hmode])
  outstanding := h.outstanding
  bytes := h.bytes
  entries := h.entries
  bytesMax := h.bytesMax
  entriesMax := h.entriesMax
  small := h.small
  batch := h.batch
  dropped := by simp
  busy _ _ := ⟨hworker, h.worker_ne_terminal hmode⟩
  over_ hterminal := absurd hmode (h.over_ hterminal).1
  terminal := h.terminal
  cancelled := h.cancelled
  ended := h.ended

variable {worker : Worker}

/-- The rest of the queue is dropped, whatever becomes of the wait of the worker and of the
terminal. -/
theorem Sound.abort (h : Sound s) (huncalled : worker.uncalled = s.worker.uncalled)
    (hcalled : worker.called = s.worker.called) (hbatch : worker.batch = s.worker.batch)
    (hbusy : terminal = .none → worker ≠ .none ∧ worker ≠ .terminal)
    (hover : terminal ≠ .none → ∀ batch called cancelled,
      worker = .appending batch called cancelled → called = true ∧ cancelled = true)
    (hend : worker = .terminal → terminal ≠ .none)
    (hcancelled : ∀ batch called, worker = .appending batch called true → terminal ≠ .none)
    (hended : Ended s.history ↔ terminal = .called ∨ terminal = .settled) :
    Sound { s.markAborted with worker := worker, terminal := terminal } where
  lawful := h.lawful
  mode := by simp [markAborted, dropQueuedEntries]
  debounce := by simp [markAborted, dropQueuedEntries]
  frames := by
    obtain ⟨dropped, hframes, -⟩ := h.frames
    refine ⟨s.queue ++ dropped, ?_, fun hmode => absurd rfl hmode⟩
    simp only [markAborted, dropQueuedEntries]
    rw [hframes, huncalled, append_nil, append_assoc _ s.queue]
  acknowledged hmode := absurd rfl hmode
  outstanding := h.outstanding.trans hcalled.symm
  bytes := by
    have hbytes := h.bytes
    simp only [markAborted, dropQueuedEntries, framesByteLength_nil, hbatch]
    omega
  entries := by
    have hentries := h.entries
    simp only [markAborted, dropQueuedEntries, length_nil, hbatch]
    omega
  bytesMax := by
    have hmax := h.bytesMax
    simp only [markAborted, dropQueuedEntries]
    omega
  entriesMax := by
    have hmax := h.entriesMax
    simp only [markAborted, dropQueuedEntries]
    omega
  small := by simp [markAborted, dropQueuedEntries]
  batch := hbatch ▸ h.batch
  dropped _ := rfl
  busy _ := hbusy
  over_ hterminal := by
    refine ⟨by simp [markAborted, dropQueuedEntries], rfl, fun batch called cancelled hworker => ?_⟩
    obtain ⟨hcalled, hcancelled⟩ := hover hterminal batch called cancelled hworker
    exact ⟨hcalled, hcancelled, rfl⟩
  terminal := hend
  cancelled := hcancelled
  ended := hended

/-- `markAborted`, where a worker or the terminal goes on. -/
theorem Sound.markAborted (h : Sound s) (hgoesOn : s.worker ≠ .none ∨ s.terminal ≠ .none) :
    Sound s.markAborted := by
  refine h.abort rfl rfl rfl (fun hterminal => ?_) (fun hterminal => ?_) h.terminal h.cancelled
    h.ended
  · have hworker := hgoesOn.resolve_right (fun hnot => hnot hterminal)
    exact ⟨hworker, fun hend => h.terminal hend hterminal⟩
  · intro batch called cancelled hworker
    obtain ⟨hcalled, hcancelled, -⟩ := (h.over_ hterminal).2.2 batch called cancelled hworker
    exact ⟨hcalled, hcancelled⟩

theorem terminalOnce_terminal (s : SessionAutoLogState) : s.terminalOnce.terminal ≠ .none := by
  unfold terminalOnce
  split
  · simp
  · assumption

section

variable (h : Sound s) (hworker : s.worker = .starting)
include h hworker

/-- The terminal is queued for a log without a batch. -/
theorem Sound.toTerminal (hmode : s.shutdownMode ≠ .none) (hqueue : s.queue = []) :
    Sound { s.terminalOnce with worker := .terminal } := by
  have hsame : Sound { s with worker := .starting } := by
    rwa [← hworker]
  have hqueued : ∀ terminal : Terminal, terminal ≠ .none →
      (Ended s.history ↔ terminal = .called ∨ terminal = .settled) →
      Sound { s with terminal := terminal, worker := .terminal } := fun terminal hset hended =>
    { hsame with
      batch := by simp [Worker.batch]
      busy _ hterminal := absurd hterminal hset
      over_ _ := ⟨hmode, hqueue, by simp⟩
      terminal _ := hset
      cancelled := by simp
      ended := hended }
  unfold terminalOnce
  split
  · rename_i hterminal
    apply hqueued .queued (by simp)
    exact iff_of_false (h.not_ended hterminal) (by simp)
  · rename_i hterminal
    exact hqueued s.terminal hterminal h.ended

theorem Sound.endDrain (hqueue : s.queue = []) : Sound s.endDrain := by
  unfold SessionAutoLogState.endDrain
  split
  · rename_i hmode
    exact h.toTerminal hworker hmode hqueue
  · rename_i hmode
    have hnone : s.shutdownMode = .none := by simpa using hmode
    have hsame : Sound { s with worker := .starting } := by
      rwa [← hworker]
    have hrest : Sound { s with worker := .none } :=
      { hsame with
        batch := by simp [Worker.batch]
        busy hshut := absurd hnone hshut
        over_ hterminal := absurd hnone (h.over_ hterminal).1
        terminal := by simp
        cancelled := by simp }
    dsimp only
    split
    · exact hrest.armDebounce
    · exact hrest

theorem Sound.drainState : Sound s.drainState := by
  unfold SessionAutoLogState.drainState
  split
  · rename_i hmore
    have hterminal : s.terminal = .none := by
      by_contra hset
      exact hmore.1 (h.over_ hset).2.1
    have hlimits := takeNextBatch_limits h.small
    have hsplit : s.takeNextBatch.1 ++ s.takeNextBatch.2.queue = s.queue :=
      take_append_drop _ _
    exact
      { lawful := h.lawful
        mode := h.mode
        debounce := h.debounce
        frames := by
          obtain ⟨dropped, hframes, hdropped⟩ := h.frames
          refine ⟨dropped, ?_, hdropped⟩
          rw [hworker, ← hsplit] at hframes
          simp only [append_assoc] at hframes ⊢
          exact hframes
        acknowledged := by
          have hacknowledged := h.acknowledged
          rwa [hworker] at hacknowledged
        outstanding := by
          have houtstanding := h.outstanding
          rwa [hworker] at houtstanding
        bytes := by
          have hbytes := h.bytes
          rw [hworker, ← hsplit, framesByteLength_append] at hbytes
          simp only [Worker.batch, framesByteLength_nil] at hbytes
          simp only [Worker.batch]
          have hkept : s.takeNextBatch.2.outstandingBytes = s.outstandingBytes := rfl
          omega
        entries := by
          have hentries := h.entries
          rw [hworker, ← hsplit, length_append] at hentries
          simp only [Worker.batch, length_nil] at hentries
          simp only [Worker.batch]
          have hkept : s.takeNextBatch.2.outstandingEntries = s.outstandingEntries := rfl
          omega
        bytesMax := h.bytesMax
        entriesMax := h.entriesMax
        small frame hframe := h.small frame (mem_of_mem_drop hframe)
        batch := hlimits
        dropped habort := absurd habort hmore.2
        busy := by simp
        over_ hset := absurd hterminal hset
        terminal := by simp
        cancelled := by simp
        ended := h.ended }
  · rename_i hnomore
    have hqueue : s.queue = [] := by
      by_contra hmore
      exact hnomore ⟨hmore, fun habort => hmore (h.dropped habort)⟩
    exact h.endDrain hworker hqueue

end

/-- The worker has its answer, or waits no more. -/
def SessionAutoLogState.answer (s : SessionAutoLogState) (batch : List DataFrame)
    (acknowledged : Bool) : SessionAutoLogState :=
  { s.record (.answered batch acknowledged) with
    outstandingBytes := s.outstandingBytes - framesByteLength batch
    outstandingEntries := s.outstandingEntries - batch.length
    worker := .starting }

@[simp] theorem answer_worker (s : SessionAutoLogState) (batch : List DataFrame)
    (acknowledged : Bool) : (s.answer batch acknowledged).worker = .starting := rfl

variable {batch : List DataFrame} {cancelled : Bool}

theorem Sound.answer (h : Sound s) (hworker : s.worker = .appending batch true cancelled)
    (acknowledged : Bool) (hfailed : acknowledged = false → s.shutdownMode = .abort) :
    Sound (s.answer batch acknowledged) where
  lawful := by
    refine ⟨?_, h.lawful⟩
    change bbcom.auto_log.outstanding s.history = some batch
    rw [h.outstanding, hworker]
    rfl
  mode := h.mode
  debounce := h.debounce
  frames := by
    obtain ⟨dropped, hframes, hdropped⟩ := h.frames
    refine ⟨dropped, ?_, hdropped⟩
    rw [hworker] at hframes
    exact hframes
  acknowledged hmode := by
    have hall := h.acknowledged hmode
    rw [hworker] at hall
    cases acknowledged with
    | false => exact absurd (hfailed rfl) hmode
    | true =>
      change appendedOf s.history = (acknowledgedOf s.history ++ batch) ++ []
      rw [hall, append_nil]
      rfl
  outstanding := rfl
  bytes := by
    have hbytes := h.bytes
    rw [hworker] at hbytes
    simp only [SessionAutoLogState.answer, SessionAutoLogState.record, Worker.batch,
      framesByteLength_nil] at hbytes ⊢
    omega
  entries := by
    have hentries := h.entries
    rw [hworker] at hentries
    simp only [SessionAutoLogState.answer, SessionAutoLogState.record, Worker.batch,
      length_nil] at hentries ⊢
    omega
  bytesMax := by
    have hmax := h.bytesMax
    simp only [SessionAutoLogState.answer]
    omega
  entriesMax := by
    have hmax := h.entriesMax
    simp only [SessionAutoLogState.answer]
    omega
  small := h.small
  batch := by simp [Worker.batch]
  dropped := h.dropped
  busy _ _ := by simp
  over_ hterminal := ⟨(h.over_ hterminal).1, (h.over_ hterminal).2.1, by simp⟩
  terminal := by simp
  cancelled := by simp
  ended := by
    have hended := h.ended
    simpa [SessionAutoLogState.answer, SessionAutoLogState.record, Ended] using hended

/-- The loop does not look at where it stands itself. -/
theorem endDrain_setWorker (s : SessionAutoLogState) (worker : Worker) :
    { s with worker := worker }.endDrain = s.endDrain := by
  unfold endDrain terminalOnce
  by_cases hterminal : s.terminal = .none <;> simp [hterminal]

theorem drainState_setWorker (s : SessionAutoLogState) (worker : Worker) :
    { s with worker := worker }.drainState = s.drainState := by
  unfold drainState
  rw [endDrain_setWorker]
  rfl

theorem afterAppend_true (s : SessionAutoLogState) (batch : List DataFrame) :
    s.afterAppend batch true = (s.answer batch true).drainState :=
  drainState_setWorker (s.answer batch true) s.worker

theorem afterAppend_false (s : SessionAutoLogState) (batch : List DataFrame) :
    s.afterAppend batch false = (s.markAborted.answer batch false).endDrain :=
  endDrain_setWorker (s.markAborted.answer batch false) s.worker

theorem Sound.afterAppend (h : Sound s) (hworker : s.worker = .appending batch true cancelled)
    (acknowledged : Bool) : Sound (s.afterAppend batch acknowledged) := by
  cases acknowledged with
  | true =>
    rw [afterAppend_true]
    exact (h.answer hworker true (by simp)).drainState rfl
  | false =>
    rw [afterAppend_false]
    have haborted := h.markAborted (.inl (by simp [hworker]))
    exact (haborted.answer hworker false fun _ => rfl).endDrain rfl rfl

variable {frame : DataFrame}

/-- A frame within the limits. -/
theorem Sound.accept (h : Sound s) (haccepting : s.accepting = true)
    (hfits : s.exceedsLimit frame = false) :
    Sound { s.record (.accepted frame) with
      queue := s.queue ++ [frame]
      outstandingBytes := s.outstandingBytes + frame.data.length
      outstandingEntries := s.outstandingEntries + 1 } := by
  have hmode := h.mode.1 haccepting
  have hterminal := h.accepting_terminal haccepting
  simp only [exceedsLimit, Bool.or_eq_false_iff, decide_eq_false_iff_not, not_lt] at hfits
  obtain ⟨⟨hsmall, hbytesMax⟩, hentriesMax⟩ := hfits
  exact
    { lawful := ⟨h.not_ended hterminal, h.lawful⟩
      mode := h.mode
      debounce := h.debounce
      frames := by
        obtain ⟨dropped, hframes, hdropped⟩ := h.frames
        rw [hdropped (by simp [hmode]), append_nil] at hframes
        refine ⟨[], ?_, fun _ => rfl⟩
        change acceptedOf s.history ++ [frame] = _
        rw [hframes, append_nil, append_assoc]
        rfl
      acknowledged := h.acknowledged
      outstanding := h.outstanding
      bytes := by
        have hbytes := h.bytes
        simp only [record, framesByteLength_append, framesByteLength_cons, framesByteLength_nil]
        omega
      entries := by
        have hentries := h.entries
        simp only [record, length_append, length_singleton]
        omega
      bytesMax := hbytesMax
      entriesMax := hentriesMax
      small f hf := by
        rcases mem_append.1 hf with hold | hnew
        · exact h.small f hold
        · rw [mem_singleton.1 hnew]
          exact hsmall
      batch := h.batch
      dropped habort := absurd (hmode.symm.trans habort) (by simp)
      busy := h.busy
      over_ hset := absurd hterminal hset
      terminal := h.terminal
      cancelled := h.cancelled
      ended := by
        have hended := h.ended
        simpa [record, Ended] using hended }

theorem markAborted_ensureWorker (s : SessionAutoLogState) :
    s.markAborted.ensureWorker = s.ensureWorker.markAborted := by
  unfold ensureWorker
  by_cases hworker : s.worker = .none <;>
    simp [hworker, markAborted, dropQueuedEntries]

theorem Sound.acceptFrame (h : Sound s) (haccepting : s.accepting = true) :
    Sound (s.acceptFrame frame) := by
  unfold SessionAutoLogState.acceptFrame
  split
  · rw [markAborted_ensureWorker]
    exact h.ensureWorker.markAborted (.inl (ensureWorker_worker s))
  · rename_i hfits
    have hmore := h.accept haccepting (eq_false_of_ne_true hfits)
    dsimp only
    split
    · exact hmore.ensureWorker
    · exact hmore.armDebounce

theorem beginShutdown_eq (s : SessionAutoLogState) :
    s.beginShutdown = if s.shutdownMode = .none then
        { s.ensureWorker with accepting := false, shutdownMode := .graceful }
      else { s.ensureWorker with accepting := false } := by
  unfold beginShutdown ensureWorker
  by_cases hworker : s.worker = .none <;> by_cases hmode : s.shutdownMode = .none <;>
    simp [hworker, hmode]

@[simp] theorem ensureWorker_shutdownMode (s : SessionAutoLogState) :
    s.ensureWorker.shutdownMode = s.shutdownMode := by
  unfold ensureWorker
  dsimp only
  split <;> rfl

theorem Sound.beginShutdown (h : Sound s) : Sound s.beginShutdown := by
  have hworking := h.ensureWorker
  rw [beginShutdown_eq]
  split
  · rename_i hmode
    exact hworking.close (ensureWorker_debounce s) (ensureWorker_worker s) (by simpa using hmode)
  · rename_i hmode
    have hclosed : s.ensureWorker.accepting = false := by
      apply eq_false_of_ne_true
      intro haccepting
      exact hmode (by simpa using hworking.mode.1 haccepting)
    rwa [← hclosed]

/-- The worker is told to wait no more. -/
def Worker.cancel : Worker → Worker
  | appending batch called _ => .appending batch called true
  | worker => worker

variable {called : Bool}

theorem Worker.cancel_appending (h : worker.cancel = .appending batch called cancelled) :
    cancelled = true ∧ ∃ before, worker = .appending batch called before := by
  cases worker with
  | appending batch' called' before =>
    cases h
    exact ⟨rfl, before, rfl⟩
  | _ => cases h

theorem Worker.cancel_parts (worker : Worker) :
    worker.cancel.uncalled = worker.uncalled ∧ worker.cancel.called = worker.called ∧
      worker.cancel.batch = worker.batch := by
  cases worker with
  | appending batch called cancelled => cases called <;> exact ⟨rfl, rfl, rfl⟩
  | _ => exact ⟨rfl, rfl, rfl⟩

theorem drainTimeout_eq (s : SessionAutoLogState) :
    s.drainTimeout =
      { s.markAborted with worker := s.worker.cancel, terminal := s.terminalOnce.terminal } := by
  unfold drainTimeout terminalOnce
  by_cases hterminal : s.terminal = .none <;> cases hworker : s.worker <;>
    simp [hterminal, hworker, Worker.cancel, markAborted, dropQueuedEntries]

/-- The terminal is queued before the native call. -/
theorem Sound.terminalOnce_ended (h : Sound s) :
    Ended s.history ↔ s.terminalOnce.terminal = .called ∨ s.terminalOnce.terminal = .settled := by
  unfold terminalOnce
  split
  · rename_i hterminal
    exact iff_of_false (h.not_ended hterminal) (by simp)
  · exact h.ended

theorem resting_called (hresting : s.resting = true)
    (hworker : s.worker = .appending batch called cancelled) : called = true := by
  cases called with
  | true => rfl
  | false => simp [resting, hworker] at hresting

theorem Sound.drainTimeout (h : Sound s) (hresting : s.resting = true) : Sound s.drainTimeout := by
  rw [drainTimeout_eq]
  have hset := terminalOnce_terminal s
  obtain ⟨huncalled, hcalled, hbatch⟩ := s.worker.cancel_parts
  refine h.abort huncalled hcalled hbatch (fun hterminal => absurd hterminal hset) (fun _ => ?_)
    (fun _ => hset) (fun _ _ _ => hset) h.terminalOnce_ended
  intro batch called cancelled hworker
  obtain ⟨hcancelled, before, hbefore⟩ := Worker.cancel_appending hworker
  exact ⟨resting_called hresting hbefore, hcancelled⟩

/-! ## One log goes on -/

theorem Sound.appendCalled (h : Sound s) (hworker : s.worker = .appending batch false cancelled) :
    Sound ({ s with worker := .appending batch true cancelled }.record (.append batch)) := by
  have hterminal : s.terminal = .none := by
    by_contra hset
    exact Bool.false_ne_true ((h.over_ hset).2.2 batch false cancelled hworker).1
  have hnone : bbcom.auto_log.outstanding s.history = none := by
    rw [h.outstanding, hworker]
    rfl
  exact
    { lawful := by
        refine ⟨⟨hnone, h.not_ended hterminal, ?_, ?_⟩, h.lawful⟩
        · obtain ⟨dropped, hframes, -⟩ := h.frames
          rw [hworker, append_assoc] at hframes
          exact ⟨s.queue ++ dropped, hframes.symm⟩
        · have hlimits := h.batch
          rwa [hworker] at hlimits
      mode := h.mode
      debounce := h.debounce
      frames := by
        obtain ⟨dropped, hframes, hdropped⟩ := h.frames
        refine ⟨dropped, ?_, hdropped⟩
        rw [hworker] at hframes
        change acceptedOf s.history = appendedOf s.history ++ batch ++ [] ++ s.queue ++ dropped
        rw [hframes, append_nil]
        rfl
      acknowledged hmode := by
        have hall := h.acknowledged hmode
        rw [hworker] at hall
        change appendedOf s.history ++ batch = acknowledgedOf s.history ++ batch
        rw [hall]
        exact congrArg (· ++ batch) (append_nil _)
      outstanding := rfl
      bytes := by
        have hbytes := h.bytes
        rwa [hworker] at hbytes
      entries := by
        have hentries := h.entries
        rwa [hworker] at hentries
      bytesMax := h.bytesMax
      entriesMax := h.entriesMax
      small := h.small
      batch := by
        have hlimits := h.batch
        rwa [hworker] at hlimits
      dropped := h.dropped
      busy := by simp [record]
      over_ hset := absurd hterminal hset
      terminal := by simp [record]
      cancelled batch' called hcancelled := by
        cases hcancelled
        exact h.cancelled batch false hworker
      ended := by
        have hended := h.ended
        simpa [record, Ended] using hended }

/-- At the terminal, nothing waits for an append. -/
theorem Sound.delivered (h : Sound s) (hterminal : s.terminal ≠ .none)
    (hmode : s.shutdownMode ≠ .abort) : acknowledgedOf s.history = acceptedOf s.history := by
  obtain ⟨-, hqueue, hnoappend⟩ := h.over_ hterminal
  have hworker : s.worker.uncalled = [] ∧ s.worker.called.getD [] = [] := by
    cases hworker : s.worker with
    | appending batch called cancelled =>
      exact absurd (hnoappend batch called cancelled hworker).2.2 hmode
    | _ => exact ⟨rfl, rfl⟩
  obtain ⟨dropped, hframes, hdropped⟩ := h.frames
  have hall := h.acknowledged hmode
  rw [hworker.2, append_nil] at hall
  rw [hframes, hworker.1, hqueue, hdropped hmode, hall]
  simp only [append_nil]

theorem Sound.terminalCalled (h : Sound s) (hterminal : s.terminal = .queued) :
    Sound ({ s with terminal := .called }.record
      (if s.shutdownMode = ShutdownMode.abort then .abort else .finish)) := by
  have hset : s.terminal ≠ .none := by simp [hterminal]
  have hopen : ¬Ended s.history := by
    rw [h.ended, hterminal]
    simp
  have hparts : ∀ happening, Allowed s.history happening →
      happening = .abort ∨ happening = .finish →
      Sound ({ s with terminal := .called }.record happening) := by
    intro happening hallowed hend
    have hkept : Sound { s with terminal := .queued } := by rwa [← hterminal]
    obtain rfl | rfl := hend
    all_goals exact
      { hkept with
        lawful := ⟨hallowed, h.lawful⟩
        busy := by simp [record]
        over_ _ := h.over_ hset
        terminal := by simp [record]
        cancelled := by simp [record]
        ended := by simp [record, Ended] }
  split
  · exact hparts .abort hopen (.inl rfl)
  · rename_i hmode
    exact hparts .finish ⟨hopen, h.delivered hset hmode⟩ (.inr rfl)

theorem Sound.terminalSettles (h : Sound s) (hterminal : s.terminal = .called) :
    Sound { s with terminal := .settled } := by
  have hset : s.terminal ≠ .none := by simp [hterminal]
  exact
    { h with
      busy := by simp
      over_ _ := h.over_ hset
      terminal := by simp
      cancelled := by simp
      ended := by simpa [hterminal] using h.ended }

theorem Sound.workerEnds (h : Sound s) (hworker : s.worker = .terminal) :
    Sound { s with worker := .none } := by
  have hset := h.terminal hworker
  have hkept : Sound { s with worker := .terminal } := by rwa [← hworker]
  exact
    { hkept with
      batch := by simp [Worker.batch]
      busy _ hterminal := absurd hterminal hset
      over_ _ := ⟨(h.over_ hset).1, (h.over_ hset).2.1, by simp⟩
      terminal := by simp
      cancelled := by simp }

/-- What an event is to a log. -/
inductive LogSteps (s : SessionAutoLogState) : SessionAutoLogState → Prop
  | stays : LogSteps s s
  | fires (armed : s.debounceTimer = true) : LogSteps s s.ensureWorker
  | begins (starting : s.worker = .starting) : LogSteps s s.drainState
  | calls {batch : List DataFrame} {cancelled : Bool}
      (waiting : s.worker = .appending batch false cancelled) :
      LogSteps s ({ s with worker := .appending batch true cancelled }.record (.append batch))
  | settles {batch : List DataFrame} {cancelled : Bool} (fulfilled : Bool)
      (called : s.worker = .appending batch true cancelled) :
      LogSteps s (s.afterAppend batch fulfilled)
  | terminalCalled (queued : s.terminal = .queued) :
      LogSteps s ({ s with terminal := .called }.record
        (if s.shutdownMode = ShutdownMode.abort then .abort else .finish))
  | terminalSettles (called : s.terminal = .called) : LogSteps s { s with terminal := .settled }
  | ends (done : s.worker = .terminal) : LogSteps s { s with worker := .none }

theorem logStep_cases (s : SessionAutoLogState) (event : LogEvent) :
    LogSteps s (logStep s event) := by
  cases event <;> simp only [logStep] <;> split <;> try exact .stays
  · exact .fires ‹_›
  · exact .begins ‹_›
  · exact .calls ‹_›
  · exact .settles _ ‹_›
  · exact .settles _ ‹_›
  · exact .settles _ ‹_›
  · exact .terminalCalled ‹_›
  · exact .terminalSettles ‹_›
  · rename_i hends
    exact .ends hends.1

/-- Whatever goes on in a log, it stays sound. -/
theorem Sound.logStep (h : Sound s) (event : LogEvent) : Sound (logStep s event) := by
  have hsteps := logStep_cases s event
  generalize bbcom.auto_log.logStep s event = s' at hsteps ⊢
  cases hsteps with
  | stays => exact h
  | fires armed => exact h.ensureWorker
  | begins starting => exact h.drainState starting
  | calls waiting => exact h.appendCalled waiting
  | settles fulfilled called => exact h.afterAppend called fulfilled
  | terminalCalled queued => exact h.terminalCalled queued
  | terminalSettles called => exact h.terminalSettles called
  | ends done => exact h.workerEnds done

end bbcom.auto_log
