-- The runner among what surrounds it: promises, timers and sends that end in any order. What
-- holds in every state that any order of calls and continuations reaches.
import Bbcom.Lib.Runs
import Bbcom.ModbusRunner
import Bbcom.ModbusScan

open bbcom.js bbcom.modbus_core bbcom.modbus_transport bbcom.runs

namespace bbcom.modbus_runner

open ModbusTransactionRunner List Function

variable {Ctx : Type}

/-! ## The surroundings -/

/-- The runner with its surroundings. Promises and sends go by the number of the call of
`transact` that they belong to. `resolved` holds every call of a `resolve`, in order. The last
two fields only record what happened: the request that each call built, and the bytes that
came in while its transaction was started. -/
structure World (Ctx : Type) where
  runner : ModbusTransactionRunner Ctx
  nextId : Nat
  nextTimer : Nat
  timers : List (Nat × Ctx)
  sends : List (Nat × Ctx)
  unended : List (Nat × Ctx)
  resolved : List (Nat × Option ModbusResponse)
  statuses : List ModbusTransactionStatus
  asked : Nat → Option (ModbusTransport × Uint8Array)
  heard : Nat → Uint8Array

namespace World

def new : World Ctx :=
  { runner := .new, nextId := 0, nextTimer := 0, timers := [], sends := [], unended := []
    resolved := [], statuses := [], asked := fun _ => none, heard := fun _ => [] }

def apply (w : World Ctx) : Effect Ctx → World Ctx
  | .resolve id response => { w with resolved := w.resolved ++ [(id, response)] }
  | .onStatus status => { w with statuses := w.statuses ++ [status] }
  | .setTimeout timer context =>
    { w with timers := w.timers ++ [(timer, context)], nextTimer := w.nextTimer + 1 }
  | .clearTimeout timer => { w with timers := w.timers.filter fun t => t.1 ≠ timer }
  | .sent id context =>
    { w with sends := w.sends ++ [(id, context)], unended := w.unended ++ [(id, context)] }

/-- A method has run: its runner is in place, and its effects take place in order. -/
def after (w : World Ctx) (result : ModbusTransactionRunner Ctx × List (Effect Ctx)) : World Ctx :=
  result.2.foldl apply { w with runner := result.1 }

/-- The promise of a send has ended. -/
def sendOver (w : World Ctx) (id : Nat) : World Ctx :=
  { w with unended := w.unended.filter fun send => send.1 ≠ id }

/-- The first call of a `resolve` settles the promise; the later ones do nothing to it. -/
def settlement (w : World Ctx) (id : Nat) : Option (Option ModbusResponse) :=
  (w.resolved.find? fun call => call.1 = id).map Prod.snd

/-- Whether a transaction is started, and which. -/
def listening (w : World Ctx) : Option Nat :=
  match w.runner.pending with
  | none => none
  | some p => if p.started then some p.id else none

end World

/-- What can happen next. The start hook of a send can be called at any time and more than
once, each send ends once, and a timer fires as long as nobody clears it. -/
inductive Event (Ctx : Type)
  | transact (call : TransactCall Ctx)
  | writeStarted (id : Nat)
  | sendEnded (id : Nat) (how : SendEnd)
  | timeout (timer : Nat)
  | receive (bytes : Uint8Array)
  | cancel (status : Option ModbusTransactionStatus)

def step [DecidableEq Ctx] (w : World Ctx) : Event Ctx → World Ctx
  | .transact call =>
    let asked := update w.asked w.nextId
      (call.buildWire.toOption.map fun wire => (call.transport, wire))
    World.after { w with nextId := w.nextId + 1, asked }
      (w.runner.transact w.nextId w.nextTimer call)
  | .writeStarted id =>
    match w.sends.find? fun send => send.1 = id with
    | none => w
    | some send => w.after (w.runner.startTimeout send.2 w.nextTimer)
  | .sendEnded id how =>
    match w.unended.find? fun send => send.1 = id with
    | none => w
    | some send => (w.after (w.runner.afterSend id send.2 w.nextTimer how)).sendOver id
  | .timeout timer =>
    match w.timers.find? fun t => t.1 = timer with
    | none => w
    | some t =>
      World.after { w with timers := w.timers.filter fun t => t.1 ≠ timer }
        (w.runner.cancelForContext t.2 .timeout).1
  | .receive bytes =>
    let heard := match w.listening with
      | none => w.heard
      | some id => update w.heard id (w.heard id ++ bytes)
    World.after { w with heard } (w.runner.receive bytes)
  | .cancel status => w.after (w.runner.cancel status).1

/-! ## What a reply must be -/

/-- A PDU behind the slave byte that it has on RTU. -/
def onWire (transport : ModbusTransport) (slave : UInt8) (pdu : Uint8Array) : Uint8Array :=
  match transport with
  | .rtu => slave :: pdu
  | .pdu => pdu

/-- The reply, and the frame it was read from, answer the request: on RTU it comes from the
slave that was asked, and it is the exception of the function code that was asked for, or the
quantity, or the echo. -/
def Answers (transport : ModbusTransport) (wire frame : Uint8Array) (response : ModbusResponse) :
    Prop :=
  ∃ slave fc a b c d rest,
    wire = onWire transport slave (fc :: a :: b :: c :: d :: rest) ∧
    (transport = .rtu → ModbusResponse.slave response = slave) ∧
    match response with
    | .exception _ exceptionFc _ => exceptionFc = fc ||| 0x80
    | .readRegs _ responseFc regs => responseFc = fc ∧ regs.length = u16Of c d
    | .readBits _ responseFc bits => responseFc = fc ∧ bits.length = (u16Of c d + 7) / 8 * 8
    | .writeAck _ responseFc _ _ =>
      responseFc = fc ∧
        (frame.drop (if transport = .rtu then 2 else 1)).take 4 = [a, b, c, d]

/-- Where a reply came from: a window of the bytes that came in for the transaction, with a
valid CRC on RTU, that answers the request of the transaction. -/
def Justified (w : World Ctx) (id : Nat) (response : ModbusResponse) : Prop :=
  ∃ transport wire frame,
    w.asked id = some (transport, wire) ∧ frame <:+: w.heard id ∧
    parseFrame transport frame = some response ∧
    (transport = .rtu → verifyCrc frame = true) ∧ Answers transport wire frame response

theorem take_four {frame : Uint8Array} {n : Nat} {a b c d : UInt8}
    (h : ∀ i < 4, frame[n + i]? = [a, b, c, d][i]?) : (frame.drop n).take 4 = [a, b, c, d] := by
  apply ext_getElem?
  intro i
  rw [getElem?_take, getElem?_drop]
  split
  · rename_i hi
    exact h i hi
  · rename_i hi
    rw [getElem?_eq_none (by simpa using hi)]

variable {response : ModbusResponse} {id : Nat} {w : World Ctx}

theorem matcher_answers {transport : ModbusTransport} {wire frame : Uint8Array}
    (h : responseMatcher transport wire frame response = true) :
    Answers transport wire frame response := by
  unfold responseMatcher at h
  dsimp only at h
  generalize hpdu : (if transport = .rtu then wire.subarray 1 (wire.length - 2) else wire) = pdu
    at h
  by_cases hlen : pdu.length < 5
  · rw [if_pos hlen] at h
    cases h
  rw [if_neg hlen] at h
  by_cases hslave : transport = .rtu ∧ ModbusResponse.slave response ≠ wire.getD 0 0
  · rw [if_pos hslave] at h
    cases h
  rw [if_neg hslave] at h
  obtain ⟨fc, a, b, c, d, tail, rfl⟩ : ∃ fc a b c d tail, pdu = fc :: a :: b :: c :: d :: tail := by
    rcases pdu with _ | ⟨fc, _ | ⟨a, _ | ⟨b, _ | ⟨c, _ | ⟨d, tail⟩⟩⟩⟩⟩ <;>
      first | exact ⟨_, _, _, _, _, _, rfl⟩ | simp at hlen
  have hwire : ∃ slave rest, wire = onWire transport slave (fc :: a :: b :: c :: d :: rest) := by
    cases transport with
    | pdu => exact ⟨0, tail, hpdu⟩
    | rtu =>
      simp only [if_true, Uint8Array.subarray] at hpdu
      rcases wire with _ | ⟨slave, rest⟩
      · simp at hpdu
      · have htail : rest.take ((slave :: rest).length - 2 - 1) =
            fc :: a :: b :: c :: d :: tail := by
          rw [← hpdu]
          cases hn : (slave :: rest).length - 2 with
          | zero => simp
          | succ n => simp
        exact ⟨slave, tail ++ rest.drop ((slave :: rest).length - 2 - 1), by
          show slave :: rest = slave :: (fc :: a :: b :: c :: d :: tail ++ _)
          rw [← htail, take_append_drop]⟩
  obtain ⟨slave, rest, hwire⟩ := hwire
  refine ⟨slave, fc, a, b, c, d, rest, hwire, ?_, ?_⟩
  · rintro rfl
    simp only [true_and, not_not] at hslave
    rw [hslave, hwire]
    rfl
  · cases response with
    | exception _ exceptionFc _ => simpa using h
    | readRegs _ responseFc regs => simpa using h
    | readBits _ responseFc bits => simpa using h
    | writeAck _ responseFc addr count =>
      simp only [getD_cons_zero, Bool.and_eq_true, decide_eq_true_eq, all_eq_true, mem_range] at h
      refine ⟨h.1, take_four fun i hi => ?_⟩
      have hi' := h.2 i hi
      have hecho : (Uint8Array.subarray (fc :: a :: b :: c :: d :: tail) 1 5)[i]? =
          [a, b, c, d][i]? := rfl
      rw [hecho] at hi'
      rw [← hi']
      cases transport <;> simp <;> congr 1 <;> omega

/-! ## What one method can do -/

namespace ModbusTransactionRunner

/-- What a matching reply in the buffer is. -/
def Accepted (p : PendingTransaction Ctx) (buffer : Uint8Array) (response : ModbusResponse) :
    Prop :=
  ∃ frame, frame <:+: buffer ∧ (p.transport = .rtu → verifyCrc frame = true) ∧
    p.accept frame = some response

variable (r : ModbusTransactionRunner Ctx)

theorem receiveSlice_cases (p : PendingTransaction Ctx) (slice : Uint8Array) :
    (∃ rx, rx <:+ r.rxBuffer ++ slice ∧ rx.length < MAX_MODBUS_TRANSACTION_RX_BYTES ∧
      r.receiveSlice p slice = (⟨rx, r.pending⟩, [])) ∨
    ∃ response, Accepted p (r.rxBuffer ++ slice) response ∧
      r.receiveSlice p slice = (⟨[], none⟩, p.clearTimer ++ [.resolve p.id (some response)]) := by
  unfold receiveSlice
  dsimp only
  cases hfound : (scanResponse p.transport (r.rxBuffer ++ slice) p.expectedLen).frames.findSome?
    p.accept with
  | none =>
    refine .inl ⟨_, (drop_suffix _ _).trans (scanResponse_remainder _ _ _), ?_, rfl⟩
    have hmax : MAX_MODBUS_TRANSACTION_RX_BYTES = 256 := rfl
    rw [length_drop]
    omega
  | some response =>
    obtain ⟨frame, hframe, haccept⟩ := exists_of_findSome?_eq_some hfound
    obtain ⟨hwindow, hcrc⟩ := scanResponse_frames _ _ _ hframe
    exact .inr ⟨response, ⟨frame, hwindow, hcrc, haccept⟩, rfl⟩

/-- The loop either takes the bytes in and keeps an end of them, or stops at a reply. -/
theorem receiveLoop_cases (fuel : Nat) (r : ModbusTransactionRunner Ctx) (bytes : Uint8Array)
    {p : PendingTransaction Ctx} (hp : r.pending = some p) (hs : p.started = true)
    (hrx : r.rxBuffer.length < MAX_MODBUS_TRANSACTION_RX_BYTES) (hfuel : bytes.length ≤ fuel) :
    (∃ rx, rx <:+ r.rxBuffer ++ bytes ∧ rx.length < MAX_MODBUS_TRANSACTION_RX_BYTES ∧
      r.receiveLoop fuel bytes = (⟨rx, some p⟩, [])) ∨
    ∃ response, Accepted p (r.rxBuffer ++ bytes) response ∧
      r.receiveLoop fuel bytes = (⟨[], none⟩, p.clearTimer ++ [.resolve p.id (some response)]) := by
  induction fuel generalizing r bytes with
  | zero =>
    have hnil : bytes = [] := length_eq_zero_iff.mp (by omega)
    subst hnil
    obtain ⟨rx, pending⟩ := r
    cases hp
    exact .inl ⟨rx, by simp, hrx, rfl⟩
  | succ fuel ih =>
    rcases bytes with _ | ⟨byte, rest⟩
    · obtain ⟨rx, pending⟩ := r
      cases hp
      exact .inl ⟨rx, by simp, hrx, rfl⟩
    · have hpos : 0 < MODBUS_RX_PROCESS_CHUNK_BYTES := by decide
      generalize hbytes : byte :: rest = bytes at hfuel ⊢
      have hturn : r.receiveLoop (fuel + 1) bytes =
          let slice := r.receiveSlice p (bytes.take MODBUS_RX_PROCESS_CHUNK_BYTES)
          let rest := slice.1.receiveLoop fuel (bytes.drop MODBUS_RX_PROCESS_CHUNK_BYTES)
          (rest.1, slice.2 ++ rest.2) := by
        subst hbytes
        simp only [receiveLoop, hp, hs, if_true]
      have hsplit := take_append_drop MODBUS_RX_PROCESS_CHUNK_BYTES bytes
      have hdrop : (bytes.drop MODBUS_RX_PROCESS_CHUNK_BYTES).length ≤ fuel := by
        have : 0 < bytes.length := by simp [← hbytes]
        rw [length_drop]
        omega
      rw [hturn]
      rcases receiveSlice_cases r p (bytes.take MODBUS_RX_PROCESS_CHUNK_BYTES) with
        ⟨rx, hsuffix, hshort, hslice⟩ | ⟨response, ⟨frame, hframe, hcrc, haccept⟩, hslice⟩
      · rw [hslice, hp]
        dsimp only
        have hback : rx ++ bytes.drop MODBUS_RX_PROCESS_CHUNK_BYTES <:+ r.rxBuffer ++ bytes := by
          obtain ⟨front, hfront⟩ := hsuffix
          refine ⟨front, ?_⟩
          rw [← append_assoc, hfront, append_assoc, hsplit]
        rcases ih ⟨rx, some p⟩ _ rfl hshort hdrop with
          ⟨rx', hsuffix', hshort', hloop⟩ | ⟨response, ⟨frame, hframe, hcrc, haccept⟩, hloop⟩
        · rw [hloop]
          exact .inl ⟨rx', hsuffix'.trans hback, hshort', rfl⟩
        · rw [hloop]
          exact .inr ⟨response, ⟨frame, hframe.trans hback.isInfix, hcrc, haccept⟩, rfl⟩
      · rw [hslice]
        dsimp only
        have hstop : receiveLoop fuel (⟨[], none⟩ : ModbusTransactionRunner Ctx)
            (bytes.drop MODBUS_RX_PROCESS_CHUNK_BYTES) = (⟨[], none⟩, []) := by
          cases fuel with
          | zero => rfl
          | succ fuel => cases bytes.drop MODBUS_RX_PROCESS_CHUNK_BYTES <;> rfl
        rw [hstop]
        refine .inr ⟨response, ⟨frame, hframe.trans ?_, hcrc, haccept⟩, by simp⟩
        rw [← hsplit, ← append_assoc]
        simp only [hsplit]
        exact (prefix_append _ _).isInfix

/-- What `receive` does: it drops bytes that nobody waits for, keeps an end of them, or
completes the transaction. -/
theorem receive_cases (bytes : Uint8Array)
    (hrx : r.rxBuffer.length < MAX_MODBUS_TRANSACTION_RX_BYTES) :
    ((∀ p, r.pending = some p → p.started = false) ∧
      r.receive bytes = (⟨[], r.pending⟩, [])) ∨
    ∃ p, r.pending = some p ∧ p.started = true ∧
      ((∃ rx, rx <:+ r.rxBuffer ++ bytes ∧ rx.length < MAX_MODBUS_TRANSACTION_RX_BYTES ∧
        r.receive bytes = (⟨rx, some p⟩, [])) ∨
      ∃ response, Accepted p (r.rxBuffer ++ bytes) response ∧
        r.receive bytes = (⟨[], none⟩, p.clearTimer ++ [.resolve p.id (some response)])) := by
  unfold receive
  cases hp : r.pending with
  | none => exact .inl ⟨fun p h => (by cases h), rfl⟩
  | some p =>
    dsimp only
    cases hs : p.started with
    | false =>
      refine .inl ⟨fun q h => ?_, by simp⟩
      cases h
      exact hs
    | true =>
      refine .inr ⟨p, rfl, hs, ?_⟩
      rw [if_pos rfl]
      exact receiveLoop_cases bytes.length r bytes hp hs hrx (Nat.le_refl _)

theorem cancel_some {r : ModbusTransactionRunner Ctx} {p : PendingTransaction Ctx}
    (hp : r.pending = some p) (status : Option ModbusTransactionStatus) :
    r.cancel status = ((⟨[], none⟩,
      p.clearTimer ++ (status.map Effect.onStatus).toList ++ [.resolve p.id none]), true) := by
  unfold cancel
  rw [hp]

section
variable [DecidableEq Ctx]

/-- The pending transaction with this context is ended, or there is none and nothing is. -/
theorem cancelForContext_cases (context : Ctx) (status : ModbusTransactionStatus) :
    (∃ p, r.pending = some p ∧ p.context = context ∧
      r.cancelForContext context status = ((⟨[], none⟩,
        p.clearTimer ++ [.onStatus status] ++ [.resolve p.id none]), true)) ∨
    (∀ p, r.pending = some p → p.context ≠ context) ∧
      r.cancelForContext context status = ((r, []), false) := by
  unfold cancelForContext
  cases hp : r.pending with
  | none => exact .inr ⟨fun p h => (by cases h), rfl⟩
  | some p =>
    dsimp only
    by_cases hcontext : p.context = context
    · rw [if_neg (not_not.mpr hcontext)]
      exact .inl ⟨p, rfl, hcontext, cancel_some hp (some status)⟩
    · rw [if_pos hcontext]
      refine .inr ⟨fun q h => ?_, rfl⟩
      cases h
      exact hcontext

theorem cancelOrResolve_cases (id : Nat) (context : Ctx) (status : ModbusTransactionStatus) :
    (∃ p, r.pending = some p ∧ p.context = context ∧
      r.cancelOrResolve id context status =
        (⟨[], none⟩, p.clearTimer ++ [.onStatus status] ++ [.resolve p.id none])) ∨
    (∀ p, r.pending = some p → p.context ≠ context) ∧
      r.cancelOrResolve id context status = (r, [.resolve id none]) := by
  unfold cancelOrResolve
  rcases r.cancelForContext_cases context status with ⟨p, hp, hcontext, h⟩ | ⟨hnone, h⟩
  · rw [h]
    exact .inl ⟨p, hp, hcontext, rfl⟩
  · rw [h]
    exact .inr ⟨hnone, rfl⟩

/-- The pending transaction with this context starts, unless it has or there is none. -/
theorem startTimeout_cases (context : Ctx) (timer : Nat) :
    (∃ p, r.pending = some p ∧ p.context = context ∧ p.timer = none ∧
      r.startTimeout context timer =
        (⟨[], some { p with started := true, timer := some timer }⟩, [.setTimeout timer context])) ∨
    (∀ p, r.pending = some p → p.context = context → p.timer ≠ none) ∧
      r.startTimeout context timer = (r, []) := by
  unfold startTimeout
  cases hp : r.pending with
  | none => exact .inr ⟨fun p h => (by cases h), rfl⟩
  | some p =>
    dsimp only
    by_cases hstop : p.context ≠ context ∨ p.timer ≠ none
    · rw [if_pos hstop]
      refine .inr ⟨fun q h hcontext => ?_, rfl⟩
      cases h
      exact hstop.resolve_left (not_not.mpr hcontext)
    · rw [if_neg hstop]
      push Not at hstop
      exact .inl ⟨p, rfl, hstop.1, hstop.2, rfl⟩

/-- The transaction that a call opens. -/
def opened (id : Nat) (call : TransactCall Ctx) (wire : Uint8Array) : PendingTransaction Ctx :=
  { id, context := call.context, timer := none, started := false
    expectedLen := call.expectedLen, transport := call.transport, request := some wire }

/-- A call is turned away, fails before it has sent anything, or opens a transaction, which
may start at once. -/
theorem transact_cases (id timer : Nat) (call : TransactCall Ctx) :
    (∃ status, r.transact id timer call = (r, [.onStatus status, .resolve id none])) ∨
    (r.pending = none ∧ ∃ status, r.transact id timer call =
      (⟨[], none⟩, [.onStatus status, .resolve id none])) ∨
    (r.pending = none ∧ ∃ status, r.transact id timer call =
      (⟨[], none⟩, [.setTimeout timer call.context, .clearTimeout timer, .onStatus status,
        .resolve id none])) ∨
    (r.pending = none ∧ ∃ wire, call.buildWire = .ok wire ∧ r.transact id timer call =
      (⟨[], some (opened id call wire)⟩, [.sent id call.context])) ∨
    (r.pending = none ∧ ∃ wire, call.buildWire = .ok wire ∧ r.transact id timer call =
      (⟨[], some { opened id call wire with started := true, timer := some timer }⟩,
        [.setTimeout timer call.context, .sent id call.context])) := by
  unfold transact
  cases hp : r.pending with
  | some p => exact .inl ⟨_, rfl⟩
  | none =>
    obtain ⟨context, transport, buildWire, expectedLen, startsAtOnce, sendBytes⟩ := call
    refine .inr ?_
    rcases buildWire with message | wire
    · refine .inl ⟨rfl, errorStatus message, ?_⟩
      simp [cancelOrResolve, cancelForContext, cancel, PendingTransaction.clearTimer]
    · rcases sendBytes with message | _
      · cases startsAtOnce with
        | false =>
          refine .inl ⟨rfl, errorStatus message, ?_⟩
          simp [cancelOrResolve, cancelForContext, cancel, PendingTransaction.clearTimer]
        | true =>
          refine .inr (.inl ⟨rfl, errorStatus message, ?_⟩)
          simp [startTimeout, cancelOrResolve, cancelForContext, cancel,
            PendingTransaction.clearTimer]
      · cases startsAtOnce with
        | false => exact .inr (.inr (.inl ⟨rfl, wire, rfl, rfl⟩))
        | true =>
          refine .inr (.inr (.inr ⟨rfl, wire, rfl, ?_⟩))
          simp [startTimeout, opened]

end

end ModbusTransactionRunner

/-! ## The invariant -/

/-- The timers that run for a pending transaction. -/
def armed : Option (PendingTransaction Ctx) → List (Nat × Ctx)
  | none => []
  | some p =>
    match p.timer with
    | none => []
    | some timer => [(timer, p.context)]

/-- What holds at any time. The fields that begin with `pending` say that the pending
transaction is the one call that has no answer yet, and that something will still end it. -/
structure Inv (w : World Ctx) : Prop where
  rx_short : w.runner.rxBuffer.length < MAX_MODBUS_TRANSACTION_RX_BYTES
  pending_issued : ∀ p, w.runner.pending = some p → p.id < w.nextId
  pending_open : ∀ p, w.runner.pending = some p → ∀ call ∈ w.resolved, call.1 ≠ p.id
  pending_timer : ∀ p, w.runner.pending = some p → (p.started = true ↔ p.timer ≠ none)
  pending_sent : ∀ p, w.runner.pending = some p → p.started = false →
    ∃ send ∈ w.unended, send.1 = p.id
  pending_heard : ∀ p, w.runner.pending = some p → p.started = true →
    w.runner.rxBuffer <:+ w.heard p.id
  pending_request : ∀ p, w.runner.pending = some p →
    ∃ wire, p.request = some wire ∧ w.asked p.id = some (p.transport, wire)
  timers_eq : w.timers = armed w.runner.pending
  unended_issued : ∀ send ∈ w.unended, send.1 < w.nextId
  unended_context : ∀ p, w.runner.pending = some p → ∀ send ∈ w.unended, send.1 = p.id →
    send.2 = p.context
  resolved_issued : ∀ call ∈ w.resolved, call.1 < w.nextId
  resolved_else : ∀ id < w.nextId, (∀ p, w.runner.pending = some p → p.id ≠ id) →
    ∃ call ∈ w.resolved, call.1 = id
  justified : ∀ call ∈ w.resolved, ∀ response, call.2 = some response →
    Justified w call.1 response

theorem nil_short : ([] : Uint8Array).length < MAX_MODBUS_TRANSACTION_RX_BYTES := by decide

theorem inv_new : Inv (World.new : World Ctx) := by
  refine ⟨nil_short, ?_, ?_, ?_, ?_, ?_, ?_, rfl, ?_, ?_, ?_, ?_, ?_⟩ <;>
    simp [World.new, new]

/-- A justified reply stays one when more bytes come in and more calls are made. -/
theorem Justified.mono {w' : World Ctx} (h : Justified w id response)
    (hasked : w'.asked id = w.asked id) (hheard : w.heard id <+: w'.heard id) :
    Justified w' id response := by
  obtain ⟨transport, wire, frame, hask, hwindow, hrest⟩ := h
  exact ⟨transport, wire, frame, hasked.trans hask, hwindow.trans hheard.isInfix, hrest⟩

namespace Inv

variable {w : World Ctx}

section

variable (h : Inv w)
include h

/-- The buffer changes, and bytes are recorded. -/
theorem hear (rx : Uint8Array) (heard : Nat → Uint8Array)
    (hshort : rx.length < MAX_MODBUS_TRANSACTION_RX_BYTES) (hmore : ∀ id, w.heard id <+: heard id)
    (hrx : ∀ p, w.runner.pending = some p → p.started = true → rx <:+ heard p.id) :
    Inv { w with runner := ⟨rx, w.runner.pending⟩, heard } :=
  { h with
    rx_short := hshort
    pending_heard := hrx
    justified call hcall response heq := (h.justified call hcall response heq).mono rfl
      (hmore call.1) }

/-- A promise is resolved that has been settled before. -/
theorem late (hissued : id < w.nextId) (hnot : ∀ p, w.runner.pending = some p → p.id ≠ id) :
    Inv { w with resolved := w.resolved ++ [(id, none)] } :=
  { h with
    pending_open p hp call hcall := by
      rcases mem_append.mp hcall with hcall | hcall
      · exact h.pending_open p hp call hcall
      · rw [mem_singleton.mp hcall]
        exact (hnot p hp).symm
    resolved_issued call hcall := by
      rcases mem_append.mp hcall with hcall | hcall
      · exact h.resolved_issued call hcall
      · rw [mem_singleton.mp hcall]
        exact hissued
    resolved_else other hother hpending := by
      obtain ⟨call, hcall, heq⟩ := h.resolved_else other hother hpending
      exact ⟨call, mem_append_left _ hcall, heq⟩
    justified call hcall response heq := by
      rcases mem_append.mp hcall with hcall | hcall
      · exact h.justified call hcall response heq
      · rw [mem_singleton.mp hcall] at heq
        cases heq }

/-- The pending transaction ends. -/
theorem finish {p : PendingTransaction Ctx} (hp : w.runner.pending = some p)
    {response : Option ModbusResponse} (hjust : ∀ r, response = some r → Justified w p.id r) :
    Inv { w with
      runner := ⟨[], none⟩, timers := []
      resolved := w.resolved ++ [(p.id, response)] } where
  rx_short := nil_short
  pending_issued q hq := by cases hq
  pending_open q hq := by cases hq
  pending_timer q hq := by cases hq
  pending_sent q hq := by cases hq
  pending_heard q hq := by cases hq
  pending_request q hq := by cases hq
  timers_eq := rfl
  unended_issued := h.unended_issued
  unended_context q hq := by cases hq
  resolved_issued call hcall := by
    rcases mem_append.mp hcall with hcall | hcall
    · exact h.resolved_issued call hcall
    · rw [mem_singleton.mp hcall]
      exact h.pending_issued p hp
  resolved_else := by
    intro id hid _
    by_cases hsame : id = p.id
    · exact ⟨(p.id, response), by simp, hsame.symm⟩
    · obtain ⟨call, hcall, heq⟩ := h.resolved_else id hid fun q hq => by
        rw [hp] at hq
        cases hq
        exact Ne.symm hsame
      exact ⟨call, mem_append_left _ hcall, heq⟩
  justified call hcall r heq := by
    rcases mem_append.mp hcall with hcall | hcall
    · exact h.justified call hcall r heq
    · rw [mem_singleton.mp hcall] at heq ⊢
      exact hjust r heq

/-- The pending transaction starts: its timer runs from now on. -/
theorem start {p : PendingTransaction Ctx} (hp : w.runner.pending = some p)
    (htimer : p.timer = none) (timer nextTimer : Nat) :
    Inv { w with
      runner := ⟨[], some { p with started := true, timer := some timer }⟩
      timers := w.timers ++ [(timer, p.context)], nextTimer } where
  rx_short := nil_short
  pending_issued := by
    rintro q ⟨⟩
    exact h.pending_issued p hp
  pending_open := by
    rintro q ⟨⟩
    exact h.pending_open p hp
  pending_timer := by
    rintro q ⟨⟩
    simp
  pending_sent := by
    rintro q ⟨⟩ hq
    cases hq
  pending_heard := by
    rintro q ⟨⟩ _
    exact nil_suffix
  pending_request := by
    rintro q ⟨⟩
    exact h.pending_request p hp
  timers_eq := by
    show w.timers ++ _ = _
    rw [h.timers_eq, hp]
    simp [armed, htimer]
  unended_issued := h.unended_issued
  unended_context := by
    rintro q ⟨⟩
    exact h.unended_context p hp
  resolved_issued := h.resolved_issued
  resolved_else id hid hnot := by
    refine h.resolved_else id hid fun q hq => ?_
    rw [hp] at hq
    cases hq
    exact hnot { p with started := true, timer := some timer } rfl
  justified := h.justified

/-- A send is over, and with it the wait for it. -/
theorem unend (id : Nat)
    (hstarted : ∀ p, w.runner.pending = some p → p.id = id → p.started = true) :
    Inv (w.sendOver id) :=
  { h with
    pending_sent p hp hs := by
      obtain ⟨send, hsend, heq⟩ := h.pending_sent p hp hs
      refine ⟨send, mem_filter.mpr ⟨hsend, ?_⟩, heq⟩
      rw [decide_eq_true_eq]
      intro hid
      have := hstarted p hp (heq.symm.trans hid)
      rw [hs] at this
      cases this
    unended_issued send hsend := h.unended_issued send (mem_of_mem_filter hsend)
    unended_context p hp send hsend :=
      h.unended_context p hp send (mem_of_mem_filter hsend) }

/-- A call is answered at once. -/
theorem refuse (ask : Option (ModbusTransport × Uint8Array)) :
    Inv { w with
      nextId := w.nextId + 1, asked := update w.asked w.nextId ask
      resolved := w.resolved ++ [(w.nextId, none)] } :=
  { h with
    pending_issued p hp := Nat.lt_succ_of_lt (h.pending_issued p hp)
    pending_open p hp call hcall := by
      rcases mem_append.mp hcall with hcall | hcall
      · exact h.pending_open p hp call hcall
      · rw [mem_singleton.mp hcall]
        exact (Nat.ne_of_lt (h.pending_issued p hp)).symm
    pending_request p hp := by
      obtain ⟨wire, hwire, hasked⟩ := h.pending_request p hp
      refine ⟨wire, hwire, ?_⟩
      show update w.asked w.nextId ask p.id = _
      rw [update_of_ne (Nat.ne_of_lt (h.pending_issued p hp)), hasked]
    unended_issued send hsend := Nat.lt_succ_of_lt (h.unended_issued send hsend)
    resolved_issued call hcall := by
      rcases mem_append.mp hcall with hcall | hcall
      · exact Nat.lt_succ_of_lt (h.resolved_issued call hcall)
      · rw [mem_singleton.mp hcall]
        exact Nat.lt_succ_self _
    resolved_else id hid hnot := by
      by_cases hsame : id = w.nextId
      · exact ⟨(w.nextId, none), by simp, hsame.symm⟩
      · have hid : id < w.nextId := Nat.lt_of_le_of_ne (Nat.le_of_lt_succ hid) hsame
        obtain ⟨call, hcall, heq⟩ := h.resolved_else id hid hnot
        exact ⟨call, mem_append_left _ hcall, heq⟩
    justified call hcall response heq := by
      rcases mem_append.mp hcall with hcall | hcall
      · have hne := Nat.ne_of_lt (h.resolved_issued call hcall)
        exact (h.justified call hcall response heq).mono (update_of_ne hne _ _)
          (prefix_refl _)
      · rw [mem_singleton.mp hcall] at heq
        cases heq }

/-- A call begins a transaction. -/
theorem begin (hnone : w.runner.pending = none) (p : PendingTransaction Ctx) (wire : Uint8Array)
    (hid : p.id = w.nextId) (hrequest : p.request = some wire) (hstarted : p.started = false)
    (htimer : p.timer = none) :
    Inv { w with
      runner := ⟨[], some p⟩, nextId := w.nextId + 1
      asked := update w.asked w.nextId (some (p.transport, wire))
      unended := w.unended ++ [(p.id, p.context)] } where
  rx_short := nil_short
  pending_issued := by
    rintro q ⟨⟩
    rw [hid]
    exact Nat.lt_succ_self _
  pending_open := by
    rintro q ⟨⟩ call hcall
    rw [hid]
    exact Nat.ne_of_lt (h.resolved_issued call hcall)
  pending_timer := by
    rintro q ⟨⟩
    simp [hstarted, htimer]
  pending_sent := by
    rintro q ⟨⟩ _
    exact ⟨(p.id, p.context), by simp, rfl⟩
  pending_heard := by
    rintro q ⟨⟩ _
    exact nil_suffix
  pending_request := by
    rintro q ⟨⟩
    refine ⟨wire, hrequest, ?_⟩
    show update w.asked w.nextId _ p.id = _
    rw [hid, update_self]
  timers_eq := by
    show w.timers = _
    rw [h.timers_eq, hnone]
    simp [armed, htimer]
  unended_issued send hsend := by
    rcases mem_append.mp hsend with hsend | hsend
    · exact Nat.lt_succ_of_lt (h.unended_issued send hsend)
    · rw [mem_singleton.mp hsend, hid]
      exact Nat.lt_succ_self _
  unended_context := by
    rintro q ⟨⟩ send hsend heq
    rcases mem_append.mp hsend with hsend | hsend
    · have := h.unended_issued send hsend
      omega
    · rw [mem_singleton.mp hsend]
  resolved_issued call hcall := Nat.lt_succ_of_lt (h.resolved_issued call hcall)
  resolved_else id hlt hnot := by
    have hne : p.id ≠ id := hnot p rfl
    refine h.resolved_else id ?_ fun q hq => ?_
    · have : id < w.nextId + 1 := hlt
      omega
    · rw [hnone] at hq
      cases hq
  justified call hcall response heq := by
    have hne := Nat.ne_of_lt (h.resolved_issued call hcall)
    exact (h.justified call hcall response heq).mono (update_of_ne hne _ _)
      (prefix_refl _)

/-- Statuses, timer numbers and old hooks say nothing about a transaction. -/
theorem bystanders (statuses : List ModbusTransactionStatus) (nextTimer : Nat)
    (sends : List (Nat × Ctx)) : Inv { w with statuses, nextTimer, sends } :=
  { h with }

end

end Inv

/-! ## One event -/

@[simp] theorem after_runner (w : World Ctx)
    (result : ModbusTransactionRunner Ctx × List (Effect Ctx)) :
    (w.after result).runner = result.1 := by
  obtain ⟨r, effects⟩ := result
  unfold World.after
  generalize hw : ({ w with runner := r } : World Ctx) = start
  have hr : start.runner = r := by rw [← hw]
  clear hw
  induction effects generalizing start with
  | nil => exact hr
  | cons effect effects ih => exact ih (start.apply effect) (by cases effect <;> exact hr)

@[simp] theorem after_nextId (w : World Ctx)
    (result : ModbusTransactionRunner Ctx × List (Effect Ctx)) :
    (w.after result).nextId = w.nextId := by
  obtain ⟨r, effects⟩ := result
  unfold World.after
  generalize hw : ({ w with runner := r } : World Ctx) = start
  have hid : start.nextId = w.nextId := by rw [← hw]
  clear hw
  induction effects generalizing start with
  | nil => exact hid
  | cons effect effects ih => exact ih (start.apply effect) (by cases effect <;> exact hid)

theorem after_clearTimer (w : World Ctx) (p : PendingTransaction Ctx)
    (r : ModbusTransactionRunner Ctx) (effects : List (Effect Ctx))
    (h : w.timers = armed (some p) ∨ w.timers = []) :
    w.after (r, p.clearTimer ++ effects) = World.after { w with timers := [] } (r, effects) := by
  unfold World.after PendingTransaction.clearTimer
  cases htimer : p.timer with
  | none =>
    have hnone : w.timers = [] := by simpa [armed, htimer] using h
    simp [← hnone]
  | some timer =>
    have hcleared : w.timers.filter (fun t => t.1 ≠ timer) = [] := by
      rcases h with h | h
      · simp [h, armed, htimer]
      · simp [h]
    simp only [singleton_append, foldl_cons, World.apply, hcleared]

theorem after_statuses (w : World Ctx) (r : ModbusTransactionRunner Ctx)
    (statuses : List ModbusTransactionStatus) (effects : List (Effect Ctx)) :
    w.after (r, statuses.map Effect.onStatus ++ effects) =
      World.after { w with statuses := w.statuses ++ statuses } (r, effects) := by
  induction statuses generalizing w with
  | nil => simp
  | cons status statuses ih =>
    have := ih { w with statuses := w.statuses ++ [status] }
    simpa [World.after, World.apply] using this

/-- The pending transaction ends: with what `cancel` does, or with its reply. -/
theorem Inv.ended {p : PendingTransaction Ctx} (h : Inv w) (hp : w.runner.pending = some p)
    (statuses : List ModbusTransactionStatus) (response : Option ModbusResponse)
    (hjust : ∀ r, response = some r → Justified w p.id r) :
    Inv (w.after (⟨[], none⟩,
      p.clearTimer ++ statuses.map Effect.onStatus ++ [.resolve p.id response])) := by
  rw [append_assoc, after_clearTimer w p _ _ (.inl (by rw [h.timers_eq, hp])), after_statuses]
  exact (h.finish hp hjust).bystanders _ _ _

theorem not_a_reply :
    ∀ r, (none : Option ModbusResponse) = some r → Justified w id r := fun r hr => by cases hr

section
variable [DecidableEq Ctx]

/-- The end of a send without success, or a promise that is resolved for good measure. -/
theorem Inv.cancelOrResolve (h : Inv w) (context : Ctx) (status : ModbusTransactionStatus)
    (hissued : id < w.nextId)
    (hcontext : ∀ p, w.runner.pending = some p → p.id = id → p.context = context) :
    Inv (w.after (w.runner.cancelOrResolve id context status)) := by
  rcases w.runner.cancelOrResolve_cases id context status with
    ⟨p, hp, _, hresult⟩ | ⟨hother, hresult⟩
  · rw [hresult]
    exact h.ended hp [status] none not_a_reply
  · rw [hresult]
    exact h.late hissued fun p hp hid => hother p hp (hcontext p hp hid)

theorem Inv.startTimeout (h : Inv w) (context : Ctx) :
    Inv (w.after (w.runner.startTimeout context w.nextTimer)) := by
  rcases w.runner.startTimeout_cases context w.nextTimer with
    ⟨p, hp, rfl, htimer, hresult⟩ | ⟨_, hresult⟩
  · rw [hresult]
    exact h.start hp htimer _ _
  · rw [hresult]
    exact h

omit [DecidableEq Ctx] in
/-- A call that fails before it has sent anything is answered at once. -/
theorem Inv.failed (h : Inv w) (hnone : w.runner.pending = none)
    (ask : Option (ModbusTransport × Uint8Array)) (statuses : List ModbusTransactionStatus)
    (nextTimer : Nat) :
    Inv { w with
      runner := ⟨[], none⟩, nextId := w.nextId + 1, nextTimer
      asked := update w.asked w.nextId ask
      resolved := w.resolved ++ [(w.nextId, none)], statuses } := by
  have hquiet := (h.refuse ask).hear [] w.heard nil_short (fun _ => prefix_refl _)
    fun _ _ _ => nil_suffix
  rw [← hnone]
  exact hquiet.bystanders statuses nextTimer w.sends

theorem inv_transact (h : Inv w) (call : TransactCall Ctx) :
    Inv (step w (.transact call)) := by
  unfold step
  dsimp only
  rcases w.runner.transact_cases w.nextId w.nextTimer call with
    ⟨status, hresult⟩ | ⟨hp, status, hresult⟩ | ⟨hp, status, hresult⟩ |
    ⟨hp, wire, hwire, hresult⟩ | ⟨hp, wire, hwire, hresult⟩
  · rw [hresult]
    exact (h.refuse _).bystanders _ _ _
  · rw [hresult]
    exact h.failed hp _ _ _
  · rw [hresult]
    have htimers : w.timers = [] := by rw [h.timers_eq, hp]; rfl
    have hfailed := h.failed hp (call.buildWire.toOption.map fun wire => (call.transport, wire))
      (w.statuses ++ [status]) (w.nextTimer + 1)
    simpa [World.after, World.apply, htimers] using hfailed
  · rw [hresult, hwire]
    have hbegun := h.begin hp (opened w.nextId call wire) wire rfl rfl rfl rfl
    exact hbegun.bystanders _ _ _
  · rw [hresult, hwire]
    have hbegun := h.begin hp (opened w.nextId call wire) wire rfl rfl rfl rfl
    exact (hbegun.start rfl rfl w.nextTimer (w.nextTimer + 1)).bystanders _ _ _

theorem inv_sendEnded (h : Inv w) (id : Nat) (how : SendEnd) :
    Inv (step w (.sendEnded id how)) := by
  unfold step
  dsimp only
  split
  · exact h
  · rename_i send hfind
    have hsend := mem_of_find?_eq_some hfind
    have hid : send.1 = id := by simpa using find?_some hfind
    have hcontext : ∀ p, w.runner.pending = some p → p.id = id → p.context = send.2 :=
      fun p hp hsame => (h.unended_context p hp send hsend (hid.trans hsame.symm)).symm
    have hissued : id < w.nextId := hid ▸ h.unended_issued send hsend
    -- a failure ends the transaction of the send, a success starts it
    have hfails : ∀ status, Inv ((w.after (w.runner.cancelOrResolve id send.2 status)).sendOver id)
        := by
      intro status
      refine (h.cancelOrResolve send.2 status hissued hcontext).unend id fun p hp hsame => ?_
      rw [after_runner] at hp
      rcases w.runner.cancelOrResolve_cases id send.2 status with
        ⟨_, _, _, hresult⟩ | ⟨hother, hresult⟩
      · rw [hresult] at hp
        cases hp
      · rw [hresult] at hp
        exact absurd (hcontext p hp hsame) (hother p hp)
    have hstarts : Inv ((w.after (w.runner.startTimeout send.2 w.nextTimer)).sendOver id) := by
      refine (h.startTimeout send.2).unend id fun p hp hsame => ?_
      rw [after_runner] at hp
      rcases w.runner.startTimeout_cases send.2 w.nextTimer with
        ⟨_, _, _, _, hresult⟩ | ⟨hother, hresult⟩
      · rw [hresult] at hp
        cases hp
        rfl
      · rw [hresult] at hp
        exact (h.pending_timer p hp).mpr (hother p hp (hcontext p hp hsame))
    unfold afterSend
    cases how with
    | rejected message => exact hfails _
    | fulfilled result =>
      dsimp only
      split
      · exact hfails _
      · exact hstarts

omit [DecidableEq Ctx] in
theorem mem_armed {pending : Option (PendingTransaction Ctx)} {t : Nat × Ctx}
    (h : t ∈ armed pending) : ∃ p, pending = some p ∧ armed pending = [t] ∧ p.context = t.2 := by
  unfold armed at h ⊢
  cases pending with
  | none => cases h
  | some p =>
    dsimp only at h ⊢
    cases htimer : p.timer with
    | none =>
      rw [htimer] at h
      cases h
    | some timer =>
      rw [htimer] at h
      rw [mem_singleton.mp h]
      exact ⟨p, rfl, rfl, rfl⟩

theorem inv_timeout (h : Inv w) (timer : Nat) : Inv (step w (.timeout timer)) := by
  unfold step
  dsimp only
  split
  · exact h
  · rename_i t hfind
    have ht := mem_of_find?_eq_some hfind
    have htimer : t.1 = timer := by simpa using find?_some hfind
    rw [h.timers_eq] at ht
    obtain ⟨p, hp, harmed, hcontext⟩ := mem_armed ht
    have hfired : (w.timers.filter fun t => t.1 ≠ timer) = [] := by
      rw [h.timers_eq, harmed]
      simp [htimer]
    rcases w.runner.cancelForContext_cases t.2 .timeout with ⟨q, hq, _, hresult⟩ | ⟨hother, _⟩
    · rw [hp] at hq
      cases hq
      have hended := h.ended hp [.timeout] none not_a_reply
      rw [append_assoc, after_clearTimer w p _ _ (.inl (by rw [h.timers_eq, hp]))] at hended
      rw [hresult, hfired]
      dsimp only
      rw [append_assoc, after_clearTimer _ p _ _ (.inr rfl)]
      exact hended
    · exact absurd hcontext (hother p hp)

omit [DecidableEq Ctx] in
/-- A reply in the buffer is a reply in the bytes that have come in. -/
theorem Inv.accepted (h : Inv w) {p : PendingTransaction Ctx} (hp : w.runner.pending = some p)
    {buffer : Uint8Array} (hbuffer : buffer <:+ w.heard p.id)
    (haccepted : Accepted p buffer response) :
    Justified w p.id response := by
  obtain ⟨frame, hframe, hcrc, haccept⟩ := haccepted
  obtain ⟨wire, hwire, hasked⟩ := h.pending_request p hp
  unfold PendingTransaction.accept at haccept
  split at haccept
  · cases haccept
  · rename_i candidate hcandidate
    split at haccept
    · rename_i hmatch
      cases haccept
      unfold PendingTransaction.matchesResponse at hmatch
      rw [hwire] at hmatch
      exact ⟨p.transport, wire, frame, hasked, hframe.trans hbuffer.isInfix, hcandidate, hcrc,
        matcher_answers hmatch⟩
    · cases haccept

theorem inv_receive (h : Inv w) (bytes : Uint8Array) : Inv (step w (.receive bytes)) := by
  unfold step
  dsimp only
  rcases w.runner.receive_cases bytes h.rx_short with
    ⟨hidle, hresult⟩ | ⟨p, hp, hs, hresult⟩
  · have hlistening : w.listening = none := by
      unfold World.listening
      cases hp : w.runner.pending with
      | none => rfl
      | some p => simp [hidle p hp]
    rw [hlistening, hresult]
    refine h.hear [] w.heard nil_short (fun _ => prefix_refl _) fun p hp hs => ?_
    rw [hidle p hp] at hs
    cases hs
  · have hlistening : w.listening = some p.id := by
      unfold World.listening
      rw [hp]
      exact if_pos hs
    rw [hlistening]
    dsimp only
    generalize hheard : update w.heard p.id (w.heard p.id ++ bytes) = heard
    have hself : heard p.id = w.heard p.id ++ bytes := by rw [← hheard, update_self]
    have hmore : ∀ id, w.heard id <+: heard id := by
      intro id
      by_cases hid : id = p.id
      · rw [hid, hself]
        exact prefix_append _ _
      · rw [← hheard, update_of_ne hid]
    have hbuffer : w.runner.rxBuffer ++ bytes <:+ heard p.id := by
      rw [hself]
      obtain ⟨front, hfront⟩ := h.pending_heard p hp hs
      exact ⟨front, by rw [← append_assoc, hfront]⟩
    rcases hresult with ⟨rx, hsuffix, hshort, hresult⟩ | ⟨response, haccepted, hresult⟩
    · rw [hresult]
      have hheard := h.hear rx heard hshort hmore fun q hq _ => by
        rw [hp] at hq
        cases hq
        exact hsuffix.trans hbuffer
      rw [hp] at hheard
      exact hheard
    · rw [hresult]
      have hquiet := h.hear [] heard nil_short hmore fun _ _ _ => nil_suffix
      have hended := hquiet.ended hp [] (some response) fun r hr => by
        cases hr
        exact hquiet.accepted hp hbuffer haccepted
      rw [map_nil, append_nil] at hended
      exact hended

theorem inv_cancel (h : Inv w) (status : Option ModbusTransactionStatus) :
    Inv (step w (.cancel status)) := by
  show Inv (w.after (w.runner.cancel status).1)
  cases hp : w.runner.pending with
  | none =>
    unfold cancel
    rw [hp]
    have hquiet := h.hear [] w.heard nil_short (fun _ => prefix_refl _)
      fun _ _ _ => nil_suffix
    rw [hp] at hquiet
    exact hquiet
  | some p =>
    rw [cancel_some hp]
    have hended := h.ended hp status.toList none not_a_reply
    cases status <;> exact hended

theorem inv_step (w : World Ctx) (e : Event Ctx) (h : Inv w) : Inv (step w e) := by
  cases e with
  | transact call => exact inv_transact h call
  | writeStarted id =>
    unfold step
    dsimp only
    split
    · exact h
    · exact h.startTimeout _
  | sendEnded id how => exact inv_sendEnded h id how
  | timeout timer => exact inv_timeout h timer
  | receive bytes => exact inv_receive h bytes
  | cancel status => exact inv_cancel h status

/-! ## Promises -/

omit [DecidableEq Ctx] in
theorem settlement_eq_none : w.settlement id = none ↔ ∀ call ∈ w.resolved, call.1 ≠ id := by
  simp [World.settlement]

omit [DecidableEq Ctx] in
theorem Inv.settlement_iff (h : Inv w) (hid : id < w.nextId) :
    w.settlement id = none ↔ ∃ p, w.runner.pending = some p ∧ p.id = id := by
  rw [settlement_eq_none]
  constructor
  · intro hnone
    by_contra hnot
    push Not at hnot
    obtain ⟨call, hcall, heq⟩ := h.resolved_else id hid hnot
    exact hnone call hcall heq
  · rintro ⟨p, hp, rfl⟩
    exact h.pending_open p hp

omit [DecidableEq Ctx] in
/-- Effects add calls of `resolve`, and take none back. -/
theorem after_resolved {past : List (Nat × Option ModbusResponse)} (h : past <+: w.resolved)
    (result : ModbusTransactionRunner Ctx × List (Effect Ctx)) :
    past <+: (w.after result).resolved := by
  obtain ⟨r, effects⟩ := result
  unfold World.after
  generalize hw : ({ w with runner := r } : World Ctx) = start
  have hr : past <+: start.resolved := by rw [← hw]; exact h
  clear hw
  induction effects generalizing start with
  | nil => exact hr
  | cons effect effects ih =>
    refine ih (start.apply effect) ?_
    cases effect with
    | resolve id response => exact hr.trans (prefix_append _ _)
    | onStatus status => exact hr
    | setTimeout timer context => exact hr
    | clearTimeout timer => exact hr
    | sent id context => exact hr

theorem step_resolved (w : World Ctx) (e : Event Ctx) : w.resolved <+: (step w e).resolved := by
  have hsame := prefix_refl w.resolved
  unfold step
  cases e with
  | transact call => exact after_resolved (by exact hsame) _
  | writeStarted id =>
    dsimp only
    split
    · exact hsame
    · exact after_resolved hsame _
  | sendEnded id how =>
    dsimp only
    split
    · exact hsame
    · exact after_resolved hsame _
  | timeout timer =>
    dsimp only
    split
    · exact hsame
    · exact after_resolved (by exact hsame) _
  | receive bytes => exact after_resolved (by exact hsame) _
  | cancel status => exact after_resolved hsame _

/-- A promise is settled once. -/
theorem settlement_step {value : Option ModbusResponse} (h : w.settlement id = some value)
    (e : Event Ctx) : (step w e).settlement id = some value := by
  obtain ⟨more, hmore⟩ := step_resolved w e
  unfold World.settlement at h ⊢
  rw [← hmore, find?_append]
  cases hfind : w.resolved.find? fun call => call.1 = id with
  | none =>
    rw [hfind] at h
    cases h
  | some call =>
    rw [hfind] at h
    exact h

/-! ## Progress -/

omit [DecidableEq Ctx] in
theorem Inv.settled_of_idle (h : Inv w) (hidle : w.runner.pending = none) (hid : id < w.nextId) :
    w.settlement id ≠ none := by
  intro hnone
  obtain ⟨p, hp, _⟩ := (h.settlement_iff hid).mp hnone
  rw [hidle] at hp
  cases hp

/-- The timer of a started transaction runs, and settles it when it fires. -/
theorem Inv.timeout_settles (h : Inv w) {p : PendingTransaction Ctx}
    (hp : w.runner.pending = some p) (hs : p.started = true) :
    ∃ timer, (timer, p.context) ∈ w.timers ∧
      (step w (.timeout timer)).settlement p.id ≠ none := by
  obtain ⟨timer, htimer⟩ := Option.ne_none_iff_exists'.mp ((h.pending_timer p hp).mp hs)
  have harmed : w.timers = [(timer, p.context)] := by
    rw [h.timers_eq, hp]
    simp [armed, htimer]
  refine ⟨timer, by simp [harmed], ?_⟩
  have hnext := inv_timeout h timer
  have hstep : (step w (.timeout timer)).runner.pending = none ∧
      (step w (.timeout timer)).nextId = w.nextId := by
    simp only [step, harmed, find?_singleton, decide_true, if_true, after_runner,
      after_nextId, and_true]
    rcases w.runner.cancelForContext_cases p.context .timeout with
      ⟨_, _, _, hresult⟩ | ⟨hother, _⟩
    · rw [hresult]
    · exact absurd rfl (hother p hp)
  exact hnext.settled_of_idle hstep.1 (hstep.2 ▸ h.pending_issued p hp)

/-- A transaction that has not started waits for its send, which settles it or starts it. -/
theorem Inv.sendEnded_moves (h : Inv w) {p : PendingTransaction Ctx}
    (hp : w.runner.pending = some p) (hs : p.started = false) :
    (∃ send ∈ w.unended, send.1 = p.id) ∧
      ∀ how, (step w (.sendEnded p.id how)).settlement p.id ≠ none ∨
        ∃ q, (step w (.sendEnded p.id how)).runner.pending = some q ∧ q.id = p.id ∧
          q.started = true := by
  obtain ⟨send, hsend, hid⟩ := h.pending_sent p hp hs
  refine ⟨⟨send, hsend, hid⟩, fun how => ?_⟩
  have hnext := inv_sendEnded h p.id how
  have hnextId : (step w (.sendEnded p.id how)).nextId = w.nextId := by
    unfold step
    dsimp only
    split
    · rfl
    · exact after_nextId _ _
  cases hfind : w.unended.find? fun send => send.1 = p.id with
  | none =>
    rw [find?_eq_none] at hfind
    exact absurd hid (by simpa using hfind send hsend)
  | some found =>
    have hcontext : p.context = found.2 := by
      have hmem := mem_of_find?_eq_some hfind
      have hsame : found.1 = p.id := by simpa using find?_some hfind
      exact (h.unended_context p hp found hmem hsame).symm
    have htimer : p.timer = none := by
      by_contra hsome
      rw [(h.pending_timer p hp).mpr hsome] at hs
      cases hs
    have hrunner : (step w (.sendEnded p.id how)).runner =
        (w.runner.afterSend p.id found.2 w.nextTimer how).1 := by
      simp only [step, hfind]
      exact after_runner _ _
    have hfails : ∀ status, (w.runner.cancelOrResolve p.id found.2 status).1.pending = none := by
      intro status
      rcases w.runner.cancelOrResolve_cases p.id found.2 status with
        ⟨_, _, _, hresult⟩ | ⟨hother, _⟩
      · rw [hresult]
      · exact absurd hcontext (hother p hp)
    have hidle : (step w (.sendEnded p.id how)).runner.pending = none →
        (step w (.sendEnded p.id how)).settlement p.id ≠ none := fun hnone =>
      hnext.settled_of_idle hnone (hnextId ▸ h.pending_issued p hp)
    unfold afterSend at hrunner
    cases how with
    | rejected message => exact .inl (hidle (by rw [hrunner]; exact hfails _))
    | fulfilled result =>
      dsimp only at hrunner
      split at hrunner
      · exact .inl (hidle (by rw [hrunner]; exact hfails _))
      · rcases w.runner.startTimeout_cases found.2 w.nextTimer with
          ⟨q, hq, _, _, hresult⟩ | ⟨hother, _⟩
        · rw [hp] at hq
          cases hq
          rw [hresult] at hrunner
          exact .inr ⟨{ p with started := true, timer := some w.nextTimer }, by rw [hrunner],
            rfl, rfl⟩
        · exact absurd htimer (hother p hp hcontext)

/-! ## Every reachable state -/

/-- The run of a read of one register over the transport without a CRC. -/
def pduRun : List (Event Unit) :=
  [.transact ⟨(), .pdu, .ok [3, 0, 0, 0, 1], some 4, false, .ok ()⟩, .writeStarted 0,
    .receive [3, 2, 0x12, 0x34]]

/-- Its reply is taken, though no window of what came in has a valid CRC. -/
theorem a_pdu_reply_has_no_crc :
    (run step World.new pduRun).settlement 0 = some (some (.readRegs 1 3 [0x1234])) ∧
      ∀ frame, frame <:+: (run step World.new pduRun).heard 0 → verifyCrc frame = false := by
  have hheard : (run step World.new pduRun).heard 0 = [3, 2, 0x12, 0x34] := by decide +kernel
  refine ⟨by decide +kernel, fun frame hframe => ?_⟩
  rw [hheard] at hframe
  have hle : frame.length ≤ 4 := hframe.length_le
  by_cases hfour : frame.length = 4
  · rw [hframe.eq_of_length hfour]
    decide +kernel
  · unfold verifyCrc
    rw [if_pos (by omega)]

/-- In every state that any order of calls, sends, timers, bytes and cancellations reaches:
the buffer is short; the one promise that is open is that of the pending transaction; a
settled promise stays as it is; something is under way that will settle an open one; and a
reply is a window of the bytes that came in for its transaction, which answers the request,
on RTU with a valid CRC. -/
theorem every_transaction_settles_once_with_its_own_reply (events : List (Event Ctx)) :
    let w := run step World.new events
    w.runner.rxBuffer.length < MAX_MODBUS_TRANSACTION_RX_BYTES ∧
    (∀ id < w.nextId, w.settlement id = none ↔ ∃ p, w.runner.pending = some p ∧ p.id = id) ∧
    (∀ id value, w.settlement id = some value →
      ∀ later, (run step w later).settlement id = some value) ∧
    (∀ p, w.runner.pending = some p →
      (p.started = true → ∃ timer, (timer, p.context) ∈ w.timers ∧
        (step w (.timeout timer)).settlement p.id ≠ none) ∧
      (p.started = false → (∃ send ∈ w.unended, send.1 = p.id) ∧
        ∀ how, (step w (.sendEnded p.id how)).settlement p.id ≠ none ∨
          ∃ q, (step w (.sendEnded p.id how)).runner.pending = some q ∧ q.id = p.id ∧
            q.started = true)) ∧
    (∀ id response, w.settlement id = some (some response) → Justified w id response) := by
  intro w
  have h : Inv w := run_invariant inv_step inv_new events
  refine ⟨h.rx_short, fun id hid => h.settlement_iff hid, ?_, ?_, ?_⟩
  · intro id value hvalue later
    exact @run_invariant _ _ step (fun w : World Ctx => w.settlement id = some value) _
      (fun _ e hs => settlement_step hs e) hvalue later
  · intro p hp
    exact ⟨h.timeout_settles hp, h.sendEnded_moves hp⟩
  · intro id response hvalue
    unfold World.settlement at hvalue
    obtain ⟨call, hfind, hcall⟩ := Option.map_eq_some_iff.mp hvalue
    have hsame : call.1 = id := by simpa using find?_some hfind
    rw [← hsame]
    exact h.justified call (mem_of_find?_eq_some hfind) response hcall

/-- No timer outlives its transaction, and no byte gets into the next one: a transaction that has
started has one timer and no other is set, and what the runner keeps of the input came in for it;
no timer is set before the start and behind the end. -/
theorem a_transaction_leaves_nothing_behind (events : List (Event Ctx)) :
    let w := run step World.new events
    (w.runner.pending = none → w.timers = []) ∧
    ∀ p, w.runner.pending = some p →
      (p.started = false → w.timers = []) ∧
      (p.started = true → w.runner.rxBuffer <:+ w.heard p.id ∧
        ∃ timer, p.timer = some timer ∧ w.timers = [(timer, p.context)]) := by
  intro w
  have h : Inv w := run_invariant inv_step inv_new events
  refine ⟨fun hnone => by rw [h.timers_eq, hnone]; rfl, fun p hp => ⟨fun hstarted => ?_, ?_⟩⟩
  · have htimer : p.timer = none := by
      by_contra hne
      cases hstarted.symm.trans ((h.pending_timer p hp).2 hne)
    simp [h.timers_eq, hp, armed, htimer]
  · intro hstarted
    obtain ⟨timer, htimer⟩ := Option.ne_none_iff_exists'.1 ((h.pending_timer p hp).1 hstarted)
    exact ⟨h.pending_heard p hp hstarted, timer, htimer, by simp [h.timers_eq, hp, armed, htimer]⟩

end

end bbcom.modbus_runner
