-- The buffer between the serial port and the UI (`serial-rx-queue.ts`): it keeps the newest
-- bytes and counts the ones that it drops.
import Bbcom.Lib.Runs
import Bbcom.Js

open bbcom.js bbcom.runs

namespace bbcom.serial_rx

open List Nat

/-! ## The queue -/

/-- `positiveInteger`, with the message of its `RangeError`. -/
def positiveInteger (name : String) (value : JsNumber) : Except String { n : Nat // 0 < n } :=
  match value with
  | .finite q =>
    if h : 1 ≤ q then .ok ⟨⌊q⌋₊, floor_pos.2 h⟩
    else .error s!"{name} must be a positive finite number"
  | _ => .error s!"{name} must be a positive finite number"

/-- The cells of `chunks` in front of `head` have been released. -/
structure SerialRxQueue where
  maxBytes : { n : Nat // 0 < n }
  maxChunks : { n : Nat // 0 < n }
  chunks : List (Option Uint8Array)
  head : Nat
  byteLength : Int
  droppedSinceDrainBytes : Nat
  totalDropped : Nat
  overflowNotified : Bool

structure SerialRxQueueEnqueueResult where
  droppedBytes : Int
  droppedSinceDrain : Nat
  totalDroppedBytes : Nat
  overflowStarted : Bool
  pendingBytes : Int
  pendingChunks : Nat

structure SerialRxQueueDrainResult where
  chunks : List (Option Uint8Array)
  byteLength : Int
  droppedSinceDrain : Nat

namespace SerialRxQueue

def empty (maxBytes maxChunks : { n : Nat // 0 < n }) : SerialRxQueue :=
  ⟨maxBytes, maxChunks, [], 0, 0, 0, 0, false⟩

/-- The constructor. -/
def new (maxBytes maxChunks : JsNumber) : Except String SerialRxQueue := do
  let maxBytes ← positiveInteger "maxBytes" maxBytes
  let maxChunks ← positiveInteger "maxChunks" maxChunks
  return .empty maxBytes maxChunks

variable (q : SerialRxQueue)

def liveCount : Nat := q.chunks.length - q.head

def recordDrop (count : Nat) : SerialRxQueue :=
  if count = 0 then q
  else
    { q with
      droppedSinceDrainBytes := q.droppedSinceDrainBytes + count
      totalDropped := q.totalDropped + count
      overflowNotified := true }

/-- The body of the loop of `enqueue`. -/
def dropOldest : SerialRxQueue :=
  -- a live cell is never `undefined`, see `Sound`
  let dropped := q.chunks[q.head]?.join.getD []
  recordDrop { q with
    chunks := q.chunks.set q.head none
    head := q.head + 1
    byteLength := q.byteLength - dropped.length } dropped.length

/-- The loop of `enqueue`, which runs as often as there are live chunks at most. -/
def makeRoom (bytes : Uint8Array) : Nat → SerialRxQueue → SerialRxQueue
  | 0, q => q
  | fuel + 1, q =>
    if 0 < q.liveCount ∧ ((q.maxBytes : Int) < q.byteLength + bytes.length ∨
        q.maxChunks ≤ q.liveCount) then
      makeRoom bytes fuel q.dropOldest
    else q

def pushLive (chunk : Uint8Array) : SerialRxQueue :=
  if 0 < q.head ∧ q.chunks.length ≤ 2 * q.head then
    { q with chunks := q.chunks.drop q.head ++ [some chunk], head := 0 }
  else { q with chunks := q.chunks ++ [some chunk] }

def enqueue (bytes : Uint8Array) : SerialRxQueue × SerialRxQueueEnqueueResult :=
  let droppedBefore := q.totalDropped
  let wasOverflowNotified := q.overflowNotified
  let q := makeRoom bytes q.liveCount q
  let q :=
    if q.maxBytes < bytes.length then
      let retained := bytes.drop (bytes.length - q.maxBytes)
      let q := (q.recordDrop (bytes.length - retained.length)).pushLive retained
      { q with byteLength := q.byteLength + retained.length }
    else
      let q := q.pushLive bytes
      { q with byteLength := q.byteLength + bytes.length }
  (q, {
    droppedBytes := q.totalDropped - droppedBefore
    droppedSinceDrain := q.droppedSinceDrainBytes
    totalDroppedBytes := q.totalDropped
    overflowStarted := !wasOverflowNotified && q.overflowNotified
    pendingBytes := q.byteLength
    pendingChunks := q.liveCount })

def clearPending : SerialRxQueue :=
  { q with chunks := [], head := 0, byteLength := 0, droppedSinceDrainBytes := 0 }

def drain : SerialRxQueue × SerialRxQueueDrainResult :=
  (q.clearPending, ⟨q.chunks.drop q.head, q.byteLength, q.droppedSinceDrainBytes⟩)

def reset : SerialRxQueue :=
  { q.clearPending with totalDropped := 0, overflowNotified := false }

end SerialRxQueue

/-! ## What the cells stand for -/

def totalLength (chunks : List Uint8Array) : Nat := (chunks.map length).sum

@[simp] theorem totalLength_nil : totalLength [] = 0 := rfl

@[simp] theorem totalLength_cons (chunk : Uint8Array) (chunks : List Uint8Array) :
    totalLength (chunk :: chunks) = chunk.length + totalLength chunks := rfl

@[simp] theorem totalLength_append (front back : List Uint8Array) :
    totalLength (front ++ back) = totalLength front + totalLength back := by
  simp [totalLength]

theorem length_flatten_eq (chunks : List Uint8Array) :
    chunks.flatten.length = totalLength chunks :=
  length_flatten

/-- The live cells hold `live`, and `byteLength` counts their bytes. -/
structure Sound (q : SerialRxQueue) (live : List Uint8Array) : Prop where
  head_le : q.head ≤ q.chunks.length
  cells : q.chunks.drop q.head = live.map some
  bytes : q.byteLength = totalLength live
  notified : q.overflowNotified = decide (0 < q.totalDropped)

/-- The dropped bytes are counted and no limit changes. -/
structure Dropped (q q' : SerialRxQueue) (count : Nat) : Prop where
  maxBytes : q'.maxBytes = q.maxBytes
  maxChunks : q'.maxChunks = q.maxChunks
  sinceDrain : q'.droppedSinceDrainBytes = q.droppedSinceDrainBytes + count
  total : q'.totalDropped = q.totalDropped + count

theorem Dropped.refl (q : SerialRxQueue) : Dropped q q 0 := ⟨rfl, rfl, rfl, rfl⟩

variable {q : SerialRxQueue}

theorem Dropped.trans {q' q'' : SerialRxQueue} {m n : Nat} (h : Dropped q q' m)
    (h' : Dropped q' q'' n) : Dropped q q'' (m + n) where
  maxBytes := h'.maxBytes.trans h.maxBytes
  maxChunks := h'.maxChunks.trans h.maxChunks
  sinceDrain := by rw [h'.sinceDrain, h.sinceDrain, add_assoc]
  total := by rw [h'.total, h.total, add_assoc]

section

variable {q : SerialRxQueue} {live : List Uint8Array}

theorem Sound.liveCount (h : Sound q live) : q.liveCount = live.length := by
  have hlength := congrArg length h.cells
  rwa [length_drop, length_map] at hlength

open SerialRxQueue

theorem recordDrop_dropped (q : SerialRxQueue) (count : Nat) :
    Dropped q (q.recordDrop count) count := by
  unfold recordDrop
  split_ifs with hzero
  · rw [hzero]
    exact .refl q
  · exact ⟨rfl, rfl, rfl, rfl⟩

theorem Sound.recordDrop (h : Sound q live) (count : Nat) : Sound (q.recordDrop count) live := by
  unfold SerialRxQueue.recordDrop
  split_ifs with hzero
  · exact h
  · refine ⟨h.head_le, h.cells, h.bytes, ?_⟩
    change true = decide (0 < q.totalDropped + count)
    rw [eq_comm, decide_eq_true_iff]
    omega

theorem Sound.dropOldest {oldest : Uint8Array} (h : Sound q (oldest :: live)) :
    Sound q.dropOldest live ∧ Dropped q q.dropOldest oldest.length := by
  have hlt : q.head < q.chunks.length := by
    have hcount := h.liveCount
    rw [length_cons] at hcount
    unfold SerialRxQueue.liveCount at hcount
    omega
  have hcells := h.cells
  rw [drop_eq_getElem_cons hlt, map_cons, cons.injEq] at hcells
  have hcell : q.chunks[q.head]?.join.getD [] = oldest := by
    rw [getElem?_eq_getElem hlt, hcells.1]
    rfl
  have hreleased : Sound { q with
      chunks := q.chunks.set q.head none
      head := q.head + 1
      byteLength := q.byteLength - oldest.length } live := by
    refine ⟨?_, ?_, ?_, h.notified⟩
    · rw [length_set]
      exact hlt
    · rw [drop_set_of_lt (lt_succ_self _)]
      exact hcells.2
    · change q.byteLength - oldest.length = totalLength live
      rw [h.bytes, totalLength_cons]
      push_cast
      ring
  unfold SerialRxQueue.dropOldest
  simp only [hcell]
  obtain ⟨hmaxBytes, hmaxChunks, hsince, htotal⟩ := recordDrop_dropped
    { q with
      chunks := q.chunks.set q.head none
      head := q.head + 1
      byteLength := q.byteLength - oldest.length } oldest.length
  exact ⟨hreleased.recordDrop _, hmaxBytes, hmaxChunks, hsince, htotal⟩

/-- Whether a chunk fits in behind the pending ones. -/
def Fits (q : SerialRxQueue) (bytes : Uint8Array) (live : List Uint8Array) : Prop :=
  live = [] ∨ totalLength live + bytes.length ≤ q.maxBytes ∧ live.length < q.maxChunks

/-- The loop drops the oldest chunks, and no more than it has to. -/
theorem Sound.makeRoom (bytes : Uint8Array) (h : Sound q live) :
    ∃ dropped kept, live = dropped ++ kept ∧
      Sound (makeRoom bytes live.length q) kept ∧
      Dropped q (makeRoom bytes live.length q) (totalLength dropped) ∧
      Fits q bytes kept ∧
      ∀ front back, dropped = front ++ back → back ≠ [] → ¬Fits q bytes (back ++ kept) := by
  induction live generalizing q with
  | nil =>
    exact ⟨[], [], rfl, h, .refl q, .inl rfl, fun front back heq hback =>
      (hback (append_eq_nil_iff.1 heq.symm).2).elim⟩
  | cons oldest live ih =>
    have hcount := h.liveCount
    have hbytes := h.bytes
    rw [length_cons] at hcount
    by_cases hfull : (q.maxBytes : Int) < q.byteLength + bytes.length ∨ q.maxChunks ≤ q.liveCount
    · obtain ⟨hsound, hdropped⟩ := h.dropOldest
      obtain ⟨dropped, kept, hsplit, hsound', hdropped', hfits, hneeded⟩ := ih hsound
      have hsame : ∀ chunks, Fits q.dropOldest bytes chunks ↔ Fits q bytes chunks := by
        intro chunks
        unfold Fits
        rw [hdropped.maxBytes, hdropped.maxChunks]
      have hloop : makeRoom bytes (live.length + 1) q =
          makeRoom bytes live.length q.dropOldest :=
        if_pos ⟨by omega, hfull⟩
      refine ⟨oldest :: dropped, kept, by rw [hsplit, cons_append], ?_, ?_,
        (hsame kept).1 hfits, ?_⟩
      · rw [length_cons, hloop]
        exact hsound'
      · rw [length_cons, hloop]
        exact hdropped.trans hdropped'
      · intro front back heq hback hfit
        cases front with
        | nil =>
          rw [nil_append] at heq
          subst heq
          rcases hfit with hnil | ⟨hroom, hplace⟩
          · cases hnil
          · rw [cons_append, ← hsplit, totalLength_cons] at hroom
            rw [cons_append, ← hsplit, length_cons] at hplace
            rw [totalLength_cons] at hbytes
            omega
        | cons first front =>
          rw [cons_append, cons.injEq] at heq
          exact hneeded front back heq.2 hback ((hsame _).2 hfit)
    · have hloop : makeRoom bytes (live.length + 1) q = q :=
        if_neg fun hrun => hfull hrun.2
      refine ⟨[], oldest :: live, rfl, ?_, ?_, ?_, fun front back heq hback =>
        (hback (append_eq_nil_iff.1 heq.symm).2).elim⟩
      · rw [length_cons, hloop]
        exact h
      · rw [length_cons, hloop]
        exact .refl q
      · rw [not_or] at hfull
        refine .inr ⟨by omega, ?_⟩
        rw [length_cons]
        omega

theorem Sound.pushLive (chunk : Uint8Array) (h : Sound q live) :
    Sound { q.pushLive chunk with byteLength := (q.pushLive chunk).byteLength + chunk.length }
        (live ++ [chunk]) ∧
      Dropped q (q.pushLive chunk) 0 := by
  have hbytes : q.byteLength + chunk.length = totalLength (live ++ [chunk]) := by
    rw [h.bytes, totalLength_append]
    simp
  unfold SerialRxQueue.pushLive
  split_ifs
  · refine ⟨⟨zero_le _, ?_, hbytes, h.notified⟩, rfl, rfl, rfl, rfl⟩
    simp [h.cells]
  · refine ⟨⟨?_, ?_, hbytes, h.notified⟩, rfl, rfl, rfl, rfl⟩
    · rw [length_append]
      exact h.head_le.trans (le_add_right _ _)
    · rw [drop_append_of_le_length h.head_le, h.cells]
      simp

/-- What `enqueue` leaves of the pending bytes and the new ones: the newest, within the limits. -/
theorem Sound.enqueue (bytes : Uint8Array) (h : Sound q live) :
    ∃ live' lost, live.flatten ++ bytes = lost ++ live'.flatten ∧
      Sound (q.enqueue bytes).1 live' ∧
      Dropped q (q.enqueue bytes).1 lost.length ∧
      totalLength live' ≤ q.maxBytes ∧ live'.length ≤ q.maxChunks := by
  obtain ⟨dropped, kept, hsplit, hsound, hdropped, hfits, _⟩ := h.makeRoom bytes
  rw [← h.liveCount] at hsound hdropped
  set q' := SerialRxQueue.makeRoom bytes q.liveCount q with hq'
  have hchunks : kept.length < q.maxChunks := by
    rcases hfits with rfl | hfits
    · exact q.maxChunks.2
    · exact hfits.2
  unfold SerialRxQueue.enqueue
  simp only [← hq', hdropped.maxBytes]
  split_ifs with hlarge
  · -- no pending chunk fits in front of bytes that are too many alone
    have hkept : kept = [] := by
      rcases hfits with hnil | hfits
      · exact hnil
      · omega
    subst hkept
    set retained := bytes.drop (bytes.length - q.maxBytes) with hretained
    have hlength : retained.length = q.maxBytes := by
      rw [hretained, length_drop]
      omega
    obtain ⟨hpushed, hnone⟩ := (hsound.recordDrop (bytes.length - retained.length)).pushLive
      retained
    have hlost := hdropped.trans (recordDrop_dropped q' (bytes.length - retained.length))
    refine ⟨[retained], live.flatten ++ bytes.take (bytes.length - q.maxBytes), ?_, hpushed, ?_,
      ?_, hchunks⟩
    · rw [flatten_singleton, append_assoc, hretained, take_append_drop]
    · have hcount : (live.flatten ++ bytes.take (bytes.length - q.maxBytes)).length =
          totalLength dropped + (bytes.length - retained.length) := by
        rw [length_append, length_flatten_eq, hsplit, append_nil, length_take, hlength]
        omega
      rw [hcount]
      obtain ⟨hmaxBytes, hmaxChunks, hsince, htotal⟩ := hlost.trans hnone
      exact ⟨hmaxBytes, hmaxChunks, hsince, htotal⟩
    · rw [totalLength_cons, totalLength_nil, hlength]
      exact le_rfl
  · obtain ⟨hpushed, hnone⟩ := hsound.pushLive bytes
    refine ⟨kept ++ [bytes], dropped.flatten, ?_, hpushed, ?_, ?_, ?_⟩
    · rw [hsplit]
      simp
    · rw [length_flatten_eq]
      obtain ⟨hmaxBytes, hmaxChunks, hsince, htotal⟩ := hdropped.trans hnone
      exact ⟨hmaxBytes, hmaxChunks, hsince, htotal⟩
    · rw [totalLength_append, totalLength_cons, totalLength_nil]
      rcases hfits with rfl | hfits
      · rw [totalLength_nil]
        omega
      · omega
    · rw [length_append, length_singleton]
      exact hchunks

end

/-! ## Runs -/

inductive Event
  | enqueue (bytes : Uint8Array)
  | drain
  | clearPending
  | reset

/-- The queue, with what has happened to it since the last `reset`; `since` holds the bytes that
have come since the last `drain`, `clearPending` or `reset`. -/
structure World where
  queue : SerialRxQueue
  since : Uint8Array
  received : Nat
  drained : Nat
  dropped : Nat
  cleared : Nat
  notifications : Nat

/-- The bytes of the live cells. -/
def SerialRxQueue.pending (q : SerialRxQueue) : Uint8Array :=
  ((q.chunks.drop q.head).map (Option.getD · [])).flatten

def World.start (queue : SerialRxQueue) : World := ⟨queue, [], 0, 0, 0, 0, 0⟩

open World

/-- What goes in and does not stay is dropped. -/
def step (w : World) : Event → World
  | .enqueue bytes =>
    let (queue, result) := w.queue.enqueue bytes
    { w with
      queue
      since := w.since ++ bytes
      received := w.received + bytes.length
      dropped := w.dropped + (w.queue.pending.length + bytes.length - queue.pending.length)
      notifications := w.notifications + result.overflowStarted.toNat }
  | .drain =>
    let (queue, result) := w.queue.drain
    { w with
      queue
      since := []
      drained := w.drained + (result.chunks.map fun chunk => (chunk.getD []).length).sum }
  | .clearPending =>
    { w with
      queue := w.queue.clearPending
      since := []
      cleared := w.cleared + w.queue.pending.length }
  | .reset => start w.queue.reset

/-- The books of the queue. -/
structure Exact (w : World) : Prop where
  live : ∃ live, Sound w.queue live ∧ totalLength live ≤ w.queue.maxBytes ∧
    live.length ≤ w.queue.maxChunks
  suffix : w.since = w.since.take w.queue.droppedSinceDrainBytes ++ w.queue.pending
  since_length : w.queue.droppedSinceDrainBytes + w.queue.pending.length = w.since.length
  total : w.queue.totalDropped = w.dropped
  count : w.received = w.drained + w.dropped + w.cleared + w.queue.pending.length
  notified : w.notifications = if 0 < w.dropped then 1 else 0

theorem Sound.pending {live : List Uint8Array} (h : Sound q live) :
    q.pending = live.flatten := by
  unfold SerialRxQueue.pending
  rw [h.cells, map_map]
  congr 1
  exact map_id' live

theorem Exact.start (hcells : q.chunks = []) (hhead : q.head = 0) (hbytes : q.byteLength = 0)
    (hdropped : q.droppedSinceDrainBytes = 0) (htotal : q.totalDropped = 0)
    (hnotified : q.overflowNotified = false) :
    Exact (World.start q) := by
  have hsound : Sound q [] := by
    refine ⟨?_, ?_, hbytes, ?_⟩
    · rw [hhead]
      exact zero_le _
    · rw [hcells]
      simp
    · rw [hnotified, htotal]
      rfl
  have hpending : q.pending = [] := hsound.pending
  refine ⟨⟨[], hsound, zero_le _, zero_le _⟩, ?_, ?_, htotal, ?_, rfl⟩
  · simp [World.start, hpending]
  · simp [World.start, hpending, hdropped]
  · simp [World.start, hpending]

variable {w : World}

theorem Exact.enqueue (h : Exact w) (bytes : Uint8Array) :
    Exact (step w (.enqueue bytes)) := by
  obtain ⟨live, hsound, _⟩ := h.live
  obtain ⟨live', lost, hsplit, hsound', hdropped, hbytes, hchunks⟩ := hsound.enqueue bytes
  have hpending := hsound.pending
  have hpending' := hsound'.pending
  have hlength := congrArg length hsplit
  rw [length_append, length_append, ← hpending, ← hpending'] at hlength
  have hgone : w.queue.pending.length + bytes.length - (w.queue.enqueue bytes).1.pending.length =
      lost.length := by omega
  have hstep : step w (.enqueue bytes) = { w with
      queue := (w.queue.enqueue bytes).1
      since := w.since ++ bytes
      received := w.received + bytes.length
      dropped := w.dropped + lost.length
      notifications := w.notifications +
        (!w.queue.overflowNotified && (w.queue.enqueue bytes).1.overflowNotified).toNat } := by
    rw [← hgone]
    rfl
  have hsince := h.since_length
  have hcount := h.count
  rw [hstep]
  generalize (w.queue.enqueue bytes).1 = q' at hsound' hdropped hpending' hlength
  refine ⟨⟨live', hsound', ?_, ?_⟩, ?_, ?_, ?_, ?_, ?_⟩
  · rw [hdropped.maxBytes]
    exact hbytes
  · rw [hdropped.maxChunks]
    exact hchunks
  · have hall : w.since ++ bytes =
        (w.since.take w.queue.droppedSinceDrainBytes ++ lost) ++ live'.flatten := by
      rw [append_assoc, ← hsplit, ← hpending, ← append_assoc, ← h.suffix]
    have hfront : (w.since.take w.queue.droppedSinceDrainBytes ++ lost).length =
        q'.droppedSinceDrainBytes := by
      rw [length_append, length_take, hdropped.sinceDrain]
      omega
    simp only [hpending', hall]
    rw [take_left' hfront]
  · simp only [hdropped.sinceDrain, length_append]
    omega
  · simp only [hdropped.total, h.total]
  · simp only
    omega
  · simp only [hsound.notified, hsound'.notified, hdropped.total, h.total, h.notified]
    by_cases hbefore : 0 < w.dropped
    · have hafter : 0 < w.dropped + lost.length := by omega
      simp [hbefore, hafter]
    · by_cases hlost : 0 < lost.length
      · have hafter : 0 < w.dropped + lost.length := by omega
        simp [hbefore, hafter]
      · have hafter : ¬0 < w.dropped + lost.length := by omega
        simp [hbefore, hafter]

/-- The pending bytes leave the queue, as drained or as cleared ones. -/
theorem Exact.emptied (h : Exact w) {drained cleared : Nat}
    (hcount : drained + cleared = w.drained + w.cleared + w.queue.pending.length) :
    Exact { w with queue := w.queue.clearPending, since := [], drained, cleared } := by
  obtain ⟨live, hsound, _⟩ := h.live
  have hreceived := h.count
  have hempty : w.queue.clearPending.pending = [] := rfl
  refine ⟨⟨[], ⟨zero_le _, rfl, rfl, hsound.notified⟩, zero_le _, zero_le _⟩, rfl, rfl,
    h.total, ?_, h.notified⟩
  change w.received = drained + w.dropped + cleared + w.queue.clearPending.pending.length
  rw [hempty, length_nil]
  omega

theorem Exact.step (h : Exact w) (e : Event) : Exact (serial_rx.step w e) := by
  cases e with
  | enqueue bytes => exact h.enqueue bytes
  | drain =>
    have hsame : ((w.queue.chunks.drop w.queue.head).map fun chunk =>
        (chunk.getD []).length).sum = w.queue.pending.length := by
      unfold SerialRxQueue.pending
      rw [length_flatten, map_map]
      rfl
    apply h.emptied
    simp only [hsame]
    ring
  | clearPending =>
    apply h.emptied
    ring
  | reset => exact Exact.start rfl rfl rfl rfl rfl rfl

theorem step_limits (h : Exact w) (e : Event) :
    (step w e).queue.maxBytes = w.queue.maxBytes ∧
      (step w e).queue.maxChunks = w.queue.maxChunks := by
  cases e with
  | enqueue bytes =>
    obtain ⟨live, hsound, _⟩ := h.live
    obtain ⟨_, _, _, _, hdropped, _⟩ := hsound.enqueue bytes
    exact ⟨hdropped.maxBytes, hdropped.maxChunks⟩
  | drain => exact ⟨rfl, rfl⟩
  | clearPending => exact ⟨rfl, rfl⟩
  | reset => exact ⟨rfl, rfl⟩

theorem exact_run (maxBytes maxChunks : { n : Nat // 0 < n }) (events : List Event) :
    Exact (run step (start (.empty maxBytes maxChunks)) events) ∧
      (run step (start (.empty maxBytes maxChunks)) events).queue.maxBytes = maxBytes ∧
      (run step (start (.empty maxBytes maxChunks)) events).queue.maxChunks = maxChunks := by
  let kept (w : World) : Prop :=
    Exact w ∧ w.queue.maxBytes = maxBytes ∧ w.queue.maxChunks = maxChunks
  have hstep : ∀ w e, kept w → kept (step w e) := by
    rintro w e ⟨h, hbytes, hchunks⟩
    obtain ⟨hsame, hsame'⟩ := step_limits h e
    exact ⟨h.step e, hsame.trans hbytes, hsame'.trans hchunks⟩
  exact run_invariant hstep ⟨Exact.start rfl rfl rfl rfl rfl rfl, rfl, rfl⟩ events

/-- After any calls the pending bytes are the newest since the last drain or clear, within the
limits, each byte is accounted for once, and an overflow is announced once until a reset. -/
theorem queue_exact_in_every_run (maxBytes maxChunks : { n : Nat // 0 < n }) (events : List Event) :
    let w := run step (start (.empty maxBytes maxChunks)) events
    w.queue.pending = w.since.drop w.queue.droppedSinceDrainBytes ∧
    w.queue.byteLength = w.queue.pending.length ∧
    w.queue.pending.length ≤ maxBytes ∧ w.queue.liveCount ≤ maxChunks ∧
    w.queue.droppedSinceDrainBytes + w.queue.pending.length = w.since.length ∧
    w.received = w.drained + w.dropped + w.cleared + w.queue.pending.length ∧
    w.queue.totalDropped = w.dropped ∧
    w.notifications = if 0 < w.dropped then 1 else 0 := by
  intro w
  obtain ⟨h, hmaxBytes, hmaxChunks⟩ : Exact w ∧ _ := exact_run maxBytes maxChunks events
  obtain ⟨live, hsound, hbytes, hchunks⟩ := h.live
  have hlength : w.queue.pending.length = totalLength live := by
    rw [hsound.pending, length_flatten_eq]
  refine ⟨?_, ?_, ?_, ?_, h.since_length, h.count, h.total, h.notified⟩
  · have hfront : (w.since.take w.queue.droppedSinceDrainBytes).length =
        w.queue.droppedSinceDrainBytes := by
      have hle := h.since_length
      rw [length_take]
      omega
    calc w.queue.pending = (w.since.take w.queue.droppedSinceDrainBytes ++ w.queue.pending).drop
            w.queue.droppedSinceDrainBytes := (drop_left' hfront).symm
      _ = w.since.drop w.queue.droppedSinceDrainBytes := by rw [← h.suffix]
  · rw [hsound.bytes, hlength]
  · rw [hlength]
    exact hbytes.trans_eq (congrArg Subtype.val hmaxBytes)
  · rw [hsound.liveCount]
    exact hchunks.trans_eq (congrArg Subtype.val hmaxChunks)

/-- A byte that `clearPending` discards is neither drained nor dropped nor pending. -/
theorem cleared_byte_not_counted :
    let w := run step (start (.empty ⟨4, by decide⟩ ⟨4, by decide⟩))
      [.enqueue [7], .clearPending]
    w.received = 1 ∧ w.drained + w.queue.totalDropped + w.queue.pending.length = 0 := by
  decide +kernel

end bbcom.serial_rx
