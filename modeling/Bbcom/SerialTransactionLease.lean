-- The receive mirror of a serial transaction lease: a bounded queue of bytes with at most one
-- read that waits for them. Offers, reads, timers, aborts, clearing and closing come in any
-- order.
import Bbcom.Js
import Bbcom.Lib.Runs

namespace bbcom.serial_transaction_lease

open List Nat

open bbcom.js bbcom.runs

inductive SerialTransactionLeaseErrorCode
  | invalidInput | permissionDenied | unavailable | busy | notFound | staleHandle | disconnected
  | timeout | cancelled | limitExceeded | partialWrite | unknownOutcome | protocolError | ioError
  deriving DecidableEq

/-! ## The mirror -/

/-- A read that waits; it is told from the others by its number. -/
structure PendingRxRead where
  id : Nat
  maxBytes : Nat
  deriving DecidableEq

structure BoundedRxMirror where
  chunks : List Uint8Array
  bytes : Nat
  pending : Option PendingRxRead
  closedError : Option SerialTransactionLeaseErrorCode
  /-- The reads whose timer is armed, and those whose abort is listened for. -/
  timers : List Nat
  listeners : List Nat
  deriving DecidableEq

structure RxLimits where
  maxBytes : Nat
  maxChunks : Nat

/-- What leaves the mirror: a read settles, or a whole buffer is thrown away. -/
inductive Leaves
  | resolved (id : Nat) (bytes : Uint8Array)
  | rejected (id : Nat) (error : SerialTransactionLeaseErrorCode)
  | discarded (bytes : Uint8Array)
  deriving DecidableEq

inductive SerialTransactionRxOfferResult
  | mirrored (bufferedBytes : Nat)
  | backpressure (bufferedBytes capacityBytes : Nat)
  | ignored (bufferedBytes : Nat)
  deriving DecidableEq

namespace BoundedRxMirror

def empty : BoundedRxMirror := ⟨[], 0, none, none, [], []⟩

variable (mirror : BoundedRxMirror)

def append (chunk : Uint8Array) : BoundedRxMirror :=
  if chunk.length = 0 then mirror
  else { mirror with chunks := mirror.chunks ++ [chunk], bytes := mirror.bytes + chunk.length }

/-- The loop of `take`: the bytes that it copies and the chunks that it leaves. -/
def takeLoop : Nat → List Uint8Array → Uint8Array × List Uint8Array
  | _, [] => ([], [])
  | wanted, chunk :: chunks =>
    if wanted = 0 then ([], chunk :: chunks)
    else
      let amount := min chunk.length wanted
      if amount = chunk.length then
        let (result, left) := takeLoop (wanted - amount) chunks
        (chunk.take amount ++ result, left)
      else (chunk.take amount, chunk.drop amount :: chunks)

/-- `take`: what the loop does not write of the result stays zero. -/
def take (maxBytes : Nat) : Uint8Array × BoundedRxMirror :=
  let byteLength := min maxBytes mirror.bytes
  let (result, chunks) := takeLoop byteLength mirror.chunks
  (result ++ List.replicate (byteLength - result.length) 0,
    { mirror with chunks, bytes := mirror.bytes - result.length })

def cleanupPending (id : Nat) : BoundedRxMirror :=
  { mirror with
      timers := mirror.timers.filter (· ≠ id)
      listeners := mirror.listeners.filter (· ≠ id) }

def settlePending (id : Nat) (bytes : Uint8Array) : BoundedRxMirror × List Leaves :=
  if mirror.pending.map (·.id) ≠ some id then (mirror, [])
  else (cleanupPending { mirror with pending := none } id, [.resolved id bytes])

def rejectPending (id : Nat) (error : SerialTransactionLeaseErrorCode) :
    BoundedRxMirror × List Leaves :=
  if mirror.pending.map (·.id) ≠ some id then (mirror, [])
  else (cleanupPending { mirror with pending := none } id, [.rejected id error])

def offer (limits : RxLimits) (input : Uint8Array) :
    SerialTransactionRxOfferResult × BoundedRxMirror × List Leaves :=
  if mirror.closedError.isSome ∨ input.length = 0 then (.ignored mirror.bytes, mirror, [])
  else
    let pendingBytes := match mirror.pending with
      | some pending => min pending.maxBytes input.length
      | none => 0
    let remainderBytes := input.length - pendingBytes
    let additionalChunks := if remainderBytes > 0 then 1 else 0
    if mirror.bytes + remainderBytes > limits.maxBytes ∨
        mirror.chunks.length + additionalChunks > limits.maxChunks then
      (.backpressure mirror.bytes (limits.maxBytes - mirror.bytes), mirror, [])
    else
      let (mirror, left) := match mirror.pending with
        | some pending =>
          let mirror :=
            if remainderBytes > 0 then mirror.append (input.drop pendingBytes) else mirror
          mirror.settlePending pending.id (input.take pendingBytes)
        | none => (mirror.append input, [])
      (.mirrored mirror.bytes, mirror, left)

/-- A read with the number `id`, whose signal may be aborted already. -/
def read (id maxBytes : Nat) (aborted : Bool) : BoundedRxMirror × List Leaves :=
  match mirror.closedError with
  | some error => (mirror, [.rejected id error])
  | none =>
    if aborted then (mirror, [.rejected id .cancelled])
    else if mirror.bytes > 0 then
      let (result, mirror) := mirror.take maxBytes
      (mirror, [.resolved id result])
    else if mirror.pending.isSome then (mirror, [.rejected id .busy])
    else
      ({ mirror with
          pending := some ⟨id, maxBytes⟩
          timers := mirror.timers ++ [id]
          listeners := mirror.listeners ++ [id] }, [])

/-- The timer of a read fires. -/
def timeout (id : Nat) : BoundedRxMirror × List Leaves :=
  if id ∈ mirror.timers then
    rejectPending { mirror with timers := mirror.timers.filter (· ≠ id) } id .timeout
  else (mirror, [])

/-- The signal of a read is aborted. -/
def abort (id : Nat) : BoundedRxMirror × List Leaves :=
  if id ∈ mirror.listeners then
    rejectPending { mirror with listeners := mirror.listeners.filter (· ≠ id) } id .cancelled
  else (mirror, [])

def close (error : SerialTransactionLeaseErrorCode) : BoundedRxMirror × List Leaves :=
  if mirror.closedError.isSome then (mirror, [])
  else
    let closed := { mirror with closedError := some error, chunks := [], bytes := 0 }
    let (closed, left) := match closed.pending with
      | some pending => closed.rejectPending pending.id error
      | none => (closed, [])
    (closed, .discarded mirror.chunks.flatten :: left)

def clearBuffered : BoundedRxMirror × List Leaves :=
  if mirror.closedError.isSome ∨ mirror.bytes = 0 then (mirror, [])
  else ({ mirror with chunks := [], bytes := 0 }, [.discarded mirror.chunks.flatten])

end BoundedRxMirror

/-! ## Runs -/

inductive Event
  | offer (input : Uint8Array)
  | read (maxBytes : Nat) (aborted : Bool)
  | timeout (id : Nat)
  | abort (id : Nat)
  | clearBuffered
  | close (error : SerialTransactionLeaseErrorCode)

/-- The mirror with its history: the number of reads asked for, the bytes of the offers that
were answered `mirrored`, and all that left the mirror, both in order. -/
structure State where
  mirror : BoundedRxMirror
  reads : Nat
  mirrored : Uint8Array
  left : List Leaves
  deriving DecidableEq

def State.initial : State := ⟨.empty, 0, [], []⟩

def SerialTransactionRxOfferResult.isMirrored : SerialTransactionRxOfferResult → Bool
  | .mirrored _ => true
  | _ => false

def State.moved (s : State) (next : BoundedRxMirror × List Leaves) : State :=
  { s with mirror := next.1, left := s.left ++ next.2 }

def step (limits : RxLimits) (s : State) : Event → State
  | .offer input =>
    let (answer, next) := s.mirror.offer limits input
    { s.moved next with
        mirrored := if answer.isMirrored then s.mirrored ++ input else s.mirrored }
  | .read maxBytes aborted =>
    { s.moved (s.mirror.read s.reads maxBytes aborted) with reads := s.reads + 1 }
  | .timeout id => s.moved (s.mirror.timeout id)
  | .abort id => s.moved (s.mirror.abort id)
  | .clearBuffered => s.moved s.mirror.clearBuffered
  | .close error => s.moved (s.mirror.close error)

/-- The bytes that leave with an entry. -/
def Leaves.bytes : Leaves → Uint8Array
  | .resolved _ bytes | .discarded bytes => bytes
  | .rejected _ _ => []

/-- The entry settles the read with this number. -/
def Leaves.settles (id : Nat) : Leaves → Bool
  | .resolved other _ | .rejected other _ => other = id
  | .discarded _ => false

/-- The bytes that resolved reads gave. -/
def Leaves.delivered : Leaves → Uint8Array
  | .resolved _ bytes => bytes
  | _ => []

def State.delivered (s : State) : Uint8Array := s.left.flatMap Leaves.delivered

/-- A read waits under this number: once or not at all. -/
def waits (mirror : BoundedRxMirror) (id : Nat) : Nat :=
  if mirror.pending.map (·.id) = some id then 1 else 0

/-! ## The invariant -/

/-- What holds of the mirror alone. -/
structure Fit (limits : RxLimits) (mirror : BoundedRxMirror) : Prop where
  counted : mirror.bytes = mirror.chunks.flatten.length
  no_empty_chunk : ∀ chunk ∈ mirror.chunks, chunk ≠ []
  within_bytes : mirror.bytes ≤ limits.maxBytes
  within_chunks : mirror.chunks.length ≤ limits.maxChunks
  waits_for_bytes : mirror.pending ≠ none → mirror.chunks = []
  closed_is_idle : mirror.closedError ≠ none → mirror.pending = none ∧ mirror.chunks = []
  one_timer : mirror.timers = (mirror.pending.map (·.id)).toList
  one_listener : mirror.listeners = (mirror.pending.map (·.id)).toList

open Leaves

/-- The mirror with its history: every mirrored byte left in order or is still buffered, and
every read that was asked for waits or was settled once. -/
structure Exact (limits : RxLimits) (s : State) : Prop where
  fit : Fit limits s.mirror
  fifo : s.mirrored = s.left.flatMap bytes ++ s.mirror.chunks.flatten
  once : ∀ id, s.left.countP (settles id) + waits s.mirror id =
    if id < s.reads then 1 else 0

open BoundedRxMirror

theorem exact_initial (limits : RxLimits) : Exact limits .initial where
  fit := by constructor <;> simp [State.initial, empty]
  fifo := rfl
  once id := by simp [State.initial, empty, waits]

/-- What one call does: bytes come in behind the buffer and leave in front of it, and a read
that was asked for or waited is settled or waits. -/
structure Moves (limits : RxLimits) (mirror : BoundedRxMirror) (added : Uint8Array)
    (asked : Option Nat) (next : BoundedRxMirror × List Leaves) : Prop where
  fit : Fit limits next.1
  bytes : mirror.chunks.flatten ++ added = next.2.flatMap bytes ++ next.1.chunks.flatten
  reads : ∀ id, next.2.countP (settles id) + waits next.1 id =
    waits mirror id + if asked = some id then 1 else 0

namespace Fit

variable {limits : RxLimits} {mirror : BoundedRxMirror} {added : Uint8Array}

theorem chunks_nil (h : Fit limits mirror) (hbytes : mirror.bytes = 0) : mirror.chunks = [] := by
  rcases hchunks : mirror.chunks with _ | ⟨chunk, chunks⟩
  · rfl
  · have hsome := h.no_empty_chunk chunk (by simp [hchunks])
    have hpos := length_pos_of_ne_nil hsome
    have hcounted := h.counted
    simp only [hchunks, flatten_cons, length_append] at hcounted
    omega

theorem stays (h : Fit limits mirror) : Moves limits mirror [] none (mirror, []) where
  fit := h
  bytes := by simp
  reads id := by simp

/-- A read that is refused at once. -/
theorem refuses (h : Fit limits mirror) (id : Nat) (error : SerialTransactionLeaseErrorCode) :
    Moves limits mirror [] (some id) (mirror, [.rejected id error]) where
  fit := h
  bytes := by simp [Leaves.bytes]
  reads other := by
    simp [countP_cons, Leaves.settles, add_comm]

/-! ## Taking from the buffer -/

end Fit

theorem takeLoop_spec (wanted : Nat) (chunks : List Uint8Array)
    (hsome : ∀ chunk ∈ chunks, chunk ≠ []) :
    (takeLoop wanted chunks).1 = chunks.flatten.take wanted ∧
      (takeLoop wanted chunks).2.flatten = chunks.flatten.drop wanted ∧
      (∀ chunk ∈ (takeLoop wanted chunks).2, chunk ≠ []) ∧
      (takeLoop wanted chunks).2.length ≤ chunks.length := by
  induction chunks generalizing wanted with
  | nil => simp [takeLoop]
  | cons chunk chunks ih =>
    have hrest : ∀ chunk ∈ chunks, chunk ≠ [] := fun c hc => hsome c (by simp [hc])
    unfold takeLoop
    split
    · rename_i hzero
      simpa [hzero] using hsome
    · rcases Nat.lt_or_ge wanted chunk.length with hlt | hle
      · have hpart : ¬ wanted = chunk.length := by omega
        simp only [Nat.min_eq_right (Nat.le_of_lt hlt), if_neg hpart]
        refine ⟨?_, ?_, ?_, by simp⟩
        · simp [take_append, Nat.sub_eq_zero_of_le (Nat.le_of_lt hlt)]
        · simp [drop_append, Nat.sub_eq_zero_of_le (Nat.le_of_lt hlt)]
        · intro c hc
          rcases mem_cons.mp hc with rfl | hc
          · simpa using hlt
          · exact hrest c hc
      · obtain ⟨hresult, hleft, hne, hlength⟩ := ih (wanted - chunk.length) hrest
        simp only [Nat.min_eq_left hle, if_true]
        simp only [flatten_cons, take_append, drop_append, hresult, hleft, take_of_length_le hle,
          drop_of_length_le hle, take_length, nil_append, length_cons]
        exact ⟨trivial, trivial, hne, by omega⟩

namespace Fit

variable {limits : RxLimits} {mirror : BoundedRxMirror} {added : Uint8Array}

/-- What `take` gives is the front of the buffer, and it leaves the rest. -/
theorem takes (h : Fit limits mirror) (hpending : mirror.pending = none)
    (hopen : mirror.closedError = none) (maxBytes id : Nat) :
    Moves limits mirror [] (some id)
      ((mirror.take maxBytes).2, [.resolved id (mirror.take maxBytes).1]) := by
  obtain ⟨hresult, hleft, hne, hlength⟩ :=
    takeLoop_spec (min maxBytes mirror.bytes) mirror.chunks h.no_empty_chunk
  have hsize : (BoundedRxMirror.takeLoop (min maxBytes mirror.bytes) mirror.chunks).1.length =
      min maxBytes mirror.bytes := by
    rw [hresult, length_take, ← h.counted]
    omega
  have htotal := h.counted
  have hbytes := h.within_bytes
  have hchunks := h.within_chunks
  refine ⟨⟨?_, hne, ?_, ?_, ?_, ?_, h.one_timer, h.one_listener⟩, ?_, ?_⟩
  · simp only [BoundedRxMirror.take, hleft, hsize, length_drop]
    omega
  · simp only [BoundedRxMirror.take]
    omega
  · simp only [BoundedRxMirror.take]
    omega
  · exact fun hsome => absurd hpending hsome
  · exact fun hclosed => absurd hopen hclosed
  · simp only [BoundedRxMirror.take, flatMap_singleton, Leaves.bytes, hleft]
    rw [hsize, Nat.sub_self, replicate_zero, append_nil, hresult, append_nil]
    exact (take_append_drop _ _).symm
  · intro other
    simp [BoundedRxMirror.take, waits, Leaves.settles, hpending, countP_cons]

/-! ## Settling the read that waits -/

variable {pending : PendingRxRead}

/-- The mirror after the read that waited was settled. -/
theorem settled (h : Fit limits mirror) (hpending : mirror.pending = some pending) :
    Fit limits { mirror with pending := none, timers := [], listeners := [] } where
  counted := h.counted
  no_empty_chunk := h.no_empty_chunk
  within_bytes := h.within_bytes
  within_chunks := h.within_chunks
  waits_for_bytes hsome := absurd rfl hsome
  closed_is_idle hclosed := by
    have hnone := (h.closed_is_idle hclosed).1
    rw [hpending] at hnone
    cases hnone
  one_timer := rfl
  one_listener := rfl

theorem rejects (h : Fit limits mirror) (hpending : mirror.pending = some pending)
    (error : SerialTransactionLeaseErrorCode) :
    Moves limits mirror [] none
      ({ mirror with pending := none, timers := [], listeners := [] },
        [.rejected pending.id error]) where
  fit := h.settled hpending
  bytes := by simp [Leaves.bytes]
  reads id := by
    simp [waits, Leaves.settles, hpending, countP_cons]

theorem timeout (h : Fit limits mirror) (id : Nat) :
    Moves limits mirror [] none (mirror.timeout id) := by
  unfold BoundedRxMirror.timeout
  split
  · rename_i harmed
    rcases hpending : mirror.pending with _ | pending
    · simp [h.one_timer, hpending] at harmed
    · obtain rfl : id = pending.id := by simpa [h.one_timer, hpending] using harmed
      have hnext := h.rejects hpending .timeout
      simpa [BoundedRxMirror.rejectPending, BoundedRxMirror.cleanupPending, hpending, h.one_timer,
        h.one_listener] using hnext
  · exact h.stays

theorem abort (h : Fit limits mirror) (id : Nat) :
    Moves limits mirror [] none (mirror.abort id) := by
  unfold BoundedRxMirror.abort
  split
  · rename_i hheard
    rcases hpending : mirror.pending with _ | pending
    · simp [h.one_listener, hpending] at hheard
    · obtain rfl : id = pending.id := by simpa [h.one_listener, hpending] using hheard
      have hnext := h.rejects hpending .cancelled
      simpa [BoundedRxMirror.rejectPending, BoundedRxMirror.cleanupPending, hpending, h.one_timer,
        h.one_listener] using hnext
  · exact h.stays

/-! ## The calls -/

section

variable (h : Fit limits mirror)
include h

theorem read (id maxBytes : Nat) (aborted : Bool) :
    Moves limits mirror [] (some id) (mirror.read id maxBytes aborted) := by
  unfold BoundedRxMirror.read
  split
  · exact h.refuses id _
  · rename_i hopen
    split
    · exact h.refuses id _
    · split
      · rename_i hbytes
        have hpending : mirror.pending = none := by
          by_contra hsome
          have hcounted := h.counted
          simp [h.waits_for_bytes hsome] at hcounted
          omega
        exact h.takes hpending hopen maxBytes id
      · rename_i hbytes
        split
        · exact h.refuses id _
        · rename_i hfree
          have hpending : mirror.pending = none := by simpa using hfree
          have hnil : mirror.chunks = [] := h.chunks_nil (by omega)
          refine ⟨⟨h.counted, h.no_empty_chunk, h.within_bytes, h.within_chunks, ?_, ?_, ?_, ?_⟩,
            ?_, ?_⟩
          · exact fun _ => hnil
          · exact fun hclosed => absurd hopen hclosed
          · simp [h.one_timer, hpending]
          · simp [h.one_listener, hpending]
          · simp
          · intro other
            simp [waits, hpending]

theorem clearBuffered : Moves limits mirror [] none mirror.clearBuffered := by
  unfold BoundedRxMirror.clearBuffered
  split
  · exact h.stays
  · refine ⟨⟨rfl, by simp, zero_le _, zero_le _, fun _ => rfl, ?_, h.one_timer,
      h.one_listener⟩, by simp [Leaves.bytes], ?_⟩
    · exact fun hclosed => ⟨(h.closed_is_idle hclosed).1, rfl⟩
    · intro id
      simp [waits, Leaves.settles]

theorem close (error : SerialTransactionLeaseErrorCode) :
    Moves limits mirror [] none (mirror.close error) := by
  by_cases hclosed : mirror.closedError.isSome
  · unfold BoundedRxMirror.close
    rw [if_pos hclosed]
    exact h.stays
  · rcases hpending : mirror.pending with _ | pending
    · have hclose : mirror.close error =
          ({ mirror with closedError := some error, chunks := [], bytes := 0 },
            [.discarded mirror.chunks.flatten]) := by
        simp [BoundedRxMirror.close, hclosed, hpending]
      rw [hclose]
      refine ⟨⟨rfl, by simp, zero_le _, zero_le _, fun _ => rfl,
        fun _ => ⟨hpending, rfl⟩, h.one_timer, h.one_listener⟩, by simp [Leaves.bytes], ?_⟩
      intro id
      simp [waits, Leaves.settles, hpending]
    · have hnil : mirror.chunks = [] := h.waits_for_bytes (by simp [hpending])
      have hclose : mirror.close error = ({ mirror with
              closedError := some error, chunks := [], bytes := 0, pending := none,
              timers := [], listeners := [] },
            [.discarded [], .rejected pending.id error]) := by
        simp [BoundedRxMirror.close, BoundedRxMirror.rejectPending, BoundedRxMirror.cleanupPending,
          hclosed, hpending, hnil, h.one_timer, h.one_listener]
      rw [hclose]
      refine ⟨⟨rfl, by simp, zero_le _, zero_le _, fun _ => rfl,
        fun _ => ⟨rfl, rfl⟩, rfl, rfl⟩, by simp [Leaves.bytes, hnil], ?_⟩
      intro id
      simp [waits, Leaves.settles, hpending]

/-- A chunk that there is room for goes behind the others, when nothing waits. -/
theorem appends (hpending : mirror.pending = none) (hopen : mirror.closedError = none)
    (chunk : Uint8Array) (hchunk : chunk ≠ [])
    (hbytes : mirror.bytes + chunk.length ≤ limits.maxBytes)
    (hchunks : mirror.chunks.length + 1 ≤ limits.maxChunks) :
    Fit limits { mirror with
      chunks := mirror.chunks ++ [chunk], bytes := mirror.bytes + chunk.length } where
  counted := by simp [h.counted]
  no_empty_chunk c hc := by
    rcases mem_append.mp hc with hc | hc
    · exact h.no_empty_chunk c hc
    · rwa [mem_singleton.mp hc]
  within_bytes := hbytes
  within_chunks := by simpa using hchunks
  waits_for_bytes hsome := absurd hpending hsome
  closed_is_idle hclosed := absurd hopen hclosed
  one_timer := h.one_timer
  one_listener := h.one_listener

/-- The read that waits takes the front of an offer, and what is left goes into the buffer,
which was empty. -/
theorem delivers {pending : PendingRxRead} {input : Uint8Array} {front additional : Nat}
    (hpending : mirror.pending = some pending) (hopen : mirror.closedError = none)
    (hadditional : (if input.length - front > 0 then 1 else 0) = additional)
    (hbytes : mirror.bytes + (input.length - front) ≤ limits.maxBytes)
    (hchunks : mirror.chunks.length + additional ≤ limits.maxChunks) :
    Moves limits mirror input none
      ((if input.length - front > 0 then mirror.append (input.drop front) else mirror).settlePending
        pending.id (input.take front)) := by
  have hnil : mirror.chunks = [] := h.waits_for_bytes (by simp [hpending])
  have hidle := h.settled hpending
  have hcount : ∀ id, [Leaves.resolved pending.id (input.take front)].countP (Leaves.settles id) +
      0 = waits mirror id + 0 := by
    intro id
    simp [waits, Leaves.settles, hpending, countP_cons]
  by_cases hmore : input.length - front > 0
  · rw [if_pos hmore] at hadditional ⊢
    have hlength : (input.drop front).length = input.length - front := length_drop
    have hsome : (input.drop front).length ≠ 0 := by omega
    have hmoved : (mirror.append (input.drop front)).settlePending pending.id (input.take front) =
        ({ mirror with
            chunks := mirror.chunks ++ [input.drop front]
            bytes := mirror.bytes + (input.drop front).length
            pending := none, timers := [], listeners := [] },
          [.resolved pending.id (input.take front)]) := by
      simp only [append, if_neg hsome]
      simp [settlePending, cleanupPending, hpending, h.one_timer, h.one_listener]
    rw [hmoved]
    have hnext := hidle.appends rfl hopen (input.drop front)
      (fun hnone => hsome (by rw [hnone]; rfl)) (by rwa [hlength]) (by rwa [hadditional])
    exact ⟨hnext, by simp [hnil, Leaves.bytes], hcount⟩
  · rw [if_neg hmore]
    have hmoved : mirror.settlePending pending.id (input.take front) =
        ({ mirror with pending := none, timers := [], listeners := [] },
          [.resolved pending.id (input.take front)]) := by
      simp [settlePending, cleanupPending, hpending, h.one_timer, h.one_listener]
    have hall : input.take front = input := take_of_length_le (by omega)
    rw [hmoved]
    exact ⟨hidle, by simp [hnil, Leaves.bytes, hall], hcount⟩

/-- An offer comes in whole, or it changes nothing. -/
theorem offer (input : Uint8Array) :
    ((mirror.offer limits input).1.isMirrored = true ∧
        Moves limits mirror input none (mirror.offer limits input).2) ∨
      ((mirror.offer limits input).1.isMirrored = false ∧
        (mirror.offer limits input).2 = (mirror, [])) := by
  unfold BoundedRxMirror.offer
  split
  · exact .inr ⟨rfl, rfl⟩
  · rename_i htaken
    obtain ⟨hopen, hinput⟩ := not_or.mp htaken
    have hopen : mirror.closedError = none := by simpa using hopen
    rcases hpending : mirror.pending with _ | pending
    · -- nothing waits: all of the input is the remainder
      simp only [Nat.sub_zero, if_pos (Nat.pos_of_ne_zero hinput)]
      split
      · exact .inr ⟨rfl, rfl⟩
      · rename_i hroom
        have hsome : input ≠ [] := fun hnil => hinput (by simp [hnil])
        have hnext := h.appends hpending hopen input hsome (by omega) (by omega)
        refine .inl ⟨rfl, ?_⟩
        simp only [BoundedRxMirror.append, if_neg hinput]
        exact ⟨hnext, by simp, fun id => by simp [waits, hpending]⟩
    · simp only
      generalize hadditional :
        (if input.length - min pending.maxBytes input.length > 0 then 1 else 0) = additional
      split
      · exact .inr ⟨rfl, rfl⟩
      · rename_i hroom
        exact .inl ⟨rfl, h.delivers hpending hopen hadditional (by omega) (by omega)⟩

end

end Fit

/-! ## What the calls throw away, and what they do once the mirror is closed -/

section calls

variable (mirror : BoundedRxMirror) (limits : RxLimits)

/-- The call throws no buffered byte away. -/
def Keeps (next : BoundedRxMirror × List Leaves) : Prop :=
  ∀ bytes, discarded bytes ∉ next.2

/-- What the call throws away is the whole buffer. -/
def Empties (next : BoundedRxMirror × List Leaves) : Prop :=
  ∀ bytes, discarded bytes ∈ next.2 →
    bytes = mirror.chunks.flatten ∧ next.1.chunks = []

theorem keeps_rejectPending (id : Nat) (error : SerialTransactionLeaseErrorCode) :
    Keeps (mirror.rejectPending id error) := by
  intro bytes
  unfold rejectPending
  split <;> simp

theorem keeps_settlePending (id : Nat) (given : Uint8Array) :
    Keeps (mirror.settlePending id given) := by
  intro bytes
  unfold settlePending
  split <;> simp

theorem keeps_offer (input : Uint8Array) : Keeps (mirror.offer limits input).2 := by
  intro bytes
  unfold offer
  split
  · simp
  · rcases mirror.pending with _ | pending
    · dsimp only
      generalize (if input.length - 0 > 0 then 1 else 0) = additional
      split <;> simp
    · dsimp only
      generalize
        (if input.length - min pending.maxBytes input.length > 0 then 1 else 0) = additional
      split
      · simp
      · exact keeps_settlePending _ _ _ bytes

theorem keeps_read (id maxBytes : Nat) (aborted : Bool) :
    Keeps (mirror.read id maxBytes aborted) := by
  intro bytes
  unfold BoundedRxMirror.read
  split
  · simp
  · split
    · simp
    · split
      · simp
      · split <;> simp

theorem keeps_timeout (id : Nat) : Keeps (mirror.timeout id) := by
  unfold timeout
  split
  · apply keeps_rejectPending
  · intro bytes
    simp

theorem keeps_abort (id : Nat) : Keeps (mirror.abort id) := by
  unfold abort
  split
  · apply keeps_rejectPending
  · intro bytes
    simp

theorem empties_clearBuffered : Empties mirror mirror.clearBuffered := by
  intro bytes
  unfold clearBuffered
  split
  · simp
  · simp

theorem chunks_rejectPending (id : Nat) (error : SerialTransactionLeaseErrorCode) :
    (mirror.rejectPending id error).1.chunks = mirror.chunks := by
  unfold rejectPending
  split <;> rfl

theorem empties_close (error : SerialTransactionLeaseErrorCode) :
    Empties mirror (mirror.close error) := by
  intro bytes
  unfold close
  split
  · simp
  · rcases mirror.pending with _ | pending
    · simp
    · intro hdiscarded
      rcases mem_cons.mp hdiscarded with heq | hrest
      · exact ⟨by simpa using heq, chunks_rejectPending _ _ _⟩
      · exact absurd hrest (keeps_rejectPending _ _ _ bytes)

end calls

/-- A closed mirror stays closed, and no call on it delivers. -/
structure Silent (next : BoundedRxMirror × List Leaves) : Prop where
  closed : next.1.closedError ≠ none
  delivers_nothing : next.2.flatMap delivered = []

namespace Fit

variable {limits : RxLimits} {mirror : BoundedRxMirror}

theorem silent_stays (hclosed : mirror.closedError ≠ none) : Silent (mirror, []) := ⟨hclosed, rfl⟩

/-- A closed mirror ignores whatever comes, and answers a read with its error. -/
theorem silent_closed (h : Fit limits mirror) (hclosed : mirror.closedError ≠ none) :
    (∀ input, Silent (mirror.offer limits input).2) ∧
    (∀ id maxBytes aborted, Silent (mirror.read id maxBytes aborted)) ∧
    (∀ id, Silent (mirror.timeout id)) ∧ (∀ id, Silent (mirror.abort id)) ∧
    Silent mirror.clearBuffered ∧ ∀ error, Silent (mirror.close error) := by
  have hpending := (h.closed_is_idle hclosed).1
  have hsome : mirror.closedError.isSome := Option.isSome_iff_ne_none.mpr hclosed
  obtain ⟨error, herror⟩ := Option.isSome_iff_exists.mp hsome
  refine ⟨fun input => ?_, fun id maxBytes aborted => ?_, fun id => ?_, fun id => ?_, ?_,
    fun error => ?_⟩
  · simpa [BoundedRxMirror.offer, hsome] using silent_stays hclosed
  · simp only [BoundedRxMirror.read, herror]
    exact ⟨hclosed, rfl⟩
  · simpa [BoundedRxMirror.timeout, h.one_timer, hpending] using silent_stays hclosed
  · simpa [BoundedRxMirror.abort, h.one_listener, hpending] using silent_stays hclosed
  · simpa [BoundedRxMirror.clearBuffered, hsome] using silent_stays hclosed
  · simpa [BoundedRxMirror.close, hsome] using silent_stays hclosed

/-- Closing delivers nothing either. -/
theorem silent_close (h : Fit limits mirror) (error : SerialTransactionLeaseErrorCode) :
    Silent (mirror.close error) := by
  by_cases hclosed : mirror.closedError = none
  · rcases hpending : mirror.pending with _ | pending
    · simp only [BoundedRxMirror.close, hclosed, hpending]
      exact ⟨by simp, rfl⟩
    · simp only [BoundedRxMirror.close, BoundedRxMirror.rejectPending,
        BoundedRxMirror.cleanupPending, hclosed, hpending]
      exact ⟨by simp, by simp [delivered]⟩
  · exact (h.silent_closed hclosed).2.2.2.2.2 error

end Fit

/-! ## Every run -/

variable {limits : RxLimits} {s : State}

variable {next : BoundedRxMirror × List Leaves}

/-- What a call moves, the history records. -/
theorem Exact.moved (h : Exact limits s) (added : Uint8Array) (asked : Option Nat) (reads : Nat)
    (hmoves : Moves limits s.mirror added asked next)
    (hreads : ∀ id, (if id < reads then 1 else 0) =
      (if id < s.reads then 1 else 0) + if asked = some id then 1 else 0) :
    Exact limits ⟨next.1, reads, s.mirrored ++ added, s.left ++ next.2⟩ where
  fit := hmoves.fit
  fifo := by
    simp only [flatMap_append, append_assoc, ← hmoves.bytes]
    rw [← append_assoc, ← h.fifo]
  once id := by
    have hbefore := h.once id
    have hcall := hmoves.reads id
    have hnow := hreads id
    simp only [countP_append]
    omega

/-- A call that is no read and brings no bytes. -/
theorem Exact.passed (h : Exact limits s) (hmoves : Moves limits s.mirror [] none next) :
    Exact limits (s.moved next) := by
  have hnext := h.moved [] none s.reads hmoves (by simp)
  rwa [append_nil] at hnext

theorem Exact.step (h : Exact limits s) (e : Event) :
    Exact limits (serial_transaction_lease.step limits s e) := by
  cases e with
  | offer input =>
    rcases h.fit.offer input with ⟨hmirrored, hmoves⟩ | ⟨hrefused, hsame⟩
    · have hnext := h.moved input none s.reads hmoves (by simp)
      simpa [serial_transaction_lease.step, State.moved, hmirrored] using hnext
    · simpa [serial_transaction_lease.step, State.moved, hrefused, hsame] using h
  | read maxBytes aborted =>
    have hnext := h.moved [] (some s.reads) (s.reads + 1) (h.fit.read s.reads maxBytes aborted) (by
        intro id
        simp only [Option.some.injEq]
        split_ifs <;> omega)
    rwa [append_nil] at hnext
  | timeout id => exact h.passed (h.fit.timeout id)
  | abort id => exact h.passed (h.fit.abort id)
  | clearBuffered => exact h.passed h.fit.clearBuffered
  | close error => exact h.passed (h.fit.close error)

theorem exact_run (limits : RxLimits) (events : List Event) :
    Exact limits (run (step limits) .initial events) :=
  run_invariant (fun _ e h => h.step e) (exact_initial limits) events

/-- An offer that is refused leaves everything as it was. -/
theorem Exact.refused (h : Exact limits s) {input : Uint8Array}
    (hrefused : (s.mirror.offer limits input).1.isMirrored = false) :
    serial_transaction_lease.step limits s (.offer input) = s := by
  rcases h.fit.offer input with ⟨hmirrored, -⟩ | ⟨-, hsame⟩
  · rw [hrefused] at hmirrored
    cases hmirrored
  · simp [serial_transaction_lease.step, hrefused, hsame, State.moved]

/-- Bytes are thrown away only by clearing and closing, and then the whole buffer is. -/
theorem discarded_whole (limits : RxLimits) (s : State) (e : Event) :
    ∃ fresh, (step limits s e).left = s.left ++ fresh ∧
      ∀ bytes, discarded bytes ∈ fresh → (e = .clearBuffered ∨ ∃ error, e = .close error) ∧
        bytes = s.mirror.chunks.flatten ∧ (step limits s e).mirror.chunks = [] := by
  cases e with
  | offer input =>
    refine ⟨_, rfl, fun bytes hin => absurd hin ?_⟩
    apply keeps_offer
  | read maxBytes aborted =>
    refine ⟨_, rfl, fun bytes hin => absurd hin ?_⟩
    apply keeps_read
  | timeout id =>
    refine ⟨_, rfl, fun bytes hin => absurd hin ?_⟩
    apply keeps_timeout
  | abort id =>
    refine ⟨_, rfl, fun bytes hin => absurd hin ?_⟩
    apply keeps_abort
  | clearBuffered => exact ⟨_, rfl, fun bytes hin => ⟨.inl rfl, empties_clearBuffered _ bytes hin⟩⟩
  | close error =>
    exact ⟨_, rfl, fun bytes hin => ⟨.inr ⟨error, rfl⟩, empties_close _ error bytes hin⟩⟩

/-- The mirror is closed, and `given` is all that was delivered. -/
structure Over (limits : RxLimits) (given : Uint8Array) (s : State) : Prop where
  exact_ : Exact limits s
  closed : s.mirror.closedError ≠ none
  delivered : s.delivered = given

theorem Over.step {given : Uint8Array} (h : Over limits given s) (e : Event) :
    Over limits given (serial_transaction_lease.step limits s e) := by
  obtain ⟨hoffer, hread, htimeout, habort, hclear, hclose⟩ := h.exact_.fit.silent_closed h.closed
  have hmoved : ∀ next : BoundedRxMirror × List Leaves, Silent next →
      (s.left ++ next.2).flatMap Leaves.delivered = given := by
    intro next hnext
    rw [flatMap_append, hnext.delivers_nothing, append_nil]
    exact h.delivered
  have hexact := h.exact_.step e
  cases e with
  | offer input => exact ⟨hexact, (hoffer input).closed, hmoved _ (hoffer input)⟩
  | read maxBytes aborted =>
    have hsilent := hread s.reads maxBytes aborted
    exact ⟨hexact, hsilent.closed, hmoved _ hsilent⟩
  | timeout id => exact ⟨hexact, (htimeout id).closed, hmoved _ (htimeout id)⟩
  | abort id => exact ⟨hexact, (habort id).closed, hmoved _ (habort id)⟩
  | clearBuffered => exact ⟨hexact, hclear.closed, hmoved _ hclear⟩
  | close error => exact ⟨hexact, (hclose error).closed, hmoved _ (hclose error)⟩

/-- After a close nothing is delivered any more. -/
theorem Exact.delivered_after_close (h : Exact limits s) (error : SerialTransactionLeaseErrorCode)
    (more : List Event) :
    (run (serial_transaction_lease.step limits) s (.close error :: more)).delivered =
      s.delivered := by
  have hsilent := h.fit.silent_close error
  have hover : Over limits s.delivered (serial_transaction_lease.step limits s (.close error)) := by
    refine ⟨h.step _, hsilent.closed, ?_⟩
    simp [serial_transaction_lease.step, State.moved, State.delivered, hsilent.delivers_nothing]
  rw [run_cons]
  exact (run_invariant (fun _ e h => h.step e) hover more).delivered

/-- The receive mirror is an exact bounded queue: in every run the bytes that resolved reads
gave and the buffers that clearing and closing threw away, with the buffered bytes behind them,
are the bytes of the mirrored offers in order; its bounds and its counter hold, a read waits
only at an empty buffer, and every read waits or was settled exactly once; a refused offer
changes nothing, and nothing is delivered after a close. -/
theorem mirror_exact (limits : RxLimits) (events : List Event) :
    Exact limits (run (step limits) .initial events) ∧
    (∀ input, ((run (step limits) .initial events).mirror.offer limits input).1.isMirrored = false →
      step limits (run (step limits) .initial events) (.offer input) =
        run (step limits) .initial events) ∧
    (∀ e, ∃ fresh, (step limits (run (step limits) .initial events) e).left =
        (run (step limits) .initial events).left ++ fresh ∧
      ∀ bytes, discarded bytes ∈ fresh → (e = .clearBuffered ∨ ∃ error, e = .close error) ∧
        bytes = (run (step limits) .initial events).mirror.chunks.flatten ∧
        (step limits (run (step limits) .initial events) e).mirror.chunks = []) ∧
    ∀ error more, (run (step limits) .initial (events ++ .close error :: more)).delivered =
        (run (step limits) .initial events).delivered := by
  have hexact := exact_run limits events
  refine ⟨hexact, fun input hrefused => hexact.refused hrefused,
    fun e => discarded_whole limits _ e, ?_⟩
  intro error more
  rw [run_append]
  exact hexact.delivered_after_close error more

end bbcom.serial_transaction_lease
