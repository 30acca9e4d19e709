-- The books of the serial write queue: what its operations, its counters, its promises and the
-- bytes at the driver have to do with each other, and that each single change keeps it so.
import Bbcom.SerialWriteScheduler

open bbcom.js bbcom.ipc_contracts

namespace bbcom.serial_write

open World List Option

/-! ## What a state says about its operations -/

namespace World

variable (w : World)

/-- All bytes that the driver has accepted, in order. -/
def wireBytes : Uint8Array := w.wire.flatMap Prod.snd

def settledOf (id : Nat) : Bool := (w.operations id).settled

def remaining (id : Nat) : Int :=
  ((w.operations id).payload.length : Int) - (w.operations id).sentBytes

/-- The operations whose promise is pending. -/
def unsettled : List Nat := w.order.filter fun id => !(w.operations id).settled

def openCount (id : Nat) : Int := if (w.operations id).settled then 0 else 1

def openBytes (id : Nat) : Int := if (w.operations id).settled then 0 else w.remaining id

/-- An operation that the drain has taken up, or of which the driver has bytes. -/
def Started (id : Nat) : Prop := w.activeOperation = some id ∨ w.accepted id ≠ 0

end World

variable {id : Nat} {limits : SerialWriteSchedulerLimits} {w : World}

theorem sum_map_update {ids : List Nat} (hids : ids.Nodup) (hid : id ∈ ids) {f g : Nat → Int}
    (hg : ∀ other, other ≠ id → g other = f other) :
    (ids.map g).sum = (ids.map f).sum - f id + g id := by
  induction ids with
  | nil => cases hid
  | cons first ids ih =>
    rw [nodup_cons] at hids
    simp only [map_cons, sum_cons]
    rcases mem_cons.1 hid with rfl | hrest
    · have hsame : ids.map g = ids.map f := by
        apply map_congr_left
        intro other hother
        exact hg other fun h => hids.1 (h ▸ hother)
      rw [hsame]
      ring
    · have hne : first ≠ id := fun h => hids.1 (h ▸ hrest)
      rw [ih hids.2 hrest, hg first hne]
      ring

theorem sum_openCount (w : World) (ids : List Nat) :
    (ids.map w.openCount).sum = (ids.filter fun id => !(w.operations id).settled).length := by
  induction ids with
  | nil => rfl
  | cons id ids ih =>
    rw [map_cons, sum_cons, ih]
    by_cases h : (w.operations id).settled
    · simp [openCount, h]
    · simp [openCount, h]
      ring

theorem sum_openBytes (w : World) (ids : List Nat) :
    (ids.map w.openBytes).sum =
      ((ids.filter fun id => !(w.operations id).settled).map w.remaining).sum := by
  induction ids with
  | nil => rfl
  | cons id ids ih =>
    rw [map_cons, sum_cons, ih]
    by_cases h : (w.operations id).settled
    · simp [openBytes, h]
    · simp [openBytes, h]

theorem accepted_append (w : World) (id : Nat) (bytes : Uint8Array) (other : Nat) :
    accepted { w with wire := w.wire ++ [(id, bytes)] } other =
      w.accepted other + if other = id then bytes.length else 0 := by
  by_cases h : other = id
  · simp [accepted, h]
  · simp [accepted, h, Ne.symm h]

/-! ## The invariant -/

/-- What holds of the operations, the bytes, the counters and the promises, wherever a drain
stands. -/
structure Books (limits : SerialWriteSchedulerLimits) (w : World) : Prop where
  -- the operations, in the order of their promises
  order_sorted : w.order.Pairwise (· < ·)
  order_lt : ∀ id ∈ w.order, id < w.nextPromise
  outside : ∀ id, id ∉ w.order → w.operations id = ⟨[], 0, true⟩
  -- who waits, and whose turn it is
  queue_sorted : w.queue.Pairwise (· < ·)
  queue_mem : ∀ id ∈ w.queue, id ∈ w.order ∧ w.settledOf id = false ∧
    (w.operations id).sentBytes = 0 ∧ ¬w.Started id
  waiting : ∀ id ∈ w.order, w.settledOf id = false → w.activeOperation = some id ∨ id ∈ w.queue
  active_mem : ∀ id, w.activeOperation = some id → id ∈ w.order
  in_turn : ∀ a ∈ w.order, ∀ b ∈ w.order, a < b → w.Started b →
    w.settledOf a = true ∧ w.activeOperation ≠ some a
  -- the bytes
  sent_le : ∀ id, (w.operations id).sentBytes ≤ w.accepted id
  accepted_le : ∀ id, w.accepted id ≤ (w.operations id).payload.length
  accepted_near : ∀ id, w.accepted id ≤ (w.operations id).sentBytes + limits.chunkBytes
  exact : ∀ id, id ∉ w.cutOff → w.accepted id = (w.operations id).sentBytes
  exact_open : ∀ id, w.settledOf id = false → w.accepted id = (w.operations id).sentBytes
  wire_order : w.wireBytes =
    w.order.flatMap fun id => (w.operations id).payload.take (w.accepted id)
  -- the counters
  count : w.outstandingOperations = (w.order.map w.openCount).sum
  count_bytes : w.outstandingBytes = (w.order.map w.openBytes).sum
  count_limit : w.outstandingOperations ≤ limits.maxOperations
  bytes_limit : w.outstandingBytes ≤ limits.maxQueuedBytes
  -- the promises
  resolved_once : ∀ id, w.resolved.countP (·.promise = id) =
    if id < w.nextPromise ∧ w.settledOf id = true then 1 else 0
  resolved_sent : ∀ call ∈ w.resolved,
    call.result.sentBytes = (w.operations call.promise).sentBytes ∧
      call.accepted = call.result.sentBytes

theorem books_new (limits : SerialWriteSchedulerLimits) : Books limits World.new := by
  constructor
  all_goals simp [new, accepted, wireBytes, settledOf, World.Started]

theorem Books.order_nodup (h : Books limits w) : w.order.Nodup :=
  h.order_sorted.imp fun hlt => hlt.ne

theorem Books.remaining_nonneg (h : Books limits w) (id : Nat) : 0 ≤ w.remaining id := by
  have hsent := (h.sent_le id).trans (h.accepted_le id)
  unfold remaining
  omega

/-! ## Settling -/

/-- `settle` without the clamps, together with the change of the queue or of the active
operation that it comes with. -/
def World.settled (w : World) (id : Nat) (result : SerialSendResult) (queue : List Nat)
    (active : Option Nat) (cutOff : List Nat) : World :=
  { w with
    operations := Function.update w.operations id { w.operations id with settled := true }
    outstandingBytes := w.outstandingBytes - w.remaining id
    outstandingOperations := w.outstandingOperations - 1
    resolved := w.resolved ++ [⟨id, result, w.accepted id⟩]
    queue, activeOperation := active, cutOff }

/-- The counters as they are without their `Math.max(0, ..)`. -/
def unclamped (n : Int) : Int := n

theorem settle_open (hopen : w.settledOf id = false) (result : SerialSendResult) :
    w.settle unclamped id result = w.settled id result w.queue w.activeOperation w.cutOff := by
  exact if_neg (by simpa [settledOf] using hopen)

theorem settle_done (hdone : w.settledOf id = true) (clamp : Int → Int)
    (result : SerialSendResult) : w.settle clamp id result = w :=
  if_pos hdone

theorem Books.settled (h : Books limits w) (hid : id ∈ w.order) (hopen : w.settledOf id = false)
    (result : SerialSendResult) (hresult : result.sentBytes = (w.operations id).sentBytes)
    {queue : List Nat} (hsub : queue.Sublist w.queue) (hout : id ∉ queue)
    (hkept : ∀ other ∈ w.queue, other ≠ id → other ∈ queue) {active : Option Nat}
    (hactive : active = w.activeOperation ∨ active = none ∧ w.activeOperation = some id)
    (cutOff : List Nat) (hcut : ∀ other ∈ w.cutOff, other ∈ cutOff) :
    Books limits (w.settled id result queue active cutOff) := by
  have hsent : ∀ other, ((w.settled id result queue active cutOff).operations other).sentBytes =
      (w.operations other).sentBytes := by
    intro other
    by_cases hother : other = id
    · subst hother
      simp [World.settled]
    · simp [World.settled, hother]
  have hpayload : ∀ other, ((w.settled id result queue active cutOff).operations other).payload =
      (w.operations other).payload := by
    intro other
    by_cases hother : other = id
    · subst hother
      simp [World.settled]
    · simp [World.settled, hother]
  have hsettled : ∀ other, (w.settled id result queue active cutOff).settledOf other =
      (w.settledOf other || decide (other = id)) := by
    intro other
    by_cases hother : other = id
    · subst hother
      simp [World.settled, World.settledOf]
    · simp [World.settled, World.settledOf, hother]
  have hstill : ∀ other, active = some other → w.activeOperation = some other := by
    intro other hother
    rcases hactive with rfl | ⟨rfl, _⟩
    · exact hother
    · cases hother
  have hstarted : ∀ other, (w.settled id result queue active cutOff).Started other →
      w.Started other := fun other => Or.imp_left (hstill other)
  have hcount := sum_map_update h.order_nodup hid (f := w.openCount)
    (g := (w.settled id result queue active cutOff).openCount) fun other hother => by
      simp [World.openCount, World.settled, hother]
  have hbytes := sum_map_update h.order_nodup hid (f := w.openBytes)
    (g := (w.settled id result queue active cutOff).openBytes) fun other hother => by
      simp [World.openBytes, World.remaining, World.settled, hother]
  have hclosed : (w.operations id).settled = false := hopen
  have hnonneg := h.remaining_nonneg id
  refine
    { order_sorted := h.order_sorted
      order_lt := h.order_lt
      outside := ?_
      queue_sorted := h.queue_sorted.sublist hsub
      queue_mem := ?_
      waiting := ?_
      active_mem other hother := h.active_mem other (hstill other hother)
      in_turn := ?_
      sent_le other := by rw [hsent]; exact h.sent_le other
      accepted_le other := by rw [hpayload]; exact h.accepted_le other
      accepted_near other := by rw [hsent]; exact h.accepted_near other
      exact other hother := by
        rw [hsent]
        exact h.exact other fun hmem => hother (hcut other hmem)
      exact_open := ?_
      wire_order := ?_
      count := ?_
      count_bytes := ?_
      count_limit := ?_
      bytes_limit := ?_
      resolved_once := ?_
      resolved_sent := ?_ }
  · intro other hother
    have hne : other ≠ id := fun heq => hother (heq ▸ hid)
    simpa [World.settled, hne] using h.outside other hother
  · intro other hother
    obtain ⟨hmem, hunsettled, hzero, hidle⟩ := h.queue_mem other (hsub.subset hother)
    have hne : other ≠ id := fun heq => hout (heq ▸ hother)
    refine ⟨hmem, ?_, ?_, fun hstart => hidle (hstarted other hstart)⟩
    · rw [hsettled]
      simp [hunsettled, hne]
    · rw [hsent]
      exact hzero
  · intro other hother hunsettled
    rw [hsettled, Bool.or_eq_false_iff] at hunsettled
    have hne : other ≠ id := by simpa using hunsettled.2
    rcases h.waiting other hother hunsettled.1 with hact | hqueue
    · left
      rcases hactive with rfl | ⟨_, hcurrent⟩
      · exact hact
      · rw [hcurrent, some.injEq] at hact
        exact (hne hact.symm).elim
    · exact .inr (hkept other hqueue hne)
  · intro a ha b hb hlt hstart
    obtain ⟨hdone, hpassed⟩ := h.in_turn a ha b hb hlt (hstarted b hstart)
    refine ⟨?_, fun hact => hpassed (hstill a hact)⟩
    rw [hsettled, hdone]
    rfl
  · intro other hunsettled
    rw [hsettled, Bool.or_eq_false_iff] at hunsettled
    rw [hsent]
    exact h.exact_open other hunsettled.1
  · have hsame := h.wire_order
    simp only [hpayload]
    exact hsame
  · have hone : w.openCount id = 1 := by simp [World.openCount, hclosed]
    have hzero : (w.settled id result queue active cutOff).openCount id = 0 := by
      simp [World.openCount, World.settled]
    rw [hone, hzero, ← h.count] at hcount
    change w.outstandingOperations - 1 = (w.order.map _).sum
    omega
  · have hone : w.openBytes id = w.remaining id := by simp [World.openBytes, hclosed]
    have hzero : (w.settled id result queue active cutOff).openBytes id = 0 := by
      simp [World.openBytes, World.settled]
    rw [hone, hzero, ← h.count_bytes] at hbytes
    change w.outstandingBytes - w.remaining id = (w.order.map _).sum
    omega
  · have hlimit := h.count_limit
    change w.outstandingOperations - 1 ≤ _
    omega
  · have hlimit := h.bytes_limit
    change w.outstandingBytes - w.remaining id ≤ _
    omega
  · intro other
    have honce := h.resolved_once other
    change (w.resolved ++ [Resolution.mk id result (w.accepted id)]).countP _ = _
    rw [countP_append, honce, hsettled]
    by_cases hother : other = id
    · subst hother
      simp [hopen, h.order_lt other hid, World.settled]
    · simp [hother, Ne.symm hother, World.settled]
  · intro call hcall
    rw [hsent]
    rcases mem_append.1 hcall with hold | hnew
    · exact h.resolved_sent call hold
    · rw [mem_singleton.1 hnew]
      exact ⟨hresult, (h.exact_open id hopen).trans hresult.symm⟩

/-! ## The next operation, and the bytes of a chunk -/

theorem Books.takeUp (h : Books limits w) {rest : List Nat} (hqueue : w.queue = id :: rest)
    (hactive : w.activeOperation = none) :
    Books limits { w with queue := rest, activeOperation := some id } := by
  have hmem := h.queue_mem id (hqueue ▸ mem_cons_self)
  have hsorted := h.queue_sorted
  rw [hqueue, pairwise_cons] at hsorted
  have hwaiting : ∀ other ∈ w.order, w.settledOf other = false → other ∈ id :: rest := by
    intro other hother hopen
    rcases h.waiting other hother hopen with hact | hin
    · rw [hactive] at hact
      cases hact
    · exact hqueue ▸ hin
  refine { h with
    queue_sorted := hsorted.2
    queue_mem := ?_
    waiting := ?_
    active_mem := ?_
    in_turn := ?_ }
  · intro other hother
    obtain ⟨horder, hopen, hzero, hidle⟩ :=
      h.queue_mem other (hqueue ▸ mem_cons_of_mem _ hother)
    refine ⟨horder, hopen, hzero, ?_⟩
    rintro (hact | hbytes)
    · have heq : id = other := some.inj hact
      have hlt := hsorted.1 other hother
      omega
    · exact hidle (.inr hbytes)
  · intro other hother hopen
    rcases mem_cons.1 (hwaiting other hother hopen) with rfl | hin
    · exact .inl rfl
    · exact .inr hin
  · intro other hother
    rw [← some.inj hother]
    exact hmem.1
  · intro a ha b hb hlt hstart
    by_cases hb' : b = id
    · subst hb'
      -- all operations in front of the new one have left the queue
      refine ⟨?_, fun hact => hlt.ne' (some.inj hact)⟩
      by_contra hopen
      have hunsettled : w.settledOf a = false := by
        simpa [settledOf] using hopen
      rcases mem_cons.1 (hwaiting a ha hunsettled) with rfl | hin
      · exact hlt.ne rfl
      · exact absurd (hsorted.1 a hin) (by omega)
    · have hbytes : w.accepted b ≠ 0 := by
        rcases hstart with hact | hbytes
        · exact (hb' (some.inj hact).symm).elim
        · exact hbytes
      obtain ⟨hdone, _⟩ := h.in_turn a ha b hb hlt (.inr hbytes)
      refine ⟨hdone, fun hact => ?_⟩
      rw [← some.inj hact] at hdone
      rw [hmem.2.1] at hdone
      cases hdone

/-- The driver takes bytes of the active operation. They are counted as sent when they come in
time, that is before the operation has settled. -/
def World.took (w : World) (id n : Nat) (counted : Bool) : World :=
  let operation := w.operations id
  let bytes := (operation.payload.drop operation.sentBytes).take n
  { w with
    wire := w.wire ++ [(id, bytes)]
    operations := if counted then
        Function.update w.operations id { operation with sentBytes := operation.sentBytes + n }
      else w.operations
    outstandingBytes := if counted then w.outstandingBytes - n else w.outstandingBytes }

section

variable (h : Books limits w) (hactive : w.activeOperation = some id)
include h hactive

theorem Books.wire_took {n : Nat} (hexact : w.accepted id = (w.operations id).sentBytes)
    (accepted : Nat → Nat) (hid : accepted id = w.accepted id + n)
    (hothers : ∀ other, other ≠ id → accepted other = w.accepted other) :
    w.wireBytes ++ ((w.operations id).payload.drop (w.operations id).sentBytes).take n =
      w.order.flatMap fun other => (w.operations other).payload.take (accepted other) := by
  obtain ⟨before, after, horder⟩ := append_of_mem (h.active_mem id hactive)
  have hsorted := h.order_sorted
  rw [horder, pairwise_append] at hsorted
  have hbefore : ∀ other ∈ before, other ≠ id := fun other hother =>
    (hsorted.2.2 other hother id mem_cons_self).ne
  have hafter : ∀ other ∈ after, id < other := (pairwise_cons.1 hsorted.2.1).1
  have hnone : ∀ other ∈ after, w.accepted other = 0 := by
    intro other hother
    by_contra hbytes
    have hmem : other ∈ w.order := by simp [horder, hother]
    exact (h.in_turn id (h.active_mem id hactive) other hmem (hafter other hother)
      (.inr hbytes)).2 hactive
  have htake : (w.operations id).payload.take (accepted id) =
      (w.operations id).payload.take (w.accepted id) ++
        ((w.operations id).payload.drop (w.operations id).sentBytes).take n := by
    rw [hid, hexact, take_add]
  have hfront : before.flatMap (fun other => (w.operations other).payload.take (accepted other)) =
      before.flatMap fun other => (w.operations other).payload.take (w.accepted other) := by
    apply flatMap_congr
    intro other hother
    rw [hothers other (hbefore other hother)]
  have hback : ∀ taken : Nat → Nat, (∀ other ∈ after, taken other = 0) →
      after.flatMap (fun other => (w.operations other).payload.take (taken other)) = [] := by
    intro taken htaken
    rw [flatMap_eq_nil_iff]
    intro other hother
    rw [htaken other hother, take_zero]
  rw [h.wire_order, horder]
  simp only [flatMap_append, flatMap_cons, hfront, htake]
  rw [hback w.accepted hnone, hback accepted fun other hother => by
    rw [hothers other (hafter other hother).ne', hnone other hother]]
  simp

theorem Books.took {n : Nat} (hexact : w.accepted id = (w.operations id).sentBytes)
    (hn : (w.operations id).sentBytes + n ≤ (w.operations id).payload.length)
    (hnear : n ≤ limits.chunkBytes) (counted : Bool) (hcounted : counted = !w.settledOf id)
    (hlate : w.settledOf id = true → id ∈ w.cutOff) :
    Books limits (w.took id n counted) ∧
      (∀ other, (w.took id n counted).accepted other =
        w.accepted other + if other = id then n else 0) := by
  have hlength : (((w.operations id).payload.drop (w.operations id).sentBytes).take n).length =
      n := by
    rw [length_take, length_drop]
    omega
  have haccepted : ∀ other, (w.took id n counted).accepted other =
      w.accepted other + if other = id then n else 0 := by
    intro other
    have happend := accepted_append w id
      (((w.operations id).payload.drop (w.operations id).sentBytes).take n) other
    rw [hlength] at happend
    exact happend
  have hsent : ∀ other, ((w.took id n counted).operations other).sentBytes =
      (w.operations other).sentBytes + if other = id ∧ counted then n else 0 := by
    intro other
    cases counted with
    | false => simp [World.took]
    | true =>
      by_cases hother : other = id
      · subst hother
        simp [World.took]
      · simp [World.took, hother]
  have hpayload : ∀ other, ((w.took id n counted).operations other).payload =
      (w.operations other).payload := by
    intro other
    cases counted with
    | false => rfl
    | true =>
      by_cases hother : other = id
      · subst hother
        simp [World.took]
      · simp [World.took, hother]
  have hsettled : ∀ other, (w.took id n counted).settledOf other = w.settledOf other := by
    intro other
    cases counted with
    | false => rfl
    | true =>
      by_cases hother : other = id
      · subst hother
        simp [World.took, World.settledOf]
      · simp [World.took, World.settledOf, hother]
  have hmem := h.active_mem id hactive
  have hstarted : ∀ other, (w.took id n counted).Started other → w.Started other := by
    intro other hstart
    by_cases hother : other = id
    · exact .inl (hother ▸ hactive)
    · rcases hstart with hact | hbytes
      · exact .inl hact
      · rw [haccepted, if_neg hother] at hbytes
        exact .inr hbytes
  refine ⟨?_, haccepted⟩
  refine
    { order_sorted := h.order_sorted
      order_lt := h.order_lt
      outside := ?_
      queue_sorted := h.queue_sorted
      queue_mem := ?_
      waiting other hother hopen := h.waiting other hother (hsettled other ▸ hopen)
      active_mem := h.active_mem
      in_turn := ?_
      sent_le := ?_
      accepted_le := ?_
      accepted_near := ?_
      exact := ?_
      exact_open := ?_
      wire_order := ?_
      count := ?_
      count_bytes := ?_
      count_limit := h.count_limit
      bytes_limit := ?_
      resolved_once other := by rw [hsettled]; exact h.resolved_once other
      resolved_sent := ?_ }
  · intro other hother
    have hne : other ≠ id := fun heq => hother (heq ▸ hmem)
    cases counted with
    | false => exact h.outside other hother
    | true => simpa [World.took, hne] using h.outside other hother
  · intro other hother
    obtain ⟨horder, hopen, hzero, hidle⟩ := h.queue_mem other hother
    have hne : other ≠ id := fun heq => hidle (.inl (heq ▸ hactive))
    refine ⟨horder, ?_, ?_, fun hstart => hidle (hstarted other hstart)⟩
    · rw [hsettled]
      exact hopen
    · rw [hsent]
      simp [hzero, hne]
  · intro a ha b hb hlt hstart
    rw [hsettled]
    exact h.in_turn a ha b hb hlt (hstarted b hstart)
  · intro other
    have hle := h.sent_le other
    rw [hsent, haccepted]
    split_ifs <;> omega
  · intro other
    rw [haccepted, hpayload]
    by_cases hother : other = id
    · subst hother
      rw [if_pos rfl, hexact]
      exact hn
    · rw [if_neg hother]
      exact h.accepted_le other
  · intro other
    have hle := h.accepted_near other
    rw [haccepted, hsent]
    by_cases hother : other = id
    · subst hother
      rw [if_pos rfl, hexact]
      omega
    · rw [if_neg hother]
      omega
  · intro other hother
    rw [haccepted, hsent, h.exact other hother]
    by_cases heq : other = id
    · subst heq
      have hopen : w.settledOf other = false := by
        by_contra hlate'
        exact hother (hlate (by simpa using hlate'))
      simp [hcounted, hopen]
    · simp [heq]
  · intro other hopen
    rw [hsettled] at hopen
    rw [haccepted, hsent, h.exact_open other hopen]
    by_cases heq : other = id
    · subst heq
      simp [hcounted, hopen]
    · simp [heq]
  · have hwire := h.wire_took (n := n) hactive hexact (w.took id n counted).accepted
      (by rw [haccepted, if_pos rfl])
      fun other hother => by rw [haccepted, if_neg hother, Nat.add_zero]
    simp only [hpayload]
    refine Eq.trans ?_ hwire
    simp [World.took, World.wireBytes]
  · have hsame : (w.took id n counted).openCount = w.openCount := by
      funext other
      have heq := hsettled other
      simp only [World.settledOf] at heq
      simp only [World.openCount, heq]
    rw [hsame]
    exact h.count
  · have hchange := sum_map_update h.order_nodup hmem (f := w.openBytes)
      (g := (w.took id n counted).openBytes) fun other hother => by
        have heq := hsettled other
        simp only [World.settledOf] at heq
        simp only [World.openBytes, World.remaining, heq, hpayload, hsent, hother, false_and,
          if_false, Nat.add_zero]
    have hid : (w.took id n counted).openBytes id = w.openBytes id - if counted then n else 0 := by
      have heq := hsettled id
      simp only [World.settledOf] at heq hcounted
      simp only [World.openBytes, World.remaining, heq, hpayload, hsent]
      cases hopen : (w.operations id).settled with
      | false =>
        simp [hcounted, hopen]
        ring
      | true => simp [hcounted, hopen]
    change (if counted then w.outstandingBytes - n else w.outstandingBytes) =
      (w.order.map (w.took id n counted).openBytes).sum
    rw [hchange, hid, ← h.count_bytes]
    split_ifs <;> ring
  · have hlimit := h.bytes_limit
    change (if counted then w.outstandingBytes - n else w.outstandingBytes) ≤ _
    split_ifs <;> omega
  · intro call hcall
    obtain ⟨hsame, hthen⟩ := h.resolved_sent call hcall
    refine ⟨?_, hthen⟩
    rw [hsent, hsame]
    split_ifs with hcall'
    · -- an operation whose bytes are counted has not settled
      have hnone := h.resolved_once call.promise
      have hopen : w.settledOf call.promise = false := by
        rw [hcall'.1]
        simpa [hcall'.2] using hcounted.symm
      rw [if_neg (by simp [hopen]), countP_eq_zero] at hnone
      exact absurd (hnone call hcall) (by simp)
    · rfl

/-- An operation that has settled while the driver was at it leaves the drain. -/
theorem Books.leave (hsettled : w.settledOf id = true) :
    Books limits { w with activeOperation := none } := by
  have hstarted : ∀ other, World.Started { w with activeOperation := none } other →
      w.Started other := by
    rintro other (hact | hbytes)
    · cases hact
    · exact .inr hbytes
  refine { h with
    queue_mem := ?_
    waiting := ?_
    active_mem other hother := by cases hother
    in_turn := ?_ }
  · intro other hother
    obtain ⟨horder, hopen, hzero, hidle⟩ := h.queue_mem other hother
    exact ⟨horder, hopen, hzero, fun hstart => hidle (hstarted other hstart)⟩
  · intro other hother hopen
    rcases h.waiting other hother hopen with hact | hqueue
    · rw [hactive] at hact
      cases hact
      exact absurd (hsettled.symm.trans hopen) (by simp)
    · exact .inr hqueue
  · intro a ha b hb hlt hstart
    exact ⟨(h.in_turn a ha b hb hlt (hstarted b hstart)).1, fun hact => by cases hact⟩

end

/-! ## What an `enqueue` adds -/

theorem Books.fresh (h : Books limits w) :
    w.nextPromise ∉ w.order := fun hmem => (h.order_lt _ hmem).ne rfl

theorem Books.accepted_fresh (h : Books limits w) : w.accepted w.nextPromise = 0 := by
  have hle := h.accepted_le w.nextPromise
  rw [h.outside _ h.fresh] at hle
  exact Nat.le_zero.1 hle

/-- A promise that is resolved before `enqueue` returns. -/
def World.refused (w : World) (result : SerialSendResult) : World :=
  { w with
    nextPromise := w.nextPromise + 1
    resolved := w.resolved ++ [⟨w.nextPromise, result, w.accepted w.nextPromise⟩] }

theorem Books.refused (h : Books limits w) {result : SerialSendResult}
    (hresult : result.sentBytes = 0) : Books limits (w.refused result) := by
  have hnew := h.outside _ h.fresh
  refine { h with
    order_lt id hid := (h.order_lt id hid).trans (Nat.lt_succ_self _)
    resolved_once := ?_
    resolved_sent := ?_ }
  · intro id
    have honce := h.resolved_once id
    change (w.resolved ++ [Resolution.mk w.nextPromise result _]).countP _ = _
    rw [countP_append, honce]
    change _ = if id < w.nextPromise + 1 ∧ w.settledOf id = true then 1 else 0
    by_cases hid : id = w.nextPromise
    · subst hid
      simp [settledOf, hnew]
    · have hiff : id < w.nextPromise + 1 ↔ id < w.nextPromise := by omega
      simp [hiff, Ne.symm hid]
  · intro call hcall
    rcases mem_append.1 hcall with hold | hlast
    · exact h.resolved_sent call hold
    · rw [mem_singleton.1 hlast]
      refine ⟨?_, h.accepted_fresh.trans hresult.symm⟩
      change result.sentBytes = (w.operations w.nextPromise).sentBytes
      rw [hnew, hresult]

/-- An operation joins the queue. -/
def World.pushed (w : World) (payload : Uint8Array) : World :=
  { w with
    nextPromise := w.nextPromise + 1
    operations := Function.update w.operations w.nextPromise ⟨payload, 0, false⟩
    queue := w.queue ++ [w.nextPromise]
    order := w.order ++ [w.nextPromise]
    outstandingOperations := w.outstandingOperations + 1
    outstandingBytes := w.outstandingBytes + payload.length }

theorem Books.pushed (h : Books limits w) {payload : Uint8Array}
    (hcount : w.outstandingOperations < limits.maxOperations)
    (hbytes : w.outstandingBytes + payload.length ≤ limits.maxQueuedBytes) :
    Books limits (w.pushed payload) := by
  have hold : ∀ id ∈ w.order, (w.pushed payload).operations id = w.operations id := by
    intro id hid
    have hne : id ≠ w.nextPromise := (h.order_lt id hid).ne
    simp [World.pushed, hne]
  have hother : ∀ id, id ≠ w.nextPromise → (w.pushed payload).operations id = w.operations id := by
    intro id hid
    simp [World.pushed, hid]
  have hnew : (w.pushed payload).operations w.nextPromise = ⟨payload, 0, false⟩ := by
    simp [World.pushed]
  have hnone := h.accepted_fresh
  have hidle : ¬w.Started w.nextPromise := by
    rintro (hact | hstart)
    · exact h.fresh (h.active_mem _ hact)
    · exact hstart hnone
  have hsnoc : ∀ id, id ∈ (w.pushed payload).order ↔ id ∈ w.order ∨ id = w.nextPromise := by
    intro id
    simp [World.pushed]
  have hqueued : ∀ id, id ∈ (w.pushed payload).queue ↔ id ∈ w.queue ∨ id = w.nextPromise := by
    intro id
    simp [World.pushed]
  refine
    { order_sorted := ?_
      order_lt := ?_
      outside := ?_
      queue_sorted := ?_
      queue_mem := ?_
      waiting := ?_
      active_mem id hid := (hsnoc id).2 (.inl (h.active_mem id hid))
      in_turn := ?_
      sent_le := ?_
      accepted_le := ?_
      accepted_near := ?_
      exact := ?_
      exact_open := ?_
      wire_order := ?_
      count := ?_
      count_bytes := ?_
      count_limit := ?_
      bytes_limit := hbytes
      resolved_once := ?_
      resolved_sent := ?_ }
  · refine pairwise_append.2 ⟨h.order_sorted, pairwise_singleton _ _, ?_⟩
    intro id hid last hlast
    rw [mem_singleton.1 hlast]
    exact h.order_lt id hid
  · intro id hid
    rcases (hsnoc id).1 hid with hin | rfl
    · exact (h.order_lt id hin).trans (Nat.lt_succ_self _)
    · exact Nat.lt_succ_self _
  · intro id hid
    rw [hsnoc, not_or] at hid
    rw [hother id hid.2]
    exact h.outside id hid.1
  · refine pairwise_append.2 ⟨h.queue_sorted, pairwise_singleton _ _, ?_⟩
    intro id hid last hlast
    rw [mem_singleton.1 hlast]
    exact h.order_lt id (h.queue_mem id hid).1
  · intro id hid
    rcases (hqueued id).1 hid with hin | rfl
    · obtain ⟨horder, hopen, hzero, hnot⟩ := h.queue_mem id hin
      rw [World.settledOf, hold id horder]
      exact ⟨(hsnoc id).2 (.inl horder), hopen, hzero, hnot⟩
    · rw [World.settledOf, hnew]
      exact ⟨(hsnoc _).2 (.inr rfl), rfl, rfl, hidle⟩
  · intro id hid hopen
    rcases (hsnoc id).1 hid with hin | rfl
    · rw [World.settledOf, hold id hin] at hopen
      exact (h.waiting id hin hopen).imp_right fun hqueue => (hqueued id).2 (.inl hqueue)
    · exact .inr ((hqueued _).2 (.inr rfl))
  · intro a ha b hb hlt hstart
    rcases (hsnoc b).1 hb with hin | rfl
    · rcases (hsnoc a).1 ha with hin' | rfl
      · rw [World.settledOf, hold a hin']
        exact h.in_turn a hin' b hin hlt hstart
      · have hlt' := h.order_lt b hin
        omega
    · exact (hidle hstart).elim
  · intro id
    by_cases hid : id = w.nextPromise
    · rw [hid, hnew]
      exact Nat.zero_le _
    · rw [hother id hid]
      exact h.sent_le id
  · intro id
    by_cases hid : id = w.nextPromise
    · rw [hid]
      exact hnone.trans_le (Nat.zero_le _)
    · rw [hother id hid]
      exact h.accepted_le id
  · intro id
    by_cases hid : id = w.nextPromise
    · rw [hid]
      exact hnone.trans_le (Nat.zero_le _)
    · rw [hother id hid]
      exact h.accepted_near id
  · intro id hcut
    by_cases hid : id = w.nextPromise
    · rw [hid, hnew]
      exact hnone
    · rw [hother id hid]
      exact h.exact id hcut
  · intro id hopen
    by_cases hid : id = w.nextPromise
    · rw [hid, hnew]
      exact hnone
    · rw [World.settledOf, hother id hid] at hopen
      rw [hother id hid]
      exact h.exact_open id hopen
  · have hfront : w.order.flatMap
        (fun id => ((w.pushed payload).operations id).payload.take (w.accepted id)) =
        w.order.flatMap fun id => (w.operations id).payload.take (w.accepted id) := by
      apply flatMap_congr
      intro id hid
      rw [hold id hid]
    change w.wireBytes = (w.order ++ [w.nextPromise]).flatMap fun id =>
      ((w.pushed payload).operations id).payload.take (w.accepted id)
    rw [flatMap_append, hfront, ← h.wire_order, flatMap_singleton, hnone]
    simp
  · have hfront : w.order.map (w.pushed payload).openCount = w.order.map w.openCount := by
      apply map_congr_left
      intro id hid
      simp only [World.openCount, hold id hid]
    have hlast : (w.pushed payload).openCount w.nextPromise = 1 := by
      simp [World.openCount, hnew]
    change w.outstandingOperations + 1 = ((w.order ++ [w.nextPromise]).map _).sum
    rw [map_append, sum_append, hfront, ← h.count, map_singleton, hlast, sum_singleton]
  · have hfront : w.order.map (w.pushed payload).openBytes = w.order.map w.openBytes := by
      apply map_congr_left
      intro id hid
      simp only [World.openBytes, World.remaining, hold id hid]
    have hlast : (w.pushed payload).openBytes w.nextPromise = payload.length := by
      simp [World.openBytes, World.remaining, hnew]
    change w.outstandingBytes + payload.length = ((w.order ++ [w.nextPromise]).map _).sum
    rw [map_append, sum_append, hfront, ← h.count_bytes, map_singleton, hlast, sum_singleton]
  · change w.outstandingOperations + 1 ≤ _
    omega
  · intro id
    have honce := h.resolved_once id
    change w.resolved.countP _ = if id < w.nextPromise + 1 ∧ _ then 1 else 0
    rw [honce]
    by_cases hid : id = w.nextPromise
    · subst hid
      simp [World.settledOf, hnew]
    · have hiff : id < w.nextPromise + 1 ↔ id < w.nextPromise := by omega
      have hsame : (w.pushed payload).settledOf id = w.settledOf id := by
        rw [World.settledOf, hother id hid, World.settledOf]
      exact if_congr (by rw [hsame, hiff]) rfl rfl
  · intro call hcall
    obtain ⟨hsame, hthen⟩ := h.resolved_sent call hcall
    refine ⟨?_, hthen⟩
    have hne : call.promise ≠ w.nextPromise := by
      intro heq
      have honce := h.resolved_once call.promise
      rw [if_neg fun hlt => hlt.1.ne heq, countP_eq_zero] at honce
      exact absurd (honce call hcall) (by simp)
    rw [hother _ hne]
    exact hsame

end bbcom.serial_write
