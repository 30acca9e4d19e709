-- Whether the outcome of a serial write is true: it is `complete` for all bytes at the driver,
-- and any other tells how many.
import Bbcom.SerialWriteDelivery

open bbcom.js bbcom.ipc_contracts bbcom.runs

namespace bbcom.serial_write

open World List Subset

variable {limits : SerialWriteSchedulerLimits} {w w' : World} {payloads : List Uint8Array}

/-! ## What a result says -/

/-- A result against the payload that it is for. -/
structure Told (accepting : Bool) (payload : Uint8Array) (result : SerialSendResult) : Prop where
  requested : result.requestedBytes = payload.length
  complete : result.outcome = .complete → payload ≠ [] ∧ result.sentBytes = payload.length
  otherwise : result.outcome ≠ .complete → payload ≠ [] →
    result.sentBytes < payload.length ∨ result.outcome = .cancelled ∧ accepting = false

variable {accepting : Bool} {result : SerialSendResult} {id : Nat}

theorem Told.short {payload : Uint8Array} (hrequested : result.requestedBytes = payload.length)
    (houtcome : result.outcome ≠ .complete)
    (hless : payload ≠ [] → result.sentBytes < payload.length) : Told accepting payload result :=
  ⟨hrequested, fun h => absurd h houtcome, fun _ hsome => .inl (hless hsome)⟩

theorem Told.cancelled {payload : Uint8Array} {sentBytes : Nat}
    (h : accepting = false ∨ sentBytes < payload.length) :
    Told accepting payload (cancelled payload.length sentBytes) :=
  ⟨rfl, fun houtcome => absurd houtcome (by simp [bbcom.serial_write.cancelled]),
    fun _ _ => h.symm.imp_right fun haccepting => ⟨rfl, haccepting⟩⟩

theorem Told.closed {payload : Uint8Array} (h : Told accepting payload result) :
    Told false payload result :=
  ⟨h.requested, h.complete, fun houtcome hsome =>
    (h.otherwise houtcome hsome).imp_right fun hcancelled => ⟨hcancelled.1, rfl⟩⟩

/-- What is told, or is about to be told, is true. -/
structure Truth (payloads : List Uint8Array) (w : World) : Prop where
  recorded : Recorded payloads w
  nonempty : ∀ id ∈ w.order, (w.operations id).payload ≠ []
  returned : ∀ id result, .returned id result ∈ w.drains →
    Told w.accepting (w.operations id).payload result
  resolved : ∀ call ∈ w.resolved,
    ∃ payload, payloads[call.promise]? = some payload ∧ Told w.accepting payload call.result
  closing : w.shutdowns ≠ [] ∨ w.cutOff ≠ [] → w.accepting = false

/-- A drain is about to tell that an operation is complete, or has told it. -/
def CompleteAt (w : World) (id : Nat) : Prop :=
  (∃ result, .returned id result ∈ w.drains ∧ result.outcome = .complete) ∨
    ∃ call ∈ w.resolved, call.promise = id ∧ call.result.outcome = .complete

/-- The driver has all bytes of the operation, and no shutdown has begun. -/
structure InTime (w : World) (id : Nat) : Prop where
  accepting : w.accepting = true
  accepted : w.accepted id = (w.operations id).payload.length
  known : id ∈ w.order

/-- What is new about complete operations. -/
def Follows (w w' : World) : Prop := ∀ id, CompleteAt w' id → CompleteAt w id ∨ InTime w' id

theorem Truth.same (h : Truth payloads w) (hsame : SameOperations w w')
    (haccepting : w'.accepting = w.accepting) (hresolved : w'.resolved = w.resolved)
    (hcut : w'.cutOff = w.cutOff) (hcalls : w'.shutdowns ≠ [] → w.shutdowns ≠ [])
    (hreturned : ∀ id result, .returned id result ∈ w'.drains →
      Told w.accepting (w.operations id).payload result) : Truth payloads w' := by
  refine ⟨h.recorded.same hsame, ?_, ?_, ?_, ?_⟩
  · intro id hid
    rw [hsame.payload]
    exact h.nonempty id (hsame.order ▸ hid)
  · intro id result hmem
    rw [hsame.payload, haccepting]
    exact hreturned id result hmem
  · rw [hresolved, haccepting]
    exact h.resolved
  · rw [hcut, haccepting]
    exact fun hclosing => h.closing (hclosing.imp_left hcalls)

theorem Follows.same (hresolved : w'.resolved = w.resolved)
    (hreturned : ∀ id result, .returned id result ∈ w'.drains → result.outcome = .complete →
      .returned id result ∈ w.drains ∨ InTime w' id) : Follows w w' := by
  rintro id (⟨result, hmem, hcomplete⟩ | ⟨call, hcall, hpromise, hcomplete⟩)
  · exact (hreturned id result hmem hcomplete).imp_left fun hold => .inl ⟨result, hold, hcomplete⟩
  · exact .inl (.inr ⟨call, hresolved ▸ hcall, hpromise, hcomplete⟩)

/-! ## Settling -/

theorem settle_keeps (w : World) (clamp : Int → Int) (id : Nat) (result : SerialSendResult) :
    (w.settle clamp id result).accepting = w.accepting ∧
      (w.settle clamp id result).shutdowns = w.shutdowns ∧
      (w.settle clamp id result).cutOff = w.cutOff ∧
      (w.settle clamp id result).drains = w.drains ∧
      ∀ call ∈ (w.settle clamp id result).resolved, call ∈ w.resolved ∨
        call = ⟨id, result, w.accepted id⟩ := by
  unfold settle
  simp only
  split_ifs
  · exact ⟨rfl, rfl, rfl, rfl, fun call hcall => .inl hcall⟩
  · exact ⟨rfl, rfl, rfl, rfl, fun call hcall => by simpa using hcall⟩

theorem Truth.payload (h : Truth payloads w) (hmem : id ∈ w.order) :
    payloads[id]? = some (w.operations id).payload :=
  h.recorded.payload id hmem

theorem Truth.settle (h : Truth payloads w) (clamp : Int → Int) (hmem : id ∈ w.order)
    (htold : Told w.accepting (w.operations id).payload result) :
    Truth payloads (w.settle clamp id result) := by
  obtain ⟨haccepting, hcalls, hcut, hdrains, hresolved⟩ := settle_keeps w clamp id result
  have hsame := settle_same w clamp id result
  refine ⟨h.recorded.same hsame, ?_, ?_, ?_, ?_⟩
  · intro other hother
    rw [hsame.payload]
    exact h.nonempty other (hsame.order ▸ hother)
  · rw [hdrains, haccepting]
    intro other told hother
    rw [hsame.payload]
    exact h.returned other told hother
  · rw [haccepting]
    intro call hcall
    rcases hresolved call hcall with hold | rfl
    · exact h.resolved call hold
    · exact ⟨_, h.payload hmem, htold⟩
  · rw [hcalls, hcut, haccepting]
    exact h.closing

theorem Follows.refl (w : World) : Follows w w := fun _ hcomplete => .inl hcomplete

/-- Nothing had become complete before. -/
theorem Follows.trans {w'' : World} (h' : Follows w' w'')
    (h : ∀ id, CompleteAt w' id → CompleteAt w id) : Follows w w'' :=
  fun id hcomplete => (h' id hcomplete).imp_left (h id)

theorem completeAt_settle (w : World) (clamp : Int → Int) {other : Nat}
    (hknown : result.outcome = .complete → CompleteAt w id)
    (h : CompleteAt (w.settle clamp id result) other) : CompleteAt w other := by
  obtain ⟨_, _, _, hdrains, hresolved⟩ := settle_keeps w clamp id result
  rcases h with ⟨told, hmem, hcomplete⟩ | ⟨call, hcall, rfl, hcomplete⟩
  · exact .inl ⟨told, hdrains ▸ hmem, hcomplete⟩
  · rcases hresolved call hcall with hold | rfl
    · exact .inr ⟨call, hold, rfl, hcomplete⟩
    · exact hknown hcomplete

/-! ## A shutdown -/

theorem Truth.cancelQueue (clamp : Int → Int) (queue : List Nat) :
    ∀ {w : World}, Truth payloads w → w.accepting = false → (∀ id ∈ queue, id ∈ w.order) →
      Truth payloads (cancelQueue clamp w queue) ∧
        (cancelQueue clamp w queue).accepting = false ∧
        ∀ id, CompleteAt (cancelQueue clamp w queue) id → CompleteAt w id := by
  induction queue with
  | nil =>
    intro w h hclosed _
    exact ⟨h.same ⟨rfl, rfl, fun _ => rfl⟩ rfl rfl rfl id h.returned, hclosed, fun _ => id⟩
  | cons first queue ih =>
    intro w h hclosed hmem
    have hqueue : Truth payloads { w with queue } :=
      h.same ⟨rfl, rfl, fun _ => rfl⟩ rfl rfl rfl id h.returned
    have hfirst := hmem first mem_cons_self
    have htold : Told w.accepting (w.operations first).payload
        (cancelled (w.operations first).payload.length 0) := .cancelled (.inl hclosed)
    obtain ⟨haccepting, _⟩ := settle_keeps { w with queue } clamp first
      (cancelled (w.operations first).payload.length 0)
    have hsame := settle_same { w with queue } clamp first
      (cancelled (w.operations first).payload.length 0)
    obtain ⟨htruth, hstill, hcomplete⟩ := ih (hqueue.settle clamp hfirst htold)
      (haccepting.trans hclosed) fun id hid => by
        rw [hsame.order]
        exact hmem id (mem_cons_of_mem _ hid)
    refine ⟨htruth, hstill, fun id hid => ?_⟩
    exact completeAt_settle { w with queue } clamp (fun h => by simp [cancelled] at h)
      (hcomplete id hid)

theorem Truth.shutdown (h : Truth payloads w) (clamp : Int → Int)
    (hqueue : ∀ id ∈ w.queue, id ∈ w.order) :
    Truth payloads (w.shutdown clamp) ∧ Follows w (w.shutdown clamp) := by
  have hclosed : Truth payloads { w with accepting := false } := by
    refine ⟨h.recorded.same ⟨rfl, rfl, fun _ => rfl⟩, h.nonempty, ?_, ?_, fun _ => rfl⟩
    · exact fun id result hmem => (h.returned id result hmem).closed
    · intro call hcall
      obtain ⟨payload, hpayload, htold⟩ := h.resolved call hcall
      exact ⟨payload, hpayload, htold.closed⟩
  obtain ⟨htruth, haccepting, hcomplete⟩ := hclosed.cancelQueue clamp w.queue rfl hqueue
  unfold World.shutdown
  simp only
  generalize World.cancelQueue clamp { w with accepting := false } w.queue = cut at *
  have hcut : Follows w cut := fun id hid => .inl (hcomplete id hid)
  split
  · exact ⟨htruth, hcut⟩
  · split_ifs
    · exact ⟨htruth, hcut⟩
    · exact ⟨⟨htruth.recorded.same ⟨rfl, rfl, fun _ => rfl⟩, htruth.nonempty, htruth.returned,
        htruth.resolved, fun _ => haccepting⟩, fun id hid => .inl (hcomplete id hid)⟩

theorem Truth.endShutdown (h : Truth payloads w) (clamp : Int → Int) {call : ShutdownCall}
    (hcall : call ∈ w.shutdowns) (hmem : call.active ∈ w.order) :
    Truth payloads (w.endShutdown clamp call) ∧ Follows w (w.endShutdown clamp call) := by
  unfold World.endShutdown
  simp only
  split_ifs
  · have hclosed : w.accepting = false := h.closing (.inl (ne_nil_of_mem hcall))
    obtain ⟨haccepting, _⟩ := settle_keeps w clamp call.active
      (cancelled (w.operations call.active).payload.length (w.operations call.active).sentBytes)
    have htold : Told w.accepting (w.operations call.active).payload
        (cancelled (w.operations call.active).payload.length
          (w.operations call.active).sentBytes) := .cancelled (.inl hclosed)
    have htruth := h.settle clamp hmem htold
    refine ⟨⟨htruth.recorded.same ⟨rfl, rfl, fun _ => rfl⟩, htruth.nonempty, htruth.returned,
      htruth.resolved, fun _ => haccepting.trans hclosed⟩, fun id hid => .inl ?_⟩
    exact completeAt_settle w clamp (fun h => by simp [cancelled] at h) hid
  · exact ⟨h, .refl w⟩

/-! ## The drain -/

theorem nextOperation_keeps (w : World) (queue : List Nat) :
    (nextOperation w queue).1.accepting = w.accepting ∧
      (nextOperation w queue).1.resolved = w.resolved ∧
      (nextOperation w queue).1.cutOff = w.cutOff ∧
      ∀ id result, (nextOperation w queue).2 ≠ some (.returned id result) := by
  induction queue with
  | nil =>
    simp only [nextOperation, resolveIdleWaiters]
    split <;> exact ⟨rfl, rfl, rfl, fun _ _ => by simp⟩
  | cons first queue ih =>
    unfold nextOperation
    split
    · exact ih
    · exact ⟨rfl, rfl, rfl, fun _ _ => by simp⟩

theorem Truth.nextOperation (h : Truth payloads w) (queue : List Nat) (drains : List DrainPoint)
    (hdrains : ∀ id result, .returned id result ∈ drains → .returned id result ∈ w.drains) :
    Truth payloads { (nextOperation w queue).1 with drains } ∧
      Follows w { (nextOperation w queue).1 with drains } := by
  obtain ⟨haccepting, hresolved, hcut, _⟩ := nextOperation_keeps w queue
  obtain ⟨_, _, _, hcalls, _⟩ := nextOperation_frame w queue
  obtain ⟨horder, hnext, hpayload⟩ := nextOperation_same w queue
  constructor
  · refine h.same ⟨horder, hnext, hpayload⟩ haccepting hresolved hcut ?_ ?_
    · exact fun hne => by rwa [← hcalls]
    · exact fun id result hmem => h.returned id result (hdrains id result hmem)
  · exact Follows.same hresolved fun id result hmem _ => .inl (hdrains id result hmem)

theorem Truth.refused (h : Truth payloads w) {payload : Uint8Array} {result : SerialSendResult}
    (hzero : result.sentBytes = 0) (hrequested : result.requestedBytes = payload.length)
    (houtcome : result.outcome ≠ .complete)
    (hrecorded : Recorded (payloads ++ [payload]) (w.refused result)) :
    Truth (payloads ++ [payload]) (w.refused result) ∧ Follows w (w.refused result) := by
  constructor
  · refine ⟨hrecorded, h.nonempty, h.returned, fun call hcall => ?_, h.closing⟩
    rcases mem_append.1 hcall with hold | hnew
    · obtain ⟨given, hgiven, htold⟩ := h.resolved call hold
      exact ⟨given, by
        rw [List.getElem?_append_left (List.getElem?_eq_some_iff.1 hgiven).1, hgiven], htold⟩
    · rw [mem_singleton.1 hnew]
      refine ⟨payload, by simp [h.recorded.count], .short hrequested houtcome fun hsome => ?_⟩
      rw [hzero]
      exact length_pos_of_ne_nil hsome
  · rintro id (⟨told, hmem, hcomplete⟩ | ⟨call, hcall, rfl, hcomplete⟩)
    · exact .inl (.inl ⟨told, hmem, hcomplete⟩)
    · rcases mem_append.1 hcall with hold | hnew
      · exact .inl (.inr ⟨call, hold, rfl, hcomplete⟩)
      · rw [mem_singleton.1 hnew] at hcomplete
        exact absurd hcomplete houtcome

theorem Truth.pushed (h : Truth payloads w) (hinv : Inv limits w) {payload : Uint8Array}
    (hsome : payload ≠ []) (hrecorded : Recorded (payloads ++ [payload]) (w.pushed payload)) :
    Truth (payloads ++ [payload]) (w.pushed payload) ∧ Follows w (w.pushed payload) := by
  have hold : ∀ id ∈ w.order, (w.pushed payload).operations id = w.operations id := by
    intro id hid
    have hne : id ≠ w.nextPromise := (hinv.books.order_lt id hid).ne
    simp [World.pushed, hne]
  constructor
  · refine ⟨hrecorded, fun id hid => ?_, fun id result hmem => ?_, fun call hcall => ?_, h.closing⟩
    · rcases mem_append.1 hid with hmem | hnew
      · rw [hold id hmem]
        exact h.nonempty id hmem
      · rw [mem_singleton.1 hnew]
        simpa [World.pushed] using hsome
    · have hactive : id ∈ w.order := by
        rcases hinv.one_drain with ⟨hnone, _⟩ | ⟨point, hone, _, hcurrent, _⟩
        · exact absurd (hnone ▸ hmem) not_mem_nil
        · obtain rfl : DrainPoint.returned id result = point := by
            change _ ∈ w.drains at hmem
            simpa [hone] using hmem
          exact hinv.books.active_mem id hcurrent
      rw [hold id hactive]
      exact h.returned id result hmem
    · obtain ⟨given, hgiven, htold⟩ := h.resolved call hcall
      exact ⟨given, by
        rw [List.getElem?_append_left (List.getElem?_eq_some_iff.1 hgiven).1, hgiven], htold⟩
  · exact Follows.same rfl fun id result hmem _ => .inl hmem

theorem Truth.enqueue (h : Truth payloads w) (hinv : Inv limits w) (payload : Uint8Array)
    (authorized : Bool) :
    Truth (payloads ++ [payload]) (w.enqueue limits payload authorized) ∧
      Follows w (w.enqueue limits payload authorized) := by
  have hrecorded := h.recorded.enqueue hinv.books payload authorized
  rcases enqueue_cases limits w payload authorized with
    ⟨result, hzero, hrequested, houtcome, hrefused⟩ | ⟨hsome, _, _, hpushed⟩
  · rw [hrefused] at hrecorded ⊢
    exact h.refused hzero hrequested houtcome hrecorded
  · have hbefore : Recorded (payloads ++ [payload]) (w.pushed payload) := by
      refine ⟨by simp [World.pushed, h.recorded.count], fun id hid => ?_⟩
      have horder : (w.pushed payload).drain.order = (w.pushed payload).order := by
        unfold World.drain
        split
        · rfl
        · exact (nextOperation_same _ _).order
      have hsame : ((w.pushed payload).drain.operations id).payload =
          ((w.pushed payload).operations id).payload := by
        unfold World.drain
        split
        · rfl
        · exact (nextOperation_same { w.pushed payload with draining := true } _).payload id
      rw [hpushed] at hrecorded
      rw [← hsame]
      exact hrecorded.payload id (horder ▸ hid)
    obtain ⟨htruth, hfollows⟩ := h.pushed hinv hsome hbefore
    rw [hpushed]
    unfold World.drain
    split
    · exact ⟨htruth, hfollows⟩
    · have hdraining : Truth (payloads ++ [payload]) { w.pushed payload with draining := true } :=
        htruth.same ⟨rfl, rfl, fun _ => rfl⟩ rfl rfl rfl id htruth.returned
      obtain ⟨_, _, _, hnone⟩ := nextOperation_keeps { w.pushed payload with draining := true }
        (w.pushed payload).queue
      have hnext := hdraining.nextOperation (w.pushed payload).queue
        (w.drains ++ (World.nextOperation { w.pushed payload with draining := true }
          (w.pushed payload).queue).2.toList) ?_
      · obtain ⟨_, _, _, _, hsame, _⟩ := nextOperation_frame
          { w.pushed payload with draining := true } (w.pushed payload).queue
        simp only [hsame]
        exact ⟨hnext.1, hnext.2.trans fun id hid => hid⟩
      · intro id result hmem
        refine (mem_append.1 hmem).resolve_right fun hnew => hnone id result ?_
        exact Option.mem_toList.1 hnew

theorem World.inChunk_told {chunkEnd : Nat} (hless : (w.operations id).sentBytes < chunkEnd)
    (hend : chunkEnd ≤ (w.operations id).payload.length) {other : Nat}
    (hreturned : w.inChunk id chunkEnd = .returned other result) :
    result.outcome ≠ .complete ∧ Told w.accepting (w.operations other).payload result := by
  unfold inChunk at hreturned
  simp only at hreturned
  split_ifs at hreturned
  all_goals
    cases hreturned
    exact ⟨by simp [cancelled], .cancelled (.inr (by omega))⟩

theorem World.nextChunk_told (hsome : (w.operations id).payload ≠ [])
    (hle : (w.operations id).sentBytes ≤ (w.operations id).payload.length) {other : Nat}
    (hreturned : w.nextChunk limits id = .returned other result) :
    other = id ∧ Told w.accepting (w.operations other).payload result ∧
      (result.outcome = .complete →
        (w.operations other).sentBytes = (w.operations other).payload.length) := by
  have hother : other = id := by
    have hpoint := @nextChunk_operation limits w id
    rw [hreturned] at hpoint
    exact hpoint
  refine ⟨hother, ?_⟩
  unfold nextChunk at hreturned
  simp only at hreturned
  split_ifs at hreturned with hmore _ hoff
  · cases hreturned
    exact ⟨.cancelled (.inr hmore), fun h => by simp [cancelled] at h⟩
  · have hpos := limits.chunkBytes_pos
    obtain ⟨hnot, htold⟩ := inChunk_told (lt_min (by omega) hmore) (min_le_right _ _)
      hreturned
    exact ⟨htold, fun h => absurd h hnot⟩
  · omega
  · cases hreturned
    have hall : (w.operations id).sentBytes = (w.operations id).payload.length := by omega
    exact ⟨⟨rfl, fun _ => ⟨hsome, rfl⟩, fun h => absurd rfl h⟩, fun _ => hall⟩

/-- The drain has come to another point, and nothing else has changed. -/
theorem Truth.came (h : Truth payloads w) {point : DrainPoint}
    (htold : ∀ id result, point = .returned id result →
      Told w.accepting (w.operations id).payload result ∧
        (result.outcome = .complete → InTime w id)) :
    Truth payloads { w with drains := [point] } ∧ Follows w { w with drains := [point] } := by
  constructor
  · refine h.same ⟨rfl, rfl, fun _ => rfl⟩ rfl rfl rfl id fun id result hmem => ?_
    exact (htold id result (mem_singleton.1 hmem).symm).1
  · refine Follows.same rfl fun id result hmem hcomplete => .inr ?_
    obtain ⟨haccepting, haccepted, hknown⟩ :=
      (htold id result (mem_singleton.1 hmem).symm).2 hcomplete
    exact ⟨haccepting, haccepted, hknown⟩

theorem took_same (w : World) (id n : Nat) (counted : Bool) :
    SameOperations w (w.took id n counted) := by
  refine ⟨rfl, rfl, fun other => ?_⟩
  unfold took
  simp only
  split_ifs
  · exact update_payload w.operations id other rfl
  · rfl

theorem Truth.took (h : Truth payloads w) (id n : Nat) (counted : Bool) :
    Truth payloads (w.took id n counted) ∧
      ∀ other, CompleteAt (w.took id n counted) other → CompleteAt w other :=
  ⟨h.same (took_same w id n counted) rfl rfl rfl (fun hcalls => hcalls) h.returned,
    fun _ hcomplete => hcomplete⟩

theorem Truth.written (h : Truth payloads w) (hinv : Inv limits w) {chunkEnd : Nat}
    (hactive : w.activeOperation = some id) (hsound : PointSound limits w (.writing id chunkEnd))
    (written : Option JsNumber) :
    Truth payloads { (w.afterWrite limits id chunkEnd written).1 with
        drains := [(w.afterWrite limits id chunkEnd written).2] } ∧
      Follows w { (w.afterWrite limits id chunkEnd written).1 with
        drains := [(w.afterWrite limits id chunkEnd written).2] } := by
  obtain ⟨hless, hend, hchunk, hexact⟩ := hsound
  have hmem := hinv.books.active_mem id hactive
  have hsome := h.nonempty id hmem
  rcases afterWrite_cases limits w id chunkEnd written hend with
    ⟨result, hsent, hrequested, houtcome, heq⟩ |
      ⟨n, hone, hn, ⟨_, heq⟩ | ⟨hopen, point, heq, hpoint⟩⟩
  · rw [heq]
    refine h.came fun other told htold => ?_
    cases htold
    exact ⟨.short hrequested houtcome fun _ => by omega, fun hcomplete => absurd hcomplete houtcome⟩
  -- the bytes come too late
  · obtain ⟨htook, hnothing⟩ := h.took id n false
    rw [heq]
    have hcame := @Truth.came _ _ htook (.returned id (cancelled (w.operations id).payload.length
        (w.operations id).sentBytes)) fun other told htold => by
      cases htold
      exact ⟨.cancelled (.inr (lt_of_lt_of_le hless hend)), fun h => by simp [cancelled] at h⟩
    exact ⟨hcame.1, hcame.2.trans hnothing⟩
  · obtain ⟨htook, hnothing⟩ := h.took id n true
    have hops : (w.took id n true).operations id =
        { w.operations id with sentBytes := (w.operations id).sentBytes + n } := by
      simp [World.took]
    have haccepted : (w.took id n true).accepted id = (w.operations id).sentBytes + n := by
      have hroom : (w.operations id).sentBytes + n ≤ (w.operations id).payload.length := by omega
      obtain ⟨_, hbytes⟩ := hinv.books.took hactive hexact hroom (by omega) true
        (by rw [hopen]; rfl) fun hlate => by simp [hopen] at hlate
      rw [hbytes, if_pos rfl, hexact]
    rw [heq]
    suffices hcame : _ ∧ Follows (w.took id n true) { w.took id n true with drains := [point] } from
      ⟨hcame.1, hcame.2.trans hnothing⟩
    refine htook.came fun other told htold => ?_
    rcases hpoint with ⟨hclosed, rfl⟩ | ⟨hmore, rfl⟩ | ⟨haccepting, rfl⟩
    · cases htold
      rw [hops]
      exact ⟨.cancelled (.inl hclosed), fun h => by simp [cancelled] at h⟩
    · have hless' : ((w.took id n true).operations id).sentBytes < chunkEnd := by
        rw [hops]
        exact hmore
      have hend' : chunkEnd ≤ ((w.took id n true).operations id).payload.length := by
        rw [hops]
        exact hend
      obtain ⟨hnot, htrue⟩ := World.inChunk_told hless' hend' htold
      exact ⟨htrue, fun hcomplete => absurd hcomplete hnot⟩
    · have hsome' : ((w.took id n true).operations id).payload ≠ [] := by
        rw [hops]
        exact hsome
      have hle : ((w.took id n true).operations id).sentBytes ≤
          ((w.took id n true).operations id).payload.length := by
        rw [hops]
        change (w.operations id).sentBytes + n ≤ (w.operations id).payload.length
        omega
      obtain ⟨hother, htrue, hall⟩ := World.nextChunk_told hsome' hle htold
      refine ⟨htrue, fun hcomplete => ⟨haccepting, ?_, ?_⟩⟩
      · rw [← hall hcomplete, hother, haccepted, hops]
      · rw [hother]
        exact hmem

theorem Truth.resume (h : Truth payloads w) (hinv : Inv limits w) {point : DrainPoint}
    (hdrains : w.drains = [point]) (clamp : Int → Int) (answer : World.Answer) :
    Truth payloads { (w.resume limits clamp answer point).1 with
        drains := (w.resume limits clamp answer point).2.toList } ∧
      Follows w { (w.resume limits clamp answer point).1 with
        drains := (w.resume limits clamp answer point).2.toList } := by
  obtain ⟨point', hone, _, hactive, hsound⟩ := hinv.one_drain.resolve_left (by simp [hdrains])
  obtain rfl : point = point' := head_eq_of_cons_eq (hdrains.symm.trans hone)
  have hmem := hinv.books.active_mem point.operation hactive
  have hsome := h.nonempty point.operation hmem
  -- the gate or the hook ends an operation that has bytes left
  have hended : ∀ result : SerialSendResult,
      result.requestedBytes = (w.operations point.operation).payload.length →
      result.outcome ≠ .complete →
      result.sentBytes < (w.operations point.operation).payload.length →
      Truth payloads { w with drains := [.returned point.operation result] } ∧
        Follows w { w with drains := [.returned point.operation result] } := by
    intro result hrequested houtcome hless
    refine h.came fun id told htold => ?_
    cases htold
    exact ⟨.short hrequested houtcome fun _ => hless, fun hcomplete => absurd hcomplete houtcome⟩
  have hdenied : ∀ requestedBytes sentBytes,
      (denied requestedBytes sentBytes).outcome ≠ .complete := by
    intro requestedBytes sentBytes
    unfold denied partialOrFailed
    split_ifs <;> simp
  cases point with
  | authorizing id =>
    have hzero : (w.operations id).sentBytes < (w.operations id).payload.length := by
      rw [hsound.1]
      exact length_pos_of_ne_nil hsome
    unfold World.resume
    simp only
    split
    · exact h.came fun _ _ hnot => by cases hnot
    · exact hended _ rfl (hdenied _ _) hzero
  | starting id =>
    unfold World.resume
    simp only
    split
    · exact hended _ rfl (by simp [writeFailure, partialOrFailed])
        (length_pos_of_ne_nil hsome)
    · refine h.came fun other told htold => ?_
      have hzero : (w.operations id).sentBytes = 0 := hsound.1
      have hle : (w.operations id).sentBytes ≤ (w.operations id).payload.length := by omega
      obtain ⟨hother, htrue, hall⟩ := World.nextChunk_told hsome hle htold
      have hpos : 0 < (w.operations id).payload.length := length_pos_of_ne_nil hsome
      have hshort : (w.operations id).sentBytes ≠ (w.operations id).payload.length := by omega
      refine ⟨htrue, fun hcomplete => absurd (hall hcomplete) ?_⟩
      rw [hother]
      exact hshort
  | sending id chunkEnd =>
    have hless : (w.operations id).sentBytes < (w.operations id).payload.length :=
      lt_of_lt_of_le hsound.1 hsound.2.1
    unfold World.resume
    simp only
    split
    · exact h.came fun _ _ hnot => by cases hnot
    · exact hended _ rfl (hdenied _ _) hless
  | writing id chunkEnd => exact h.written hinv hactive hsound answer.written
  | returned id result =>
    have hreturned : .returned id result ∈ w.drains := hdrains ▸ mem_singleton_self _
    have hsettled := h.settle clamp hmem (h.returned id result hreturned)
    have hnothing : ∀ other, CompleteAt (w.settle clamp id result) other → CompleteAt w other :=
      fun other => completeAt_settle w clamp fun hcomplete => .inl ⟨result, hreturned, hcomplete⟩
    have hnext : ∀ {w' : World} (queue : List Nat), Truth payloads w' →
        (∀ other, CompleteAt w' other → CompleteAt w other) →
        Truth payloads { (World.nextOperation w' queue).1 with
            drains := (World.nextOperation w' queue).2.toList } ∧
          Follows w { (World.nextOperation w' queue).1 with
            drains := (World.nextOperation w' queue).2.toList } := by
      intro w' queue htruth hcomplete
      obtain ⟨_, _, _, hnone⟩ := nextOperation_keeps w' queue
      obtain ⟨hkept, hfollows⟩ := htruth.nextOperation queue
        (World.nextOperation w' queue).2.toList fun other told hmem =>
          absurd (Option.mem_toList.1 hmem) (hnone other told)
      exact ⟨hkept, hfollows.trans hcomplete⟩
    simp only [World.resume]
    split
    · refine hnext _ ?_ hnothing
      exact hsettled.same ⟨rfl, rfl, fun _ => rfl⟩ rfl rfl rfl (fun hcalls => hcalls)
        hsettled.returned
    · exact hnext _ hsettled hnothing

/-! ## One step -/

theorem Truth.step (h : Truth payloads w) (hinv : Inv limits w) (e : Event) :
    Truth (payloads ++ enqueued [e]) (step limits w e) ∧ Follows w (step limits w e) := by
  have hkept : ∀ {w' : World}, Truth payloads w' ∧ Follows w w' →
      Truth (payloads ++ []) w' ∧ Follows w w' :=
    fun htruth => by rwa [append_nil]
  have hcalls : ∀ calls : List ShutdownCall, (calls ≠ [] → w.shutdowns ≠ []) →
      Truth payloads { w with shutdowns := calls } ∧ Follows w { w with shutdowns := calls } :=
    fun calls hcalls => ⟨h.same ⟨rfl, rfl, fun _ => rfl⟩ rfl rfl rfl hcalls h.returned,
      fun id hid => .inl hid⟩
  have hwaiters : ∀ waiters idled : List Nat,
      Truth payloads { w with idleWaiters := waiters, idled } ∧
        Follows w { w with idleWaiters := waiters, idled } :=
    fun _ _ => ⟨h.same ⟨rfl, rfl, fun _ => rfl⟩ rfl rfl rfl (fun hcalls => hcalls) h.returned,
      fun id hid => .inl hid⟩
  cases e with
  | enqueue payload authorized => exact h.enqueue hinv payload authorized
  | resume drain answer =>
    apply hkept
    rcases hinv.one_drain with ⟨hnone, _⟩ | ⟨point, hone, _⟩
    · rw [step_resume_idle hnone]
      exact ⟨h, .refl w⟩
    · unfold bbcom.serial_write.step
      rw [step_resume w hone]
      split
      · exact h.resume hinv hone (max 0) answer
      · exact ⟨h, .refl w⟩
  | shutdown =>
    exact hkept (h.shutdown (max 0) fun id hid => (hinv.books.queue_mem id hid).1)
  | graceOver shutdown => exact hkept (hcalls _ (by simp))
  | activeSettled shutdown =>
    apply hkept
    simp only [bbcom.serial_write.step, stepWith]
    split
    · exact ⟨h, .refl w⟩
    · split
      · exact hcalls _ (by simp)
      · exact ⟨h, .refl w⟩
  | endShutdown shutdown =>
    apply hkept
    simp only [bbcom.serial_write.step, stepWith]
    split
    · exact ⟨h, .refl w⟩
    · rename_i call hcall
      have hmem := mem_of_getElem? hcall
      obtain ⟨htruth, hfollows⟩ := h.endShutdown (max 0) hmem (hinv.awaited call hmem).1
      split
      · exact ⟨h, .refl w⟩
      · refine ⟨htruth.same ⟨rfl, rfl, fun _ => rfl⟩ rfl rfl rfl ?_ htruth.returned, ?_⟩
        · rw [endShutdown_shutdowns]
          exact fun _ => ne_nil_of_mem hmem
        · exact fun id hid => (hfollows id hid).imp_right fun hnow =>
            ⟨hnow.accepting, hnow.accepted, hnow.known⟩
  | waitForIdle waiter =>
    apply hkept
    simp only [bbcom.serial_write.step, stepWith, waitForIdle]
    split
    · exact hwaiters _ _
    · exact hwaiters _ _
  | abortWait waiter => exact hkept (hwaiters _ _)

theorem truth_run (limits : SerialWriteSchedulerLimits) (events : List Event) :
    Truth (enqueued events) (run (step limits) new events) := by
  induction events using reverseRecOn with
  | nil =>
    refine ⟨recorded_run limits [], ?_, ?_, ?_, ?_⟩
    all_goals simp [new]
  | append_singleton events e ih =>
    rw [run_append, run_cons, run_nil, enqueued_append]
    exact (ih.step (inv_run limits events) e).1

/-! ## In time -/

/-- At some point of the run the driver has all bytes of the operation, and no shutdown has
begun. -/
def SentInTime (limits : SerialWriteSchedulerLimits) (events : List Event) (id : Nat) : Prop :=
  ∃ before, before <+: events ∧ InTime (run (step limits) new before) id

/-- What is complete was sent in time. -/
theorem sentInTime_of_complete (limits : SerialWriteSchedulerLimits) (events : List Event)
    (h : CompleteAt (run (step limits) new events) id) : SentInTime limits events id := by
  induction events using reverseRecOn with
  | nil => simp [CompleteAt, new] at h
  | append_singleton events e ih =>
    rw [run_append, run_cons, run_nil] at h
    rcases ((truth_run limits events).step (inv_run limits events) e).2 id h with hold | hnow
    · obtain ⟨before, hbefore, htime⟩ := ih hold
      exact ⟨before, hbefore.trans (prefix_append _ _), htime⟩
    · refine ⟨events ++ [e], prefix_refl _, ?_⟩
      rwa [run_append, run_cons, run_nil]

/-- What follows `writeOperation` comes before any timer: it is a microtask. -/
def Prompt (w : World) : Event → Prop
  | .graceOver _ => ∀ id result, .returned id result ∉ w.drains
  | _ => True

/-- An operation whose outcome is settled as complete, or is about to be, with no shutdown to
settle it first. -/
inductive Finished (w : World) (id : Nat) : Prop
  | resolved (call : Resolution) (mem : call ∈ w.resolved) (promise : call.promise = id)
      (complete : call.result.outcome = .complete)
  | returned (result : SerialSendResult) (drains : w.drains = [.returned id result])
      (complete : result.outcome = .complete) (pending : w.settledOf id = false)
      (waits : ∀ call ∈ w.shutdowns, call.timedOut ≠ some true)

theorem resolved_of_settled (hinv : Inv limits w) (hmem : id ∈ w.order)
    (hsettled : w.settledOf id = true) : ∃ call ∈ w.resolved, call.promise = id := by
  have honce := hinv.books.resolved_once id
  rw [if_pos ⟨hinv.books.order_lt id hmem, hsettled⟩] at honce
  have hpos : 0 < w.resolved.countP (·.promise = id) := by omega
  obtain ⟨call, hcall, hpromise⟩ := countP_pos_iff.1 hpos
  exact ⟨call, hcall, by simpa using hpromise⟩

theorem Truth.finished (h : Truth payloads w) (hinv : Inv limits w) (htime : InTime w id) :
    Finished w id := by
  obtain ⟨haccepting, haccepted, hmem⟩ := htime
  have hopen : ¬(w.shutdowns ≠ [] ∨ w.cutOff ≠ []) := fun hclosing => by
    simp [h.closing hclosing] at haccepting
  rw [not_or, not_not, not_not] at hopen
  have hsome := h.nonempty id hmem
  have hsent : (w.operations id).sentBytes = (w.operations id).payload.length := by
    rw [← haccepted, hinv.books.exact id (by simp [hopen.2])]
  -- with all bytes sent and no shutdown, only `complete` can be told
  have hcomplete : ∀ result : SerialSendResult, Told w.accepting (w.operations id).payload result →
      result.sentBytes = (w.operations id).sentBytes → result.outcome = .complete := by
    intro result htold hall
    by_contra hnot
    rcases htold.otherwise hnot hsome with hless | ⟨_, hclosed⟩
    · omega
    · simp [hclosed] at haccepting
  cases hsettled : w.settledOf id with
  | true =>
    obtain ⟨call, hcall, rfl⟩ := resolved_of_settled hinv hmem hsettled
    obtain ⟨payload, hpayload, htold⟩ := h.resolved call hcall
    rw [h.payload hmem] at hpayload
    cases hpayload
    exact .resolved call hcall rfl (hcomplete _ htold (hinv.books.resolved_sent call hcall).1)
  | false =>
    have hpos : 0 < (w.operations id).payload.length := length_pos_of_ne_nil hsome
    rcases hinv.books.waiting id hmem hsettled with hactive | hqueued
    · rcases hinv.one_drain with ⟨_, _, _, hnone⟩ | ⟨point, hone, _, hcurrent, hsound⟩
      · simp [hnone] at hactive
      · obtain rfl : id = point.operation := Option.some.inj (hactive.symm.trans hcurrent)
        cases point with
        | authorizing id => exact absurd (hsound.1.symm.trans hsent) hpos.ne
        | starting id => exact absurd (hsound.1.symm.trans hsent) hpos.ne
        | sending id chunkEnd =>
          exact absurd hsent (lt_of_lt_of_le hsound.1 hsound.2.1).ne
        | writing id chunkEnd =>
          exact absurd hsent (lt_of_lt_of_le hsound.1 hsound.2.1).ne
        | returned id result =>
          have htold := h.returned id result (hone ▸ mem_singleton_self _)
          exact .returned result hone (hcomplete result htold hsound) hsettled (by simp [hopen.1])
    · exact absurd ((hinv.books.queue_mem id hqueued).2.2.1.symm.trans hsent) hpos.ne

theorem settle_resolved (w : World) (clamp : Int → Int) (id : Nat) (result : SerialSendResult) :
    w.resolved ⊆ (w.settle clamp id result).resolved := by
  unfold settle
  simp only
  split
  · exact refl _
  · exact subset_append_left _ _

theorem cancelQueue_resolved (clamp : Int → Int) (queue : List Nat) :
    ∀ w : World, w.resolved ⊆ (cancelQueue clamp w queue).resolved := by
  induction queue with
  | nil => exact fun w => Subset.refl _
  | cons first queue ih =>
    intro w
    have hsettle := settle_resolved { w with queue } clamp first
      (cancelled (w.operations first).payload.length 0)
    exact Subset.trans hsettle (ih _)

theorem resume_resolved (w : World) (clamp : Int → Int) (answer : Answer)
    (point : DrainPoint) : w.resolved ⊆ (w.resume limits clamp answer point).1.resolved := by
  cases point with
  | authorizing id => exact refl _
  | starting id => exact refl _
  | sending id chunkEnd => exact refl _
  | writing id chunkEnd =>
    simp only [resume, afterWrite]
    split
    · exact refl _
    · split
      · split <;> exact refl _
      · split <;> exact refl _
  | returned id result =>
    have hsettle := settle_resolved w clamp id result
    simp only [resume]
    split
    all_goals
      rw [(nextOperation_keeps _ _).2.1]
      exact hsettle

/-- What has been told stays told. -/
theorem step_resolved (w : World) (e : Event) : w.resolved ⊆ (step limits w e).resolved := by
  cases e with
  | enqueue payload authorized =>
    change w.resolved ⊆ (w.enqueue limits payload authorized).resolved
    rcases enqueue_cases limits w payload authorized with
      ⟨result, _, _, _, hrefused⟩ | ⟨_, _, _, hpushed⟩
    · rw [hrefused]
      exact subset_append_left _ _
    · rw [hpushed]
      unfold drain
      split
      · exact refl _
      · simp only [(nextOperation_keeps _ _).2.1]
        exact refl _
  | resume drain answer =>
    simp only [step, stepWith]
    split
    · exact refl _
    · exact resume_resolved w (max 0) answer _
  | shutdown =>
    have hcancel := cancelQueue_resolved (max 0) w.queue { w with accepting := false }
    simp only [step, stepWith, shutdown]
    split
    · exact hcancel
    · split <;> exact hcancel
  | graceOver shutdown => exact refl _
  | activeSettled shutdown =>
    simp only [step, stepWith]
    split
    · exact refl _
    · split <;> exact refl _
  | endShutdown shutdown =>
    simp only [step, stepWith]
    split
    · exact refl _
    · split
      · exact refl _
      · simp only [endShutdown]
        split
        · exact settle_resolved _ _ _ _
        · exact refl _
  | waitForIdle waiter =>
    simp only [step, stepWith, waitForIdle]
    split <;> exact refl _
  | abortWait waiter => exact refl _

theorem mem_modify_timedOut {calls : List ShutdownCall} {shutdown : Nat}
    (hcalls : ∀ call ∈ calls, call.timedOut ≠ some true) :
    ∀ call ∈ calls.modify shutdown (·.race false), call.timedOut ≠ some true := by
  induction calls generalizing shutdown with
  | nil => simp
  | cons first calls ih =>
    rw [forall_mem_cons] at hcalls
    cases shutdown with
    | zero =>
      rw [modify_zero_cons, forall_mem_cons]
      refine ⟨?_, hcalls.2⟩
      unfold ShutdownCall.race
      split
      · simp
      · exact hcalls.1
    | succ shutdown =>
      rw [modify_succ_cons, forall_mem_cons]
      exact ⟨hcalls.1, ih hcalls.2⟩

theorem Finished.step (h : Finished w id) (hinv : Inv limits w) {e : Event} (hprompt : Prompt w e) :
    Finished (step limits w e) id := by
  cases h with
  | resolved call hcall hpromise hcomplete =>
    exact .resolved call (step_resolved w e hcall) hpromise hcomplete
  | returned result hdrains hcomplete hopen hwaits =>
    obtain ⟨point, hone, hdraining, hactive, -⟩ := hinv.one_drain.resolve_left (by simp [hdrains])
    obtain rfl : DrainPoint.returned id result = point :=
      head_eq_of_cons_eq (hdrains.symm.trans hone)
    have hcurrent : w.activeOperation = some id := hactive
    have hmem := hinv.books.active_mem id hcurrent
    cases e with
    | enqueue payload authorized =>
      change Finished (w.enqueue limits payload authorized) id
      rcases enqueue_cases limits w payload authorized with
        ⟨told, _, _, _, hrefused⟩ | ⟨_, _, _, hpushed⟩
      · rw [hrefused]
        exact .returned result hdrains hcomplete hopen hwaits
      · have hdrain : (w.pushed payload).drain = w.pushed payload := if_pos hdraining
        have hne : id ≠ w.nextPromise := (hinv.books.order_lt id hmem).ne
        rw [hpushed, hdrain]
        refine .returned result hdrains hcomplete ?_ hwaits
        simpa [settledOf, pushed, hne] using hopen
    | resume drain answer =>
      unfold bbcom.serial_write.step
      rw [step_resume w hdrains]
      split
      · have hsettled : ⟨id, result, w.accepted id⟩ ∈ (w.settle (max 0) id result).resolved := by
          have hnot : ¬(w.operations id).settled = true := by simpa [settledOf] using hopen
          unfold settle
          simp [hnot]
        refine .resolved ⟨id, result, w.accepted id⟩ ?_ rfl hcomplete
        simp only [resume]
        split
        all_goals
          rw [(nextOperation_keeps _ _).2.1]
          exact hsettled
      · exact .returned result hdrains hcomplete hopen hwaits
    | shutdown =>
      rw [hinv.step_clamp]
      have hclosed : Books limits { w with accepting := false } := { hinv.books with }
      obtain ⟨_, _, _, hstill, _, hsame, hcalls, _, _, hops⟩ :=
        @Books.cancelQueue limits _ w.queue hclosed rfl
      have hkept : (cancelQueue unclamped { w with accepting := false } w.queue).operations
          id = w.operations id := hops id (hinv.books.not_queued hcurrent)
      have hpending : ((cancelQueue unclamped { w with accepting := false }
          w.queue).operations id).settled = false := by
        rw [hkept]
        exact hopen
      simp only [stepWith, shutdown]
      generalize cancelQueue unclamped { w with accepting := false } w.queue = cut at *
      have hactive' : cut.activeOperation = some id := hstill.trans hcurrent
      simp only [hactive', hpending, Bool.false_eq_true, if_false]
      refine .returned result (hsame.trans hdrains) hcomplete hpending fun call hcall => ?_
      rcases mem_append.1 hcall with hold | hnew
      · rw [hcalls] at hold
        exact hwaits call hold
      · simp [mem_singleton.1 hnew]
    | graceOver shutdown =>
      exact absurd (hdrains ▸ mem_singleton_self _) (hprompt id result)
    | activeSettled shutdown =>
      simp only [bbcom.serial_write.step, stepWith]
      split
      · exact .returned result hdrains hcomplete hopen hwaits
      · split
        · exact .returned result hdrains hcomplete hopen (mem_modify_timedOut hwaits)
        · exact .returned result hdrains hcomplete hopen hwaits
    | endShutdown shutdown =>
      simp only [bbcom.serial_write.step, stepWith]
      split
      · exact .returned result hdrains hcomplete hopen hwaits
      · rename_i call hcall
        have hnot := hwaits call (mem_of_getElem? hcall)
        split
        · exact .returned result hdrains hcomplete hopen hwaits
        · simp only [endShutdown, hnot, false_and, if_false]
          exact .returned result hdrains hcomplete hopen fun other hother =>
            hwaits other (mem_of_mem_eraseIdx hother)
    | waitForIdle waiter =>
      simp only [bbcom.serial_write.step, stepWith, waitForIdle]
      split <;> exact .returned result hdrains hcomplete hopen hwaits
    | abortWait waiter => exact .returned result hdrains hcomplete hopen hwaits

/-- When timers wait for the microtasks, what was sent in time ends as complete. -/
theorem complete_of_sentInTime {events : List Event}
    (hprompt : Along (step limits) Prompt new events) (htime : SentInTime limits events id) :
    Finished (run (step limits) new events) id := by
  obtain ⟨before, ⟨after, rfl⟩, hnow⟩ := htime
  have hfinished := (truth_run limits before).finished (inv_run limits before) hnow
  rw [run_append]
  have hboth : Inv limits (run (step limits) (run (step limits) new before) after) ∧
      Finished (run (step limits) (run (step limits) new before) after) id := by
    have hstep : ∀ w e, Prompt w e → Inv limits w ∧ Finished w id →
        Inv limits (step limits w e) ∧ Finished (step limits w e) id :=
      fun w e hp h => ⟨h.1.kept_by_code e, h.2.step h.1 hp⟩
    refine run_invariant_along hstep ⟨inv_run limits before, hfinished⟩ ?_
    · rw [along_iff_split] at hprompt ⊢
      intro first e last hsplit
      rw [← run_append]
      refine hprompt (before ++ first) e last ?_
      rw [← hsplit, append_assoc]
  exact hboth.2

theorem told_once {resolved : List Resolution} {p : Resolution → Bool}
    (hle : resolved.countP p ≤ 1) {call other : Resolution} (hcall : call ∈ resolved)
    (hother : other ∈ resolved) (hp : p call = true) (hp' : p other = true) : call = other := by
  rw [countP_eq_length_filter] at hle
  have hmem : call ∈ resolved.filter p := mem_filter.2 ⟨hcall, hp⟩
  have hmem' : other ∈ resolved.filter p := mem_filter.2 ⟨hother, hp'⟩
  obtain ⟨only, honly⟩ := length_eq_one_iff.1
    (Nat.le_antisymm hle (length_pos_of_mem hmem))
  rw [honly, mem_singleton] at hmem hmem'
  rw [hmem, hmem']

/-- In every run a promise is told how many bytes the driver had accepted by then. It is told
`complete` only of an operation whose bytes the driver had all before any shutdown, and of every
such operation when timers wait for the microtasks; all bytes and another outcome is a
cancellation by a shutdown. -/
theorem outcomes_are_true (limits : SerialWriteSchedulerLimits) (events : List Event) :
    let w := run (step limits) new events
    ∀ call ∈ w.resolved,
      let payload := (enqueued events)[call.promise]?.getD []
      call.result.requestedBytes = payload.length ∧
      call.result.sentBytes = call.accepted ∧
      (call.result.outcome = .complete →
        call.accepted = payload.length ∧ SentInTime limits events call.promise) ∧
      (call.result.outcome ≠ .complete → payload ≠ [] →
        call.accepted < payload.length ∨
          call.result.outcome = .cancelled ∧ w.accepting = false) ∧
      (Along (step limits) Prompt new events →
        (call.result.outcome = .complete ↔ SentInTime limits events call.promise)) := by
  intro w call hcall payload
  have hinv : Inv limits w := inv_run limits events
  have htruth : Truth (enqueued events) w := truth_run limits events
  obtain ⟨given, hgiven, htold⟩ := htruth.resolved call hcall
  obtain rfl : payload = given := by simp [payload, hgiven]
  have hsent : call.result.sentBytes = call.accepted := (hinv.books.resolved_sent call hcall).2.symm
  have htime : call.result.outcome = .complete → SentInTime limits events call.promise :=
    fun hcomplete => sentInTime_of_complete limits events (.inr ⟨call, hcall, rfl, hcomplete⟩)
  refine ⟨htold.requested, hsent, fun hcomplete => ⟨?_, htime hcomplete⟩, ?_, ?_⟩
  · rw [← hsent]
    exact (htold.complete hcomplete).2
  · rw [← hsent]
    exact htold.otherwise
  · refine fun hprompt => ⟨htime, fun hsentInTime => ?_⟩
    have honce := hinv.books.resolved_once call.promise
    have hle : w.resolved.countP (·.promise = call.promise) ≤ 1 := by
      rw [honce]
      split <;> omega
    cases complete_of_sentInTime hprompt hsentInTime with
    | resolved other hother hpromise hcomplete =>
      have hsame : other = call := told_once hle hother hcall (by simp [hpromise]) (by simp)
      exact hsame ▸ hcomplete
    | returned result hdrains hcomplete hopen hwaits =>
      rw [if_neg (by rw [hopen]; simp)] at honce
      exact absurd hcall (by simpa using countP_eq_zero.1 honce call)

/-- A shutdown that comes while the last chunk is at the driver cancels an operation of which
the driver then accepts every byte. -/
theorem all_bytes_and_cancelled :
    ¬∀ (limits : SerialWriteSchedulerLimits) (events : List Event),
      ∀ call ∈ (run (step limits) new events).resolved,
        (call.result.outcome = .complete ↔
          call.accepted = ((enqueued events)[call.promise]?.getD []).length) := by
  intro hall
  have hiff := hall DEFAULT_SERIAL_WRITE_LIMITS
    [.enqueue [7] true, .resume 0 ⟨true, false, none⟩, .resume 0 ⟨true, false, none⟩,
      .resume 0 ⟨true, false, none⟩, .shutdown, .resume 0 ⟨true, false, some (.finite 1)⟩,
      .resume 0 ⟨true, false, none⟩]
    ⟨0, cancelled 1 1, 1⟩ (mem_singleton_self _)
  exact absurd (hiff.2 rfl) (by decide)

end bbcom.serial_write
