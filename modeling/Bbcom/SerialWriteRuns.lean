-- The serial write queue under any order of calls, driver answers and timers: what the driver
-- gets, how each promise settles, and what the two counters count.
import Bbcom.Lib.Runs
import Bbcom.SerialWriteBooks

open bbcom.js bbcom.ipc_contracts bbcom.runs

namespace bbcom.serial_write

open World List Option

variable {limits : SerialWriteSchedulerLimits} {w : World}

/-! ## The invariant -/

/-- What holds of a drain at the point where it stands. -/
def PointSound (limits : SerialWriteSchedulerLimits) (w : World) : DrainPoint → Prop
  | .authorizing id | .starting id => (w.operations id).sentBytes = 0 ∧ w.accepted id = 0
  | .sending id chunkEnd | .writing id chunkEnd =>
    (w.operations id).sentBytes < chunkEnd ∧ chunkEnd ≤ (w.operations id).payload.length ∧
      chunkEnd ≤ (w.operations id).sentBytes + limits.chunkBytes ∧
      w.accepted id = (w.operations id).sentBytes
  | .returned id result => result.sentBytes = (w.operations id).sentBytes

/-- One drain at most, and it holds the active operation. What a shutdown waits for has left
the queue. -/
structure Inv (limits : SerialWriteSchedulerLimits) (w : World) : Prop where
  books : Books limits w
  one_drain : (w.drains = [] ∧ w.draining = false ∧ w.queue = [] ∧ w.activeOperation = none) ∨
    ∃ point, w.drains = [point] ∧ w.draining = true ∧
      w.activeOperation = some point.operation ∧ PointSound limits w point
  active_settled : ∀ id, w.activeOperation = some id → w.settledOf id = true → id ∈ w.cutOff
  awaited : ∀ call ∈ w.shutdowns, call.active ∈ w.order ∧ call.active ∉ w.queue

theorem inv_new (limits : SerialWriteSchedulerLimits) : Inv limits new :=
  ⟨books_new limits, .inl ⟨rfl, rfl, rfl, rfl⟩, fun _ h => (some_ne_none _ h.symm).elim,
    fun _ h => (not_mem_nil h).elim⟩

variable {point : DrainPoint} {id : Nat}

theorem PointSound.of_same {w' : World} (h : PointSound limits w point)
    (hpayload : (w'.operations point.operation).payload = (w.operations point.operation).payload)
    (hsent : (w'.operations point.operation).sentBytes = (w.operations point.operation).sentBytes)
    (haccepted : w'.accepted point.operation = w.accepted point.operation) :
    PointSound limits w' point := by
  cases point <;> simp_all [PointSound, DrainPoint.operation]

theorem Books.not_queued (h : Books limits w) (hactive : w.activeOperation = some id) :
    id ∉ w.queue := fun hmem => (h.queue_mem id hmem).2.2.2 (.inl hactive)

theorem Books.mem_of_open (h : Books limits w) (hopen : w.settledOf id = false) : id ∈ w.order := by
  by_contra hmem
  rw [settledOf, h.outside id hmem] at hopen
  cases hopen

/-! ## The drain takes up the next operation -/

/-- What the drain leaves behind when it looks for an operation: none is active and the queue is
empty, or one is active and has not settled. -/
def Handed (limits : SerialWriteSchedulerLimits) (w : World) (next : Option DrainPoint) : Prop :=
  (next = none ∧ w.draining = false ∧ w.queue = [] ∧ w.activeOperation = none) ∨
    ∃ point, next = some point ∧ w.draining = true ∧
      w.activeOperation = some point.operation ∧ PointSound limits w point ∧
      w.settledOf point.operation = false

theorem resolveIdleWaiters_books (h : Books limits w) : Books limits w.resolveIdleWaiters := by
  unfold resolveIdleWaiters
  split
  · exact { h with }
  · exact h

theorem resolveIdleWaiters_same (w : World) : w.resolveIdleWaiters.queue = w.queue ∧
    w.resolveIdleWaiters.draining = w.draining ∧
    w.resolveIdleWaiters.activeOperation = w.activeOperation ∧
    w.resolveIdleWaiters.operations = w.operations ∧
    w.resolveIdleWaiters.order = w.order ∧ w.resolveIdleWaiters.nextPromise = w.nextPromise ∧
    w.resolveIdleWaiters.shutdowns = w.shutdowns ∧
    w.resolveIdleWaiters.drains = w.drains := by
  unfold resolveIdleWaiters
  split <;> exact ⟨rfl, rfl, rfl, rfl, rfl, rfl, rfl, rfl⟩

theorem Books.nextOperation (h : Books limits w) (hactive : w.activeOperation = none)
    (hdraining : w.draining = true) :
    Books limits (World.nextOperation w w.queue).1 ∧
      Handed limits (World.nextOperation w w.queue).1 (World.nextOperation w w.queue).2 := by
  cases hqueue : w.queue with
  | nil =>
    have hidle : Books limits { w with queue := [], draining := false } := by
      rw [← hqueue]
      exact { h with }
    obtain ⟨hsame, hdone, hnone, _⟩ :=
      resolveIdleWaiters_same { w with queue := [], draining := false }
    exact ⟨resolveIdleWaiters_books hidle, .inl ⟨rfl, hdone, hsame, hnone.trans hactive⟩⟩
  | cons id rest =>
    obtain ⟨_, hopen, hzero, hfresh⟩ := h.queue_mem id (hqueue ▸ mem_cons_self)
    have hbytes : w.accepted id = 0 := by
      by_contra hne
      exact hfresh (.inr hne)
    have hstep : World.nextOperation w (id :: rest) =
        ({ w with queue := rest, activeOperation := some id }, some (.authorizing id)) :=
      if_neg (by simpa [World.settledOf] using hopen)
    rw [hstep]
    exact ⟨h.takeUp hqueue hactive, .inr ⟨_, rfl, hdraining, rfl, ⟨hzero, hbytes⟩, hopen⟩⟩

theorem nextOperation_frame (w : World) (queue : List Nat) :
    (nextOperation w queue).1.operations = w.operations ∧
      (nextOperation w queue).1.order = w.order ∧
      (nextOperation w queue).1.nextPromise = w.nextPromise ∧
      (nextOperation w queue).1.shutdowns = w.shutdowns ∧
      (nextOperation w queue).1.drains = w.drains ∧
      (nextOperation w queue).1.queue.Sublist queue := by
  induction queue with
  | nil =>
    obtain ⟨hqueue, _, _, hops, horder, hnext, hcalls, hdrains⟩ :=
      resolveIdleWaiters_same { w with queue := [], draining := false }
    refine ⟨hops, horder, hnext, hcalls, hdrains, ?_⟩
    rw [nextOperation, hqueue]
  | cons id queue ih =>
    unfold nextOperation
    split
    · obtain ⟨hops, horder, hnext, hcalls, hdrains, hsub⟩ := ih
      exact ⟨hops, horder, hnext, hcalls, hdrains, hsub.cons _⟩
    · exact ⟨rfl, rfl, rfl, rfl, rfl, sublist_cons_self _ _⟩

/-- The invariant of a world whose one drain has just been handed on. -/
theorem Handed.inv {next : Option DrainPoint} (h : Handed limits w next) (hbooks : Books limits w)
    (hawaited : ∀ call ∈ w.shutdowns, call.active ∈ w.order ∧ call.active ∉ w.queue) :
    Inv limits { w with drains := next.toList } := by
  refine ⟨{ hbooks with }, ?_, ?_, hawaited⟩
  · rcases h with ⟨rfl, hdone⟩ | ⟨point, rfl, hdraining, hactive, hsound, _⟩
    · exact .inl ⟨rfl, hdone⟩
    · exact .inr ⟨point, rfl, hdraining, hactive, hsound.of_same rfl rfl rfl⟩
  · intro id hid hsettled
    change w.activeOperation = some id at hid
    rcases h with ⟨_, _, _, hnone⟩ | ⟨point, _, _, hactive, _, hopen⟩
    · rw [hnone] at hid
      cases hid
    · rw [hactive] at hid
      cases hid
      exact absurd (hsettled.symm.trans hopen) (by simp)

/-! ## The calls -/

variable (limits) in
theorem enqueue_cases (w : World) (payload : Uint8Array) (authorized : Bool) :
    (∃ result, result.sentBytes = 0 ∧ result.requestedBytes = payload.length ∧
      result.outcome ≠ .complete ∧ w.enqueue limits payload authorized = w.refused result) ∨
    (payload ≠ [] ∧ w.outstandingOperations < limits.maxOperations ∧
      w.outstandingBytes + payload.length ≤ limits.maxQueuedBytes ∧
      w.enqueue limits payload authorized = (w.pushed payload).drain) := by
  simp only [enqueue]
  split_ifs with hempty hclosed hdenied hfull
  · exact .inl ⟨_, rfl, hempty.symm, by decide, rfl⟩
  · exact .inl ⟨_, rfl, rfl, by simp [cancelled], rfl⟩
  · exact .inl ⟨_, rfl, rfl, by simp [denied, partialOrFailed], rfl⟩
  · exact .inl ⟨_, rfl, rfl, by simp [failed], rfl⟩
  · rw [not_or, not_le, not_lt] at hfull
    exact .inr ⟨fun hnil => hempty (by rw [hnil, length_nil]), hfull.1, hfull.2, rfl⟩

theorem Inv.enqueue (h : Inv limits w) (payload : Uint8Array) (authorized : Bool) :
    Inv limits (w.enqueue limits payload authorized) := by
  rcases enqueue_cases limits w payload authorized with
    ⟨result, hzero, _, _, hrefused⟩ | ⟨_, hcount, hbytes, hpushed⟩
  · rw [hrefused]
    refine ⟨h.books.refused hzero, ?_, h.active_settled, h.awaited⟩
    rcases h.one_drain with hidle | ⟨point, hdrains, hdraining, hactive, hsound⟩
    · exact .inl hidle
    · exact .inr ⟨point, hdrains, hdraining, hactive, hsound.of_same rfl rfl rfl⟩
  · have hbooks := h.books.pushed hcount hbytes
    have hawaited : ∀ call ∈ w.shutdowns,
        call.active ∈ (w.pushed payload).order ∧ call.active ∉ (w.pushed payload).queue := by
      intro call hcall
      obtain ⟨hmem, hout⟩ := h.awaited call hcall
      have hne : call.active ≠ w.nextPromise := (h.books.order_lt _ hmem).ne
      simp [pushed, hmem, hout, hne]
    rw [hpushed]
    rcases h.one_drain with ⟨hdrains, hdraining, hqueue, hactive⟩ |
        ⟨point, hdrains, hdraining, hactive, hsound⟩
    · obtain ⟨hnext, hhanded⟩ :=
        Books.nextOperation (w := { w.pushed payload with draining := true }) { hbooks with }
          hactive rfl
      obtain ⟨_, horder, _, hcalls, hsame, hsub⟩ := nextOperation_frame
        { w.pushed payload with draining := true } (w.pushed payload).queue
      have hinv := hhanded.inv hnext (by
        rw [hcalls, horder]
        exact fun call hcall => ⟨(hawaited call hcall).1, fun hmem =>
          (hawaited call hcall).2 (hsub.subset hmem)⟩)
      have hdrain : (w.pushed payload).drain =
          { (nextOperation { w.pushed payload with draining := true }
              (w.pushed payload).queue).1 with
            drains := (nextOperation { w.pushed payload with draining := true }
              (w.pushed payload).queue).2.toList } := by
        have hfirst : ¬(w.pushed payload).draining = true := by
          rw [show (w.pushed payload).draining = w.draining from rfl, hdraining]
          simp
        rw [drain, if_neg hfirst]
        simp only [hsame]
        rw [show (w.pushed payload).drains = w.drains from rfl, hdrains, nil_append]
      rw [hdrain]
      exact hinv
    · have hdrain : (w.pushed payload).drain = w.pushed payload := if_pos hdraining
      rw [hdrain]
      have hmem := h.books.active_mem _ hactive
      have hne : point.operation ≠ w.nextPromise := (h.books.order_lt _ hmem).ne
      have hsame : (w.pushed payload).operations point.operation =
          w.operations point.operation := by
        simp [pushed, hne]
      refine ⟨hbooks, .inr ⟨point, hdrains, hdraining, hactive, hsound.of_same ?_ ?_ rfl⟩, ?_,
        hawaited⟩
      · rw [hsame]
      · rw [hsame]
      · intro id hid hsettled
        have hid' : id = point.operation := some.inj (hid.symm.trans hactive)
        rw [settledOf, hid', hsame] at hsettled
        exact h.active_settled id hid (hid' ▸ hsettled)

theorem World.openCount_nonneg (w : World) (id : Nat) : 0 ≤ w.openCount id := by
  unfold openCount
  split_ifs <;> omega

theorem Books.openBytes_nonneg (h : Books limits w) (id : Nat) : 0 ≤ w.openBytes id := by
  unfold openBytes
  split_ifs
  · exact le_rfl
  · exact h.remaining_nonneg id

/-- An open operation has its share in both counters. -/
theorem Books.share (h : Books limits w) (hopen : w.settledOf id = false) :
    1 ≤ w.outstandingOperations ∧ w.remaining id ≤ w.outstandingBytes := by
  have hmem := h.mem_of_open hopen
  have hclosed : (w.operations id).settled = false := hopen
  have hone : w.openCount id = 1 := by simp [openCount, hclosed]
  have hrest : w.openBytes id = w.remaining id := by simp [openBytes, hclosed]
  rw [h.count, h.count_bytes, ← hone, ← hrest]
  constructor
  · apply single_le_sum
    · intro n hn
      obtain ⟨other, _, rfl⟩ := mem_map.1 hn
      exact w.openCount_nonneg other
    · exact mem_map_of_mem hmem
  · apply single_le_sum
    · intro n hn
      obtain ⟨other, _, rfl⟩ := mem_map.1 hn
      exact h.openBytes_nonneg other
    · exact mem_map_of_mem hmem

theorem Books.settle_queued {rest : List Nat} (h : Books limits w) (hqueue : w.queue = id :: rest)
    (result : SerialSendResult) (hresult : result.sentBytes = 0) :
    settle unclamped { w with queue := rest } id result =
        w.settled id result rest w.activeOperation w.cutOff ∧
      Books limits (w.settled id result rest w.activeOperation w.cutOff) := by
  obtain ⟨hmem, hopen, hzero, _⟩ := h.queue_mem id (hqueue ▸ mem_cons_self)
  have hsorted := h.queue_sorted
  rw [hqueue, pairwise_cons] at hsorted
  refine ⟨settle_open (w := { w with queue := rest }) hopen result, ?_⟩
  refine h.settled hmem hopen result (hresult.trans hzero.symm) ?_ ?_ ?_ (.inl rfl) _
    fun _ hcut => hcut
  · rw [hqueue]
    exact sublist_cons_self _ _
  · exact fun hin => (hsorted.1 id hin).ne rfl
  · intro other hother hne
    rw [hqueue] at hother
    exact (mem_cons.1 hother).resolve_left hne

/-- The loop of `shutdown`: the queue ends up empty, and whoever was not in it is as before. -/
theorem Books.cancelQueue {queue : List Nat} (h : Books limits w) (hqueue : w.queue = queue) :
    Books limits (World.cancelQueue unclamped w queue) ∧
      (World.cancelQueue unclamped w queue).queue = [] ∧
      (World.cancelQueue unclamped w queue).order = w.order ∧
      (World.cancelQueue unclamped w queue).activeOperation = w.activeOperation ∧
      (World.cancelQueue unclamped w queue).draining = w.draining ∧
      (World.cancelQueue unclamped w queue).drains = w.drains ∧
      (World.cancelQueue unclamped w queue).shutdowns = w.shutdowns ∧
      (World.cancelQueue unclamped w queue).cutOff = w.cutOff ∧
      (World.cancelQueue unclamped w queue).wire = w.wire ∧
      ∀ id ∉ queue, (World.cancelQueue unclamped w queue).operations id = w.operations id := by
  induction queue generalizing w with
  | nil =>
    refine ⟨?_, rfl, rfl, rfl, rfl, rfl, rfl, rfl, rfl, fun _ _ => rfl⟩
    rw [World.cancelQueue, ← hqueue]
    exact h
  | cons first rest ih =>
    obtain ⟨hsettle, hbooks⟩ := h.settle_queued hqueue
      (cancelled (w.operations first).payload.length 0) rfl
    unfold World.cancelQueue
    simp only [hsettle]
    obtain ⟨hkeep, hempty, horder, hactive, hdraining, hdrains, hcalls, hcut, hwire, hops⟩ :=
      ih hbooks rfl
    refine ⟨hkeep, hempty, horder, hactive, hdraining, hdrains, hcalls, hcut, hwire, ?_⟩
    intro id hid
    rw [mem_cons, not_or] at hid
    rw [hops id hid.2]
    simp [World.settled, hid.1]

theorem Inv.shutdown (h : Inv limits w) : Inv limits (w.shutdown unclamped) := by
  have hclosed : Books limits { w with accepting := false } := { h.books with }
  have hqueue : { w with accepting := false }.queue = w.queue := rfl
  obtain ⟨hbooks, hempty, horder, hactive, hdraining, hdrains, hcalls, hcut, hwire, hops⟩ :=
    hclosed.cancelQueue hqueue
  have hemptied :
      Inv limits (World.cancelQueue unclamped { w with accepting := false } w.queue) := by
    refine ⟨hbooks, ?_, ?_, ?_⟩
    · rcases h.one_drain with ⟨hnone, hstopped, _, hnobody⟩ |
          ⟨point, hone, hrunning, hcurrent, hsound⟩
      · exact .inl ⟨hdrains.trans hnone, hdraining.trans hstopped, hempty, hactive.trans hnobody⟩
      · have hsame := hops point.operation (h.books.not_queued hcurrent)
        refine .inr ⟨point, hdrains.trans hone, hdraining.trans hrunning,
          hactive.trans hcurrent, hsound.of_same ?_ ?_ ?_⟩
        · rw [hsame]
        · rw [hsame]
        · unfold World.accepted
          rw [hwire]
    · intro id hid hsettled
      have hcurrent : w.activeOperation = some id := hactive.symm.trans hid
      rw [World.settledOf, hops id (h.books.not_queued hcurrent)] at hsettled
      rw [hcut]
      exact h.active_settled id hcurrent hsettled
    · intro call hcall
      rw [hcalls] at hcall
      rw [horder, hempty]
      exact ⟨(h.awaited call hcall).1, not_mem_nil⟩
  unfold World.shutdown
  simp only
  split
  · exact hemptied
  · rename_i active hcurrent
    split_ifs
    · exact hemptied
    · refine ⟨{ hemptied.books with }, hemptied.one_drain.imp_right ?_, hemptied.active_settled, ?_⟩
      · rintro ⟨point, hone, hrunning, hcurrent', hsound⟩
        exact ⟨point, hone, hrunning, hcurrent', hsound.of_same rfl rfl rfl⟩
      · intro call hcall
        rcases mem_append.1 hcall with hold | hnew
        · exact hemptied.awaited call hold
        · rw [mem_singleton.1 hnew]
          exact ⟨hemptied.books.active_mem active hcurrent, hemptied.books.not_queued hcurrent⟩

variable {call : ShutdownCall}

theorem Inv.endShutdown (h : Inv limits w) (hcall : call ∈ w.shutdowns) :
    Inv limits (w.endShutdown unclamped call) := by
  unfold World.endShutdown
  simp only
  split_ifs with hcut
  · obtain ⟨hmem, hout⟩ := h.awaited call hcall
    have hopen : w.settledOf call.active = false := by simpa [World.settledOf] using hcut.2
    have hactive : w.activeOperation = some call.active :=
      (h.books.waiting _ hmem hopen).resolve_right hout
    rw [settle_open hopen]
    have hbooks := h.books.settled hmem hopen
      (cancelled (w.operations call.active).payload.length (w.operations call.active).sentBytes)
      rfl (List.Sublist.refl _) hout (fun _ hother _ => hother) (.inl rfl)
      (w.cutOff ++ [call.active]) fun _ hother => mem_append_left _ hother
    have hsame : ∀ id, (Function.update w.operations call.active
          { w.operations call.active with settled := true } id).payload =
            (w.operations id).payload ∧
        (Function.update w.operations call.active
          { w.operations call.active with settled := true } id).sentBytes =
            (w.operations id).sentBytes := by
      intro id
      by_cases hid : id = call.active
      · subst hid
        simp
      · simp [hid]
    refine ⟨hbooks, h.one_drain.imp_right ?_, ?_, h.awaited⟩
    · rintro ⟨point, hone, hrunning, hcurrent, hsound⟩
      exact ⟨point, hone, hrunning, hcurrent, hsound.of_same (hsame _).1 (hsame _).2 rfl⟩
    · intro id hid _
      have heq : id = call.active := some.inj (hid.symm.trans hactive)
      exact heq ▸ mem_append_right _ mem_cons_self
  · exact h

/-! ## The drain goes on -/

theorem World.inChunk_sound {chunkEnd : Nat} (hless : (w.operations id).sentBytes < chunkEnd)
    (hend : chunkEnd ≤ (w.operations id).payload.length)
    (hchunk : chunkEnd ≤ (w.operations id).sentBytes + limits.chunkBytes)
    (hexact : w.accepted id = (w.operations id).sentBytes) :
    PointSound limits w (w.inChunk id chunkEnd) := by
  unfold inChunk
  simp only
  split_ifs
  · exact rfl
  · exact rfl
  · exact ⟨hless, hend, hchunk, hexact⟩

theorem World.nextChunk_sound (hle : (w.operations id).sentBytes ≤ (w.operations id).payload.length)
    (hexact : w.accepted id = (w.operations id).sentBytes) :
    PointSound limits w (w.nextChunk limits id) := by
  unfold nextChunk
  simp only
  split_ifs with hmore _ hoff
  · exact rfl
  · have hpos := limits.chunkBytes_pos
    exact inChunk_sound (lt_min (by omega) hmore) (min_le_right _ _) (min_le_left _ _)
      hexact
  · exact (hoff (by omega)).elim
  · change (w.operations id).payload.length = (w.operations id).sentBytes
    omega

@[simp] theorem World.inChunk_operation (w : World) (id chunkEnd : Nat) :
    (w.inChunk id chunkEnd).operation = id := by
  unfold inChunk
  simp only
  split_ifs <;> rfl

@[simp] theorem World.nextChunk_operation (w : World) (id : Nat) :
    (w.nextChunk limits id).operation = id := by
  unfold nextChunk
  simp only
  split_ifs
  · rfl
  · exact w.inChunk_operation _ _
  · rfl
  · rfl

variable (limits) in
/-- What the driver's answer can do: the drain gives up on the operation and nothing else
changes, or the driver has taken bytes that come too late, or it has taken bytes in time. -/
theorem afterWrite_cases (w : World) (id chunkEnd : Nat) (written : Option JsNumber)
    (hend : chunkEnd ≤ (w.operations id).payload.length) :
    (∃ result, result.sentBytes = (w.operations id).sentBytes ∧
      result.requestedBytes = (w.operations id).payload.length ∧ result.outcome ≠ .complete ∧
      w.afterWrite limits id chunkEnd written = (w, .returned id result)) ∨
    ∃ n, 1 ≤ n ∧ (w.operations id).sentBytes + n ≤ chunkEnd ∧
      ((w.settledOf id = true ∧ w.afterWrite limits id chunkEnd written =
          (w.took id n false, .returned id (cancelled (w.operations id).payload.length
            (w.operations id).sentBytes))) ∨
        (w.settledOf id = false ∧ ∃ point,
          w.afterWrite limits id chunkEnd written = (w.took id n true, point) ∧
          (w.accepting = false ∧ point = .returned id (cancelled (w.operations id).payload.length
              ((w.operations id).sentBytes + n)) ∨
            ((w.operations id).sentBytes + n < chunkEnd ∧
              point = (w.took id n true).inChunk id chunkEnd) ∨
            w.accepting = true ∧ point = (w.took id n true).nextChunk limits id))) := by
  have hgiveUp : ∀ result : SerialSendResult, result = (if w.accepting then
      writeFailure (w.operations id).payload.length (w.operations id).sentBytes
      else cancelled (w.operations id).payload.length (w.operations id).sentBytes) →
      result.sentBytes = (w.operations id).sentBytes ∧
        result.requestedBytes = (w.operations id).payload.length ∧ result.outcome ≠ .complete := by
    rintro result rfl
    split_ifs
    · exact ⟨rfl, rfl, by simp only [writeFailure, partialOrFailed]; split_ifs <;> decide⟩
    · exact ⟨rfl, rfl, by simp [cancelled]⟩
  simp only [afterWrite]
  cases written with
  | none =>
    obtain ⟨hsent, hrequested, houtcome⟩ := hgiveUp _ rfl
    exact .inl ⟨_, hsent, hrequested, houtcome, rfl⟩
  | some written =>
    simp only
    split
    · by_cases hsettled : (w.operations id).settled = true
      · rw [if_pos hsettled]
        exact .inl ⟨_, rfl, rfl, by simp [cancelled], rfl⟩
      · rw [if_neg hsettled]
        obtain ⟨hsent, hrequested, houtcome⟩ := hgiveUp _ rfl
        exact .inl ⟨_, hsent, hrequested, houtcome, rfl⟩
    · rename_i n hn
      obtain ⟨hone, hchunk⟩ := integerBetween_bounds hn
      have hlength := Uint8Array.length_subarray (w.operations id).payload
        (w.operations id).sentBytes chunkEnd hend
      rw [hlength] at hchunk
      have hbytes : ((w.operations id).payload.subarray (w.operations id).sentBytes
          chunkEnd).take n =
          ((w.operations id).payload.drop (w.operations id).sentBytes).take n := by
        rw [Uint8Array.subarray, drop_take, take_take, Nat.min_eq_left (by omega)]
      refine .inr ⟨n, hone, by omega, ?_⟩
      rw [hbytes]
      by_cases hsettled : (w.operations id).settled = true
      · rw [if_pos hsettled]
        exact .inl ⟨hsettled, rfl⟩
      · rw [if_neg hsettled]
        refine .inr ⟨by simpa [settledOf] using hsettled, _, rfl, ?_⟩
        split_ifs with hclosed hmore
        · exact .inl ⟨by simpa using hclosed, rfl⟩
        · exact .inr (.inl ⟨hmore, rfl⟩)
        · exact .inr (.inr ⟨by simpa using hclosed, rfl⟩)

theorem Inv.written {chunkEnd : Nat} (h : Inv limits w) (hactive : w.activeOperation = some id)
    (hdraining : w.draining = true) (hsound : PointSound limits w (.writing id chunkEnd))
    (written : Option JsNumber) :
    Inv limits { (w.afterWrite limits id chunkEnd written).1 with
      drains := [(w.afterWrite limits id chunkEnd written).2] } := by
  obtain ⟨hless, hend, hchunk, hexact⟩ := hsound
  rcases afterWrite_cases limits w id chunkEnd written hend with
    ⟨result, hresult, _, _, heq⟩ | ⟨n, hone, hn, hcase⟩
  · rw [heq]
    exact ⟨{ h.books with }, .inr ⟨_, rfl, hdraining, hactive, hresult⟩, h.active_settled,
      h.awaited⟩
  · have hroom : (w.operations id).sentBytes + n ≤ (w.operations id).payload.length := by omega
    rcases hcase with ⟨hlate, heq⟩ | ⟨hopen, point, heq, hpoint⟩
    · obtain ⟨hbooks, _⟩ := h.books.took hactive hexact hroom (by omega) false
        (by rw [hlate]; rfl) fun _ => h.active_settled id hactive hlate
      rw [heq]
      exact ⟨{ hbooks with }, .inr ⟨_, rfl, hdraining, hactive, rfl⟩, h.active_settled, h.awaited⟩
    · obtain ⟨hbooks, haccepted⟩ := h.books.took hactive hexact hroom (by omega)
        true (by rw [hopen]; rfl) fun hlate => by rw [hopen] at hlate; cases hlate
      have hops : (w.took id n true).operations id =
          { w.operations id with sentBytes := (w.operations id).sentBytes + n } := by
        simp [took]
      have hexact' : (w.took id n true).accepted id =
          ((w.took id n true).operations id).sentBytes := by
        rw [haccepted, if_pos rfl, hexact, hops]
      have hoperation : point.operation = id := by
        rcases hpoint with ⟨_, rfl⟩ | ⟨_, rfl⟩ | ⟨_, rfl⟩
        · rfl
        · exact inChunk_operation _ _ _
        · exact nextChunk_operation _ _
      have hsound' : PointSound limits (w.took id n true) point := by
        rcases hpoint with ⟨_, rfl⟩ | ⟨hmore, rfl⟩ | ⟨_, rfl⟩
        · change (w.operations id).sentBytes + n = ((w.took id n true).operations id).sentBytes
          rw [hops]
        · apply inChunk_sound
          · rw [hops]
            exact hmore
          · rw [hops]
            exact hend
          · rw [hops]
            change chunkEnd ≤ (w.operations id).sentBytes + n + limits.chunkBytes
            omega
          · exact hexact'
        · apply nextChunk_sound
          · rw [hops]
            exact hroom
          · exact hexact'
      rw [heq]
      refine ⟨{ hbooks with }, .inr ⟨_, rfl, hdraining, ?_, ?_⟩, ?_, h.awaited⟩
      · rw [hoperation]
        exact hactive
      · exact hsound'.of_same rfl rfl rfl
      · intro other hother hsettled
        have hid : other = id := some.inj (hother.symm.trans hactive)
        rw [settledOf] at hsettled
        change ((w.took id n true).operations other).settled = true at hsettled
        rw [hid, hops] at hsettled
        rw [settledOf, hsettled] at hopen
        cases hopen

theorem Inv.returned {result : SerialSendResult} (h : Inv limits w)
    (hactive : w.activeOperation = some id) (hdraining : w.draining = true)
    (hresult : result.sentBytes = (w.operations id).sentBytes) (answer : Answer) :
    Inv limits { (w.resume limits unclamped answer (.returned id result)).1 with
      drains := (w.resume limits unclamped answer (.returned id result)).2.toList } := by
  have hleft : ∃ left : World, left = { w.settle unclamped id result with
      activeOperation := none } ∧ Books limits left ∧ left.draining = true ∧
      left.queue = w.queue ∧ left.order = w.order ∧ left.shutdowns = w.shutdowns := by
    refine ⟨_, rfl, ?_⟩
    cases hdone : w.settledOf id with
    | true =>
      rw [settle_done hdone]
      exact ⟨h.books.leave hactive hdone, hdraining, rfl, rfl, rfl⟩
    | false =>
      rw [settle_open hdone]
      exact ⟨h.books.settled (h.books.active_mem id hactive) hdone result hresult
        (List.Sublist.refl _) (h.books.not_queued hactive) (fun _ hother _ => hother)
        (.inr ⟨rfl, hactive⟩) _ fun _ hcut => hcut, hdraining, rfl, rfl, rfl⟩
  obtain ⟨left, hleft, hbooks, hrunning, hqueue, horder, hcalls⟩ := hleft
  have hsettle : (w.settle unclamped id result).activeOperation = some id := by
    cases hdone : w.settledOf id with
    | true =>
      rw [settle_done hdone]
      exact hactive
    | false =>
      rw [settle_open hdone]
      exact hactive
  have hresume : w.resume limits unclamped answer (.returned id result) =
      nextOperation left left.queue := by
    rw [hleft, resume]
    simp only
    rw [if_pos hsettle]
  obtain ⟨hnext, hhanded⟩ := hbooks.nextOperation (by rw [hleft]) hrunning
  obtain ⟨_, horder', _, hcalls', _, hsub⟩ := nextOperation_frame left left.queue
  rw [hresume]
  refine hhanded.inv hnext ?_
  rw [hcalls', horder', hcalls, horder]
  intro call hcall
  obtain ⟨hmem, hout⟩ := h.awaited call hcall
  exact ⟨hmem, fun hin => hout (hqueue ▸ hsub.subset hin)⟩

theorem Inv.resume (h : Inv limits w) (hdrains : w.drains = [point]) (answer : Answer) :
    Inv limits { (w.resume limits unclamped answer point).1 with
      drains := (w.resume limits unclamped answer point).2.toList } := by
  obtain ⟨point', hone, hdraining, hactive, hsound⟩ := h.one_drain.resolve_left (by
    rw [hdrains]
    simp)
  obtain rfl : point = point' := head_eq_of_cons_eq (hdrains.symm.trans hone)
  -- the drain goes on without a change of anything else
  have hstay : ∀ next : DrainPoint, next.operation = point.operation →
      PointSound limits w next → Inv limits { w with drains := [next] } := by
    intro next hnext hsound'
    refine ⟨{ h.books with }, .inr ⟨next, rfl, hdraining, ?_, hsound'.of_same rfl rfl rfl⟩,
      h.active_settled, h.awaited⟩
    rw [hnext]
    exact hactive
  cases point with
  | authorizing id =>
    unfold resume
    simp only
    split_ifs
    · exact hstay _ rfl hsound
    · exact hstay _ rfl rfl
  | starting id =>
    obtain ⟨hzero, hnone⟩ := hsound
    unfold resume
    simp only
    split_ifs
    · exact hstay _ rfl hzero.symm
    · refine hstay _ (nextChunk_operation _ _) (nextChunk_sound ?_ ?_)
      · rw [hzero]
        exact Nat.zero_le _
      · rw [hnone, hzero]
  | sending id chunkEnd =>
    unfold resume
    simp only
    split_ifs
    · exact hstay _ rfl hsound
    · exact hstay _ rfl rfl
  | writing id chunkEnd => exact h.written hactive hdraining hsound answer.written
  | returned id result => exact h.returned hactive hdraining hsound answer

/-! ## One step -/

theorem settle_drains (w : World) (clamp : Int → Int) (id : Nat) (result : SerialSendResult) :
    (w.settle clamp id result).drains = w.drains := by
  unfold settle
  simp only
  split_ifs <;> rfl

variable (limits) in
theorem resume_drains (w : World) (clamp : Int → Int) (answer : Answer)
    (point : DrainPoint) : (w.resume limits clamp answer point).1.drains = w.drains := by
  cases point with
  | authorizing id => rfl
  | starting id => rfl
  | sending id chunkEnd => rfl
  | writing id chunkEnd =>
    simp only [resume, afterWrite]
    split
    · rfl
    · split
      · split_ifs <;> rfl
      · split_ifs <;> rfl
  | returned id result =>
    simp only [resume]
    split_ifs
    · rw [(nextOperation_frame _ _).2.2.2.2.1]
      exact settle_drains w clamp id result
    · rw [(nextOperation_frame _ _).2.2.2.2.1]
      exact settle_drains w clamp id result

theorem step_resume (w : World) (hdrains : w.drains = [point]) (clamp : Int → Int) (drain : Nat)
    (answer : Answer) :
    stepWith limits clamp w (.resume drain answer) =
      if drain = 0 then
        { (w.resume limits clamp answer point).1 with
          drains := (w.resume limits clamp answer point).2.toList }
      else w := by
  have hsame := resume_drains limits w clamp answer point
  cases drain with
  | zero => simp [stepWith, hdrains, hsame]
  | succ drain => simp [stepWith, hdrains]

variable {calls : List ShutdownCall}

theorem mem_modify_race {shutdown : Nat} {timedOut : Bool}
    (h : call ∈ calls.modify shutdown (·.race timedOut)) :
    ∃ before ∈ calls, call.active = before.active := by
  induction calls generalizing shutdown with
  | nil => simp at h
  | cons first calls ih =>
    cases shutdown with
    | zero =>
      rw [modify_zero_cons, mem_cons] at h
      rcases h with rfl | hrest
      · refine ⟨first, mem_cons_self, ?_⟩
        unfold ShutdownCall.race
        split_ifs <;> rfl
      · exact ⟨call, mem_cons_of_mem _ hrest, rfl⟩
    | succ shutdown =>
      rw [modify_succ_cons, mem_cons] at h
      rcases h with rfl | hrest
      · exact ⟨call, mem_cons_self, rfl⟩
      · obtain ⟨before, hmem, hsame⟩ := ih hrest
        exact ⟨before, mem_cons_of_mem _ hmem, hsame⟩

theorem Inv.with_shutdowns (h : Inv limits w)
    (hcalls : ∀ call ∈ calls, ∃ before ∈ w.shutdowns, call.active = before.active) :
    Inv limits { w with shutdowns := calls } := by
  refine ⟨{ h.books with }, h.one_drain.imp_right ?_, h.active_settled, ?_⟩
  · rintro ⟨point, hone, hrunning, hcurrent, hsound⟩
    exact ⟨point, hone, hrunning, hcurrent, hsound.of_same rfl rfl rfl⟩
  · intro call hcall
    obtain ⟨before, hmem, hsame⟩ := hcalls call hcall
    rw [hsame]
    exact h.awaited before hmem

theorem Inv.with_waiters (h : Inv limits w) (waiters idled : List Nat) :
    Inv limits { w with idleWaiters := waiters, idled } := by
  refine ⟨{ h.books with }, h.one_drain.imp_right ?_, h.active_settled, h.awaited⟩
  rintro ⟨point, hone, hrunning, hcurrent, hsound⟩
  exact ⟨point, hone, hrunning, hcurrent, hsound.of_same rfl rfl rfl⟩

theorem endShutdown_shutdowns (w : World) (clamp : Int → Int) (call : ShutdownCall) :
    (w.endShutdown clamp call).shutdowns = w.shutdowns := by
  unfold endShutdown settle
  simp only
  split_ifs <;> rfl

theorem Inv.kept (h : Inv limits w) (e : Event) : Inv limits (stepWith limits unclamped w e) := by
  cases e with
  | enqueue payload authorized => exact h.enqueue payload authorized
  | resume drain answer =>
    rcases h.one_drain with ⟨hnone, _⟩ | ⟨point, hone, _⟩
    · simpa [stepWith, hnone] using h
    · rw [step_resume w hone]
      split_ifs
      · exact h.resume hone answer
      · exact h
  | shutdown => exact h.shutdown
  | graceOver shutdown => exact h.with_shutdowns fun _ hcall => mem_modify_race hcall
  | activeSettled shutdown =>
    simp only [stepWith]
    split
    · exact h
    · split_ifs
      · exact h.with_shutdowns fun _ hcall => mem_modify_race hcall
      · exact h
  | endShutdown shutdown =>
    simp only [stepWith]
    split
    · exact h
    · rename_i call hcall
      split_ifs
      · exact h
      · refine (h.endShutdown (mem_of_getElem? hcall)).with_shutdowns ?_
        rw [endShutdown_shutdowns]
        exact fun other hother => ⟨other, mem_of_mem_eraseIdx hother, rfl⟩
  | waitForIdle waiter =>
    simp only [stepWith, waitForIdle]
    split_ifs
    · exact h.with_waiters _ _
    · exact h.with_waiters _ _
  | abortWait waiter => exact h.with_waiters _ _

/-! ## The clamps -/

/-- Where each open operation has its share, `Math.max(0, ..)` changes nothing. -/
theorem settle_clamp (id : Nat) (hshare : w.settledOf id = false →
      1 ≤ w.outstandingOperations ∧ w.remaining id ≤ w.outstandingBytes)
    (result : SerialSendResult) :
    w.settle (max 0) id result = w.settle unclamped id result := by
  cases hdone : w.settledOf id with
  | true => rw [settle_done hdone, settle_done hdone]
  | false =>
    obtain ⟨hone, hrest⟩ := hshare hdone
    have hopen : ¬(w.operations id).settled = true := by simpa [settledOf] using hdone
    have hbytes : max 0 (w.outstandingBytes - w.remaining id) =
        w.outstandingBytes - w.remaining id := max_eq_right (by omega)
    have hcount : max 0 (w.outstandingOperations - 1) = w.outstandingOperations - 1 :=
      max_eq_right (by omega)
    unfold remaining at hbytes
    simp only [settle, if_neg hopen, hbytes, hcount, unclamped]

theorem Books.cancelQueue_clamp {queue : List Nat} (h : Books limits w) (hqueue : w.queue = queue) :
    World.cancelQueue (max 0) w queue = World.cancelQueue unclamped w queue := by
  induction queue generalizing w with
  | nil => rfl
  | cons first rest ih =>
    obtain ⟨hsettle, hbooks⟩ := h.settle_queued hqueue
      (cancelled (w.operations first).payload.length 0) rfl
    have hclamp := settle_clamp (w := { w with queue := rest }) first h.share
      (cancelled (w.operations first).payload.length 0)
    unfold World.cancelQueue
    simp only [hclamp, hsettle]
    exact ih hbooks rfl

theorem Inv.step_clamp (h : Inv limits w) (e : Event) :
    step limits w e = stepWith limits unclamped w e := by
  have hsettle : ∀ id result, w.settle (max 0) id result = w.settle unclamped id result :=
    fun id result => settle_clamp id h.books.share result
  have hcancel : World.cancelQueue (max 0) { w with accepting := false } w.queue =
      World.cancelQueue unclamped { w with accepting := false } w.queue :=
    Books.cancelQueue_clamp { h.books with } rfl
  cases e with
  | enqueue payload authorized => rfl
  | resume drain answer =>
    have hresume : ∀ point, w.resume limits (max 0) answer point =
        w.resume limits unclamped answer point := by
      intro point
      cases point with
      | returned id result => simp only [World.resume, hsettle]
      | _ => rfl
    simp only [step, stepWith, hresume]
  | shutdown => simp only [step, stepWith, World.shutdown, hcancel]
  | graceOver shutdown => rfl
  | activeSettled shutdown => rfl
  | endShutdown shutdown => simp only [step, stepWith, World.endShutdown, hsettle]
  | waitForIdle waiter => rfl
  | abortWait waiter => rfl

theorem Inv.kept_by_code (h : Inv limits w) (e : Event) : Inv limits (step limits w e) := by
  rw [h.step_clamp]
  exact h.kept e

/-! ## Runs -/

theorem inv_run (limits : SerialWriteSchedulerLimits) (events : List Event) :
    Inv limits (run (step limits) new events) :=
  run_invariant (fun _ e h => h.kept_by_code e) (inv_new limits) events

theorem run_clamp (h : Inv limits w) (events : List Event) :
    run (step limits) w events = run (stepWith limits unclamped) w events := by
  induction events generalizing w with
  | nil => rfl
  | cons e events ih =>
    rw [run_cons, run_cons, ← h.step_clamp]
    exact ih (h.kept_by_code e)

theorem Inv.idle (h : Inv limits w) (hdone : w.drains = []) :
    w.outstandingOperations = 0 ∧ w.outstandingBytes = 0 ∧ w.unsettled = [] := by
  rcases h.one_drain with ⟨_, _, hqueue, hactive⟩ | ⟨point, hone, _⟩
  · have hall : ∀ id ∈ w.order, w.settledOf id = true := by
      intro id hid
      by_contra hopen
      have hopen' : w.settledOf id = false := by simpa using hopen
      rcases h.books.waiting id hid hopen' with hact | hin
      · rw [hactive] at hact
        cases hact
      · rw [hqueue] at hin
        exact not_mem_nil hin
    have hnone : w.unsettled = [] := by
      refine filter_eq_nil_iff.2 fun id hid => ?_
      have hset : (w.operations id).settled = true := hall id hid
      simp [hset]
    refine ⟨?_, ?_, hnone⟩
    · rw [h.books.count, sum_openCount]
      change ((w.unsettled.length : Nat) : Int) = 0
      rw [hnone]
      rfl
    · rw [h.books.count_bytes, sum_openBytes]
      change (w.unsettled.map _).sum = 0
      rw [hnone]
      rfl
  · rw [hone] at hdone
    cases hdone

theorem Inv.isIdle_iff (h : Inv limits w) : w.isIdle = true ↔ w.drains = [] := by
  rcases h.one_drain with ⟨hdrains, hdraining, hqueue, hactive⟩ | ⟨point, hone, hdraining, _⟩
  · simp [isIdle, hdrains, hdraining, hqueue, hactive]
  · simp [isIdle, hone, hdraining]

/-- In every run the counters are exact and within their limits, the clamps change nothing, and
nothing is counted when the scheduler is idle. -/
theorem accounting_exact (limits : SerialWriteSchedulerLimits) (events : List Event) :
    run (step limits) new events =
        run (stepWith limits unclamped) new events ∧
      let w := run (step limits) new events
      w.outstandingOperations = w.unsettled.length ∧
      w.outstandingBytes = (w.unsettled.map fun id =>
        ((w.operations id).payload.length : Int) - (w.operations id).sentBytes).sum ∧
      w.outstandingOperations ≤ limits.maxOperations ∧
      w.outstandingBytes ≤ limits.maxQueuedBytes ∧
      (w.isIdle = true → w.outstandingOperations = 0 ∧ w.outstandingBytes = 0) := by
  have h := inv_run limits events
  refine ⟨run_clamp (inv_new limits) events, ?_, ?_, h.books.count_limit, h.books.bytes_limit, ?_⟩
  · rw [h.books.count, sum_openCount]
    rfl
  · rw [h.books.count_bytes, sum_openBytes]
    rfl
  · intro hidle
    obtain ⟨hcount, hbytes, _⟩ := h.idle (h.isIdle_iff.1 hidle)
    exact ⟨hcount, hbytes⟩

/-- In every run no promise is forgotten: unless all have settled and the scheduler is idle, one
drain and no second is under way at the active operation, and every other operation that has not
settled stands in the queue, in the order of the calls. -/
theorem no_promise_is_forgotten (limits : SerialWriteSchedulerLimits) (events : List Event) :
    let w := run (step limits) new events
    w.isIdle = true ∧ w.unsettled = [] ∨
      ∃ point, w.drains = [point] ∧ w.activeOperation = some point.operation ∧
        w.queue.Pairwise (· < ·) ∧
        ∀ id ∈ w.unsettled, id = point.operation ∨ id ∈ w.queue := by
  have h := inv_run limits events
  rcases h.one_drain with ⟨hdrains, _⟩ | ⟨point, hone, _, hactive, _⟩
  · exact .inl ⟨h.isIdle_iff.2 hdrains, (h.idle hdrains).2.2⟩
  · refine .inr ⟨point, hone, hactive, h.books.queue_sorted, fun id hid => ?_⟩
    obtain ⟨hmem, hopen⟩ := mem_filter.1 hid
    rcases h.books.waiting id hmem (by simpa [settledOf] using hopen) with hthis | hqueued
    · exact .inl (Option.some.inj (hthis.symm.trans hactive))
    · exact .inr hqueued

end bbcom.serial_write
