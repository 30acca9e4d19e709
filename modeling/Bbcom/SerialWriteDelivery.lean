-- What the driver gets from the serial write queue and what the callers of `enqueue` hear of it.
import Bbcom.SerialWriteRuns

open bbcom.js bbcom.ipc_contracts bbcom.runs

namespace bbcom.serial_write

open World List Nat Function

variable {limits : SerialWriteSchedulerLimits} {w : World}

/-! ## Payloads stay as they were given -/

/-- No operation is added and no payload changes. -/
structure SameOperations (w w' : World) : Prop where
  order : w'.order = w.order
  nextPromise : w'.nextPromise = w.nextPromise
  payload : ∀ id, (w'.operations id).payload = (w.operations id).payload

theorem SameOperations.refl (w : World) : SameOperations w w := ⟨rfl, rfl, fun _ => rfl⟩

theorem SameOperations.trans {w' w'' : World} (h : SameOperations w w')
    (h' : SameOperations w' w'') : SameOperations w w'' :=
  ⟨h'.order.trans h.order, h'.nextPromise.trans h.nextPromise,
    fun id => (h'.payload id).trans (h.payload id)⟩

theorem update_payload (operations : Nat → WriteOperation) (id other : Nat)
    {operation : WriteOperation} (h : operation.payload = (operations id).payload) :
    (update operations id operation other).payload = (operations other).payload := by
  by_cases hother : other = id
  · subst hother
    rw [update_self, h]
  · rw [update_of_ne hother]

theorem settle_same (w : World) (clamp : Int → Int) (id : Nat) (result : SerialSendResult) :
    SameOperations w (w.settle clamp id result) := by
  unfold settle
  simp only
  split_ifs
  · exact .refl w
  · exact ⟨rfl, rfl, fun other => update_payload w.operations id other rfl⟩

theorem nextOperation_same (w : World) (queue : List Nat) :
    SameOperations w (nextOperation w queue).1 := by
  obtain ⟨hops, horder, hnext, _⟩ := nextOperation_frame w queue
  exact ⟨horder, hnext, fun id => by rw [hops]⟩

theorem afterWrite_same (w : World) (id chunkEnd : Nat) (written : Option JsNumber) :
    SameOperations w (w.afterWrite limits id chunkEnd written).1 := by
  simp only [afterWrite]
  split
  · exact .refl w
  · split
    · split_ifs <;> exact .refl w
    · split_ifs
      · exact ⟨rfl, rfl, fun _ => rfl⟩
      all_goals exact ⟨rfl, rfl, fun other => update_payload w.operations id other rfl⟩

variable (limits) in
theorem resume_same (w : World) (clamp : Int → Int) (answer : Answer)
    (point : DrainPoint) : SameOperations w (w.resume limits clamp answer point).1 := by
  cases point with
  | authorizing id => exact .refl w
  | starting id => exact .refl w
  | sending id chunkEnd => exact .refl w
  | writing id chunkEnd => exact afterWrite_same w id chunkEnd answer.written
  | returned id result =>
    have hsettle := settle_same w clamp id result
    have hleft : SameOperations w { w.settle clamp id result with activeOperation := none } :=
      ⟨hsettle.order, hsettle.nextPromise, hsettle.payload⟩
    simp only [resume]
    split_ifs
    · exact hleft.trans (nextOperation_same _ _)
    · exact hsettle.trans (nextOperation_same _ _)

theorem cancelQueue_same (clamp : Int → Int) (w : World) (queue : List Nat) :
    SameOperations w (cancelQueue clamp w queue) := by
  induction queue generalizing w with
  | nil => exact ⟨rfl, rfl, fun _ => rfl⟩
  | cons id queue ih =>
    have hsettle := settle_same { w with queue } clamp id
      (cancelled (w.operations id).payload.length 0)
    exact .trans ⟨hsettle.order, hsettle.nextPromise, hsettle.payload⟩ (ih _)

theorem shutdown_same (clamp : Int → Int) (w : World) : SameOperations w (w.shutdown clamp) := by
  have hcancel := cancelQueue_same clamp { w with accepting := false } w.queue
  unfold shutdown
  simp only
  split
  · exact ⟨hcancel.order, hcancel.nextPromise, hcancel.payload⟩
  · split_ifs <;> exact ⟨hcancel.order, hcancel.nextPromise, hcancel.payload⟩

theorem endShutdown_same (clamp : Int → Int) (w : World) (call : ShutdownCall) :
    SameOperations w (w.endShutdown clamp call) := by
  unfold endShutdown
  simp only
  split_ifs
  · obtain ⟨horder, hnext, hpayload⟩ := settle_same w clamp call.active
      (cancelled (w.operations call.active).payload.length (w.operations call.active).sentBytes)
    exact ⟨horder, hnext, hpayload⟩
  · exact .refl w

/-- The payloads that the calls of `enqueue` give, by the numbers of their promises. -/
def enqueued (events : List Event) : List Uint8Array :=
  events.filterMap fun
    | .enqueue payload _ => some payload
    | _ => none

/-- The operations hold the payloads that were given for them. -/
structure Recorded (payloads : List Uint8Array) (w : World) : Prop where
  count : w.nextPromise = payloads.length
  payload : ∀ id ∈ w.order, payloads[id]? = some (w.operations id).payload

variable {payloads : List Uint8Array}

theorem Recorded.same {w' : World} (h : Recorded payloads w) (hsame : SameOperations w w') :
    Recorded payloads w' := by
  refine ⟨hsame.nextPromise.trans h.count, fun id hid => ?_⟩
  rw [hsame.payload]
  exact h.payload id (hsame.order ▸ hid)

theorem Recorded.enqueue (h : Recorded payloads w) (hbooks : Books limits w) (payload : Uint8Array)
    (authorized : Bool) :
    Recorded (payloads ++ [payload]) (w.enqueue limits payload authorized) := by
  have hlt : ∀ id ∈ w.order, id < payloads.length := fun id hid => by
    rw [← h.count]
    exact hbooks.order_lt id hid
  have hcount : w.nextPromise + 1 = (payloads ++ [payload]).length := by
    rw [h.count, length_append, length_singleton]
  rcases enqueue_cases limits w payload authorized with
    ⟨result, _, _, _, hrefused⟩ | ⟨_, _, _, hpushed⟩
  · rw [hrefused]
    refine ⟨hcount, fun id hid => ?_⟩
    rw [List.getElem?_append_left (hlt id hid)]
    exact h.payload id hid
  · have hrecorded : Recorded (payloads ++ [payload]) (w.pushed payload) := by
      refine ⟨hcount, fun id hid => ?_⟩
      rcases mem_append.1 hid with hold | hnew
      · have hne : id ≠ w.nextPromise := (hbooks.order_lt id hold).ne
        rw [List.getElem?_append_left (hlt id hold), h.payload id hold]
        simp [pushed, hne]
      · rw [mem_singleton.1 hnew, h.count]
        simp [pushed, h.count]
    rw [hpushed]
    unfold drain
    split_ifs
    · exact hrecorded
    · obtain ⟨horder, hnext, hpayload⟩ := nextOperation_same
        { w.pushed payload with draining := true } (w.pushed payload).queue
      exact hrecorded.same ⟨horder, hnext, hpayload⟩

theorem Recorded.step (h : Recorded payloads w) (hinv : Inv limits w) (e : Event) :
    Recorded (payloads ++ enqueued [e]) (bbcom.serial_write.step limits w e) := by
  have hsame : ∀ {w' : World}, SameOperations w w' → Recorded (payloads ++ []) w' :=
    fun hsame => by rw [append_nil]; exact h.same hsame
  cases e with
  | enqueue payload authorized => exact h.enqueue hinv.books payload authorized
  | resume drain answer =>
    apply hsame
    simp only [bbcom.serial_write.step, stepWith]
    split
    · exact .refl w
    · rename_i point _
      obtain ⟨horder, hnext, hpayload⟩ := resume_same limits w (max 0) answer point
      exact ⟨horder, hnext, hpayload⟩
  | shutdown => exact hsame (shutdown_same (max 0) w)
  | graceOver shutdown => exact hsame ⟨rfl, rfl, fun _ => rfl⟩
  | activeSettled shutdown =>
    apply hsame
    simp only [bbcom.serial_write.step, stepWith]
    split
    · exact .refl w
    · split_ifs <;> exact ⟨rfl, rfl, fun _ => rfl⟩
  | endShutdown shutdown =>
    apply hsame
    simp only [bbcom.serial_write.step, stepWith]
    split
    · exact .refl w
    · rename_i call _
      obtain ⟨horder, hnext, hpayload⟩ := endShutdown_same (max 0) w call
      split_ifs
      · exact .refl w
      · exact ⟨horder, hnext, hpayload⟩
  | waitForIdle waiter =>
    apply hsame
    simp only [bbcom.serial_write.step, stepWith, waitForIdle]
    split_ifs <;> exact ⟨rfl, rfl, fun _ => rfl⟩
  | abortWait waiter => exact hsame ⟨rfl, rfl, fun _ => rfl⟩

theorem enqueued_append (before after : List Event) :
    enqueued (before ++ after) = enqueued before ++ enqueued after :=
  filterMap_append

theorem recorded_run (limits : SerialWriteSchedulerLimits) (events : List Event) :
    Recorded (enqueued events) (run (step limits) new events) := by
  induction events using List.reverseRecOn with
  | nil => exact ⟨rfl, fun id hid => (not_mem_nil hid).elim⟩
  | append_singleton events e ih =>
    rw [run_append, run_cons, run_nil, enqueued_append]
    exact ih.step (inv_run limits events) e

/-! ## The drain comes to its end -/

def World.left (w : World) (id : Nat) : Nat :=
  (w.operations id).payload.length - (w.operations id).sentBytes

/-- How many answers a drain needs at most for the operation it is at. -/
def World.workAt (w : World) : DrainPoint → Nat
  | .authorizing id => 2 * w.left id + 3
  | .starting id => 2 * w.left id + 2
  | .sending id _ => 2 * w.left id + 1
  | .writing id _ => 2 * w.left id
  | .returned _ _ => 1

/-- How many answers bring the drain to its end, when none joins the queue. -/
def World.work (w : World) : Nat :=
  (w.drains.map w.workAt).sum + (w.queue.map fun id => 2 * w.left id + 3).sum

theorem work_nextOperation (w : World) (queue : List Nat) :
    ((nextOperation w queue).2.toList.map (nextOperation w queue).1.workAt).sum +
        ((nextOperation w queue).1.queue.map fun id =>
          2 * (nextOperation w queue).1.left id + 3).sum ≤
      (queue.map fun id => 2 * w.left id + 3).sum := by
  induction queue with
  | nil =>
    obtain ⟨hqueue, _⟩ := resolveIdleWaiters_same { w with queue := [], draining := false }
    simp [nextOperation, hqueue]
  | cons id queue ih =>
    unfold nextOperation
    split
    · rw [map_cons, sum_cons]
      exact ih.trans (le_add_left _ _)
    · exact le_rfl

theorem workAt_inChunk (w : World) (id chunkEnd : Nat) :
    w.workAt (w.inChunk id chunkEnd) ≤ 2 * w.left id + 1 := by
  unfold inChunk
  simp only
  split_ifs
  · exact le_add_left _ _
  · exact le_add_left _ _
  · exact le_rfl

theorem workAt_nextChunk (w : World) (id : Nat) :
    w.workAt (w.nextChunk limits id) ≤ 2 * w.left id + 1 := by
  unfold nextChunk
  simp only
  split_ifs
  · exact le_add_left _ _
  · exact workAt_inChunk w id _
  · exact le_add_left _ _
  · exact le_add_left _ _

/-- The bytes that the driver has taken bring the drain nearer to its end, and so does an answer
after which the operation is given up. -/
theorem workAt_afterWrite {id chunkEnd : Nat} (hsound : PointSound limits w (.writing id chunkEnd))
    (written : Option JsNumber) :
    (w.afterWrite limits id chunkEnd written).1.workAt
        (w.afterWrite limits id chunkEnd written).2 < 2 * w.left id ∧
      (w.afterWrite limits id chunkEnd written).1.queue = w.queue ∧
      ∀ other, other ≠ id →
        (w.afterWrite limits id chunkEnd written).1.left other = w.left other := by
  obtain ⟨hless, hend, _, _⟩ := hsound
  have hone : 1 ≤ w.left id := by
    unfold left
    omega
  rcases afterWrite_cases limits w id chunkEnd written hend with
    ⟨result, _, _, _, heq⟩ | ⟨n, hn, hfit, ⟨_, heq⟩ | ⟨_, point, heq, hpoint⟩⟩
  · rw [heq]
    exact ⟨by change 1 < _; omega, rfl, fun _ _ => rfl⟩
  · rw [heq]
    exact ⟨by change 1 < _; omega, rfl, fun _ _ => rfl⟩
  · have hleft : (w.took id n true).left id + n = w.left id := by
      simp only [left, took, if_true, update_self]
      omega
    have hwork : (w.took id n true).workAt point ≤ 2 * (w.took id n true).left id + 1 := by
      rcases hpoint with ⟨_, rfl⟩ | ⟨_, rfl⟩ | ⟨_, rfl⟩
      · exact le_add_left _ _
      · exact workAt_inChunk _ _ _
      · exact workAt_nextChunk _ _
    rw [heq]
    refine ⟨?_, rfl, fun other hother => ?_⟩
    · change (w.took id n true).workAt point < _
      omega
    · simp [left, took, hother]

theorem settle_left (w : World) (clamp : Int → Int) (id : Nat) (result : SerialSendResult) :
    (w.settle clamp id result).queue = w.queue ∧ (w.settle clamp id result).left = w.left := by
  unfold settle
  simp only
  split_ifs
  · exact ⟨rfl, rfl⟩
  · refine ⟨rfl, ?_⟩
    funext other
    by_cases hother : other = id
    · subst hother
      simp [left]
    · simp [left, hother]

theorem Inv.work_decreases {point : DrainPoint} (h : Inv limits w) (hdrains : w.drains = [point])
    (answer : World.Answer) :
    (stepWith limits unclamped w (.resume 0 answer)).work < w.work := by
  obtain ⟨point', hone, _, hactive, hsound⟩ := h.one_drain.resolve_left (by
    rw [hdrains]
    simp)
  obtain rfl : point = point' := head_eq_of_cons_eq (hdrains.symm.trans hone)
  -- an answer after which the drain is nearer to its end and the queue is as before
  have hnearer : ∀ (w' : World) (next : DrainPoint), w'.drains = [next] → w'.queue = w.queue →
      (∀ other, other ≠ point.operation → w'.left other = w.left other) →
      w'.workAt next < w.workAt point → w'.work < w.work := by
    intro w' next hnext hqueue hleft hless
    have hsame : (w'.queue.map fun id => 2 * w'.left id + 3) =
        w.queue.map fun id => 2 * w.left id + 3 := by
      rw [hqueue]
      apply map_congr_left
      intro other hother
      rw [hleft other fun heq => h.books.not_queued hactive (heq ▸ hother)]
    simp only [World.work, hnext, hdrains, hsame, map_cons, map_nil, sum_cons, sum_nil]
    omega
  rw [step_resume w hdrains, if_pos rfl]
  cases point with
  | authorizing id =>
    unfold World.resume
    simp only
    split_ifs
    · exact hnearer _ (.starting id) rfl rfl (fun _ _ => rfl) (lt_succ_self _)
    · exact hnearer _ _ rfl rfl (fun _ _ => rfl) (by change 1 < 2 * w.left id + 3; omega)
  | starting id =>
    unfold World.resume
    simp only
    split_ifs
    · exact hnearer _ _ rfl rfl (fun _ _ => rfl) (by change 1 < 2 * w.left id + 2; omega)
    · exact hnearer _ _ rfl rfl (fun _ _ => rfl) (lt_succ_of_le (workAt_nextChunk w id))
  | sending id chunkEnd =>
    obtain ⟨hless, hend, _, _⟩ := hsound
    have hone : 1 ≤ w.left id := by
      unfold World.left
      omega
    unfold World.resume
    simp only
    split_ifs
    · exact hnearer _ (.writing id chunkEnd) rfl rfl (fun _ _ => rfl) (lt_succ_self _)
    · exact hnearer _ _ rfl rfl (fun _ _ => rfl) (by change 1 < 2 * w.left id + 1; omega)
  | writing id chunkEnd =>
    obtain ⟨hless, hqueue, hleft⟩ := workAt_afterWrite hsound answer.written
    exact hnearer _ _ rfl hqueue hleft hless
  | returned id result =>
    obtain ⟨hqueue, hleft⟩ := settle_left w unclamped id result
    have hnext : ∀ w' : World, w'.queue = w.queue → w'.left = w.left →
        World.work { (World.nextOperation w' w'.queue).1 with
          drains := (World.nextOperation w' w'.queue).2.toList } < w.work := by
      intro w' hqueue' hleft'
      have hle := work_nextOperation w' w'.queue
      simp only [hqueue', hleft'] at hle
      simp only [World.work, hdrains, map_cons, map_nil, sum_cons, sum_nil]
      rw [hqueue']
      exact lt_of_le_of_lt hle (by change _ < 1 + 0 + _; omega)
    simp only [World.resume]
    split_ifs
    · exact hnext { w.settle unclamped id result with activeOperation := none } hqueue hleft
    · exact hnext _ hqueue hleft

theorem step_resume_idle (hdone : w.drains = []) (drain : Nat) (answer : Answer) :
    step limits w (.resume drain answer) = w := by
  simp [step, stepWith, hdone]

/-- With as many answers as there is work for, the drain comes to its end. -/
theorem Inv.drained {answers : List Answer} (h : Inv limits w) (hwork : w.work ≤ answers.length) :
    (run (step limits) w (answers.map (.resume 0))).drains = [] := by
  induction answers generalizing w with
  | nil =>
    rcases h.one_drain with ⟨hnone, _⟩ | ⟨point, hone, _⟩
    · exact hnone
    · have hless := h.work_decreases hone ⟨true, false, none⟩
      have hzero : w.work = 0 := le_zero.1 hwork
      omega
  | cons answer answers ih =>
    rw [map_cons, run_cons]
    refine ih (h.kept_by_code _) ?_
    rw [length_cons] at hwork
    rcases h.one_drain with ⟨hnone, _, hqueue, _⟩ | ⟨point, hone, _⟩
    · rw [step_resume_idle hnone]
      simp [work, hnone, hqueue]
    · have hless := h.work_decreases hone answer
      rw [h.step_clamp]
      omega

theorem run_resume_same (h : Inv limits w) (answers : List Answer) :
    SameOperations w (run (step limits) w (answers.map (.resume 0))) := by
  induction answers generalizing w with
  | nil => exact .refl w
  | cons answer answers ih =>
    rw [map_cons, run_cons]
    refine SameOperations.trans ?_ (ih (h.kept_by_code _))
    simp only [step, stepWith]
    split
    · exact .refl w
    · rename_i point _
      obtain ⟨horder, hnext, hpayload⟩ := resume_same limits w (max 0) answer point
      exact ⟨horder, hnext, hpayload⟩

/-- When no drain is under way each promise has been resolved. -/
theorem Inv.all_resolved (h : Inv limits w) (hdone : w.drains = []) {id : Nat}
    (hid : id < w.nextPromise) : w.resolved.countP (·.promise = id) = 1 := by
  have hsettled : w.settledOf id = true := by
    by_contra hopen
    have hopen' : w.settledOf id = false := by simpa using hopen
    have hmem : id ∈ w.unsettled := by
      refine mem_filter.2 ⟨h.books.mem_of_open hopen', ?_⟩
      have hclosed : (w.operations id).settled = false := hopen'
      simp [hclosed]
    rw [(h.idle hdone).2.2] at hmem
    exact not_mem_nil hmem
  rw [h.books.resolved_once, if_pos ⟨hid, hsettled⟩]

/-! ## Delivery -/

/-- In every run the driver gets prefixes of the payloads one after the other, in the order of
the calls of `enqueue`, with one write in flight at most. No promise is resolved twice, and each
is resolved when the drain has had its answers. A promise is told what the driver had accepted
by then, which only a driver call that a shutdown has given up on can exceed. -/
theorem delivery_in_every_run (limits : SerialWriteSchedulerLimits) (events : List Event) :
    let w := run (step limits) new events
    w.wireBytes = (w.order.flatMap fun id =>
      ((enqueued events)[id]?.getD []).take (w.accepted id)) ∧
    w.order.Pairwise (· < ·) ∧
    (∀ id ∈ w.order, w.accepted id ≤ ((enqueued events)[id]?.getD []).length) ∧
    (w.drains.filter DrainPoint.isWriting).length ≤ 1 ∧
    (∀ id, w.resolved.countP (·.promise = id) ≤ 1) ∧
    (∀ answers : List Answer, w.work ≤ answers.length → ∀ id < (enqueued events).length,
      (run (step limits) w (answers.map (.resume 0))).resolved.countP (·.promise = id) = 1) ∧
    ∀ call ∈ w.resolved, call.result.sentBytes = call.accepted ∧
      call.accepted ≤ w.accepted call.promise ∧
      w.accepted call.promise ≤ call.accepted + limits.chunkBytes ∧
      (call.promise ∉ w.cutOff → w.accepted call.promise = call.accepted) := by
  intro w
  have h : Inv limits w := inv_run limits events
  have hrecorded : Recorded (enqueued events) w := recorded_run limits events
  have hpayload : ∀ id ∈ w.order, (enqueued events)[id]?.getD [] = (w.operations id).payload := by
    intro id hid
    rw [hrecorded.payload id hid, Option.getD_some]
  refine ⟨?_, h.books.order_sorted, ?_, ?_, ?_, ?_, ?_⟩
  · rw [h.books.wire_order]
    apply flatMap_congr
    intro id hid
    rw [hpayload id hid]
  · intro id hid
    rw [hpayload id hid]
    exact h.books.accepted_le id
  · refine (length_filter_le _ _).trans ?_
    rcases h.one_drain with ⟨hnone, _⟩ | ⟨point, hone, _⟩
    · rw [hnone]
      exact zero_le _
    · rw [hone]
      exact le_rfl
  · intro id
    rw [h.books.resolved_once]
    split_ifs
    · exact le_rfl
    · exact zero_le _
  · intro answers hanswers id hid
    have hfinal : Inv limits (run (step limits) w (answers.map (.resume 0))) :=
      run_invariant (fun _ e hinv => hinv.kept_by_code e) h _
    refine hfinal.all_resolved (h.drained hanswers) ?_
    rw [(run_resume_same h answers).nextPromise, hrecorded.count]
    exact hid
  · intro call hcall
    obtain ⟨hsent, hthen⟩ := h.books.resolved_sent call hcall
    have hsame : call.accepted = (w.operations call.promise).sentBytes := hthen.trans hsent
    refine ⟨hthen.symm, ?_, ?_, fun hcut => ?_⟩
    · rw [hsame]
      exact h.books.sent_le _
    · rw [hsame]
      exact h.books.accepted_near _
    · rw [hsame]
      exact h.books.exact _ hcut

/-- A byte that the driver accepts after the grace time of a shutdown is not reported. -/
theorem late_byte_not_reported :
    let w := run (step DEFAULT_SERIAL_WRITE_LIMITS) new
      [.enqueue [7] true, .resume 0 ⟨true, false, none⟩, .resume 0 ⟨true, false, none⟩,
        .resume 0 ⟨true, false, none⟩, .shutdown, .graceOver 0, .endShutdown 0,
        .resume 0 ⟨true, false, some (.finite 1)⟩]
    w.wireBytes = [7] ∧ w.resolved.map (fun call => (call.promise, call.result.sentBytes)) =
      [(0, 0)] := by
  decide +kernel

end bbcom.serial_write
