-- What epochs that are over can still do to the current one: nothing. Two engines that agree
-- from an epoch on agree after any event but the steps of older epochs, and those leave the
-- later epochs as they are.
import Bbcom.WriteEpochOrder

open bbcom.js bbcom.contracts

namespace bbcom.write_epoch

open List Engine

/-! ## Isolation -/

/-- Two engines that agree in everything an epoch from `m` on can see. -/
structure SameFrom (m : Nat) (e r : Engine) : Prop where
  active : r.active = e.active
  epoch_kept : r.writeEpoch = e.writeEpoch
  number : r.writeEpochNumber = e.writeEpochNumber
  epochs : ∀ k, m ≤ k → r.epochs k = e.epochs k

namespace SameFrom

variable {m : Nat} {e r : Engine}

theorem refl (m : Nat) (e : Engine) : SameFrom m e e := ⟨rfl, rfl, rfl, fun _ _ => rfl⟩

theorem trans {t : Engine} (h1 : SameFrom m e r) (h2 : SameFrom m r t) : SameFrom m e t :=
  ⟨h2.active.trans h1.active, h2.epoch_kept.trans h1.epoch_kept, h2.number.trans h1.number,
    fun k hk => (h2.epochs k hk).trans (h1.epochs k hk)⟩

theorem setEpoch (h : SameFrom m e r) (n : Nat) (value : WriteEpoch) :
    SameFrom m (e.setEpoch n value) (r.setEpoch n value) := by
  refine ⟨h.active, h.epoch_kept, h.number, fun k hk => ?_⟩
  by_cases hkn : k = n
  · subst hkn
    rw [setEpoch_same, setEpoch_same]
  · rw [setEpoch_other _ hkn, setEpoch_other _ hkn]
    exact h.epochs k hk

theorem setSaveHealth (h : SameFrom m e r) (health : WorkspaceSaveHealth) :
    SameFrom m (e.setSaveHealth health) (r.setSaveHealth health) :=
  ⟨by rw [setSaveHealth_active, setSaveHealth_active, h.active], h.epoch_kept, h.number, h.epochs⟩

theorem note (h : SameFrom m e r) (entry : Note) : SameFrom m (e.note entry) (r.note entry) :=
  ⟨h.active, h.epoch_kept, h.number, h.epochs⟩

theorem document (h : SameFrom m e r) (active : Option MutableActiveWorkspace) :
    SameFrom m { e with active } { r with active } :=
  ⟨rfl, h.epoch_kept, h.number, h.epochs⟩

variable {n : Nat}

/-- Whatever happens to an older epoch alone cannot be seen. -/
theorem older (hn : n < m) (f : Frame n e r) (hother : e.writeEpoch ≠ some n) : SameFrom m e r :=
  ⟨f.document hother, f.epoch_kept, f.number, fun k hk => f.others k (by omega)⟩

section

variable (h : SameFrom m e r)
include h

theorem isCurrentEpoch (hn : m ≤ n) (workspaceId : String) :
    r.isCurrentEpoch n workspaceId = e.isCurrentEpoch n workspaceId := by
  unfold Engine.isCurrentEpoch
  rw [h.active, h.epoch_kept, h.epochs n hn]

theorem abort (hcurrent : ∀ n, e.writeEpoch = some n → m ≤ n) : SameFrom m e.abort r.abort := by
  unfold Engine.abort
  rw [h.epoch_kept]
  cases hepoch : e.writeEpoch with
  | none => exact h
  | some n =>
    simp only
    rw [h.epochs n (hcurrent n hepoch)]
    exact h.setEpoch n _

theorem finishWrite (hn : m ≤ n) (terminalHealth : Option WorkspaceSaveHealth) :
    SameFrom m (e.finishWrite n terminalHealth) (r.finishWrite n terminalHealth) := by
  unfold Engine.finishWrite
  simp only [h.epochs n hn, Engine.setEpoch_writeEpoch, h.epoch_kept, Engine.setEpoch_same]
  have hcounted := h.setEpoch n { e.epochs n with
    pending := (e.epochs n).pending - 1, inFlight := false }
  split_ifs
  · exact hcounted
  · exact hcounted.setSaveHealth _
  · exact hcounted.setSaveHealth _
  · exact hcounted.setSaveHealth _
  · exact hcounted.setSaveHealth _

theorem executeBatch (ticket : Ticket) (hn : m ≤ ticket.epoch) :
    SameFrom m (e.executeBatch ticket).1 (r.executeBatch ticket).1 := by
  unfold Engine.executeBatch
  rw [h.active]
  cases e.active with
  | none => exact h.finishWrite hn none
  | some active =>
    simp only [h.isCurrentEpoch hn]
    split_ifs
    · exact h.finishWrite hn _
    · exact h.finishWrite hn _
    · simp only [h.epochs _ hn]
      exact ((h.setEpoch _ _).setSaveHealth _).note _

theorem failBatch (ticket : Ticket) (hn : m ≤ ticket.epoch) (error : PortError) :
    SameFrom m (e.failBatch ticket error).1 (r.failBatch ticket error).1 := by
  unfold Engine.failBatch
  rw [h.isCurrentEpoch hn]
  split
  · exact h.finishWrite hn _
  · exact h.finishWrite hn _

theorem afterApply (ticket : Ticket) (hn : m ≤ ticket.epoch) (base : Nat)
    (answer : Except PortError WriteResponse) :
    SameFrom m (e.afterApply ticket base answer).1 (r.afterApply ticket base answer).1 := by
  unfold Engine.afterApply
  cases answer with
  | error error => exact h.failBatch ticket hn error
  | ok response =>
    rw [h.active]
    cases e.active with
    | none => exact h.finishWrite hn none
    | some active =>
      simp only [h.isCurrentEpoch hn]
      split_ifs
      · exact h.finishWrite hn _
      · cases Engine.committedDocument active ticket base response with
        | none => exact h.failBatch ticket hn _
        | some document => exact ((h.document _).finishWrite hn _).note _

theorem executeFlush (hn : m ≤ n) : SameFrom m (e.executeFlush n).1 (r.executeFlush n).1 := by
  unfold Engine.executeFlush
  rw [h.active]
  cases e.active with
  | none => exact h
  | some active =>
    simp only [h.isCurrentEpoch hn, h.epochs n hn]
    split_ifs
    · exact h
    · exact h
    · exact ((h.setEpoch _ _).setSaveHealth _).note _

theorem failFlush (hn : m ≤ n) (error : PortError) :
    SameFrom m (e.failFlush n error).1 (r.failFlush n error).1 := by
  unfold Engine.failFlush
  simp only [h.isCurrentEpoch hn, h.epochs n hn]
  split
  · exact h
  · exact (h.setEpoch _ _).setSaveHealth _

theorem afterFlush (hn : m ≤ n) (target : Nat) (answer : Except PortError FlushResponse) :
    SameFrom m (e.afterFlush n target answer).1 (r.afterFlush n target answer).1 := by
  unfold Engine.afterFlush
  cases answer with
  | error error => exact h.failFlush hn error
  | ok response =>
    rw [h.active]
    cases e.active with
    | none => exact h
    | some active =>
      simp only [h.isCurrentEpoch hn, h.epochs n hn]
      split_ifs
      · exact h
      · cases Engine.applyFlushResponse active target (e.epochs n).pending response with
        | none => exact h.failFlush hn _
        | some document => exact ((h.document _).setEpoch _ _).note _

theorem start (hsound : EpochsSound e) (hn : m ≤ n) : SameFrom m (e.start n).1 (r.start n).1 := by
  unfold Engine.start
  simp only [h.epochs n hn]
  cases hrunning : (e.epochs n).running with
  | some point => exact h
  | none =>
    cases htail : (e.epochs n).tail with
    | nil => exact h
    | cons task tail =>
      cases task with
      | batch ticket =>
        obtain ⟨hepoch, -⟩ := hsound.tickets n ticket (by rw [htail]; exact mem_cons_self)
        exact (h.setEpoch _ _).executeBatch ticket (hepoch ▸ hn)
      | flush => exact (h.setEpoch _ _).executeFlush hn

theorem settle (hsound : EpochsSound e) (hn : m ≤ n) (answer : Engine.Answer) :
    SameFrom m (e.settle n answer).1 (r.settle n answer).1 := by
  unfold Engine.settle
  simp only [h.epochs n hn]
  cases hrunning : (e.epochs n).running with
  | none => exact h
  | some point =>
    cases point with
    | applying ticket base =>
      obtain ⟨hepoch, -⟩ := hsound.awaits n ticket base hrunning
      cases answer with
      | applied answer =>
        exact ((h.setEpoch _ _).note _).afterApply ticket (hepoch ▸ hn) base answer
      | flushed answer => exact h
    | flushing target =>
      cases answer with
      | applied answer => exact h
      | flushed answer => exact ((h.setEpoch _ _).note _).afterFlush hn target answer

theorem commitBatch (hcurrent : ∀ n, e.writeEpoch = some n → m ≤ n)
    (commands : List (MutationBody JsValue JsNumber)) (batchId : Option String) :
    SameFrom m (e.commitBatch commands batchId).1 (r.commitBatch commands batchId).1 := by
  unfold Engine.commitBatch
  rw [h.active, h.epoch_kept]
  cases e.active with
  | none => exact h
  | some active =>
    cases hepoch : e.writeEpoch with
    | none => exact h
    | some n =>
      simp only [h.epochs n (hcurrent n hepoch)]
      split_ifs
      · exact h
      · exact h
      · split
        · exact (h.setEpoch _ _).note _
        · exact h
      · split
        · exact ((h.setEpoch _ _).setSaveHealth _).note _
        · exact h

end

theorem flush (h : SameFrom m e r) (hcurrent : ∀ n, e.writeEpoch = some n → m ≤ n) :
    SameFrom m e.flush.1 r.flush.1 := by
  unfold Engine.flush
  rw [h.active, h.epoch_kept]
  cases e.active with
  | none => exact h
  | some active =>
    cases hepoch : e.writeEpoch with
    | none => exact h
    | some n =>
      simp only [h.epochs n (hcurrent n hepoch)]
      split_ifs
      · exact h
      · exact h.setEpoch _ _

theorem activateHeader (h : SameFrom m e r) (hcurrent : ∀ n, e.writeEpoch = some n → m ≤ n)
    (header : MutableActiveWorkspace) :
    SameFrom m ((e.activateHeader header).getD e) ((r.activateHeader header).getD r) := by
  unfold Engine.activateHeader
  simp only [h.active]
  split
  · exact h
  · have habort := h.abort hcurrent
    have hbegun : SameFrom m (e.beginEpoch header.workspaceId)
        (r.beginEpoch header.workspaceId) := by
      have hset := habort.setEpoch (e.abort.writeEpochNumber + 1)
        { workspaceId := header.workspaceId }
      unfold Engine.beginEpoch
      simp only [habort.number]
      exact ⟨hset.active, rfl, rfl, hset.epochs⟩
    exact ⟨rfl, hbegun.epoch_kept, hbegun.number, hbegun.epochs⟩

theorem removeActive (h : SameFrom m e r) (hcurrent : ∀ n, e.writeEpoch = some n → m ≤ n) :
    SameFrom m e.removeActive r.removeActive := by
  have habort := (h.document none).abort hcurrent
  exact ⟨habort.active, rfl, congrArg (· + 1) h.number, habort.epochs⟩

end SameFrom

/-- Whether an event is a step of an epoch before `m`: the start of a task that waits there, or
the completion or the failure of a call. -/
def Event.isOlder (m : Nat) : Event → Bool
  | .start n => n < m
  | .settle n _ => n < m
  | _ => false

variable {e r : Engine}

theorem Started.frame {n : Nat} (h : Started n e r) : Frame n e r := by
  cases h with
  | idle same => exact same ▸ .refl n e
  | dropped _ _ _ _ f => exact f
  | sent _ _ _ _ _ f => exact f
  | flushSent _ _ _ _ f => exact f

theorem Settled.frame {n : Nat} {answer : Answer} (h : Settled n e answer r) :
    Frame n e r := by
  cases h with
  | idle same => exact same ▸ .refl n e
  | ended _ _ f => exact f
  | applied _ _ _ _ _ _ _ _ _ _ _ _ f => exact f
  | flushed _ _ _ _ _ _ _ _ _ _ f => exact f

theorem number_step (h : EpochsSound e) (event : Event) :
    e.writeEpochNumber ≤ (step e event).writeEpochNumber := by
  cases event with
  | activate header =>
    unfold step activateHeader
    simp only
    split_ifs
    · exact le_refl _
    · have hnumber := (abort_same e).2.1
      simp [beginEpoch, hnumber]
  | remove => exact Nat.le_succ _
  | commitBatch commands batchId =>
    have hs := commitBatch_spec e commands batchId
    change _ ≤ (e.commitBatch commands batchId).1.writeEpochNumber
    cases hs with
    | refused same => rw [same]
    | batch _ _ _ _ _ _ _ _ _ _ _ _ number => rw [number]
    | flush _ _ same => rw [same, setEpoch_number]
  | flush =>
    have hs := flush_spec e
    change _ ≤ e.flush.1.writeEpochNumber
    cases hs with
    | refused same => rw [same]
    | batch _ _ _ _ _ _ _ _ _ _ _ _ number => rw [number]
    | flush _ _ same => rw [same, setEpoch_number]
  | start n => exact (start_spec h n).frame.number.ge
  | settle n answer => exact (settle_spec h n answer).frame.number.ge

variable {m : Nat}

/-- A step that is not of an older epoch is the same step, whatever became of those. -/
theorem sameFrom_step (h : SameFrom m e r) (he : InOrder e) (hm : m ≤ e.writeEpochNumber)
    {event : Event} (hevent : event.isOlder m = false) :
    SameFrom m (step e event) (step r event) := by
  have hcurrent : ∀ n, e.writeEpoch = some n → m ≤ n := fun n hn => (he.number n hn) ▸ hm
  cases event with
  | activate header => exact h.activateHeader hcurrent header
  | remove => exact h.removeActive hcurrent
  | commitBatch commands batchId => exact h.commitBatch hcurrent commands batchId
  | flush => exact h.flush hcurrent
  | start n => exact h.start he.sound (by simpa [Event.isOlder] using hevent)
  | settle n answer => exact h.settle he.sound (by simpa [Event.isOlder] using hevent) answer

/-- A step of an older epoch is no step for what comes from `m` on. -/
theorem sameFrom_older (he : InOrder e) (hm : m ≤ e.writeEpochNumber) {event : Event}
    (hevent : event.isOlder m = true) : SameFrom m e (step e event) := by
  have hother : ∀ n, n < m → e.writeEpoch ≠ some n := by
    intro n hn hcurrent
    have hnumber := he.number n hcurrent
    omega
  cases event with
  | start n =>
    have hn : n < m := by simpa [Event.isOlder] using hevent
    exact .older hn (start_spec he.sound n).frame (hother n hn)
  | settle n answer =>
    have hn : n < m := by simpa [Event.isOlder] using hevent
    exact .older hn (settle_spec he.sound n answer).frame (hother n hn)
  | _ => cases hevent

theorem sameFrom_run (events : List Event) (h : SameFrom m e r) (he : InOrder e)
    (hm : m ≤ e.writeEpochNumber) :
    SameFrom m (runs.run step e events)
      (runs.run step r (events.filter fun event => !event.isOlder m)) := by
  induction events generalizing e r with
  | nil => exact h
  | cons event events ih =>
    have hnext : InOrder (step e event) := inOrder_step he event
    have hnumber : m ≤ (step e event).writeEpochNumber := hm.trans (number_step he.sound event)
    cases hevent : event.isOlder m with
    | true =>
      have hback : SameFrom m (step e event) e := by
        have hstep := sameFrom_older he hm hevent
        exact ⟨hstep.active.symm, hstep.epoch_kept.symm, hstep.number.symm,
          fun k hk => (hstep.epochs k hk).symm⟩
      rw [runs.run_cons, filter_cons_of_neg (by simp [hevent])]
      exact ih (hback.trans h) hnext hnumber
    | false =>
      rw [runs.run_cons, filter_cons_of_pos (by simp [hevent]), runs.run_cons]
      exact ih (sameFrom_step h he hm hevent) hnext hnumber

/-- In every run the batches of an epoch are sent one at a time, in the order of their
submission, with consecutive sequence numbers and the revision that the epoch has last heard
of; and whatever older epochs still do, the epoch that is current and all later ones come out
the same without it. -/
theorem epochs_ordered_and_isolated (events : List Event) :
    let e := runs.run step .new events
    (∀ n, (sentOf n e.notes).map Prod.fst <+: submittedOf n e.notes ∧
      (∃ count, sequencesOf ((sentOf n e.notes).map Prod.fst) = range count) ∧
      sequencesOf (submittedOf n e.notes) = range (e.epochs n).sequence ∧
      e.notes.countP (Note.isCall n) = e.notes.countP (Note.isEnd n) +
        if (e.epochs n).running.isSome then 1 else 0) ∧
    BasesKnown e.notes ∧
    ∀ m, e.writeEpoch = some m → ∀ later,
      SameFrom m (runs.run step e later)
        (runs.run step e (later.filter fun event => !event.isOlder m)) := by
  intro e
  have h : InOrder e := inOrder_run events
  refine ⟨fun n => ?_, h.bases, fun m hcurrent later => ?_⟩
  · obtain ⟨dropped, hsplit, -⟩ := (h.books n).order
    refine ⟨⟨_, hsplit.symm⟩, ?_, (h.books n).sequences, (h.books n).calls⟩
    have hsequences := (h.books n).sequences
    rw [hsplit, sequencesOf_append] at hsequences
    have htake := congrArg
      (take (sequencesOf ((sentOf n e.notes).map Prod.fst)).length) hsequences
    rw [take_left, take_range] at htake
    exact ⟨_, htake⟩
  · exact sameFrom_run later (.refl m e) h (h.number m hcurrent).le

end bbcom.write_epoch
