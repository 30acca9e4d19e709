-- What a step of a write epoch can do. It drops what is next on the tail of its epoch, or
-- sends it, or ends the call under way; a submission goes to the end of the tail; everything
-- else stays.
import Bbcom.WorkspaceWriteEpoch

open bbcom.js bbcom.contracts

namespace bbcom.write_epoch

open Engine Option

/-! ## What a step of an epoch can do -/

/-- A step of one epoch leaves the others, and the document where the epoch is not current. -/
structure Frame (epoch : Nat) (e r : Engine) : Prop where
  epoch_kept : r.writeEpoch = e.writeEpoch
  number : r.writeEpochNumber = e.writeEpochNumber
  others : ∀ other, other ≠ epoch → r.epochs other = e.epochs other
  workspace_id : (r.epochs epoch).workspaceId = (e.epochs epoch).workspaceId
  aborted : (r.epochs epoch).aborted = (e.epochs epoch).aborted
  sequence : (r.epochs epoch).sequence = (e.epochs epoch).sequence
  document : e.writeEpoch ≠ some epoch → r.active = e.active

theorem Frame.refl (epoch : Nat) (e : Engine) : Frame epoch e e :=
  ⟨rfl, rfl, fun _ _ => rfl, rfl, rfl, rfl, fun _ => rfl⟩

variable {e : Engine} {epoch : Nat} {answer : Answer} {point : AwaitPoint} {ticket : Ticket}
  {active document : MutableActiveWorkspace}

theorem Frame.trans {r t : Engine} (h1 : Frame epoch e r) (h2 : Frame epoch r t) :
    Frame epoch e t where
  epoch_kept := h2.epoch_kept.trans h1.epoch_kept
  number := h2.number.trans h1.number
  others other hother := (h2.others other hother).trans (h1.others other hother)
  workspace_id := h2.workspace_id.trans h1.workspace_id
  aborted := h2.aborted.trans h1.aborted
  sequence := h2.sequence.trans h1.sequence
  document hother := (h2.document (by rwa [h1.epoch_kept])).trans (h1.document hother)

/-- The document is the same, but for its save health. -/
def SameButHealth (e r : Engine) : Prop :=
  ∃ health, r.active = e.active.map fun active => { active with saveHealth := health }

namespace Engine

variable (e : Engine) (n : Nat) (value : WriteEpoch)

@[simp] theorem setEpoch_same :
    (e.setEpoch n value).epochs n = value := Function.update_self ..

theorem setEpoch_other {n k : Nat} (h : k ≠ n) (value : WriteEpoch) :
    (e.setEpoch n value).epochs k = e.epochs k := Function.update_of_ne h ..

@[simp] theorem setEpoch_writeEpoch :
    (e.setEpoch n value).writeEpoch = e.writeEpoch := rfl

@[simp] theorem setEpoch_number :
    (e.setEpoch n value).writeEpochNumber = e.writeEpochNumber := rfl

@[simp] theorem setEpoch_active :
    (e.setEpoch n value).active = e.active := rfl

@[simp] theorem setEpoch_notes :
    (e.setEpoch n value).notes = e.notes := rfl

@[simp] theorem setSaveHealth_epochs (health : WorkspaceSaveHealth) :
    (e.setSaveHealth health).epochs = e.epochs := rfl

@[simp] theorem setSaveHealth_writeEpoch (health : WorkspaceSaveHealth) :
    (e.setSaveHealth health).writeEpoch = e.writeEpoch := rfl

@[simp] theorem setSaveHealth_number (health : WorkspaceSaveHealth) :
    (e.setSaveHealth health).writeEpochNumber = e.writeEpochNumber := rfl

@[simp] theorem setSaveHealth_active (health : WorkspaceSaveHealth) :
    (e.setSaveHealth health).active =
      e.active.map fun active => { active with saveHealth := health } := rfl

@[simp] theorem setSaveHealth_notes (health : WorkspaceSaveHealth) :
    (e.setSaveHealth health).notes = e.notes := rfl

variable (entry : Note)

@[simp] theorem note_epochs : (e.note entry).epochs = e.epochs := rfl

@[simp] theorem note_writeEpoch : (e.note entry).writeEpoch = e.writeEpoch := rfl

@[simp] theorem note_number :
    (e.note entry).writeEpochNumber = e.writeEpochNumber := rfl

@[simp] theorem note_active : (e.note entry).active = e.active := rfl

@[simp] theorem note_notes : (e.note entry).notes = e.notes ++ [entry] := rfl

theorem isCurrentEpoch_iff {workspaceId : String} :
    e.isCurrentEpoch epoch workspaceId = true ↔ e.writeEpoch = some epoch ∧
      (∃ active, e.active = some active ∧ active.workspaceId = workspaceId) ∧
      (e.epochs epoch).aborted = false := by
  simp only [isCurrentEpoch, Bool.and_eq_true, decide_eq_true_eq, Bool.not_eq_true',
    any_eq_true, and_assoc]

/-- The counters of an epoch at the end of a write. -/
def countFinished (epoch : Nat) : Engine :=
  e.setEpoch epoch { e.epochs epoch with
    pending := (e.epochs epoch).pending - 1, inFlight := false }

theorem finishWrite_other (h : e.writeEpoch ≠ some epoch)
    (terminalHealth : Option WorkspaceSaveHealth) :
    e.finishWrite epoch terminalHealth = e.countFinished epoch := by
  unfold finishWrite
  simp [h, countFinished]

theorem finishWrite_current (h : e.writeEpoch = some epoch)
    (terminalHealth : Option WorkspaceSaveHealth) :
    ∃ health, e.finishWrite epoch terminalHealth = (e.countFinished epoch).setSaveHealth health ∧
      (terminalHealth = some .readOnly → health = .readOnly) := by
  unfold finishWrite
  simp only [setEpoch_writeEpoch, h, ne_eq, not_true_eq_false, if_false]
  split_ifs with hreadOnly
  · exact ⟨_, rfl, fun _ => rfl⟩
  · exact ⟨_, rfl, fun h => absurd h hreadOnly⟩
  · exact ⟨_, rfl, fun h => absurd h hreadOnly⟩
  · exact ⟨_, rfl, fun h => absurd h hreadOnly⟩

end Engine

/-- What the epochs, their tickets and the document say of one another. -/
structure EpochsSound (e : Engine) : Prop where
  current : ∀ n, e.writeEpoch = some n → (e.epochs n).aborted = false ∧
    ∃ active, e.active = some active ∧ active.workspaceId = (e.epochs n).workspaceId
  tickets : ∀ n ticket, .batch ticket ∈ (e.epochs n).tail →
    ticket.epoch = n ∧ ticket.workspaceId = (e.epochs n).workspaceId
  awaits : ∀ n ticket base, (e.epochs n).running = some (.applying ticket base) →
    ticket.epoch = n ∧ ticket.workspaceId = (e.epochs n).workspaceId

variable {n : Nat}

/-- Where the epoch is current, the check of the code says so. -/
theorem EpochsSound.isCurrent (h : EpochsSound e) :
    e.isCurrentEpoch n (e.epochs n).workspaceId = true ↔ e.writeEpoch = some n := by
  rw [isCurrentEpoch_iff]
  constructor
  · exact fun hcurrent => hcurrent.1
  · intro hcurrent
    obtain ⟨haborted, hactive⟩ := h.current n hcurrent
    exact ⟨hcurrent, hactive, haborted⟩

/-- What a step that starts what is next on the tail of an epoch has done. -/
inductive Started (n : Nat) (e r : Engine) : Prop
  | idle (same : r = e)
  | dropped (task : Task) (tail : List Task) (next : (e.epochs n).tail = task :: tail)
      (free : (e.epochs n).running = none) (frame : Frame n e r)
      (rest : (r.epochs n).tail = tail) (quiet : (r.epochs n).running = none)
      (notes : r.notes = e.notes) (document : SameButHealth e r)
      (closed : e.writeEpoch ≠ some n ∨ e.isReadOnly = true ∧ r.isReadOnly = true)
  | sent (ticket : Ticket) (tail : List Task) (active : MutableActiveWorkspace)
      (next : (e.epochs n).tail = .batch ticket :: tail) (free : (e.epochs n).running = none)
      (frame : Frame n e r) (current : e.writeEpoch = some n) (before : e.active = some active)
      (writable : active.saveHealth ≠ .readOnly)
      (document : r.active = some { active with saveHealth := .saving })
      (rest : (r.epochs n).tail = tail)
      (waits : (r.epochs n).running = some (.applying ticket active.revision))
      (notes : r.notes = e.notes ++ [.sent ticket active.revision])
  | flushSent (tail : List Task) (active : MutableActiveWorkspace)
      (next : (e.epochs n).tail = .flush :: tail) (free : (e.epochs n).running = none)
      (frame : Frame n e r) (current : e.writeEpoch = some n) (before : e.active = some active)
      (writable : active.saveHealth ≠ .readOnly)
      (document : r.active = some { active with saveHealth := .saving })
      (rest : (r.epochs n).tail = tail)
      (waits : (r.epochs n).running = some (.flushing active.revision))
      (notes : r.notes = e.notes ++ [.flushSent n active.revision])

theorem SameButHealth.refl (e : Engine) (active : Option MutableActiveWorkspace)
    (h : e.active = active) (r : Engine) (hr : r.active = active) : SameButHealth e r := by
  cases active with
  | none => exact ⟨.clean, by rw [h, hr]; rfl⟩
  | some active => exact ⟨active.saveHealth, by rw [h, hr]; rfl⟩

namespace Engine

variable {e : Engine}

/-- The end of a write leaves everything but the counters of its epoch and the save health. -/
theorem finishWrite_frame (e : Engine) (n : Nat) (terminalHealth : Option WorkspaceSaveHealth) :
    Frame n e (e.finishWrite n terminalHealth) ∧
      SameButHealth e (e.finishWrite n terminalHealth) ∧
      (e.finishWrite n terminalHealth).notes = e.notes ∧
      ((e.finishWrite n terminalHealth).epochs n).tail = (e.epochs n).tail ∧
      ((e.finishWrite n terminalHealth).epochs n).running = (e.epochs n).running := by
  by_cases hcurrent : e.writeEpoch = some n
  · obtain ⟨health, heq, -⟩ := e.finishWrite_current hcurrent terminalHealth
    rw [heq]
    refine ⟨⟨rfl, rfl, ?_, ?_, ?_, ?_, ?_⟩, ⟨health, rfl⟩, rfl, ?_, ?_⟩
    · exact fun other hother => e.setEpoch_other hother _
    all_goals simp [countFinished, hcurrent]
  · rw [e.finishWrite_other hcurrent]
    refine ⟨⟨rfl, rfl, ?_, ?_, ?_, ?_, ?_⟩, .refl e _ rfl _ rfl, rfl, ?_, ?_⟩
    · exact fun other hother => e.setEpoch_other hother _
    all_goals simp [countFinished]

theorem finishWrite_readOnly (hactive : e.isReadOnly = true) (n : Nat) :
    (e.finishWrite n (some .readOnly)).isReadOnly = true := by
  by_cases hcurrent : e.writeEpoch = some n
  · obtain ⟨health, heq, hhealth⟩ := e.finishWrite_current hcurrent (some .readOnly)
    rw [heq, hhealth rfl]
    unfold isReadOnly at hactive ⊢
    cases hdocument : e.active with
    | none => simp [hdocument] at hactive
    | some active => simp [countFinished, hdocument]
  · rw [e.finishWrite_other hcurrent]
    exact hactive

end Engine

/-- Taking the next task off the tail. -/
theorem frame_setEpoch {value : WriteEpoch} (hid : value.workspaceId = (e.epochs n).workspaceId)
    (haborted : value.aborted = (e.epochs n).aborted)
    (hsequence : value.sequence = (e.epochs n).sequence) : Frame n e (e.setEpoch n value) where
  epoch_kept := rfl
  number := rfl
  others other hother := e.setEpoch_other hother _
  workspace_id := by rw [setEpoch_same, hid]
  aborted := by rw [setEpoch_same, haborted]
  sequence := by rw [setEpoch_same, hsequence]
  document _ := rfl

theorem start_next {task : Task} {tail : List Task} (hrunning : (e.epochs n).running = none)
    (htail : (e.epochs n).tail = task :: tail) :
    e.start n = match task with
      | .batch ticket => (e.setEpoch n { e.epochs n with tail }).executeBatch ticket
      | .flush => (e.setEpoch n { e.epochs n with tail }).executeFlush n := by
  unfold start
  simp only [hrunning, htail]
  cases task with
  | batch ticket => rfl
  | flush => rfl

theorem start_idle (h : (e.epochs n).running ≠ none ∨ (e.epochs n).tail = []) :
    (e.start n).1 = e := by
  unfold start
  simp only
  split
  · rename_i hrunning htail
    rcases h with h | h
    · exact absurd hrunning h
    · rw [h] at htail
      cases htail
  · rfl

theorem start_spec (h : EpochsSound e) (n : Nat) : Started n e (e.start n).1 := by
  by_cases hrunning : (e.epochs n).running = none
  swap
  · exact .idle (start_idle (.inl hrunning))
  · cases htail : (e.epochs n).tail with
    | nil => exact .idle (start_idle (.inr htail))
    | cons task tail =>
      rw [start_next hrunning htail]
      -- the engine with the task taken off the tail
      set taken := e.setEpoch n { e.epochs n with tail } with htaken
      have hframe : Frame n e taken := frame_setEpoch rfl rfl rfl
      have hsame : taken.epochs n = { e.epochs n with tail } := setEpoch_same _ _ _
      have hid : (taken.epochs n).workspaceId = (e.epochs n).workspaceId := by rw [hsame]
      have hcurrent : taken.isCurrentEpoch n (e.epochs n).workspaceId = true ↔
          e.writeEpoch = some n := by
        rw [← h.isCurrent, isCurrentEpoch_iff, isCurrentEpoch_iff, hsame]
        exact Iff.rfl
      cases task with
      | batch ticket =>
        obtain ⟨rfl, hworkspace⟩ := h.tickets n ticket (by rw [htail]; exact List.mem_cons_self)
        have hdropped : ∀ health, (e.writeEpoch ≠ some ticket.epoch ∨ e.isReadOnly = true ∧
            (taken.finishWrite ticket.epoch health).isReadOnly = true) →
            Started ticket.epoch e (taken.finishWrite ticket.epoch health) := by
          intro health hover
          obtain ⟨hfinish, hdocument, hnotes, hrest, hquiet⟩ :=
            taken.finishWrite_frame ticket.epoch health
          exact .dropped _ _ htail hrunning (hframe.trans hfinish) (by rw [hrest, hsame])
            (by rw [hquiet, hsame, hrunning]) hnotes hdocument hover
        simp only
        unfold executeBatch
        cases hactive : taken.active with
        | none =>
          refine hdropped none (.inl fun hepoch => ?_)
          obtain ⟨_, active, hsome, -⟩ := h.current _ hepoch
          have hnone : e.active = none := hactive
          rw [hnone] at hsome
          cases hsome
        | some active =>
          simp only
          split_ifs with hstale hreadOnly
          · refine hdropped none (.inl fun hepoch => ?_)
            rw [hworkspace, hcurrent.2 hepoch] at hstale
            cases hstale
          · have hlocked : e.isReadOnly = true := by
              have hsome : e.active = some active := hactive
              simp [isReadOnly, hsome, hreadOnly]
            exact hdropped _ (.inr ⟨hlocked, taken.finishWrite_readOnly hlocked _⟩)
          · have hepoch : e.writeEpoch = some ticket.epoch := by
              rw [hworkspace] at hstale
              exact hcurrent.1 (by simpa using hstale)
            refine .sent ticket tail active htail hrunning
              (hframe.trans ⟨rfl, rfl, ?_, ?_, ?_, ?_, ?_⟩)
              hepoch hactive hreadOnly ?_ ?_ ?_ rfl
            · exact fun other hother => taken.setEpoch_other hother _
            all_goals simp [htaken, show e.active = some active from hactive, hepoch]
      | flush =>
        simp only
        unfold executeFlush
        have hdropped : (e.writeEpoch ≠ some n ∨ e.isReadOnly = true ∧ taken.isReadOnly = true) →
            Started n e taken := fun hover =>
          .dropped _ _ htail hrunning hframe (by rw [hsame]) (by rw [hsame, hrunning]) rfl
            (.refl e _ rfl taken rfl) hover
        cases hactive : taken.active with
        | none =>
          refine hdropped (.inl fun hepoch => ?_)
          obtain ⟨_, active, hsome, -⟩ := h.current _ hepoch
          have hnone : e.active = none := hactive
          rw [hnone] at hsome
          cases hsome
        | some active =>
          simp only
          rw [hid]
          split_ifs with hstale hreadOnly
          · refine hdropped (.inl fun hepoch => ?_)
            rw [hcurrent.2 hepoch] at hstale
            cases hstale
          · have hlocked : e.isReadOnly = true := by
              have hsome : e.active = some active := hactive
              simp [isReadOnly, hsome, hreadOnly]
            exact hdropped (.inr ⟨hlocked, hlocked⟩)
          · have hepoch : e.writeEpoch = some n := hcurrent.1 (by simpa using hstale)
            refine .flushSent tail active htail hrunning
              (hframe.trans ⟨rfl, rfl, ?_, ?_, ?_, ?_, ?_⟩)
              hepoch hactive hreadOnly ?_ ?_ ?_ rfl
            · exact fun other hother => taken.setEpoch_other hother _
            all_goals simp [htaken, show e.active = some active from hactive, hepoch]

/-- What the end of the await of an epoch has done. -/
inductive Settled (n : Nat) (e : Engine) (answer : Answer) (r : Engine) : Prop
  | idle (same : r = e)
  | ended (point : AwaitPoint) (busy : (e.epochs n).running = some point) (frame : Frame n e r)
      (rest : (r.epochs n).tail = (e.epochs n).tail) (quiet : (r.epochs n).running = none)
      (notes : r.notes = e.notes ++ [.settled n]) (document : SameButHealth e r)
  | applied (ticket : Ticket) (base : Nat) (response : WriteResponse)
      (active document : MutableActiveWorkspace) (health : WorkspaceSaveHealth)
      (busy : (e.epochs n).running = some (.applying ticket base))
      (answered : answer = .applied (.ok response)) (current : e.writeEpoch = some n)
      (before : e.active = some active)
      (committed : committedDocument active ticket base response = some document)
      (after : r.active = some { document with saveHealth := health }) (frame : Frame n e r)
      (rest : (r.epochs n).tail = (e.epochs n).tail) (quiet : (r.epochs n).running = none)
      (notes : r.notes = e.notes ++ [.settled n, .committed n document.revision])
  | flushed (target : Nat) (response : FlushResponse) (active document : MutableActiveWorkspace)
      (busy : (e.epochs n).running = some (.flushing target))
      (answered : answer = .flushed (.ok response)) (current : e.writeEpoch = some n)
      (before : e.active = some active)
      (taken : applyFlushResponse active target (e.epochs n).pending response =
        some document)
      (after : r.active = some document) (frame : Frame n e r)
      (rest : (r.epochs n).tail = (e.epochs n).tail) (quiet : (r.epochs n).running = none)
      (notes : r.notes = e.notes ++ [.settled n, .committed n document.revision])

/-- The engine as the continuation of an await finds it. -/
def awoken (e : Engine) (n : Nat) : Engine :=
  (e.setEpoch n { e.epochs n with running := none }).note (.settled n)

theorem awoken_frame (e : Engine) (n : Nat) : Frame n e (awoken e n) :=
  have h : Frame n e (e.setEpoch n { e.epochs n with running := none }) :=
    frame_setEpoch rfl rfl rfl
  { h with }

@[simp] theorem awoken_epoch (e : Engine) (n : Nat) :
    (awoken e n).epochs n = { e.epochs n with running := none } := setEpoch_same _ _ _

theorem awoken_current (h : EpochsSound e) :
    (awoken e n).isCurrentEpoch n (e.epochs n).workspaceId = true ↔ e.writeEpoch = some n := by
  rw [← h.isCurrent, isCurrentEpoch_iff, isCurrentEpoch_iff, awoken_epoch]
  exact Iff.rfl

theorem ended_of_finish (hrunning : (e.epochs n).running = some point)
    (health : Option WorkspaceSaveHealth) :
    Settled n e answer ((awoken e n).finishWrite n health) := by
  obtain ⟨hfinish, hdocument, hnotes, hrest, hquiet⟩ := (awoken e n).finishWrite_frame n health
  refine .ended point hrunning ((awoken_frame e n).trans hfinish) ?_ ?_ hnotes hdocument
  · rw [hrest, awoken_epoch]
  · rw [hquiet, awoken_epoch]

theorem failBatch_spec (hrunning : (e.epochs ticket.epoch).running = some point)
    (error : PortError) :
    Settled ticket.epoch e answer ((awoken e ticket.epoch).failBatch ticket error).1 := by
  unfold failBatch
  split_ifs with hstale
  · exact ended_of_finish hrunning _
  · exact ended_of_finish hrunning _

variable {base : Nat}

theorem afterApply_spec (h : EpochsSound e)
    (hrunning : (e.epochs ticket.epoch).running = some (.applying ticket base))
    (answer : Except PortError WriteResponse) :
    Settled ticket.epoch e (.applied answer)
      ((awoken e ticket.epoch).afterApply ticket base answer).1 := by
  have hworkspace := (h.awaits _ _ _ hrunning).2
  cases answer with
  | error error => exact failBatch_spec hrunning error
  | ok response =>
    unfold afterApply
    cases hactive : (awoken e ticket.epoch).active with
    | none => exact ended_of_finish hrunning _
    | some active =>
      simp only
      split_ifs with hstale
      · exact ended_of_finish hrunning _
      · have hepoch : e.writeEpoch = some ticket.epoch := by
          rw [hworkspace] at hstale
          exact (awoken_current h).1 (by simpa using hstale)
        cases hcommitted : committedDocument active ticket base response with
        | none => exact failBatch_spec hrunning _
        | some document =>
          have hcurrent : { awoken e ticket.epoch with active := some document }.writeEpoch =
            some ticket.epoch := hepoch
          obtain ⟨health, heq, -⟩ := finishWrite_current _ hcurrent (some .clean)
          simp only [heq]
          refine .applied ticket base response active document health hrunning rfl hepoch hactive
            hcommitted rfl ⟨rfl, rfl, ?_, ?_, ?_, ?_, ?_⟩ ?_ ?_ ?_
          · intro other hother
            have hfirst := (awoken_frame e ticket.epoch).others other hother
            rw [← hfirst]
            exact setEpoch_other _ hother _
          all_goals simp [countFinished, hepoch, awoken]

theorem failFlush_spec (hrunning : (e.epochs n).running = some point) (error : PortError)
    (h : EpochsSound e) :
    Settled n e answer ((awoken e n).failFlush n error).1 := by
  have hid : ((awoken e n).epochs n).workspaceId = (e.epochs n).workspaceId := by
    rw [awoken_epoch]
  have hended : ∀ health, e.writeEpoch = some n → Settled n e answer
      (((awoken e n).setEpoch n { (awoken e n).epochs n with inFlight := false }).setSaveHealth
        health) := by
    intro health hepoch
    refine .ended point hrunning ⟨rfl, rfl, ?_, ?_, ?_, ?_, ?_⟩ ?_ ?_ rfl ⟨_, rfl⟩
    · intro other hother
      rw [← (awoken_frame e n).others other hother]
      exact setEpoch_other _ hother _
    all_goals simp [hepoch]
  unfold failFlush
  simp only
  by_cases hstale : (!(awoken e n).isCurrentEpoch n ((awoken e n).epochs n).workspaceId) = true
  · rw [if_pos hstale]
    exact .ended point hrunning (awoken_frame e n) (by rw [awoken_epoch]) (by rw [awoken_epoch])
      rfl (.refl e _ rfl _ rfl)
  · rw [if_neg hstale]
    rw [hid] at hstale
    exact hended _ ((awoken_current h).1 (by simpa using hstale))

theorem afterFlush_spec (h : EpochsSound e) {target : Nat}
    (hrunning : (e.epochs n).running = some (.flushing target))
    (answer : Except PortError FlushResponse) :
    Settled n e (.flushed answer) ((awoken e n).afterFlush n target answer).1 := by
  have hid : ((awoken e n).epochs n).workspaceId = (e.epochs n).workspaceId := by
    rw [awoken_epoch]
  have hended : Settled n e (.flushed answer) (awoken e n) :=
    .ended _ hrunning (awoken_frame e n) (by rw [awoken_epoch]) (by rw [awoken_epoch]) rfl
      (.refl e _ rfl _ rfl)
  cases answer with
  | error error => exact failFlush_spec hrunning error h
  | ok response =>
    unfold afterFlush
    cases hactive : (awoken e n).active with
    | none => exact hended
    | some active =>
      simp only [hid]
      split_ifs with hstale
      · exact hended
      · have hepoch : e.writeEpoch = some n := (awoken_current h).1 (by simpa using hstale)
        have hpending : ((awoken e n).epochs n).pending = (e.epochs n).pending := by
          rw [awoken_epoch]
        rw [hpending]
        cases htaken : applyFlushResponse active target (e.epochs n).pending response with
        | none => exact failFlush_spec hrunning _ h
        | some document =>
          refine .flushed target response active document hrunning rfl hepoch hactive htaken rfl
            ⟨rfl, rfl, ?_, ?_, ?_, ?_, ?_⟩ ?_ ?_ ?_
          · intro other hother
            rw [← (awoken_frame e n).others other hother]
            exact setEpoch_other _ hother _
          all_goals simp [hepoch, awoken]

theorem settle_spec (h : EpochsSound e) (n : Nat) (answer : Answer) :
    Settled n e answer (e.settle n answer).1 := by
  unfold settle
  simp only
  split
  · rename_i ticket base answer hrunning
    obtain ⟨rfl, -⟩ := h.awaits _ _ _ hrunning
    exact afterApply_spec h hrunning answer
  · rename_i target answer hrunning
    exact afterFlush_spec h hrunning answer
  · exact .idle rfl

variable {mutations : List SequencedMutation}

theorem createSequencedMutations_sequences {commands : List (MutationBody JsValue JsNumber)}
    {first : Nat} (h : createSequencedMutations commands first = some mutations) :
    mutations.map (·.sequence) = List.range' first mutations.length := by
  induction commands generalizing first mutations with
  | nil =>
    cases h
    rfl
  | cons command commands ih =>
    simp only [createSequencedMutations, bind_eq_bind, bind_eq_some_iff, pure_def, some.injEq] at h
    obtain ⟨mutation, hmutation, rest, hrest, rfl⟩ := h
    unfold createSequencedMutation at hmutation
    split at hmutation
    · cases hmutation
      rw [List.map_cons, ih hrest, List.length_cons, List.range'_succ]
    · cases hmutation

/-- What a submission has done. -/
inductive Submitted (e r : Engine) : Prop
  | refused (same : r = e)
  | batch (n : Nat) (ticket : Ticket) (active : MutableActiveWorkspace)
      (health : WorkspaceSaveHealth) (current : e.writeEpoch = some n)
      (before : e.active = some active) (writable : active.saveHealth ≠ .readOnly)
      (epoch : ticket.epoch = n) (workspace : ticket.workspaceId = active.workspaceId)
      (sequences : ticket.mutations.map (·.sequence) =
        List.range' (e.epochs n).sequence ticket.mutations.length)
      (epochs : ∃ pending, r.epochs = Function.update e.epochs n { e.epochs n with
        sequence := (e.epochs n).sequence + ticket.mutations.length
        pending
        tail := (e.epochs n).tail ++ [.batch ticket] })
      (epoch_kept : r.writeEpoch = e.writeEpoch) (number : r.writeEpochNumber = e.writeEpochNumber)
      (after : r.active = some { active with saveHealth := health })
      (open_after : health ≠ .readOnly) (notes : r.notes = e.notes ++ [.submitted ticket])
  | flush (n : Nat) (current : e.writeEpoch = some n)
      (same : r = e.setEpoch n { e.epochs n with tail := (e.epochs n).tail ++ [.flush] })

theorem commitBatch_spec (e : Engine) (commands : List (MutationBody JsValue JsNumber))
    (batchId : Option String) : Submitted e (e.commitBatch commands batchId).1 := by
  unfold commitBatch
  cases hactive : e.active with
  | none => exact .refused rfl
  | some active =>
    cases hepoch : e.writeEpoch with
    | none => exact .refused rfl
    | some n =>
      simp only
      by_cases hreadOnly : active.saveHealth = .readOnly
      · rw [if_pos hreadOnly]
        exact .refused rfl
      rw [if_neg hreadOnly]
      by_cases hempty : commands = []
      · rw [if_pos hempty]
        exact .refused rfl
      rw [if_neg hempty]
      cases hmutations : createSequencedMutations commands (e.epochs n).sequence with
      | none => exact .refused rfl
      | some mutations =>
        cases hid : batchId.bind validateOpaqueId with
        | none => exact .refused rfl
        | some clientBatchId =>
          have hsequences := createSequencedMutations_sequences hmutations
          simp only
          by_cases hflight : (e.epochs n).inFlight = true
          · rw [if_pos hflight]
            exact .batch n _ active active.saveHealth hepoch hactive hreadOnly rfl rfl
              hsequences ⟨(e.epochs n).pending + 1, rfl⟩ rfl rfl hactive hreadOnly rfl
          · rw [if_neg hflight]
            refine .batch n _ active .pending hepoch hactive hreadOnly rfl rfl
              hsequences ⟨(e.epochs n).pending + 1, rfl⟩ rfl rfl ?_ (by decide) rfl
            simp [hactive]

theorem flush_spec (e : Engine) : Submitted e e.flush.1 := by
  unfold flush
  cases hactive : e.active with
  | none => exact .refused rfl
  | some active =>
    cases hepoch : e.writeEpoch with
    | none => exact .refused rfl
    | some n =>
      simp only
      split_ifs
      · exact .refused rfl
      · exact .flush n hepoch rfl

/-! ## What the answers do to the document -/

theorem applyCommittedDocumentMutation_workspaceId {body : MutationBody JsValue JsNumber}
    (h : applyCommittedDocumentMutation active body = some document) :
    document.workspaceId = active.workspaceId := by
  cases body with
  | setMetadata payload =>
    obtain ⟨name, layout, updatedAtMs⟩ := payload
    cases name <;> cases layout <;>
      simp only [applyCommittedDocumentMutation, pure_def, some.injEq,
        bind_eq_bind, bind_eq_some_iff] at h
    · rw [← h]
    · obtain ⟨_, _, rfl⟩ := h
      rfl
    · rw [← h]
    · obtain ⟨_, _, rfl⟩ := h
      rfl
  | upsertSession sessionId payload =>
    simp only [applyCommittedDocumentMutation, pure_def, some.injEq] at h
    rw [← h]
    split_ifs <;> rfl
  | _ =>
    cases h
    rfl

theorem applyCommittedDocumentMutations_workspaceId
    (h : applyCommittedDocumentMutations active mutations = some document) :
    document.workspaceId = active.workspaceId := by
  induction mutations generalizing active with
  | nil =>
    cases h
    rfl
  | cons mutation mutations ih =>
    simp only [applyCommittedDocumentMutations, bind_eq_bind, bind_eq_some_iff] at h
    obtain ⟨next, hnext, h⟩ := h
    exact (ih h).trans (applyCommittedDocumentMutation_workspaceId hnext)

variable {response : WriteResponse}

/-- A batch is taken in with the revision after its base, and with its mutations. -/
theorem committedDocument_some (h : committedDocument active ticket base response = some document) :
    validateRevision response.committedRevision = some (base + 1) ∧
      response.clientBatchId = ticket.clientBatchId ∧ active.revision < base + 1 ∧
      ∃ applied, applyCommittedDocumentMutations active ticket.mutations = some applied ∧
        document = { applied with revision := base + 1 } := by
  simp only [committedDocument, bind_eq_bind, bind_eq_some_iff] at h
  obtain ⟨revision, hrevision, h⟩ := h
  split_ifs at h with hwrong
  · simp at h
  · simp only [not_or, not_not, not_le] at hwrong
    obtain ⟨hid, rfl, hnewer⟩ := hwrong
    simp only [pure_def, bind_eq_some_iff, some.injEq] at h
    obtain ⟨applied, happlied, rfl⟩ := h
    exact ⟨hrevision, hid, hnewer, applied, happlied, rfl⟩

theorem committedDocument_workspaceId
    (h : committedDocument active ticket base response = some document) :
    document.workspaceId = active.workspaceId := by
  obtain ⟨-, -, -, applied, happlied, rfl⟩ := committedDocument_some h
  have hid := applyCommittedDocumentMutations_workspaceId happlied
  exact hid

/-- A flush is taken in with the revision of the response, and with nothing else. -/
theorem applyFlushResponse_some {target queued : Nat} {response : FlushResponse}
    (h : applyFlushResponse active target queued response = some document) :
    ∃ revision health, validateRevision response.committedRevision = some revision ∧
      target ≤ revision ∧ active.revision ≤ revision ∧
      document = { active with revision, saveHealth := health } := by
  simp only [applyFlushResponse, bind_eq_bind, bind_eq_some_iff] at h
  obtain ⟨revision, hrevision, h⟩ := h
  split_ifs at h with hwrong
  · simp at h
  · simp only [not_or, not_lt] at hwrong
    simp only [pure_def, bind_eq_some_iff, some.injEq] at h
    obtain ⟨health, hhealth, rfl⟩ := h
    exact ⟨revision, _, hrevision, hwrong.1, hwrong.2, rfl⟩

theorem applyFlushResponse_workspaceId {target queued : Nat} {response : FlushResponse}
    (h : applyFlushResponse active target queued response = some document) :
    document.workspaceId = active.workspaceId := by
  obtain ⟨revision, health, -, -, -, rfl⟩ := applyFlushResponse_some h
  rfl

/-! ## The end of an epoch -/

/-- What the abort of the current epoch leaves of each epoch. -/
theorem abort_epoch (e : Engine) (k : Nat) :
    ∃ aborted, e.abort.epochs k = { e.epochs k with aborted } := by
  unfold abort
  cases e.writeEpoch with
  | none => exact ⟨_, rfl⟩
  | some n =>
    by_cases hk : k = n
    · subst hk
      exact ⟨true, e.setEpoch_same _ _⟩
    · exact ⟨_, e.setEpoch_other hk _⟩

theorem abort_same (e : Engine) : e.abort.writeEpoch = e.writeEpoch ∧
    e.abort.writeEpochNumber = e.writeEpochNumber ∧ e.abort.active = e.active ∧
    e.abort.notes = e.notes := by
  unfold abort
  split <;> exact ⟨rfl, rfl, rfl, rfl⟩

end bbcom.write_epoch
