-- The books of the epochs in every run: what was submitted has been sent in this order, or
-- dropped once the epoch was closed, or still waits; and one call at a time.
import Bbcom.WriteEpochSteps

namespace bbcom.write_epoch

open Note Engine List Option

/-! ## The books of an epoch -/

def Note.epoch : Note → Nat
  | .submitted ticket => ticket.epoch
  | .sent ticket _ => ticket.epoch
  | .flushSent n _ => n
  | .settled n => n
  | .committed n _ => n

def Note.ticket? (epoch : Nat) : Note → Option Ticket
  | .submitted ticket => if ticket.epoch = epoch then some ticket else none
  | _ => none

def Note.sent? (epoch : Nat) : Note → Option (Ticket × Nat)
  | .sent ticket baseRevision => if ticket.epoch = epoch then some (ticket, baseRevision) else none
  | _ => none

def Note.isCall (epoch : Nat) : Note → Bool
  | .sent ticket _ => ticket.epoch = epoch
  | .flushSent n _ => n = epoch
  | _ => false

def Note.isEnd (epoch : Nat) : Note → Bool
  | .settled n => n = epoch
  | _ => false

def Note.committed? (epoch : Nat) : Note → Option Nat
  | .committed n revision => if n = epoch then some revision else none
  | _ => none

/-- The tickets of an epoch, in the order of their submission. -/
def submittedOf (epoch : Nat) (notes : List Note) : List Ticket :=
  notes.filterMap (ticket? epoch)

/-- The batches of an epoch that the port was called for, with their base revisions. -/
def sentOf (epoch : Nat) (notes : List Note) : List (Ticket × Nat) :=
  notes.filterMap (sent? epoch)

/-- The last committed revision that an epoch has learned of. -/
def lastCommitted (epoch : Nat) (notes : List Note) : Option Nat :=
  (notes.filterMap (committed? epoch)).getLast?

/-- The sequence numbers of some tickets. -/
def sequencesOf (tickets : List Ticket) : List Nat :=
  tickets.flatMap fun ticket => ticket.mutations.map (·.sequence)

def Task.ticket? : Task → Option Ticket
  | .batch ticket => some ticket
  | .flush => none

/-- Every batch was sent with the revision that its epoch had last heard of. -/
def BasesKnown (notes : List Note) : Prop :=
  ∀ before ticket baseRevision after, notes = before ++ .sent ticket baseRevision :: after →
    lastCommitted ticket.epoch before = some baseRevision

theorem submittedOf_append (epoch : Nat) (before after : List Note) :
    submittedOf epoch (before ++ after) = submittedOf epoch before ++ submittedOf epoch after :=
  filterMap_append

theorem sentOf_append (epoch : Nat) (before after : List Note) :
    sentOf epoch (before ++ after) = sentOf epoch before ++ sentOf epoch after :=
  filterMap_append

theorem lastCommitted_append_other {epoch : Nat} {before after : List Note}
    (h : after.filterMap (committed? epoch) = []) :
    lastCommitted epoch (before ++ after) = lastCommitted epoch before := by
  unfold lastCommitted
  rw [filterMap_append, h, append_nil]

theorem lastCommitted_committed (epoch revision : Nat) (before : List Note) :
    lastCommitted epoch (before ++ [.committed epoch revision]) = some revision := by
  simp [lastCommitted, committed?]

theorem sequencesOf_append (before after : List Ticket) :
    sequencesOf (before ++ after) = sequencesOf before ++ sequencesOf after :=
  flatMap_append

variable {entries : List Note} {n : Nat} {e r : Engine}

variable {notes : List Note}

/-- A note that sends nothing leaves the bases as they are known. -/
theorem BasesKnown.append (h : BasesKnown notes)
    (hentries : ∀ ticket base, sent ticket base ∉ entries) :
    BasesKnown (notes ++ entries) := by
  intro before ticket base after hsplit
  rcases append_eq_append_iff.1 hsplit with ⟨middle, rfl, hrest⟩ | ⟨middle, rfl, hrest⟩
  · exact absurd (hrest ▸ mem_append_right _ mem_cons_self) (hentries ticket base)
  · cases middle with
    | nil =>
      have hmem : sent ticket base ∈ entries := by
        rw [nil_append] at hrest
        exact hrest ▸ mem_cons_self
      exact absurd hmem (hentries ticket base)
    | cons entry middle =>
      obtain ⟨rfl, -⟩ := List.cons.inj hrest
      exact h _ _ _ _ rfl

theorem BasesKnown.sent (h : BasesKnown notes) {ticket : Ticket} {base : Nat}
    (hbase : lastCommitted ticket.epoch notes = some base) :
    BasesKnown (notes ++ [.sent ticket base]) := by
  intro before other otherBase after hsplit
  rcases eq_nil_or_concat after with rfl | ⟨rest, last, rfl⟩
  · obtain ⟨rfl, hlast⟩ := append_inj' hsplit rfl
    cases hlast
    exact hbase
  · rw [concat_eq_append, ← cons_append, ← append_assoc] at hsplit
    exact h _ _ _ _ (append_inj' hsplit rfl).1

/-! ## The books in every run -/

/-- An epoch that sends nothing any more. -/
def Closed (e : Engine) (n : Nat) : Prop := e.writeEpoch ≠ some n ∨ e.isReadOnly = true

/-- The books of one epoch. What was submitted has been sent, or dropped, or waits. -/
structure EpochBooks (e : Engine) (n : Nat) : Prop where
  order : ∃ dropped, submittedOf n e.notes = (sentOf n e.notes).map Prod.fst ++
    (dropped ++ (e.epochs n).tail.filterMap Task.ticket?) ∧ (dropped ≠ [] → Closed e n)
  sequences : sequencesOf (submittedOf n e.notes) = List.range (e.epochs n).sequence
  calls : e.notes.countP (isCall n) = e.notes.countP (isEnd n) +
    if (e.epochs n).running.isSome then 1 else 0
  writable : (e.epochs n).running ≠ none → ¬(e.writeEpoch = some n ∧ e.isReadOnly = true)
  learned : e.writeEpoch = some n →
    ∃ active, e.active = some active ∧ lastCommitted n e.notes = some active.revision

structure InOrder (e : Engine) : Prop where
  sound : EpochsSound e
  number : ∀ n, e.writeEpoch = some n → n = e.writeEpochNumber
  unused : ∀ n, e.writeEpochNumber < n → e.epochs n = {}
  noted : ∀ entry ∈ e.notes, entry.epoch ≤ e.writeEpochNumber
  books : ∀ n, EpochBooks e n
  bases : BasesKnown e.notes

/-- What notes of other epochs mean for the books of an epoch: nothing. -/
theorem books_other (h : ∀ entry ∈ entries, entry.epoch ≠ n) :
    submittedOf n entries = [] ∧ sentOf n entries = [] ∧
      entries.countP (isCall n) = 0 ∧ entries.countP (isEnd n) = 0 ∧
      entries.filterMap (committed? n) = [] := by
  have hnone : ∀ entry ∈ entries, entry.ticket? n = none ∧ entry.sent? n = none ∧
      entry.isCall n = false ∧ entry.isEnd n = false ∧ entry.committed? n = none := by
    intro entry hentry
    have hne : entry.epoch ≠ n := h entry hentry
    cases entry <;>
      simpa [epoch, ticket?, sent?, isCall, isEnd, committed?] using hne
  refine ⟨?_, ?_, ?_, ?_, ?_⟩
  · exact filterMap_eq_nil_iff.2 fun entry hentry => (hnone entry hentry).1
  · exact filterMap_eq_nil_iff.2 fun entry hentry => (hnone entry hentry).2.1
  · exact countP_eq_zero.2 fun entry hentry => by simp [(hnone entry hentry).2.2.1]
  · exact countP_eq_zero.2 fun entry hentry => by simp [(hnone entry hentry).2.2.2.1]
  · exact filterMap_eq_nil_iff.2 fun entry hentry => (hnone entry hentry).2.2.2.2

theorem isReadOnly_congr (h : r.active = e.active) : r.isReadOnly = e.isReadOnly := by
  unfold isReadOnly
  rw [h]

variable {k : Nat}

/-- The books of an epoch that a step is not about. -/
theorem EpochBooks.other (h : EpochBooks e k) (hepoch : r.writeEpoch = e.writeEpoch)
    (hbook : r.epochs k = e.epochs k) (hactive : e.writeEpoch = some k → r.active = e.active)
    (hnotes : r.notes = e.notes ++ entries) (hentries : ∀ entry ∈ entries, entry.epoch ≠ k) :
    EpochBooks r k := by
  obtain ⟨hsubmitted, hsent, hcalls, hends, hcommitted⟩ := books_other hentries
  have hclosed : Closed r k ↔ Closed e k := by
    unfold Closed
    rw [hepoch]
    by_cases hk : e.writeEpoch = some k
    · rw [isReadOnly_congr (hactive hk)]
    · simp [hk]
  refine ⟨?_, ?_, ?_, ?_, ?_⟩
  · obtain ⟨dropped, hsplit, hover⟩ := h.order
    refine ⟨dropped, ?_, fun hne => hclosed.2 (hover hne)⟩
    rw [hnotes, submittedOf_append, sentOf_append, hsubmitted, hsent, append_nil,
      append_nil, hbook, hsplit]
  · rw [hnotes, submittedOf_append, hsubmitted, append_nil, hbook]
    exact h.sequences
  · rw [hnotes, countP_append, countP_append, hcalls, hends, hbook]
    exact h.calls
  · rw [hbook, hepoch]
    intro hrunning hlocked
    rw [isReadOnly_congr (hactive hlocked.1)] at hlocked
    exact h.writable hrunning hlocked
  · rw [hepoch]
    intro hk
    obtain ⟨active, hsome, hlast⟩ := h.learned hk
    exact ⟨active, by rw [hactive hk, hsome],
      by rw [hnotes, lastCommitted_append_other hcommitted, hlast]⟩

/-- A step of one epoch keeps the order where it keeps the books of that epoch. -/
theorem InOrder.frame (h : InOrder e) (hn : n ≤ e.writeEpochNumber) (f : Frame n e r)
    (hdocument : ∀ active, e.active = some active →
      ∃ after, r.active = some after ∧ after.workspaceId = active.workspaceId)
    (htail : ∀ ticket, .batch ticket ∈ (r.epochs n).tail → .batch ticket ∈ (e.epochs n).tail)
    (hrunning : ∀ ticket base, (r.epochs n).running = some (.applying ticket base) →
      .batch ticket ∈ (e.epochs n).tail) (hnotes : r.notes = e.notes ++ entries)
    (hentries : ∀ entry ∈ entries, entry.epoch = n) (hbooks : EpochBooks r n)
    (hbases : BasesKnown r.notes) : InOrder r where
  sound := by
    refine ⟨?_, ?_, ?_⟩
    · intro k hk
      rw [f.epoch_kept] at hk
      obtain ⟨haborted, active, hactive, hid⟩ := h.sound.current k hk
      obtain ⟨after, hafter, hsame⟩ := hdocument active hactive
      by_cases hkn : k = n
      · subst hkn
        exact ⟨f.aborted.trans haborted, after, hafter, by rw [hsame, hid, f.workspace_id]⟩
      · rw [f.others k hkn]
        exact ⟨haborted, after, hafter, hsame.trans hid⟩
    · intro k ticket hmem
      by_cases hkn : k = n
      · subst hkn
        rw [f.workspace_id]
        exact h.sound.tickets k ticket (htail ticket hmem)
      · rw [f.others k hkn] at hmem ⊢
        exact h.sound.tickets k ticket hmem
    · intro k ticket base hwaits
      by_cases hkn : k = n
      · subst hkn
        rw [f.workspace_id]
        exact h.sound.tickets k ticket (hrunning ticket base hwaits)
      · rw [f.others k hkn] at hwaits ⊢
        exact h.sound.awaits k ticket base hwaits
  number k hk := by
    rw [f.epoch_kept] at hk
    rw [f.number]
    exact h.number k hk
  unused k hk := by
    rw [f.number] at hk
    rw [f.others k (by omega)]
    exact h.unused k hk
  noted entry hentry := by
    rw [f.number]
    rw [hnotes, mem_append] at hentry
    rcases hentry with hold | hnew
    · exact h.noted entry hold
    · rw [hentries entry hnew]
      exact hn
  books k := by
    by_cases hkn : k = n
    · exact hkn ▸ hbooks
    · refine (h.books k).other f.epoch_kept (f.others k hkn) ?_ hnotes ?_
      · intro hk
        apply f.document
        rw [hk, Ne, some.injEq]
        exact hkn
      · intro entry hentry
        rw [hentries entry hentry]
        exact Ne.symm hkn
  bases := hbases

theorem SameButHealth.after {e r : Engine} (h : SameButHealth e r) {active : MutableActiveWorkspace}
    (hactive : e.active = some active) : ∃ health, r.active =
      some { active with saveHealth := health } := by
  obtain ⟨health, heq⟩ := h
  exact ⟨health, by rw [heq, hactive]; rfl⟩

theorem InOrder.used (h : InOrder e) (hused : e.epochs n ≠ {}) : n ≤ e.writeEpochNumber := by
  by_contra hn
  exact hused (h.unused n (by omega))

variable {active : MutableActiveWorkspace}

theorem not_closed (hcurrent : e.writeEpoch = some n) (hactive : e.active = some active)
    (hwritable : active.saveHealth ≠ .readOnly) :
    ¬Closed e n := by
  rintro (hother | hlocked)
  · exact hother hcurrent
  · simp [isReadOnly, hactive, hwritable] at hlocked

/-- While its epoch is current and its document writable, nothing was dropped. -/
theorem EpochBooks.all_sent (h : EpochBooks e n) (hcurrent : e.writeEpoch = some n)
    (hactive : e.active = some active) (hwritable : active.saveHealth ≠ .readOnly) :
    submittedOf n e.notes =
      (sentOf n e.notes).map Prod.fst ++ (e.epochs n).tail.filterMap Task.ticket? := by
  obtain ⟨dropped, hsplit, hover⟩ := h.order
  have hnone : dropped = [] := by
    by_contra hne
    exact not_closed hcurrent hactive hwritable (hover hne)
  rwa [hnone, nil_append] at hsplit

/-- A document in the middle of a save is not read-only. -/
theorem saving_open (h : r.active = some { active with saveHealth := .saving }) :
    r.isReadOnly = false := by
  simp [isReadOnly, h]

theorem inOrder_started (h : InOrder e) (hs : Started n e r) : InOrder r := by
  have hb := h.books n
  cases hs with
  | idle same => exact same ▸ h
  | dropped task tail next free f rest quiet notes document closed =>
    have hn := h.used (n := n) fun heq => by simp [heq] at next
    have hclosed : Closed r n := by
      rcases closed with hother | hlocked
      · exact .inl (by rwa [f.epoch_kept])
      · exact .inr hlocked.2
    have hnotes : r.notes = e.notes ++ [] := by rw [notes, append_nil]
    refine h.frame hn f ?_ ?_ ?_ hnotes (by simp) ?_ ?_
    · intro active hactive
      obtain ⟨health, hafter⟩ := document.after hactive
      exact ⟨_, hafter, rfl⟩
    · intro ticket hmem
      rw [rest] at hmem
      rw [next]
      exact mem_cons_of_mem _ hmem
    · intro ticket base hwaits
      rw [quiet] at hwaits
      cases hwaits
    · refine ⟨?_, ?_, ?_, ?_, ?_⟩
      · obtain ⟨dropped, hsplit, -⟩ := hb.order
        refine ⟨dropped ++ [task].filterMap Task.ticket?, ?_, fun _ => hclosed⟩
        rw [notes, hsplit, next, rest, ← singleton_append, filterMap_append, append_assoc]
      · rw [notes, f.sequence]
        exact hb.sequences
      · rw [notes, quiet, hb.calls, free]
      · exact fun hrunning => absurd quiet hrunning
      · intro hcurrent
        rw [f.epoch_kept] at hcurrent
        obtain ⟨active, hactive, hlast⟩ := hb.learned hcurrent
        obtain ⟨health, hafter⟩ := document.after hactive
        exact ⟨_, hafter, by rw [notes]; exact hlast⟩
    · rw [notes]
      exact h.bases
  | sent ticket tail active next free f current before writable document rest waits notes =>
    have hn := h.used (n := n) fun heq => by simp [heq] at next
    have hticket := h.sound.tickets n ticket (by rw [next]; exact mem_cons_self)
    obtain ⟨hepoch, -⟩ := hticket
    have hlast : lastCommitted n e.notes = some active.revision := by
      obtain ⟨learned, hlearned, hlast⟩ := hb.learned current
      rw [before, some.injEq] at hlearned
      rwa [← hlearned] at hlast
    refine h.frame hn f ?_ ?_ ?_ notes ?_ ?_ ?_
    · intro other hother
      rw [before, some.injEq] at hother
      exact ⟨_, document, by rw [hother]⟩
    · intro other hmem
      rw [rest] at hmem
      rw [next]
      exact mem_cons_of_mem _ hmem
    · intro other base hwaits
      rw [waits] at hwaits
      cases hwaits
      rw [next]
      exact mem_cons_self
    · intro entry hentry
      rw [mem_singleton.1 hentry]
      exact hepoch
    · refine ⟨?_, ?_, ?_, ?_, ?_⟩
      · refine ⟨[], ?_, fun hne => absurd rfl hne⟩
        rw [notes, submittedOf_append, sentOf_append, hb.all_sent current before writable, next,
          rest]
        simp [submittedOf, sentOf, ticket?, sent?, hepoch, Task.ticket?]
      · rw [notes, submittedOf_append, f.sequence, ← hb.sequences]
        simp [submittedOf, filterMap_cons, ticket?]
      · rw [notes, waits, countP_append, countP_append, hb.calls, free]
        simp [isCall, isEnd, hepoch]
      · rintro - ⟨-, hlocked⟩
        rw [saving_open document] at hlocked
        cases hlocked
      · intro _
        refine ⟨_, document, ?_⟩
        rw [notes, lastCommitted_append_other (by simp [committed?])]
        exact hlast
    · rw [notes]
      exact h.bases.sent (by rw [hepoch, hlast])
  | flushSent tail active next free f current before writable document rest waits notes =>
    have hn := h.used (n := n) fun heq => by simp [heq] at next
    refine h.frame hn f ?_ ?_ ?_ notes ?_ ?_ ?_
    · intro other hother
      rw [before, some.injEq] at hother
      exact ⟨_, document, by rw [hother]⟩
    · intro other hmem
      rw [rest] at hmem
      rw [next]
      exact mem_cons_of_mem _ hmem
    · intro other base hwaits
      rw [waits] at hwaits
      cases hwaits
    · intro entry hentry
      rw [mem_singleton.1 hentry]
      rfl
    · refine ⟨?_, ?_, ?_, ?_, ?_⟩
      · refine ⟨[], ?_, fun hne => absurd rfl hne⟩
        rw [notes, submittedOf_append, sentOf_append, hb.all_sent current before writable, next,
          rest]
        simp [submittedOf, sentOf, filterMap_cons, ticket?, sent?, Task.ticket?]
      · rw [notes, submittedOf_append, f.sequence, ← hb.sequences]
        simp [submittedOf, filterMap_cons, ticket?]
      · rw [notes, waits, countP_append, countP_append, hb.calls, free]
        simp [isCall, isEnd]
      · rintro - ⟨-, hlocked⟩
        rw [saving_open document] at hlocked
        cases hlocked
      · intro hcurrent
        obtain ⟨learned, hlearned, hlast⟩ := hb.learned current
        rw [before, some.injEq] at hlearned
        refine ⟨_, document, ?_⟩
        rw [notes, lastCommitted_append_other (by simp [committed?]), hlast, hlearned]
    · rw [notes]
      exact h.bases.append (by simp)

theorem inOrder_settled {answer : Engine.Answer} (h : InOrder e) (hs : Settled n e answer r) :
    InOrder r := by
  have hb := h.books n
  -- a call that has ended leaves what was submitted and sent
  have hended : ∀ point entries, (e.epochs n).running = some point → Frame n e r →
      (r.epochs n).tail = (e.epochs n).tail → (r.epochs n).running = none →
      r.notes = e.notes ++ .settled n :: entries →
      (∀ entry ∈ entries, ∃ revision, entry = .committed n revision) →
      (∀ active, e.active = some active →
        ∃ after, r.active = some after ∧ after.workspaceId = active.workspaceId) →
      (e.writeEpoch = some n →
        ∃ active, r.active = some active ∧ lastCommitted n r.notes = some active.revision) →
      InOrder r := by
    intro point entries busy f rest quiet notes hentries hdocument hlearned
    have hn := h.used (n := n) fun heq => by simp [heq] at busy
    have hnothing : submittedOf n entries = [] ∧ sentOf n entries = [] ∧
        entries.countP (isCall n) = 0 ∧ entries.countP (isEnd n) = 0 := by
      refine ⟨?_, ?_, ?_, ?_⟩
      · apply filterMap_eq_nil_iff.2
        intro entry hentry
        obtain ⟨revision, rfl⟩ := hentries entry hentry
        rfl
      · apply filterMap_eq_nil_iff.2
        intro entry hentry
        obtain ⟨revision, rfl⟩ := hentries entry hentry
        rfl
      · apply countP_eq_zero.2
        intro entry hentry
        obtain ⟨revision, rfl⟩ := hentries entry hentry
        simp [isCall]
      · apply countP_eq_zero.2
        intro entry hentry
        obtain ⟨revision, rfl⟩ := hentries entry hentry
        simp [isEnd]
    obtain ⟨hsubmitted, hsent, hcalls, hends⟩ := hnothing
    have hsubmitted' : submittedOf n r.notes = submittedOf n e.notes := by
      rw [notes, submittedOf_append, ← singleton_append, submittedOf_append, hsubmitted]
      simp [submittedOf, ticket?, filterMap_cons]
    have hsent' : sentOf n r.notes = sentOf n e.notes := by
      rw [notes, sentOf_append, ← singleton_append, sentOf_append, hsent]
      simp [sentOf, sent?, filterMap_cons]
    refine h.frame hn f hdocument ?_ ?_ notes ?_ ?_ ?_
    · intro other hmem
      rwa [rest] at hmem
    · intro other base hwaits
      rw [quiet] at hwaits
      cases hwaits
    · intro entry hentry
      rcases mem_cons.1 hentry with rfl | hmem
      · rfl
      · obtain ⟨revision, rfl⟩ := hentries entry hmem
        rfl
    · refine ⟨?_, ?_, ?_, ?_, ?_⟩
      · obtain ⟨dropped, hsplit, hover⟩ := hb.order
        refine ⟨dropped, by rw [hsubmitted', hsent', rest, hsplit], fun hne => ?_⟩
        rcases hover hne with hother | hlocked
        · exact .inl (by rwa [f.epoch_kept])
        · refine .inl fun hcurrent => ?_
          rw [f.epoch_kept] at hcurrent
          exact hb.writable (by simp [busy]) ⟨hcurrent, hlocked⟩
      · rw [hsubmitted', f.sequence]
        exact hb.sequences
      · rw [notes, countP_append, countP_append, countP_cons, countP_cons,
          hcalls, hends, hb.calls, busy, quiet]
        simp [isCall, isEnd]
      · exact fun hrunning => absurd quiet hrunning
      · rw [f.epoch_kept]
        exact hlearned
    · rw [notes]
      refine h.bases.append ?_
      intro ticket base hmem
      rcases mem_cons.1 hmem with heq | hmem
      · cases heq
      · obtain ⟨revision, heq⟩ := hentries _ hmem
        cases heq
  cases hs with
  | idle same => exact same ▸ h
  | ended point busy f rest quiet notes document =>
    refine hended point [] busy f rest quiet notes (by simp) ?_ ?_
    · intro active hactive
      obtain ⟨health, hafter⟩ := document.after hactive
      exact ⟨_, hafter, rfl⟩
    · intro hcurrent
      obtain ⟨active, hactive, hlast⟩ := hb.learned hcurrent
      obtain ⟨health, hafter⟩ := document.after hactive
      refine ⟨_, hafter, ?_⟩
      rw [notes, lastCommitted_append_other (by simp [committed?])]
      exact hlast
  | applied ticket base response active document health busy answered current before committed after
      f rest quiet notes =>
    refine hended _ [.committed n document.revision] busy f rest quiet notes (by simp) ?_ ?_
    · intro other hother
      rw [before, some.injEq] at hother
      have hid := committedDocument_workspaceId committed
      exact ⟨_, after, by rw [← hother]; exact hid⟩
    · intro _
      refine ⟨_, after, ?_⟩
      rw [notes, ← singleton_append, ← append_assoc, lastCommitted_committed]
  | flushed target response active document busy answered current before taken after f rest quiet
      notes =>
    refine hended _ [.committed n document.revision] busy f rest quiet notes (by simp) ?_ ?_
    · intro other hother
      rw [before, some.injEq] at hother
      exact ⟨_, after, by rw [← hother]; exact applyFlushResponse_workspaceId taken⟩
    · intro _
      refine ⟨_, after, ?_⟩
      rw [notes, ← singleton_append, ← append_assoc, lastCommitted_committed]

/-! ## Submissions and new epochs -/

theorem inOrder_submitted (h : InOrder e) (hs : Submitted e r) : InOrder r := by
  cases hs with
  | refused same => exact same ▸ h
  | batch n ticket active health current before writable epoch workspace sequences epochs epoch_kept
      number after open_after notes =>
    obtain ⟨pending, hepochs⟩ := epochs
    have hb := h.books n
    have hself : r.epochs n = { e.epochs n with
        sequence := (e.epochs n).sequence + ticket.mutations.length
        pending
        tail := (e.epochs n).tail ++ [.batch ticket] } := by
      rw [hepochs, Function.update_self]
    have hother : ∀ k, k ≠ n → r.epochs k = e.epochs k := fun k hk => by
      rw [hepochs, Function.update_of_ne hk]
    have hid : active.workspaceId = (e.epochs n).workspaceId := by
      obtain ⟨-, document, hdocument, hid⟩ := h.sound.current n current
      rw [before, some.injEq] at hdocument
      rw [hdocument, hid]
    have hn : n = e.writeEpochNumber := h.number n current
    have honly : ∀ k, r.writeEpoch = some k → k = n := by
      intro k hk
      rw [epoch_kept, current, some.injEq] at hk
      exact hk.symm
    refine ⟨⟨?_, ?_, ?_⟩, ?_, ?_, ?_, ?_, ?_⟩
    · intro k hk
      obtain rfl := honly k hk
      rw [hself]
      exact ⟨(h.sound.current k current).1, _, after, hid⟩
    · intro k other hmem
      by_cases hk : k = n
      · subst hk
        rw [hself] at hmem ⊢
        rcases mem_append.1 hmem with hold | hnew
        · exact h.sound.tickets k other hold
        · cases mem_singleton.1 hnew
          exact ⟨epoch, workspace.trans hid⟩
      · rw [hother k hk] at hmem ⊢
        exact h.sound.tickets k other hmem
    · intro k other base hwaits
      by_cases hk : k = n
      · subst hk
        rw [hself] at hwaits ⊢
        exact h.sound.awaits k other base hwaits
      · rw [hother k hk] at hwaits ⊢
        exact h.sound.awaits k other base hwaits
    · intro k hk
      obtain rfl := honly k hk
      rw [number]
      exact hn
    · intro k hk
      rw [number] at hk
      rw [hother k (by omega)]
      exact h.unused k hk
    · intro entry hentry
      rw [number]
      rw [notes, mem_append, mem_singleton] at hentry
      rcases hentry with hold | rfl
      · exact h.noted entry hold
      · exact (epoch.trans hn).le
    · intro k
      by_cases hk : k = n
      · subst hk
        have hsubmitted : submittedOf k r.notes = submittedOf k e.notes ++ [ticket] := by
          rw [notes, submittedOf_append]
          simp [submittedOf, ticket?, epoch]
        have hsent : sentOf k r.notes = sentOf k e.notes := by
          rw [notes, sentOf_append]
          simp [sentOf, filterMap_cons, sent?]
        refine ⟨?_, ?_, ?_, ?_, ?_⟩
        · refine ⟨[], ?_, fun hne => absurd rfl hne⟩
          rw [hsubmitted, hsent, hb.all_sent current before writable, hself]
          simp [Task.ticket?, filterMap_append]
        · rw [hsubmitted, sequencesOf_append, hb.sequences, hself]
          simp only [sequencesOf, flatMap_singleton, sequences, range_eq_range']
          have happend := List.range'_append_1 (s := 0) (m := (e.epochs k).sequence)
            (n := ticket.mutations.length)
          rwa [Nat.zero_add] at happend
        · rw [notes, countP_append, countP_append, hb.calls, hself]
          simp [isCall, isEnd]
        · rintro - ⟨-, hlocked⟩
          simp [isReadOnly, after, open_after] at hlocked
        · intro _
          obtain ⟨learned, hlearned, hlast⟩ := hb.learned current
          rw [before, some.injEq] at hlearned
          refine ⟨_, after, ?_⟩
          rw [notes, lastCommitted_append_other (by simp [committed?]), hlast, hlearned]
      · refine (h.books k).other epoch_kept (hother k hk) ?_ notes ?_
        · intro hcurrent
          rw [current, some.injEq] at hcurrent
          exact absurd hcurrent.symm hk
        · intro entry hentry
          rw [mem_singleton.1 hentry]
          exact fun heq => hk (heq.symm.trans epoch)
    · rw [notes]
      exact h.bases.append (by simp)
  | flush n current same =>
    subst same
    have hb := h.books n
    have hn : n = e.writeEpochNumber := h.number n current
    have hsame : ∀ k, k ≠ n → (e.setEpoch n { e.epochs n with
        tail := (e.epochs n).tail ++ [.flush] }).epochs k = e.epochs k := fun k hk =>
      e.setEpoch_other hk _
    have hwaiting : ((e.epochs n).tail ++ [Task.flush]).filterMap Task.ticket? =
        (e.epochs n).tail.filterMap Task.ticket? := by
      simp [Task.ticket?, filterMap_append, filterMap_cons]
    refine ⟨⟨?_, ?_, ?_⟩, h.number, ?_, h.noted, ?_, h.bases⟩
    · intro k hk
      rw [setEpoch_writeEpoch, current, some.injEq] at hk
      subst hk
      rw [setEpoch_same]
      exact h.sound.current n current
    · intro k other hmem
      by_cases hk : k = n
      · subst hk
        rw [setEpoch_same] at hmem ⊢
        rcases mem_append.1 hmem with hold | hnew
        · exact h.sound.tickets k other hold
        · cases mem_singleton.1 hnew
      · rw [hsame k hk] at hmem ⊢
        exact h.sound.tickets k other hmem
    · intro k other base hwaits
      by_cases hk : k = n
      · subst hk
        rw [setEpoch_same] at hwaits ⊢
        exact h.sound.awaits k other base hwaits
      · rw [hsame k hk] at hwaits ⊢
        exact h.sound.awaits k other base hwaits
    · intro k hk
      have hk' : e.writeEpochNumber < k := hk
      rw [hsame k (by omega)]
      exact h.unused k hk
    · intro k
      by_cases hk : k = n
      · subst hk
        refine ⟨?_, ?_, ?_, ?_, hb.learned⟩
        · obtain ⟨dropped, hsplit, hover⟩ := hb.order
          refine ⟨dropped, ?_, hover⟩
          rw [setEpoch_same, hwaiting]
          exact hsplit
        · rw [setEpoch_same]
          exact hb.sequences
        · rw [setEpoch_same]
          exact hb.calls
        · rw [setEpoch_same]
          exact hb.writable
      · exact (h.books k).other rfl (hsame k hk) (fun _ => rfl) (append_nil _).symm (by simp)

/-- Where no epoch is current any more, every epoch is closed. -/
theorem EpochBooks.leave (h : EpochBooks e k)
    (hbook : ∃ aborted, r.epochs k = { e.epochs k with aborted }) (hother : r.writeEpoch ≠ some k)
    (hnotes : r.notes = e.notes ++ entries) (hentries : ∀ entry ∈ entries, entry.epoch ≠ k) :
    EpochBooks r k := by
  obtain ⟨hsubmitted, hsent, hcalls, hends, hcommitted⟩ := books_other hentries
  obtain ⟨aborted, hbook⟩ := hbook
  refine ⟨?_, ?_, ?_, ?_, fun hcurrent => absurd hcurrent hother⟩
  · obtain ⟨dropped, hsplit, -⟩ := h.order
    refine ⟨dropped, ?_, fun _ => .inl hother⟩
    rw [hnotes, submittedOf_append, sentOf_append, hsubmitted, hsent, append_nil,
      append_nil, hbook, hsplit]
  · rw [hnotes, submittedOf_append, hsubmitted, append_nil, hbook]
    exact h.sequences
  · rw [hnotes, countP_append, countP_append, hcalls, hends, hbook]
    exact h.calls
  · exact fun _ hlocked => hother hlocked.1

theorem abort_unused (hnumber : ∀ n, e.writeEpoch = some n → n = e.writeEpochNumber)
    (hk : e.writeEpochNumber < k) (hunused : e.epochs k = {}) : e.abort.epochs k = {} := by
  unfold abort
  cases hcurrent : e.writeEpoch with
  | none => exact hunused
  | some n =>
    have hn := hnumber n hcurrent
    simp only
    rw [e.setEpoch_other (by omega)]
    exact hunused

theorem inOrder_removeActive (h : InOrder e) : InOrder e.removeActive := by
  -- the host has dropped its document before the epoch is cleared
  set dropped : Engine := { e with active := none }
  have habort : ∀ k, ∃ aborted, dropped.abort.epochs k = { e.epochs k with aborted } :=
    fun k => abort_epoch dropped k
  obtain ⟨-, -, -, hnotes⟩ := abort_same dropped
  refine ⟨⟨fun k hk => ?_, ?_, ?_⟩, fun k hk => ?_, ?_, ?_, ?_, ?_⟩
  · cases hk
  · intro k ticket hmem
    obtain ⟨aborted, hbook⟩ := habort k
    change Task.batch ticket ∈ (dropped.abort.epochs k).tail at hmem
    change _ ∧ _ = (dropped.abort.epochs k).workspaceId
    rw [hbook] at hmem ⊢
    exact h.sound.tickets k ticket hmem
  · intro k ticket base hwaits
    obtain ⟨aborted, hbook⟩ := habort k
    change (dropped.abort.epochs k).running = _ at hwaits
    change _ ∧ _ = (dropped.abort.epochs k).workspaceId
    rw [hbook] at hwaits ⊢
    exact h.sound.awaits k ticket base hwaits
  · cases hk
  · intro k hk
    have hk' : e.writeEpochNumber < k := (Nat.lt_succ_self _).trans hk
    exact abort_unused (e := dropped) h.number hk' (h.unused k hk')
  · intro entry hentry
    change entry ∈ dropped.abort.notes at hentry
    rw [hnotes] at hentry
    exact (h.noted entry hentry).trans (Nat.le_succ _)
  · intro k
    refine (h.books k).leave (habort k) (by simp [removeActive, clearEpoch]) ?_
      (fun _ hentry => absurd hentry not_mem_nil)
    rw [append_nil]
    exact hnotes
  · change BasesKnown dropped.abort.notes
    rw [hnotes]
    exact h.bases

theorem inOrder_beginEpoch (h : InOrder e) (header : MutableActiveWorkspace) :
    InOrder ({ e.beginEpoch header.workspaceId with active := some header }.note
      (.committed (e.beginEpoch header.workspaceId).writeEpochNumber header.revision)) := by
  obtain ⟨-, hnumber, -, hnotes⟩ := abort_same e
  set number := e.writeEpochNumber + 1 with hnew
  set r := { e.beginEpoch header.workspaceId with active := some header }.note
    (.committed (e.beginEpoch header.workspaceId).writeEpochNumber header.revision) with hr
  have hepoch : r.writeEpoch = some number := by
    simp [hr, beginEpoch, hnumber, hnew]
  have hnumber' : r.writeEpochNumber = number := by
    simp [hr, beginEpoch, hnumber, hnew]
  have hself : r.epochs number = { workspaceId := header.workspaceId } := by
    simp [hr, beginEpoch, hnumber, hnew, setEpoch]
  have hothers : ∀ k, k ≠ number → r.epochs k = e.abort.epochs k := by
    intro k hk
    simp only [hr, note_epochs, beginEpoch, hnumber]
    exact setEpoch_other _ hk _
  have hactive : r.active = some header := rfl
  have hrnotes : r.notes = e.notes ++ [.committed number header.revision] := by
    simp [hr, beginEpoch, hnumber, hnotes, hnew, setEpoch]
  have hold : ∀ entry ∈ e.notes, entry.epoch ≠ number := fun entry hentry => by
    have hle := h.noted entry hentry
    omega
  refine ⟨⟨?_, ?_, ?_⟩, ?_, ?_, ?_, ?_, ?_⟩
  · intro k hk
    rw [hepoch, some.injEq] at hk
    subst hk
    rw [hself]
    exact ⟨rfl, header, hactive, rfl⟩
  · intro k ticket hmem
    by_cases hk : k = number
    · subst hk
      rw [hself] at hmem
      cases hmem
    · obtain ⟨aborted, hbook⟩ := abort_epoch e k
      rw [hothers k hk, hbook] at hmem ⊢
      exact h.sound.tickets k ticket hmem
  · intro k ticket base hwaits
    by_cases hk : k = number
    · subst hk
      rw [hself] at hwaits
      cases hwaits
    · obtain ⟨aborted, hbook⟩ := abort_epoch e k
      rw [hothers k hk, hbook] at hwaits ⊢
      exact h.sound.awaits k ticket base hwaits
  · intro k hk
    rw [hepoch, some.injEq] at hk
    rw [hnumber', hk]
  · intro k hk
    rw [hnumber'] at hk
    rw [hothers k (by omega)]
    have hk' : e.writeEpochNumber < k := by omega
    exact abort_unused h.number hk' (h.unused k hk')
  · intro entry hentry
    rw [hnumber']
    rw [hrnotes, mem_append, mem_singleton] at hentry
    rcases hentry with hmem | rfl
    · exact (h.noted entry hmem).trans (Nat.le_succ _)
    · exact le_refl _
  · intro k
    by_cases hk : k = number
    · subst hk
      obtain ⟨hsubmitted, hsent, hcalls, hends, hcommitted⟩ := books_other hold
      refine ⟨⟨[], ?_, fun hne => absurd rfl hne⟩, ?_, ?_, ?_, ?_⟩
      · rw [hrnotes, submittedOf_append, sentOf_append, hsubmitted, hsent, hself]
        simp [submittedOf, sentOf, filterMap_cons, ticket?, sent?]
      · rw [hrnotes, submittedOf_append, hsubmitted, hself]
        simp [submittedOf, filterMap_cons, ticket?, sequencesOf]
      · rw [hrnotes, countP_append, countP_append, hcalls, hends, hself]
        simp [isCall, isEnd]
      · rw [hself]
        exact fun hrunning => absurd rfl hrunning
      · exact fun _ => ⟨header, hactive, by rw [hrnotes, lastCommitted_committed]⟩
    · obtain ⟨aborted, hbook⟩ := abort_epoch e k
      refine (h.books k).leave ⟨aborted, by rw [hothers k hk, hbook]⟩ ?_ hrnotes ?_
      · rw [hepoch, Ne, some.injEq]
        exact Ne.symm hk
      · intro entry hentry
        rw [mem_singleton.1 hentry]
        exact Ne.symm hk
  · rw [hrnotes]
    exact h.bases.append (by simp)

theorem inOrder_step (h : InOrder e) (event : Event) : InOrder (step e event) := by
  cases event with
  | activate header =>
    unfold step activateHeader
    simp only
    split_ifs
    · exact h
    · exact inOrder_beginEpoch h header
  | remove => exact inOrder_removeActive h
  | commitBatch commands batchId => exact inOrder_submitted h (commitBatch_spec e commands batchId)
  | flush => exact inOrder_submitted h (flush_spec e)
  | start n => exact inOrder_started h (start_spec h.sound n)
  | settle n answer => exact inOrder_settled h (settle_spec h.sound n answer)

theorem inOrder_new : InOrder .new := by
  refine ⟨⟨?_, ?_, ?_⟩, ?_, fun _ _ => rfl, ?_, ?_, ?_⟩
  · rintro n ⟨⟩
  · rintro n ticket ⟨⟩
  · rintro n ticket base ⟨⟩
  · rintro n ⟨⟩
  · rintro entry ⟨⟩
  · intro n
    refine ⟨⟨[], rfl, fun hne => absurd rfl hne⟩, rfl, rfl, fun hne => absurd rfl hne, ?_⟩
    rintro ⟨⟩
  · intro before ticket base after hsplit
    have hnil : [] = before ++ sent ticket base :: after := hsplit
    simp at hnil

theorem inOrder_run (events : List Event) : InOrder (runs.run step .new events) :=
  @runs.run_invariant _ _ step InOrder _ (fun _ event h => inOrder_step h event) inOrder_new events

end bbcom.write_epoch
