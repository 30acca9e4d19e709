-- The books of what is captured (`capture-accounting.ts`): frame sequences, frame counts and
-- bytes of each session, and the totals of the workspace. The renderer's capture buffers and
-- the workspace application keep one such store each.
import Bbcom.Lib.OrderedMap

open bbcom.ordered_map

namespace bbcom.capture

open OrderedMap List

structure CaptureAccountingRow where
  nextSequence : Nat := 0
  frameCount : Int := 0
  captureBytes : Int := 0
  deriving DecidableEq

structure CaptureAccountingStore where
  sessions : OrderedMap String CaptureAccountingRow := []
  workspaceFrameCount : Int := 0
  workspaceCaptureBytes : Int := 0
  deriving DecidableEq

namespace CaptureAccountingStore

variable (store : CaptureAccountingStore)

def sessionCount : Nat := store.sessions.length

def sessionTotals (sessionId : String) : Option CaptureAccountingRow :=
  store.sessions.get sessionId

def hasSession (sessionId : String) : Bool := (store.sessionTotals sessionId).isSome

/-- The row of a session; a session without one gets it. -/
def sessionRow (sessionId : String) : CaptureAccountingRow :=
  (store.sessionTotals sessionId).getD {}

def setRow (sessionId : String) (row : CaptureAccountingRow) : CaptureAccountingStore :=
  { store with sessions := store.sessions.set sessionId row }

def addWorkspaceFrames (count bytes : Int) : CaptureAccountingStore :=
  { store with
    workspaceFrameCount := max 0 (store.workspaceFrameCount + count)
    workspaceCaptureBytes := max 0 (store.workspaceCaptureBytes + bytes) }

def registerSession (sessionId : String) (registration : CaptureAccountingRow) :
    CaptureAccountingStore :=
  { store.setRow sessionId registration with
    workspaceFrameCount := store.workspaceFrameCount + registration.frameCount
    workspaceCaptureBytes := store.workspaceCaptureBytes + registration.captureBytes }

def recordFrames (sessionId : String) (count bytes : Int) : CaptureAccountingStore :=
  let row := store.sessionRow sessionId
  (store.setRow sessionId { row with
    frameCount := row.frameCount + count
    captureBytes := row.captureBytes + bytes }).addWorkspaceFrames count bytes

def setSessionBytes (sessionId : String) (captureBytes : Int) : CaptureAccountingStore :=
  let row := store.sessionRow sessionId
  { store.setRow sessionId { row with captureBytes } with
    workspaceCaptureBytes := store.workspaceCaptureBytes + (captureBytes - row.captureBytes) }

def setWorkspaceBytes (captureBytes : Int) : CaptureAccountingStore :=
  { store with workspaceCaptureBytes := captureBytes }

def resetSession (sessionId : String) : CaptureAccountingStore :=
  match store.sessionTotals sessionId with
  | none => store
  | some row =>
    (store.setRow sessionId {}).addWorkspaceFrames (-row.frameCount) (-row.captureBytes)

def removeSession (sessionId : String) : CaptureAccountingStore :=
  match store.sessionTotals sessionId with
  | none => store
  | some row =>
    { store with sessions := store.sessions.delete sessionId }.addWorkspaceFrames
      (-row.frameCount) (-row.captureBytes)

def replaceWorkspace (entries : List (String × CaptureAccountingRow)) : CaptureAccountingStore :=
  entries.foldl (fun store entry => store.registerSession entry.1 entry.2) {}

/-- The sequence number that a session hands out next, and the store behind it. -/
def allocateNextFrameSequence (sessionId : String) : Nat × CaptureAccountingStore :=
  let row := store.sessionRow sessionId
  (row.nextSequence, store.setRow sessionId { row with nextSequence := row.nextSequence + 1 })

def setNextFrameSequence (sessionId : String) (nextSequence : Nat) : CaptureAccountingStore :=
  store.setRow sessionId { store.sessionRow sessionId with nextSequence }

def resetFrameSequence (sessionId : String) : CaptureAccountingStore :=
  store.setNextFrameSequence sessionId 0

/-! ## What each operation leaves in the rows -/

variable (id : String) (row : CaptureAccountingRow)

@[simp] theorem sessionTotals_setRow_self : (store.setRow id row).sessionTotals id = some row :=
  get_set_self _ _ _

theorem sessionTotals_setRow_of_ne {id other : String} (h : other ≠ id) :
    (store.setRow id row).sessionTotals other = store.sessionTotals other :=
  get_set_of_ne _ _ h

@[simp] theorem sessionTotals_addWorkspaceFrames (count bytes : Int) (id : String) :
    (store.addWorkspaceFrames count bytes).sessionTotals id = store.sessionTotals id := rfl

@[simp] theorem sessionTotals_registerSession_self :
    (store.registerSession id row).sessionTotals id = some row :=
  sessionTotals_setRow_self store id row

theorem sessionTotals_registerSession_of_ne {id other : String} (h : other ≠ id) :
    (store.registerSession id row).sessionTotals other = store.sessionTotals other :=
  sessionTotals_setRow_of_ne store row h

@[simp] theorem sessionTotals_setSessionBytes_self (bytes : Int) :
    (store.setSessionBytes id bytes).sessionTotals id =
      some { store.sessionRow id with captureBytes := bytes } :=
  sessionTotals_setRow_self store id _

theorem sessionTotals_setSessionBytes_of_ne {id other : String} (bytes : Int) (h : other ≠ id) :
    (store.setSessionBytes id bytes).sessionTotals other = store.sessionTotals other :=
  sessionTotals_setRow_of_ne store _ h

theorem sessionTotals_removeSession_of_ne {id other : String} (h : other ≠ id) :
    (store.removeSession id).sessionTotals other = store.sessionTotals other := by
  unfold removeSession
  split
  · rfl
  · exact get_delete_of_ne _ h

theorem sessionRow_of_some {id : String} {row : CaptureAccountingRow}
    (h : store.sessionTotals id = some row) : store.sessionRow id = row := by
  simp [sessionRow, h]

/-! ## The totals -/

/-- The totals of the workspace are the sums of the rows, and no row is negative. -/
structure Summed : Prop where
  distinct : (store.sessions.map Prod.fst).Nodup
  frames : store.workspaceFrameCount = (store.sessions.map fun entry => entry.2.frameCount).sum
  bytes : store.workspaceCaptureBytes =
    (store.sessions.map fun entry => entry.2.captureBytes).sum
  positive : ∀ entry ∈ store.sessions, 0 ≤ entry.2.frameCount ∧ 0 ≤ entry.2.captureBytes

theorem summed_empty : Summed {} := ⟨nodup_nil, rfl, rfl, fun _ h => by cases h⟩

variable {store}

theorem map_get_getD (g : CaptureAccountingRow → Int) (hzero : g {} = 0) :
    ((store.sessions.get id).map g).getD 0 = g (store.sessionRow id) := by
  unfold sessionRow sessionTotals
  cases store.sessions.get id with
  | none => exact hzero.symm
  | some row => rfl

section

variable (h : Summed store)
include h

/-- No row holds more than the workspace. -/
theorem Summed.row_le :
    0 ≤ (store.sessionRow id).frameCount ∧
      (store.sessionRow id).frameCount ≤ store.workspaceFrameCount ∧
      0 ≤ (store.sessionRow id).captureBytes ∧
      (store.sessionRow id).captureBytes ≤ store.workspaceCaptureBytes := by
  have hframes : ∀ x ∈ store.sessions.map fun entry => entry.2.frameCount, 0 ≤ x := by
    intro x hx
    obtain ⟨entry, hentry, rfl⟩ := mem_map.1 hx
    exact (h.positive entry hentry).1
  have hbytes : ∀ x ∈ store.sessions.map fun entry => entry.2.captureBytes, 0 ≤ x := by
    intro x hx
    obtain ⟨entry, hentry, rfl⟩ := mem_map.1 hx
    exact (h.positive entry hentry).2
  rw [h.frames, h.bytes]
  cases hrow : store.sessionTotals id with
  | none =>
    have hdefault : store.sessionRow id = {} := by simp [sessionRow, hrow]
    rw [hdefault]
    exact ⟨le_rfl, sum_nonneg hframes, le_rfl, sum_nonneg hbytes⟩
  | some row =>
    rw [sessionRow_of_some store hrow]
    have hmem := mem_of_get hrow
    refine ⟨(h.positive _ hmem).1, ?_, (h.positive _ hmem).2, ?_⟩
    · exact single_le_sum hframes _ (mem_map_of_mem hmem)
    · exact single_le_sum hbytes _ (mem_map_of_mem hmem)

open CaptureAccountingRow

/-- A row is written, and the totals follow it. -/
theorem Summed.write {store' : CaptureAccountingStore}
    (hsessions : store'.sessions = store.sessions.set id row)
    (hframes : store'.workspaceFrameCount =
      store.workspaceFrameCount + (row.frameCount - (store.sessionRow id).frameCount))
    (hbytes : store'.workspaceCaptureBytes =
      store.workspaceCaptureBytes + (row.captureBytes - (store.sessionRow id).captureBytes))
    (hrow : 0 ≤ row.frameCount ∧ 0 ≤ row.captureBytes) : Summed store' where
  distinct := hsessions ▸ (keys_set _ _ _ h.distinct).1
  frames := by
    have hsum := sum_set store.sessions id row frameCount
    rw [map_get_getD id frameCount rfl, ← h.frames] at hsum
    rw [hframes, hsessions, hsum]
    ring
  bytes := by
    have hsum := sum_set store.sessions id row captureBytes
    rw [map_get_getD id captureBytes rfl, ← h.bytes] at hsum
    rw [hbytes, hsessions, hsum]
    ring
  positive entry hentry := by
    rw [hsessions] at hentry
    rcases mem_set hentry with rfl | hold
    · exact hrow
    · exact h.positive entry hold

theorem Summed.recordFrames {id : String} {count bytes : Int}
    (hcount : 0 ≤ (store.sessionRow id).frameCount + count)
    (hbytes : 0 ≤ (store.sessionRow id).captureBytes + bytes) :
    Summed (store.recordFrames id count bytes) := by
  obtain ⟨_, hframes, _, hrow⟩ := h.row_le id
  refine h.write id _ rfl ?_ ?_ ⟨hcount, hbytes⟩
  · change max 0 (store.workspaceFrameCount + count) = store.workspaceFrameCount +
      ((store.sessionRow id).frameCount + count - (store.sessionRow id).frameCount)
    omega
  · change max 0 (store.workspaceCaptureBytes + bytes) = store.workspaceCaptureBytes +
      ((store.sessionRow id).captureBytes + bytes - (store.sessionRow id).captureBytes)
    omega

theorem Summed.registerSession {id : String} {row : CaptureAccountingRow}
    (hfresh : store.sessionTotals id = none) (hrow : 0 ≤ row.frameCount ∧ 0 ≤ row.captureBytes) :
    Summed (store.registerSession id row) := by
  have hdefault : store.sessionRow id = {} := by simp [sessionRow, hfresh]
  refine h.write id _ rfl ?_ ?_ hrow
  · rw [hdefault]
    change store.workspaceFrameCount + row.frameCount = _
    ring
  · rw [hdefault]
    change store.workspaceCaptureBytes + row.captureBytes = _
    ring

theorem Summed.setNextFrameSequence (nextSequence : Nat) :
    Summed (store.setNextFrameSequence id nextSequence) := by
  obtain ⟨hframes, _, hbytes, _⟩ := h.row_le id
  refine h.write id _ rfl ?_ ?_ ⟨hframes, hbytes⟩
  · rw [sub_self, add_zero]
    rfl
  · rw [sub_self, add_zero]
    rfl

theorem Summed.resetSession : Summed (store.resetSession id) := by
  obtain ⟨_, hframes, _, hbytes⟩ := h.row_le id
  unfold CaptureAccountingStore.resetSession
  cases hrow : store.sessionTotals id with
  | none => exact h
  | some row =>
    rw [sessionRow_of_some store hrow] at hframes hbytes
    refine h.write id {} rfl ?_ ?_ ⟨le_rfl, le_rfl⟩
    · rw [sessionRow_of_some store hrow]
      change max 0 (store.workspaceFrameCount + -row.frameCount) =
        store.workspaceFrameCount + (0 - row.frameCount)
      omega
    · rw [sessionRow_of_some store hrow]
      change max 0 (store.workspaceCaptureBytes + -row.captureBytes) =
        store.workspaceCaptureBytes + (0 - row.captureBytes)
      omega

theorem Summed.removeSession : Summed (store.removeSession id) := by
  obtain ⟨_, hframes, _, hbytes⟩ := h.row_le id
  unfold CaptureAccountingStore.removeSession
  cases hrow : store.sessionTotals id with
  | none => exact h
  | some row =>
    rw [sessionRow_of_some store hrow] at hframes hbytes
    have hget : store.sessions.get id = some row := hrow
    refine ⟨(keys_delete id h.distinct).1, ?_, ?_, ?_⟩
    · change max 0 (store.workspaceFrameCount + -row.frameCount) =
        ((store.sessions.delete id).map fun entry => entry.2.frameCount).sum
      rw [sum_delete h.distinct id (·.frameCount), hget, ← h.frames]
      change max 0 (store.workspaceFrameCount + -row.frameCount) =
        store.workspaceFrameCount - row.frameCount
      omega
    · change max 0 (store.workspaceCaptureBytes + -row.captureBytes) =
        ((store.sessions.delete id).map fun entry => entry.2.captureBytes).sum
      rw [sum_delete h.distinct id (·.captureBytes), hget, ← h.bytes]
      change max 0 (store.workspaceCaptureBytes + -row.captureBytes) =
        store.workspaceCaptureBytes - row.captureBytes
      omega
    · intro entry hentry
      exact h.positive entry (mem_filter.1 hentry).1

end

/-- The rows of a workspace join one after the other. -/
theorem Summed.registerSessions {entries : List (String × CaptureAccountingRow)}
    (hkeys : (entries.map Prod.fst).Nodup)
    (hrows : ∀ entry ∈ entries, 0 ≤ entry.2.frameCount ∧ 0 ≤ entry.2.captureBytes)
    {store : CaptureAccountingStore} (h : Summed store)
    (hfresh : ∀ entry ∈ entries, store.sessionTotals entry.1 = none) :
    Summed (entries.foldl (fun store entry => store.registerSession entry.1 entry.2) store) ∧
      (entries.foldl (fun store entry => store.registerSession entry.1 entry.2)
          store).workspaceFrameCount =
        store.workspaceFrameCount + (entries.map fun entry => entry.2.frameCount).sum ∧
      (∀ entry ∈ entries, (entries.foldl
        (fun store entry => store.registerSession entry.1 entry.2) store).sessionTotals entry.1 =
          some entry.2) ∧
      ∀ other ∉ entries.map Prod.fst, (entries.foldl
        (fun store entry => store.registerSession entry.1 entry.2) store).sessionTotals other =
          store.sessionTotals other := by
  induction entries generalizing store with
  | nil => exact ⟨h, by simp, by simp, fun _ _ => rfl⟩
  | cons entry entries ih =>
    rw [map_cons, nodup_cons] at hkeys
    rw [forall_mem_cons] at hrows hfresh
    have hfirst := h.registerSession hfresh.1 hrows.1
    have hfresh' : ∀ e ∈ entries,
        (store.registerSession entry.1 entry.2).sessionTotals e.1 = none := by
      intro e he
      have hne : e.1 ≠ entry.1 := fun heq => hkeys.1 (heq ▸ mem_map_of_mem he)
      rw [sessionTotals_registerSession_of_ne _ _ hne]
      exact hfresh.2 e he
    obtain ⟨hsummed, hcount, heach, hothers⟩ := ih hkeys.2 hrows.2 hfirst hfresh'
    refine ⟨hsummed, ?_, ?_, ?_⟩
    · rw [foldl_cons, hcount, map_cons, sum_cons, ← add_assoc]
      rfl
    · intro e he
      rcases mem_cons.1 he with rfl | he
      · rw [foldl_cons, hothers _ hkeys.1]
        exact sessionTotals_registerSession_self _ _ _
      · exact heach e he
    · intro other hother
      rw [map_cons, mem_cons, not_or] at hother
      rw [foldl_cons, hothers other hother.2]
      exact sessionTotals_registerSession_of_ne _ _ hother.1

theorem sessionTotals_removeSession_self (h : Summed store) (id : String) :
    (store.removeSession id).sessionTotals id = none := by
  unfold CaptureAccountingStore.removeSession
  cases hrow : store.sessionTotals id with
  | none => exact hrow
  | some row => exact (keys_delete id h.distinct).2

end CaptureAccountingStore

end bbcom.capture
