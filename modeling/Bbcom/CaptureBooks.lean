-- The books of one session in the store, and what each operation does to them. All sessions but
-- the one that an operation is about keep theirs.
import Bbcom.SessionCapture
import Bbcom.SessionFramesLaws

open bbcom.js bbcom.serial bbcom.ordered_map

namespace bbcom.capture

open CaptureAccountingStore List OrderedMap

/-- What the store knows of a session. -/
structure SessionBooks where
  session : Option SerialSession
  row : Option CaptureAccountingRow
  rxQueue : Option Nat
  frameBuffer : Option Nat

namespace SessionStore

variable (store : SessionStore)

def books (sessionId : String) : SessionBooks where
  session := store.findSession sessionId
  row := store.accounting.sessionTotals sessionId
  rxQueue := store.rxQueueDroppedBytes.get sessionId
  frameBuffer := store.frameBufferDroppedBytes.get sessionId

/-- The books of all sessions but one are as they were. -/
def SameBut (sessionId : String) (before after : SessionStore) : Prop :=
  ∀ other ≠ sessionId, after.books other = before.books other

theorem SameBut.refl (sessionId : String) : SameBut sessionId store store := fun _ _ => rfl

theorem SameBut.trans {sessionId : String} {a b c : SessionStore} (h1 : SameBut sessionId a b)
    (h2 : SameBut sessionId b c) : SameBut sessionId a c :=
  fun other hne => (h2 other hne).trans (h1 other hne)

variable {store} {sessionId : String}

/-! ## One session in the list -/

variable {update : SerialSession → SerialSession} {s : SerialSession} {row : CaptureAccountingRow}
  {frameBuffer : Nat}

theorem updateSession_ids (hid : ∀ s, s.id = sessionId → (update s).id = sessionId) :
    sessionIds (store.updateSession sessionId update).sessions = sessionIds store.sessions :=
  modifyKey_keys hid store.sessions

theorem updateSession_sameBut (hid : ∀ s, s.id = sessionId → (update s).id = sessionId) :
    SameBut sessionId store (store.updateSession sessionId update) := by
  intro other hne
  unfold books
  congr 1
  exact find_modifyKey_of_ne hid hne store.sessions

theorem updateSession_books (update : SerialSession → SerialSession)
    (hid : ∀ s, s.id = sessionId → (update s).id = sessionId) {b : SessionBooks}
    (h : store.books sessionId = b) (hs : b.session = some s) :
    (store.updateSession sessionId update).books sessionId =
      { b with session := some (update s) } := by
  subst h
  unfold books at hs ⊢
  congr 1
  exact find_modifyKey_self hid hs

theorem updateSession_bytes (hnodup : (sessionIds store.sessions).Nodup)
    (hs : store.findSession sessionId = some s) :
    bytesInAll (store.updateSession sessionId update).sessions = bytesInAll store.sessions +
        (framesByteLength (update s).contents - framesByteLength s.contents) :=
  sum_modifyKey (g := fun s : SerialSession => (framesByteLength s.contents : ℤ)) hnodup hs

theorem updateSession_bytes_same (h : ∀ s, (update s).contents = s.contents) :
    bytesInAll (store.updateSession sessionId update).sessions = bytesInAll store.sessions := by
  unfold bytesInAll updateSession modifyKey
  rw [map_map]
  congr 1
  apply map_congr_left
  intro s _
  by_cases hs : s.id = sessionId
  · simp [hs, h]
  · simp [hs]

/-! ## Bytes and drops -/

theorem setRetainedFrameBytes_sameBut (bytes : Int) :
    SameBut sessionId store (store.setRetainedFrameBytes sessionId bytes) := by
  intro other hne
  unfold books
  congr 1
  exact sessionTotals_setSessionBytes_of_ne _ _ hne

theorem setRetainedFrameBytes_books (bytes : Int) {b : SessionBooks}
    (h : store.books sessionId = b) (hrow : b.row = some row) :
    (store.setRetainedFrameBytes sessionId bytes).books sessionId =
      { b with row := some { row with captureBytes := bytes } } := by
  subst h
  unfold books at hrow ⊢
  congr 1
  have hset := sessionTotals_setSessionBytes_self store.accounting
    sessionId bytes
  rwa [sessionRow_of_some _ hrow] at hset

variable (droppedBytes : Nat)

theorem addFrameBufferDrop_sameBut :
    SameBut sessionId store (store.addFrameBufferDrop sessionId droppedBytes) := by
  unfold addFrameBufferDrop
  split
  · exact SameBut.refl store sessionId
  · refine SameBut.trans ?_ (updateSession_sameBut (fun _ h => h))
    intro other hne
    unfold books
    congr 1
    exact get_set_of_ne _ _ hne

theorem addFrameBufferDrop_ids :
    sessionIds (store.addFrameBufferDrop sessionId droppedBytes).sessions =
      sessionIds store.sessions := by
  unfold addFrameBufferDrop
  split
  · rfl
  · exact updateSession_ids (fun _ h => h)

variable {rxQueue : Nat}

/-- A drop goes to the counter of the frame buffer, and with it to the sum that is shown. -/
theorem addFrameBufferDrop_books
    (h : store.books sessionId = ⟨some s, some row, some rxQueue, some frameBuffer⟩)
    (hsum : s.droppedBytes = rxQueue + frameBuffer) :
    (store.addFrameBufferDrop sessionId droppedBytes).books sessionId =
      ⟨some { s with droppedBytes := rxQueue + (frameBuffer + droppedBytes) }, some row,
        some rxQueue, some (frameBuffer + droppedBytes)⟩ := by
  have hrx : store.rxQueueDroppedBytes.get sessionId = some rxQueue :=
    congrArg SessionBooks.rxQueue h
  have hfb : store.frameBufferDroppedBytes.get sessionId = some frameBuffer :=
    congrArg SessionBooks.frameBuffer h
  unfold addFrameBufferDrop
  by_cases hzero : droppedBytes = 0
  · subst hzero
    rw [if_pos rfl, h, Nat.add_zero, ← hsum]
  · rw [if_neg hzero, hrx, hfb]
    obtain ⟨mid, hmid⟩ : ∃ mid : SessionStore, mid = { store with
        frameBufferDroppedBytes := store.frameBufferDroppedBytes.set sessionId
          (frameBuffer + droppedBytes) } := ⟨_, rfl⟩
    have hbooks : mid.books sessionId =
        ⟨some s, some row, some rxQueue, some (frameBuffer + droppedBytes)⟩ := by
      rw [hmid]
      unfold books at h ⊢
      simp only [SessionBooks.mk.injEq] at h ⊢
      exact ⟨h.1, h.2.1, h.2.2.1, get_set_self _ _ _⟩
    have hupdate := updateSession_books (fun session : SerialSession =>
      { session with droppedBytes := rxQueue + (frameBuffer + droppedBytes) })
      (fun _ hid => hid) hbooks rfl
    rw [hmid] at hupdate
    exact hupdate

theorem addFrameBufferDrop_accounting :
    (store.addFrameBufferDrop sessionId droppedBytes).accounting = store.accounting := by
  unfold addFrameBufferDrop
  split <;> rfl

theorem addFrameBufferDrop_bytes :
    bytesInAll (store.addFrameBufferDrop sessionId droppedBytes).sessions =
      bytesInAll store.sessions := by
  unfold addFrameBufferDrop
  split
  · rfl
  · exact updateSession_bytes_same (by exact fun _ => rfl)

theorem addFrameBufferDrop_snapshot :
    (store.addFrameBufferDrop sessionId droppedBytes).lastDeletedSession =
      store.lastDeletedSession := by
  unfold addFrameBufferDrop
  split <;> rfl

/-! ## A session behind a trim -/

/-- What happens to one session: the others are as they were, and the total follows what
the session retains. -/
structure SessionStep (sessionId : String) (bytes : Int) (before after : SessionStore) :
    Prop where
  ids : sessionIds after.sessions = sessionIds before.sessions
  others : SameBut sessionId before after
  retained : bytesInAll after.sessions = bytesInAll before.sessions + bytes
  counted : after.accounting.workspaceCaptureBytes =
    before.accounting.workspaceCaptureBytes + bytes
  snapshot : after.lastDeletedSession = before.lastDeletedSession

variable {s' : SerialSession}

theorem settleTrim_step (trim : FrameBufferTrimResult) (hnodup : (sessionIds store.sessions).Nodup)
    (hs : store.findSession sessionId = some s)
    (hrow : store.accounting.sessionTotals sessionId = some row) (hid : s'.id = sessionId)
    (hbytes : row.captureBytes = framesByteLength s.contents)
    (hretained : trim.retainedBytes = framesByteLength s'.contents) :
    SessionStep sessionId (framesByteLength s'.contents - framesByteLength s.contents) store
      (store.settleTrim s' trim) := by
  subst hid
  unfold settleTrim
  refine ⟨?_, ?_, ?_, ?_, ?_⟩
  · rw [addFrameBufferDrop_ids]
    exact updateSession_ids (fun _ _ => rfl)
  · exact ((updateSession_sameBut (fun _ _ => rfl)).trans
      (setRetainedFrameBytes_sameBut _)).trans (addFrameBufferDrop_sameBut _)
  · rw [addFrameBufferDrop_bytes]
    exact updateSession_bytes hnodup hs
  · rw [addFrameBufferDrop_accounting]
    change store.accounting.workspaceCaptureBytes +
      (trim.retainedBytes - (store.accounting.sessionRow s'.id).captureBytes) = _
    rw [sessionRow_of_some _ hrow, hretained, hbytes]
  · exact addFrameBufferDrop_snapshot _

theorem settleTrim_books (trim : FrameBufferTrimResult)
    (h : store.books sessionId = ⟨some s, some row, some rxQueue, some frameBuffer⟩)
    (hid : s'.id = sessionId) (hsum : s'.droppedBytes = rxQueue + frameBuffer) :
    (store.settleTrim s' trim).books sessionId =
      ⟨some { s' with droppedBytes := rxQueue + (frameBuffer + trim.droppedBytes) },
        some { row with captureBytes := trim.retainedBytes }, some rxQueue,
        some (frameBuffer + trim.droppedBytes)⟩ := by
  subst hid
  have hupdate := updateSession_books (fun _ => s') (fun _ _ => rfl) h rfl
  have hset := setRetainedFrameBytes_books trim.retainedBytes hupdate rfl
  exact addFrameBufferDrop_books trim.droppedBytes hset hsum

/-! ## The drops of the trim over all sessions -/

theorem applyGlobalDrop_sameBut (store : SessionStore) (entry : String × FrameDrop) :
    SameBut entry.1 store (store.applyGlobalDrop entry) :=
  (setRetainedFrameBytes_sameBut _).trans (addFrameBufferDrop_sameBut _)

theorem applyGlobalDrops_rest (drops : OrderedMap String FrameDrop) (store : SessionStore) :
    sessionIds (drops.foldl applyGlobalDrop store).sessions = sessionIds store.sessions ∧
      bytesInAll (drops.foldl applyGlobalDrop store).sessions = bytesInAll store.sessions ∧
      (drops.foldl applyGlobalDrop store).lastDeletedSession = store.lastDeletedSession := by
  induction drops generalizing store with
  | nil => exact ⟨rfl, rfl, rfl⟩
  | cons entry drops ih =>
    obtain ⟨hids, hbytes, hsnapshot⟩ := ih (store.applyGlobalDrop entry)
    rw [foldl_cons, hids, hbytes, hsnapshot]
    exact ⟨addFrameBufferDrop_ids _, addFrameBufferDrop_bytes _, addFrameBufferDrop_snapshot _⟩

variable {drops : OrderedMap String FrameDrop}

theorem applyGlobalDrops_absent (h : sessionId ∉ drops.map Prod.fst) (store : SessionStore) :
    (drops.foldl applyGlobalDrop store).books sessionId = store.books sessionId := by
  induction drops generalizing store with
  | nil => rfl
  | cons entry drops ih =>
    rw [map_cons, mem_cons, not_or] at h
    rw [foldl_cons, ih h.2]
    exact applyGlobalDrop_sameBut store entry sessionId h.1

/-- Each session has at most one entry, and that goes to its books. -/
theorem applyGlobalDrops_books (hkeys : (drops.map Prod.fst).Nodup) {store : SessionStore}
    (h : store.books sessionId = ⟨some s, some row, some rxQueue, some frameBuffer⟩)
    (hsum : s.droppedBytes = rxQueue + frameBuffer)
    (hrow : 0 ≤ row.captureBytes - (dropOf drops sessionId).droppedBytes) :
    (drops.foldl applyGlobalDrop store).books sessionId =
      ⟨some { s with
          droppedBytes := rxQueue + (frameBuffer + (dropOf drops sessionId).droppedBytes) },
        some { row with
          captureBytes := row.captureBytes - (dropOf drops sessionId).droppedBytes },
        some rxQueue, some (frameBuffer + (dropOf drops sessionId).droppedBytes)⟩ := by
  induction drops generalizing store with
  | nil =>
    rw [foldl_nil, h]
    simp [dropOf, ← hsum]
  | cons entry drops ih =>
    rw [map_cons, nodup_cons] at hkeys
    rw [foldl_cons]
    unfold dropOf at hrow ih ⊢
    rw [get_cons] at hrow ⊢
    by_cases hid : entry.1 = sessionId
    · subst hid
      rw [if_pos rfl, Option.getD_some] at hrow ⊢
      rw [applyGlobalDrops_absent hkeys.1]
      have hfirst := setRetainedFrameBytes_books (max 0 (row.captureBytes -
        entry.2.droppedBytes)) h rfl
      rw [max_eq_right hrow] at hfirst
      unfold applyGlobalDrop
      rw [sessionRow_of_some _ (congrArg SessionBooks.row h), max_eq_right hrow]
      exact addFrameBufferDrop_books entry.2.droppedBytes hfirst hsum
    · rw [if_neg hid] at hrow ⊢
      have hsame := applyGlobalDrop_sameBut store entry sessionId (Ne.symm hid)
      exact ih hkeys.2 (hsame.trans h) hrow

end SessionStore

end bbcom.capture
