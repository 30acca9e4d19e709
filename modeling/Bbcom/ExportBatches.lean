-- How the renderer cuts an export into batches (`use-export.ts`), against what the backend checks
-- of each of them (`validate_frame_batch`).
import Bbcom.ExportSessions
import Bbcom.WorkspaceValidation

open bbcom.js bbcom.serial
open bbcom.write_epoch (isOpaqueId)

namespace bbcom.export_session

open List Nat

/-! ## The generator -/

def EXPORT_BATCH_MAX_FRAMES : Nat := 256
def EXPORT_BATCH_MAX_BYTES : Nat := 512 * 1024
def EXPORT_FRAME_MAX_BYTES : Nat := 2 * 1024 * 1024

/-- What is sent of a frame. -/
def toExportFramePayload (frame : DataFrame) : DataFramePayload :=
  ⟨frame.id, frame.direction, frame.timestamp, frame.data⟩

def exportLimitMessage (frame : DataFrame) : String :=
  "Frame " ++ frame.id ++ " exceeds the " ++ toString EXPORT_FRAME_MAX_BYTES ++ "-byte export limit"

/-- The loop of the generator: what it yields from here on, and what it throws in the end. -/
def exportBatches : (batch : List DataFramePayload) → (batchBytes : Nat) → List DataFrame →
    List (List DataFramePayload) × Option String
  | batch, _, [] => (if 0 < batch.length then [batch] else [], none)
  | batch, batchBytes, frame :: frames =>
    let frameBytes := frame.data.length
    if EXPORT_FRAME_MAX_BYTES < frameBytes then ([], some (exportLimitMessage frame))
    else if EXPORT_BATCH_MAX_BYTES < frameBytes then
      if 0 < batch.length then
        let (yielded, thrown) := exportBatches [] 0 frames
        (batch :: [toExportFramePayload frame] :: yielded, thrown)
      else
        let (yielded, thrown) := exportBatches batch batchBytes frames
        ([toExportFramePayload frame] :: yielded, thrown)
    else if EXPORT_BATCH_MAX_FRAMES ≤ batch.length ∨
        (0 < batch.length ∧ EXPORT_BATCH_MAX_BYTES < batchBytes + frameBytes) then
      let (yielded, thrown) := exportBatches [toExportFramePayload frame] frameBytes frames
      (batch :: yielded, thrown)
    else
      exportBatches (batch ++ [toExportFramePayload frame]) (batchBytes + frameBytes) frames

def createExportBatches (frames : List DataFrame) : List (List DataFramePayload) × Option String :=
  exportBatches [] 0 frames

/-! ## What the backend lets in -/

/-- The identifiers that the backend takes. -/
def ShortIds (batch : List DataFramePayload) : Prop :=
  ∀ frame ∈ batch, frame.id.utf8ByteSize ≤ MAX_FRAME_ID_BYTES

instance (batch : List DataFramePayload) : Decidable (ShortIds batch) := decidableBAll _ _

def rawBytesIn (batch : List DataFramePayload) : Nat := (batch.map (·.data.length)).sum

/-- A batch in the limits of the generator: enough room, or one frame alone. -/
structure InLimits (batch : List DataFramePayload) : Prop where
  count : batch.length ≤ EXPORT_BATCH_MAX_FRAMES
  frames : ∀ frame ∈ batch, frame.data.length ≤ EXPORT_FRAME_MAX_BYTES
  room : rawBytesIn batch ≤ EXPORT_BATCH_MAX_BYTES ∨ batch.length = 1

theorem validateFrames_isOk {count : Nat} {frames : List DataFramePayload} {total : Nat}
    (hframes : ∀ frame ∈ frames, frame.data.length ≤ EXPORT_FRAME_MAX_BYTES)
    (hroom : total + rawBytesIn frames ≤ EXPORT_BATCH_MAX_BYTES ∨ count = 1 ∧
      total + rawBytesIn frames ≤ EXPORT_FRAME_MAX_BYTES) :
    (validateFrames count total frames).isOk ↔ ShortIds frames := by
  induction frames generalizing total with
  | nil => simp [validateFrames, ShortIds, Except.isOk, Except.toBool]
  | cons frame frames ih =>
    obtain ⟨hframe, hrest⟩ := forall_mem_cons.1 hframes
    have hnext : total + rawBytesIn (frame :: frames) =
        total + frame.data.length + rawBytesIn frames := by
      simp [rawBytesIn, Nat.add_assoc]
    rw [hnext] at hroom
    simp only [EXPORT_FRAME_MAX_BYTES, EXPORT_BATCH_MAX_BYTES] at hframe hroom
    have hdata : ¬ MAX_FRAME_BYTES < frame.data.length := by
      simp only [MAX_FRAME_BYTES]
      omega
    have hword : ¬ 2 ^ 64 - 1 < total + frame.data.length := by omega
    have hbatch : ¬ (MAX_BATCH_BYTES < total + frame.data.length ∧ count ≠ 1) := by
      simp only [MAX_BATCH_BYTES]
      omega
    unfold validateFrames
    by_cases hid : MAX_FRAME_ID_BYTES < frame.id.utf8ByteSize
    · rw [if_pos hid]
      refine iff_of_false (by simp [Except.isOk, Except.toBool]) fun hshort => ?_
      exact absurd (hshort frame mem_cons_self) (by omega)
    · rw [if_neg hid, if_neg hdata, if_neg hword, if_neg hbatch, ih hrest hroom]
      simp [ShortIds, Nat.le_of_not_lt hid]

variable {batch : List DataFramePayload} {batchBytes : Nat} {frame : DataFrame}

/-- The limits of the generator are those of the backend, which looks at the identifiers too. -/
theorem InLimits.isOk_iff (h : InLimits batch) :
    (validateFrameBatch batch).isOk ↔ ShortIds batch := by
  have hcount : ¬ MAX_BATCH_FRAMES < batch.length := not_lt.2 h.count
  unfold validateFrameBatch
  rw [if_neg hcount]
  apply validateFrames_isOk h.frames
  obtain hroom | hone := h.room
  · exact .inl (by simpa using hroom)
  · obtain ⟨frame, rfl⟩ := length_eq_one_iff.1 hone
    exact .inr ⟨rfl, by simpa [rawBytesIn] using h.frames frame mem_cons_self⟩

/-! ## What the generator yields -/

/-- The batch in hand: it is in the limits, and its bytes have been counted. -/
structure InHand (batch : List DataFramePayload) (batchBytes : Nat) : Prop where
  count : batch.length ≤ EXPORT_BATCH_MAX_FRAMES
  frames : ∀ frame ∈ batch, frame.data.length ≤ EXPORT_FRAME_MAX_BYTES
  counted : batchBytes = rawBytesIn batch
  room : batchBytes ≤ EXPORT_BATCH_MAX_BYTES

theorem InHand.inLimits (h : InHand batch batchBytes) : InLimits batch :=
  ⟨h.count, h.frames, .inl (h.counted ▸ h.room)⟩

theorem inHand_nil : InHand [] 0 := ⟨zero_le _, by simp, rfl, zero_le _⟩

theorem inHand_singleton (hframe : frame.data.length ≤ EXPORT_BATCH_MAX_BYTES) :
    InHand [toExportFramePayload frame] frame.data.length := by
  refine ⟨le_of_ble_eq_true rfl, ?_, by simp [rawBytesIn, toExportFramePayload], hframe⟩
  simp only [EXPORT_BATCH_MAX_BYTES] at hframe
  simp only [mem_singleton, forall_eq, toExportFramePayload, EXPORT_FRAME_MAX_BYTES]
  omega

theorem InHand.push (h : InHand batch batchBytes) (hcount : batch.length < EXPORT_BATCH_MAX_FRAMES)
    (hframe : frame.data.length ≤ EXPORT_FRAME_MAX_BYTES)
    (hroom : batchBytes + frame.data.length ≤ EXPORT_BATCH_MAX_BYTES) :
    InHand (batch ++ [toExportFramePayload frame]) (batchBytes + frame.data.length) where
  count := by
    rw [length_append]
    exact hcount
  frames other hother := by
    rcases mem_append.1 hother with hin | hlast
    · exact h.frames other hin
    · rw [mem_singleton.1 hlast]
      exact hframe
  counted := by simp [h.counted, rawBytesIn, toExportFramePayload]
  room := hroom

/-- Batches that hold these frames in order, each of them in the limits. -/
structure Batches (frames : List DataFramePayload) (batches : List (List DataFramePayload)) :
    Prop where
  whole : batches.flatten = frames
  nonempty : ∀ batch ∈ batches, batch ≠ []
  inLimits : ∀ batch ∈ batches, InLimits batch

theorem Batches.cons {frames : List DataFramePayload} {batches : List (List DataFramePayload)}
    (h : Batches frames batches) (hbatch : InLimits batch) (hsome : batch ≠ []) :
    Batches (batch ++ frames) (batch :: batches) where
  whole := by simp [h.whole]
  nonempty := forall_mem_cons.2 ⟨hsome, h.nonempty⟩
  inLimits := forall_mem_cons.2 ⟨hbatch, h.inLimits⟩

theorem inLimits_singleton (hframe : frame.data.length ≤ EXPORT_FRAME_MAX_BYTES) :
    InLimits [toExportFramePayload frame] :=
  ⟨by simp [EXPORT_BATCH_MAX_FRAMES], by simpa [toExportFramePayload] using hframe, .inr rfl⟩

theorem exportBatches_batches (h : InHand batch batchBytes) {frames : List DataFrame}
    (hframes : ∀ frame ∈ frames, frame.data.length ≤ EXPORT_FRAME_MAX_BYTES) :
    (exportBatches batch batchBytes frames).2 = none ∧
      Batches (batch ++ frames.map toExportFramePayload)
        (exportBatches batch batchBytes frames).1 := by
  induction frames generalizing batch batchBytes with
  | nil =>
    have hnone : Batches [] [] := ⟨rfl, by simp, by simp⟩
    cases batch with
    | nil => exact ⟨rfl, hnone⟩
    | cons first batch => exact ⟨rfl, hnone.cons h.inLimits (by simp)⟩
  | cons frame frames ih =>
    obtain ⟨hframe, hrest⟩ := forall_mem_cons.1 hframes
    have halone := inLimits_singleton hframe
    simp only [exportBatches, if_neg (not_lt.2 hframe), map_cons]
    by_cases hover : EXPORT_BATCH_MAX_BYTES < frame.data.length
    · rw [if_pos hover]
      obtain ⟨hthrown, hlater⟩ := ih inHand_nil hrest
      cases batch with
      | nil =>
        obtain ⟨hthrown, hlater⟩ := ih h hrest
        exact ⟨hthrown, hlater.cons halone (by simp)⟩
      | cons first batch =>
        exact ⟨hthrown, (hlater.cons halone (by simp)).cons h.inLimits (by simp)⟩
    · rw [if_neg hover]
      split
      · rename_i hfull
        -- a full batch has frames
        have hsome : batch ≠ [] := by
          rintro rfl
          simp [EXPORT_BATCH_MAX_FRAMES] at hfull
        obtain ⟨hthrown, hlater⟩ := ih (inHand_singleton (not_lt.1 hover)) hrest
        exact ⟨hthrown, hlater.cons h.inLimits hsome⟩
      · rename_i hroom
        have hfits : batchBytes + frame.data.length ≤ EXPORT_BATCH_MAX_BYTES := by
          cases batch with
          | nil =>
            rw [h.counted]
            simpa [rawBytesIn] using hover
          | cons first batch => exact (by simpa using hroom : _ ∧ _).2
        obtain ⟨hthrown, hlater⟩ := ih (h.push (by omega) hframe hfits) hrest
        rw [append_assoc] at hlater
        exact ⟨hthrown, hlater⟩

/-- A frame as a session holds it. Its id is one that `validateWorkspaceIdentifier` takes: a frame
that is captured gets a UUID of `createId`, and a stored one is hydrated behind that check. -/
structure SessionFrame extends DataFrame where
  id_valid : isOpaqueId id.toList = true

theorem utf8ByteSize_ascii {text : List Char} (h : ∀ c ∈ text, c.val ≤ 127) :
    (String.ofList text).utf8ByteSize = text.length := by
  induction text with
  | nil => rfl
  | cons c text ih =>
    obtain ⟨hc, hrest⟩ := forall_mem_cons.1 h
    have hone := Char.utf8Size_eq_one_iff.2 hc
    have hcons : String.ofList (c :: text) = String.singleton c ++ String.ofList text := by simp
    rw [hcons, String.utf8ByteSize_append, ih hrest]
    simp [hone]
    omega

theorem ascii_of_isAlphanum {c : Char} (h : c.isAlphanum = true) : c.val ≤ 127 := by
  simp [Char.isAlphanum, Char.isAlpha, Char.isUpper, Char.isLower, Char.isDigit,
    UInt32.le_iff_toNat_le] at h ⊢
  omega

/-- An opaque id is in the limit of the backend. -/
theorem utf8ByteSize_isOpaqueId {id : String} (h : isOpaqueId id.toList = true) :
    id.utf8ByteSize ≤ 128 := by
  unfold isOpaqueId at h
  rcases htext : id.toList with _ | ⟨first, rest⟩
  · rw [htext] at h
    cases h
  · rw [htext] at h
    simp only [Bool.and_eq_true, decide_eq_true_eq, all_eq_true, Bool.or_eq_true] at h
    obtain ⟨⟨hfirst, hlength⟩, hrest⟩ := h
    have hascii : ∀ c ∈ first :: rest, c.val ≤ 127 := by
      rintro c (_ | ⟨_, hc⟩)
      · exact ascii_of_isAlphanum hfirst
      · rcases hrest c hc with (((hc | rfl) | rfl) | rfl) | rfl
        · exact ascii_of_isAlphanum hc
        all_goals decide
    have hsize := utf8ByteSize_ascii hascii
    rw [← htext, String.ofList_toList] at hsize
    rw [hsize, htext, length_cons]
    omega

def plainSessionFrame (data : Uint8Array) : SessionFrame where
  id := "frame-1"
  direction := .RX
  timestamp := .finite 0
  data
  captureSeq := none
  origin := none
  contentVersion := none
  omittedBytes := none
  txStatus := none
  requestedBytes := none
  id_valid := rfl

/-- More empty frames than a batch takes, one that is too large for a batch, and a small one. -/
def mixedFrames : List SessionFrame :=
  replicate 257 (plainSessionFrame []) ++
    [plainSessionFrame (replicate (EXPORT_BATCH_MAX_BYTES + 1) 0), plainSessionFrame [0x41]]

end bbcom.export_session
