-- The records of a protocol session (`session-protocol-runtime.ts`): what was parsed since the
-- last reset, in a window that drops the oldest ones.
import Bbcom.Lib.Runs

open bbcom.runs

namespace bbcom.protocol_runtime

open List Nat

/-! ## The window -/

/-- `parsedFrames` with its head: a slot in front of the head is blank. `ρ` are the records. -/
structure RecordWindow (ρ : Type) where
  parsedFrames : List (Option ρ)
  parsedFrameHead : Nat
  retainedBytes : Int
  droppedFrames : Nat
  droppedBytes : Nat
  deriving DecidableEq

structure SessionProtocolRuntimeLimits where
  maxFrames : Nat
  maxBytes : Nat

namespace RecordWindow

variable {ρ : Type} (byteLength : ρ → Nat) (limits : SessionProtocolRuntimeLimits)

/-- What `resetState` leaves of it. -/
def empty : RecordWindow ρ := ⟨[], 0, 0, 0, 0⟩

variable (w : RecordWindow ρ)

/-- Too many records are retained, or too many bytes. -/
def Overflows : Prop :=
  (limits.maxFrames : Int) < w.parsedFrames.length - w.parsedFrameHead ∨
    limits.maxBytes < w.retainedBytes

instance : Decidable (w.Overflows limits) := inferInstanceAs (Decidable (_ ∨ _))

/-- One turn of the loop that drops records. -/
def drop (dropped : ρ) : RecordWindow ρ where
  parsedFrames := w.parsedFrames.set w.parsedFrameHead none
  parsedFrameHead := w.parsedFrameHead + 1
  retainedBytes := w.retainedBytes - byteLength dropped
  droppedFrames := w.droppedFrames + 1
  droppedBytes := w.droppedBytes + byteLength dropped

/-- The loop. Nothing comes back where it reads a blank slot or one behind the others, of which it
could not read the length, or where the fuel is too low. -/
def dropOldest (fuel : Nat) (w : RecordWindow ρ) : Option (RecordWindow ρ) :=
  if w.Overflows limits then
    match fuel, w.parsedFrames[w.parsedFrameHead]? with
    | fuel + 1, some (some dropped) => dropOldest fuel (w.drop byteLength dropped)
    | _, _ => none
  else some w

/-- The blank slots go when they are half of them all. -/
def compact : RecordWindow ρ :=
  if 0 < w.parsedFrameHead ∧ w.parsedFrames.length ≤ 2 * w.parsedFrameHead then
    { w with parsedFrames := w.parsedFrames.drop w.parsedFrameHead, parsedFrameHead := 0 }
  else w

def push (record : ρ) : RecordWindow ρ :=
  { w with
    parsedFrames := w.parsedFrames ++ [some record]
    retainedBytes := w.retainedBytes + byteLength record }

def pushParsedFrame (record : ρ) : Option (RecordWindow ρ) :=
  ((w.push byteLength record).dropOldest byteLength limits (w.parsedFrames.length + 1)).map compact

/-- `frames` of `snapshot`, blank slots and all. -/
def snapshotFrames : List (Option ρ) := w.parsedFrames.drop w.parsedFrameHead

def processedFrameCount : Int := w.droppedFrames + w.parsedFrames.length - w.parsedFrameHead

end RecordWindow

/-! ## What a window keeps -/

variable {ρ : Type} (byteLength : ρ → Nat) (limits : SessionProtocolRuntimeLimits)

def bytesOf (records : List ρ) : Nat := (records.map byteLength).sum

/-- Records that both limits let in. -/
def Fits (records : List ρ) : Prop :=
  records.length ≤ limits.maxFrames ∧ bytesOf byteLength records ≤ limits.maxBytes

/-- The longest suffix that fits. -/
structure LongestFitting (all kept : List ρ) : Prop where
  suffix : kept <:+ all
  fits : Fits byteLength limits kept
  longest : ∀ other, other <:+ all → Fits byteLength limits other → other <:+ kept

/-- A window with these records, which the dropped ones stood in front of. -/
structure Holds (dropped kept : List ρ) (w : RecordWindow ρ) : Prop where
  slots : w.parsedFrames = List.replicate w.parsedFrameHead none ++ kept.map some
  bytes : w.retainedBytes = bytesOf byteLength kept
  droppedFrames : w.droppedFrames = dropped.length
  droppedBytes : w.droppedBytes = bytesOf byteLength dropped

variable {byteLength limits} {dropped kept : List ρ} {w : RecordWindow ρ}

@[simp] theorem bytesOf_nil : bytesOf byteLength [] = 0 := rfl

@[simp] theorem bytesOf_cons (record : ρ) (records : List ρ) :
    bytesOf byteLength (record :: records) = byteLength record + bytesOf byteLength records := by
  simp [bytesOf]

@[simp] theorem bytesOf_append (front back : List ρ) :
    bytesOf byteLength (front ++ back) = bytesOf byteLength front + bytesOf byteLength back := by
  simp [bytesOf]

/-- What fits goes on fitting with fewer records. -/
theorem Fits.sublist {records other : List ρ} (h : Fits byteLength limits records)
    (hsub : other.Sublist records) : Fits byteLength limits other := by
  have hbytes : bytesOf byteLength other ≤ bytesOf byteLength records :=
    (hsub.map byteLength).sum_le_sum fun _ _ => zero_le _
  exact ⟨hsub.length_le.trans h.1, hbytes.trans h.2⟩

open RecordWindow

theorem Holds.empty : Holds byteLength [] [] (empty : RecordWindow ρ) :=
  ⟨rfl, rfl, rfl, rfl⟩

theorem Holds.overflows_iff (h : Holds byteLength dropped kept w) :
    w.Overflows limits ↔ ¬ Fits byteLength limits kept := by
  unfold Overflows Fits
  rw [h.slots, h.bytes]
  simp only [length_append, length_replicate, length_map]
  omega

theorem Holds.push (h : Holds byteLength dropped kept w) (record : ρ) :
    Holds byteLength dropped (kept ++ [record]) (w.push byteLength record) where
  slots := by simp [RecordWindow.push, h.slots]
  bytes := by simp [RecordWindow.push, h.bytes]
  droppedFrames := h.droppedFrames
  droppedBytes := h.droppedBytes

theorem Holds.drop {record : ρ} (h : Holds byteLength dropped (record :: kept) w) :
    Holds byteLength (dropped ++ [record]) kept (w.drop byteLength record) where
  slots := by
    simp [RecordWindow.drop, h.slots, replicate_succ']
  bytes := by simp [RecordWindow.drop, h.bytes]
  droppedFrames := by simp [RecordWindow.drop, h.droppedFrames]
  droppedBytes := by simp [RecordWindow.drop, h.droppedBytes]

section

variable (h : Holds byteLength dropped kept w)
include h

theorem Holds.compact : Holds byteLength dropped kept w.compact := by
  unfold RecordWindow.compact
  split
  · exact ⟨by simp [h.slots], h.bytes, h.droppedFrames, h.droppedBytes⟩
  · exact h

theorem Holds.snapshot : w.snapshotFrames = kept.map some := by
  simp [snapshotFrames, h.slots]

theorem Holds.processed : w.processedFrameCount = (dropped ++ kept).length := by
  unfold processedFrameCount
  rw [h.slots, h.droppedFrames]
  simp
  omega

/-- The loop ends with the longest suffix that fits, and reads no blank slot. -/
theorem Holds.dropOldest {fuel : Nat} (hfuel : kept.length ≤ fuel) :
    ∃ gone left w', w.dropOldest byteLength limits fuel = some w' ∧ kept = gone ++ left ∧
      Holds byteLength (dropped ++ gone) left w' ∧ LongestFitting byteLength limits kept left := by
  induction fuel generalizing dropped kept w with
  | zero =>
    obtain rfl := length_eq_zero_iff.1 (le_zero.1 hfuel)
    have hfits : Fits byteLength limits ([] : List ρ) := ⟨zero_le _, zero_le _⟩
    have hno : ¬ w.Overflows limits := fun hover => h.overflows_iff.1 hover hfits
    refine ⟨[], [], w, by simp [dropOldest, hno], rfl, by simpa using h, ?_⟩
    exact ⟨suffix_rfl, hfits, fun other hother _ => hother⟩
  | succ fuel ih =>
    by_cases hover : w.Overflows limits
    · have hunfit := h.overflows_iff.1 hover
      cases kept with
      | nil => exact absurd ⟨zero_le _, zero_le _⟩ hunfit
      | cons record kept =>
        have hslot : w.parsedFrames[w.parsedFrameHead]? = some (some record) := by
          simp [h.slots]
        obtain ⟨gone, left, w', hloop, rfl, hholds, hlongest⟩ := ih h.drop (by simpa using hfuel)
        refine ⟨record :: gone, left, w', ?_, rfl, by simpa using hholds, ?_⟩
        · unfold dropOldest
          simp only [if_pos hover, hslot]
          exact hloop
        · refine ⟨hlongest.suffix.trans (suffix_cons _ _), hlongest.fits, ?_⟩
          intro other hother hfits
          obtain rfl | hrest := suffix_cons_iff.1 hother
          · exact absurd hfits hunfit
          · exact hlongest.longest other hrest hfits
    · have hfits : Fits byteLength limits kept := by
        by_contra hnot
        exact hover (h.overflows_iff.2 hnot)
      have hstop : w.dropOldest byteLength limits (fuel + 1) = some w := by
        unfold dropOldest
        rw [if_neg hover]
      refine ⟨[], kept, w, hstop, rfl, by simpa using h, ?_⟩
      exact ⟨suffix_rfl, hfits, fun other hother _ => hother⟩

end

variable {all : List ρ} {s : Option (RecordWindow ρ)}

/-- One more record: the longest suffix of what was kept is that of all records. -/
theorem LongestFitting.push {left : List ρ} (h : LongestFitting byteLength limits all kept)
    {record : ρ} (hleft : LongestFitting byteLength limits (kept ++ [record]) left) :
    LongestFitting byteLength limits (all ++ [record]) left where
  suffix := by
    obtain ⟨front, rfl⟩ := h.suffix
    exact hleft.suffix.trans ⟨front, by simp⟩
  fits := hleft.fits
  longest other hother hfits := by
    apply hleft.longest other ?_ hfits
    obtain ⟨front, hsplit⟩ := hother
    cases hlast : other using List.reverseRecOn with
    | nil => exact nil_suffix
    | append_singleton init last _ =>
      subst hlast
      rw [← append_assoc] at hsplit
      obtain ⟨hinit, hrecord⟩ := append_inj' hsplit rfl
      obtain ⟨before, hbefore⟩ := h.longest init ⟨front, hinit⟩
        (hfits.sublist (sublist_append_left _ _))
      cases hrecord
      exact ⟨before, by rw [← hbefore, append_assoc]⟩

/-! ## Runs -/

inductive WindowEvent (ρ : Type)
  | pushed (record : ρ)
  /-- `resetState`. -/
  | reset

variable (byteLength limits) in
/-- A window that has failed stays so. -/
def step (w : Option (RecordWindow ρ)) : WindowEvent ρ → Option (RecordWindow ρ)
  | .pushed record => w.bind (·.pushParsedFrame byteLength limits record)
  | .reset => w.map fun _ => .empty

/-- The records pushed since the last reset. -/
def noted (records : List ρ) : WindowEvent ρ → List ρ
  | .pushed record => records ++ [record]
  | .reset => []

def pushedSinceReset (events : List (WindowEvent ρ)) : List ρ := events.foldl noted []

/-- What `syncCaptureTimeline` and `runReplaySlice` publish a change for. -/
def HasChanged (before after : RecordWindow ρ) : Prop :=
  after.processedFrameCount ≠ before.processedFrameCount

variable (byteLength limits) in
/-- The window of these records: none is missing, and the last ones are retained. -/
structure WindowOf (all dropped kept : List ρ) (w : RecordWindow ρ) : Prop where
  split : all = dropped ++ kept
  longest : LongestFitting byteLength limits all kept
  snapshot : w.snapshotFrames = kept.map some
  retainedBytes : w.retainedBytes = bytesOf byteLength kept
  droppedFrames : w.droppedFrames = dropped.length
  droppedBytes : w.droppedBytes = bytesOf byteLength dropped
  processed : w.processedFrameCount = all.length

variable (byteLength limits) in
def Windowed (all : List ρ) (s : Option (RecordWindow ρ)) : Prop :=
  ∃ w dropped kept, s = some w ∧ all = dropped ++ kept ∧ Holds byteLength dropped kept w ∧
    LongestFitting byteLength limits all kept

variable (byteLength limits) in
theorem windowed_empty : Windowed byteLength limits [] (some (.empty : RecordWindow ρ)) :=
  ⟨_, [], [], rfl, rfl, .empty, ⟨suffix_rfl, ⟨zero_le _, zero_le _⟩, fun _ hother _ => hother⟩⟩

theorem windowed_step (h : Windowed byteLength limits all s) (e : WindowEvent ρ) :
    Windowed byteLength limits (noted all e) (step byteLength limits s e) := by
  obtain ⟨w, dropped, kept, rfl, rfl, hholds, hlongest⟩ := h
  cases e with
  | pushed record =>
    have hslots : (kept ++ [record]).length ≤ w.parsedFrames.length + 1 := by
      simp [hholds.slots]
    obtain ⟨gone, left, w', hloop, hsplit, hleft, hrest⟩ := (hholds.push record).dropOldest hslots
    refine ⟨w'.compact, dropped ++ gone, left, ?_, ?_, hleft.compact, hlongest.push hrest⟩
    · simp [step, pushParsedFrame, hloop]
    · simp [noted, hsplit]
  | reset => exact windowed_empty byteLength limits

theorem windowed_run (h : Windowed byteLength limits all s) (events : List (WindowEvent ρ)) :
    Windowed byteLength limits (events.foldl noted all)
      (run (step byteLength limits) s events) := by
  induction events generalizing all s with
  | nil => exact h
  | cons e events ih => exact ih (windowed_step h e)

theorem noted_pushes (all records : List ρ) :
    (records.map WindowEvent.pushed).foldl noted all = all ++ records := by
  induction records generalizing all with
  | nil => simp
  | cons record records ih => simp [noted, ih]

theorem Windowed.windowOf (h : Windowed byteLength limits all s) :
    ∃ w dropped kept, s = some w ∧
      WindowOf byteLength limits all dropped kept w := by
  obtain ⟨w, dropped, kept, rfl, rfl, hholds, hlongest⟩ := h
  exact ⟨w, dropped, kept, rfl, rfl, hlongest, hholds.snapshot, hholds.bytes,
    hholds.droppedFrames, hholds.droppedBytes, hholds.processed⟩

end bbcom.protocol_runtime
