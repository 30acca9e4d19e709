-- The waveform of a session (`waveform.ts`): which frames the next ingestion has to look at, found
-- again by the id of the last one that it looked at, and the bounded ring of samples.
import Bbcom.Js
import Bbcom.Lib.Borders
import Bbcom.Lib.Doubles
import Bbcom.Lib.Runs

open bbcom.js bbcom.runs bbcom.borders bbcom.doubles

namespace bbcom.waveform

open List

/-! ## The ring of samples -/

section ring

variable {α : Type}

/-- The ring. Only finite timestamps get in, so they are the numbers that they stand for. -/
structure WaveformBuffer (α : Type) where
  samples : List α
  timestamps : List ℚ
  originTimestamp : Option ℚ
  capacity : Nat
  totalDroppedSamples : Nat

def createBuffer (capacity : Nat) : WaveformBuffer α := ⟨[], [], none, capacity, 0⟩

def nextSampleTimestamp (buf : WaveformBuffer α) : ℚ :=
  match buf.timestamps.getLast? with
  | some last => plusOne last
  | none => 0

/-- The number that `Number.isFinite` lets through. -/
def finiteValue : JsNumber → Option ℚ
  | .finite q => some q
  | .negativeZero => some 0
  | _ => none

def normalizeSampleTimestamp (buf : WaveformBuffer α) (timestamp : JsNumber) : ℚ :=
  match finiteValue timestamp with
  | none => nextSampleTimestamp buf
  | some timestamp =>
    match buf.timestamps.getLast? with
    | some last => if timestamp ≤ last then plusOne last else timestamp
    | none => timestamp

/-- `pushSample`; without a timestamp it takes the next one. -/
def pushSample (buf : WaveformBuffer α) (sample : α) (timestamp : Option JsNumber) :
    WaveformBuffer α :=
  let timestamp := timestamp.getD (.finite (nextSampleTimestamp buf))
  let normalizedTimestamp := normalizeSampleTimestamp buf timestamp
  let originTimestamp := some (buf.originTimestamp.getD normalizedTimestamp)
  let samples := buf.samples ++ [sample]
  let timestamps := buf.timestamps ++ [normalizedTimestamp]
  if samples.length > buf.capacity then
    let dropCount := samples.length - buf.capacity
    { buf with
        samples := samples.drop dropCount
        timestamps := timestamps.drop dropCount
        originTimestamp
        totalDroppedSamples := buf.totalDroppedSamples + dropCount }
  else { buf with samples, timestamps, originTimestamp }

/-- The ring after some pushes. -/
def pushAll (capacity : Nat) (pushes : List (α × Option JsNumber)) : WaveformBuffer α :=
  run (fun buf push => pushSample buf push.1 push.2) (createBuffer capacity) pushes

/-- The ring keeps the last of everything, with a timestamp for each sample. -/
theorem pushSample_fields (buf : WaveformBuffer α) (sample : α) (timestamp : Option JsNumber)
    (hpaired : buf.timestamps.length = buf.samples.length) :
    (pushSample buf sample timestamp).capacity = buf.capacity ∧
    (pushSample buf sample timestamp).samples = lastItems buf.capacity (buf.samples ++ [sample]) ∧
    (pushSample buf sample timestamp).timestamps =
      lastItems buf.capacity (buf.timestamps ++ [normalizeSampleTimestamp buf
        (timestamp.getD (.finite (nextSampleTimestamp buf)))]) := by
  unfold pushSample
  dsimp only
  split
  · refine ⟨rfl, rfl, ?_⟩
    simp only [lastItems, length_append, length_singleton, hpaired]
  · rename_i hfits
    simp only [length_append, length_singleton] at hfits
    have hnone : buf.samples.length + 1 - buf.capacity = 0 := by omega
    refine ⟨rfl, ?_, ?_⟩
    · simp [lastItems, hnone]
    · simp [lastItems, hpaired, hnone]

variable {buf : WaveformBuffer α}

theorem paired_push (hpaired : buf.timestamps.length = buf.samples.length) (sample : α)
    (timestamp : Option JsNumber) :
    (pushSample buf sample timestamp).timestamps.length =
      (pushSample buf sample timestamp).samples.length := by
  obtain ⟨-, hsamples, htimestamps⟩ := pushSample_fields buf sample timestamp hpaired
  rw [hsamples, htimestamps, length_lastItems, length_lastItems, length_append,
    length_append, hpaired]
  rfl

/-- What holds of the ring after it was given some samples. -/
structure Ring (capacity : Nat) (pushed : List α) (buf : WaveformBuffer α) : Prop where
  capacity_eq : buf.capacity = capacity
  newest : buf.samples = lastItems capacity pushed
  paired : buf.timestamps.length = buf.samples.length

variable {capacity : Nat}

theorem Ring.within {pushed : List α} (h : Ring capacity pushed buf) :
    buf.samples.length ≤ capacity := by
  rw [h.newest, length_lastItems]
  exact Nat.min_le_left _ _

theorem Ring.push {pushed : List α} (h : Ring capacity pushed buf) (sample : α)
    (timestamp : Option JsNumber) :
    Ring capacity (pushed ++ [sample]) (pushSample buf sample timestamp) := by
  obtain ⟨hcapacity, hsamples, -⟩ := pushSample_fields buf sample timestamp h.paired
  refine ⟨hcapacity.trans h.capacity_eq, ?_, paired_push h.paired sample timestamp⟩
  rw [hsamples, h.capacity_eq, h.newest, lastItems_append]

theorem ring_pushAll (capacity : Nat) (pushes : List (α × Option JsNumber)) :
    Ring capacity (pushes.map Prod.fst) (pushAll capacity pushes) := by
  have hall : ∀ (buf : WaveformBuffer α) (pushed : List α), Ring capacity pushed buf →
      Ring capacity (pushed ++ pushes.map Prod.fst)
        (run (fun buf push => pushSample buf push.1 push.2) buf pushes) := by
    induction pushes with
    | nil => intro buf pushed h; simpa using h
    | cons push pushes ih =>
      intro buf pushed h
      have hnext := ih _ _ (h.push push.1 push.2)
      simpa using hnext
  exact hall (createBuffer capacity) [] ⟨rfl, by simp [createBuffer, lastItems], rfl⟩

/-! ## The order of the timestamps -/

/-- The newest timestamp is one that a number can still be counted up from. -/
def Countable (buf : WaveformBuffer α) (_push : α × Option JsNumber) : Prop :=
  ∀ last, buf.timestamps.getLast? = some last → -2 ^ 53 ≤ last ∧ last ≤ 2 ^ 53 - 1

theorem lt_normalize {last : ℚ} (hlast : buf.timestamps.getLast? = some last)
    (hlow : -2 ^ 53 ≤ last) (hhigh : last ≤ 2 ^ 53 - 1) (timestamp : JsNumber) :
    last < normalizeSampleTimestamp buf timestamp := by
  have hplus := lt_plusOne hlow hhigh
  unfold normalizeSampleTimestamp nextSampleTimestamp
  rw [hlast]
  split
  · exact hplus
  · simp only
    split
    · exact hplus
    · rename_i hlater
      exact not_le.mp hlater

theorem sorted_push {push : α × Option JsNumber}
    (hpaired : buf.timestamps.length = buf.samples.length)
    (hsorted : buf.timestamps.Pairwise (· < ·)) (hcountable : Countable buf push) :
    (pushSample buf push.1 push.2).timestamps.Pairwise (· < ·) := by
  rw [(pushSample_fields buf push.1 push.2 hpaired).2.2]
  refine Pairwise.sublist (lastItems_suffix _ _).sublist ?_
  rw [pairwise_append]
  refine ⟨hsorted, pairwise_singleton _ _, ?_⟩
  intro earlier hin next hnext
  obtain rfl := mem_singleton.mp hnext
  obtain ⟨front, last, hsplit⟩ : ∃ front last, buf.timestamps = front ++ [last] :=
    ⟨_, _, (dropLast_append_getLast (ne_nil_of_mem hin)).symm⟩
  have hlast : buf.timestamps.getLast? = some last := by simp [hsplit]
  obtain ⟨hlow, hhigh⟩ := hcountable last hlast
  have hlater := lt_normalize hlast hlow hhigh
  rw [hsplit] at hin hsorted
  rcases mem_append.mp hin with hin | hin
  · exact ((pairwise_append.mp hsorted).2.2 earlier hin last (by simp)).trans (hlater _)
  · rw [mem_singleton.mp hin]
    exact hlater _

theorem sorted_pushAll {pushes : List (α × Option JsNumber)}
    (hcountable : Along (fun buf push => pushSample buf push.1 push.2) Countable
      (createBuffer capacity) pushes) :
    (pushAll capacity pushes).timestamps.Pairwise (· < ·) := by
  have hkeep : ∀ (buf : WaveformBuffer α) (push : α × Option JsNumber), Countable buf push →
      (buf.timestamps.length = buf.samples.length ∧ buf.timestamps.Pairwise (· < ·)) →
      ((pushSample buf push.1 push.2).timestamps.length =
          (pushSample buf push.1 push.2).samples.length ∧
        (pushSample buf push.1 push.2).timestamps.Pairwise (· < ·)) := by
    rintro buf push hcount ⟨hpaired, hsorted⟩
    exact ⟨paired_push hpaired push.1 push.2, sorted_push hpaired hsorted hcount⟩
  exact (run_invariant_along hkeep ⟨rfl, Pairwise.nil⟩ hcountable).2

end ring

/-! ## The plan of an ingestion -/

structure WaveformFrameIdentity where
  id : Option String
  deriving DecidableEq

structure WaveformFrameCursor where
  consumed : Nat
  lastFrameId : Option String
  deriving DecidableEq

structure WaveformFrameIngestPlan where
  startIndex : Nat
  reset : Bool
  nextCursor : WaveformFrameCursor
  deriving DecidableEq

def waveformFrameCursorAtEnd (frames : List WaveformFrameIdentity) : WaveformFrameCursor where
  consumed := frames.length
  lastFrameId := frames.getLast?.bind (·.id)

/-- The id of the last frame, if the cursor has one that counts as true. -/
def WaveformFrameCursor.anchor (cursor : WaveformFrameCursor) : Option String :=
  cursor.lastFrameId.filter (· ≠ "")

def planWaveformFrameIngest (frames : List WaveformFrameIdentity) (cursor : WaveformFrameCursor) :
    WaveformFrameIngestPlan :=
  let nextCursor := waveformFrameCursorAtEnd frames
  if frames.length = 0 then
    ⟨0, cursor.consumed > 0 ∨ cursor.lastFrameId ≠ none, nextCursor⟩
  else
    match cursor.anchor with
    | some anchor =>
      match frames.findIdx? (·.id = some anchor) with
      | some previousIndex => ⟨previousIndex + 1, false, nextCursor⟩
      | none => ⟨0, true, nextCursor⟩
    | none =>
      if cursor.consumed > frames.length then ⟨0, true, nextCursor⟩
      else ⟨max 0 cursor.consumed, false, nextCursor⟩

/-- The frames, the cursor of the last ingestion, and the frames that ingestions have processed
since the last reset, in order. -/
structure State where
  frames : List WaveformFrameIdentity
  cursor : WaveformFrameCursor
  processed : List WaveformFrameIdentity
  deriving DecidableEq

def State.initial : State := ⟨[], ⟨0, none⟩, []⟩

inductive Event
  | append (frames : List WaveformFrameIdentity)
  | trim (count : Nat)
  | replace (frames : List WaveformFrameIdentity)
  | ingest

/-- An ingestion processes the frames from the start index of its plan on, after a reset if the
plan says so. -/
def step (s : State) : Event → State
  | .append frames => { s with frames := s.frames ++ frames }
  | .trim count => { s with frames := s.frames.drop count }
  | .replace frames => { s with frames }
  | .ingest =>
    let plan := planWaveformFrameIngest s.frames s.cursor
    { s with
        cursor := plan.nextCursor
        processed := (if plan.reset then [] else s.processed) ++ s.frames.drop plan.startIndex }

/-- Each frame has an id of its own, and none that is empty. -/
structure Named (frames : List WaveformFrameIdentity) : Prop where
  distinct : frames.Nodup
  has_id : ∀ frame ∈ frames, ∃ id, frame.id = some id ∧ id ≠ ""

/-- Where the last frame that was processed is still there, what stands in front of it was
processed, and what stands behind it was not. -/
def Overlaps (processed frames : List WaveformFrameIdentity) : Prop :=
  ∀ last, processed.getLast? = some last → ∀ front back, frames = front ++ last :: back →
    (∀ frame ∈ front, frame ∈ processed) ∧ ∀ frame ∈ back, frame ∉ processed

/-- Frames that are appended are new; and frames that replace the others keep the last one that
was processed only behind processed frames and in front of others. -/
def Admissible (s : State) : Event → Prop
  | .append frames => Named frames ∧ ∀ frame ∈ frames, frame ∉ s.frames ∧ frame ∉ s.processed
  | .replace frames => Named frames ∧ Overlaps s.processed frames
  | _ => True

structure Planned (s : State) : Prop where
  named : Named s.frames
  once : s.processed.Nodup
  overlaps : Overlaps s.processed s.frames
  cursor_empty : s.processed = [] → s.cursor = ⟨0, none⟩
  cursor_last : ∀ last, s.processed.getLast? = some last →
    s.cursor.lastFrameId = last.id ∧ ∃ id, last.id = some id ∧ id ≠ ""

theorem planned_initial : Planned .initial where
  named := ⟨nodup_nil, fun _ hin => absurd hin not_mem_nil⟩
  once := nodup_nil
  overlaps := by simp [Overlaps, State.initial]
  cursor_empty _ := rfl
  cursor_last := by simp [State.initial]

variable {s : State}

variable {frames : List WaveformFrameIdentity}

theorem Named.append {more : List WaveformFrameIdentity} (h : Named frames) (hmore : Named more)
    (hnew : ∀ frame ∈ more, frame ∉ frames) : Named (frames ++ more) where
  distinct := by
    rw [nodup_append]
    exact ⟨h.distinct, hmore.distinct, fun a ha b hb heq => hnew b hb (heq ▸ ha)⟩
  has_id frame hin := by
    rcases mem_append.mp hin with hin | hin
    · exact h.has_id frame hin
    · exact hmore.has_id frame hin

theorem Named.sublist {fewer : List WaveformFrameIdentity} (h : Named frames)
    (hsub : fewer.Sublist frames) : Named fewer :=
  ⟨h.distinct.sublist hsub, fun frame hin => h.has_id frame (hsub.subset hin)⟩

/-- New frames come behind the last one that was processed. -/
theorem Overlaps.append {processed more : List WaveformFrameIdentity}
    (h : Overlaps processed frames) (hnew : ∀ frame ∈ more, frame ∉ processed) :
    Overlaps processed (frames ++ more) := by
  intro last hlast front back hsplit
  have hprocessed : last ∈ processed := mem_of_getLast? hlast
  rcases append_eq_append_iff.mp hsplit with ⟨middle, hfront, hmore⟩ | ⟨middle, hframes, hmore⟩
  · exact absurd hprocessed (hnew last (by simp [hmore]))
  · cases middle with
    | nil =>
      have hin : last ∈ more := by
        rw [← show last :: back = more from hmore]
        exact mem_cons_self
      exact absurd hprocessed (hnew last hin)
    | cons first middle =>
      obtain ⟨rfl, rfl⟩ : last = first ∧ back = middle ++ more := by simpa using hmore
      obtain ⟨hold, hlater⟩ := h last hlast front middle hframes
      refine ⟨hold, fun frame hin => ?_⟩
      rcases mem_append.mp hin with hin | hin
      · exact hlater frame hin
      · exact hnew frame hin

theorem Overlaps.drop {processed : List WaveformFrameIdentity} (h : Overlaps processed frames)
    (count : Nat) : Overlaps processed (frames.drop count) := by
  intro last hlast front back hsplit
  have hframes : frames = (frames.take count ++ front) ++ last :: back := by
    rw [append_assoc, ← hsplit, take_append_drop]
  obtain ⟨hold, hlater⟩ := h last hlast _ back hframes
  exact ⟨fun frame hin => hold frame (by simp [hin]), hlater⟩

theorem planned_append (h : Planned s) (hnamed : Named frames)
    (hnew : ∀ frame ∈ frames, frame ∉ s.frames ∧ frame ∉ s.processed) :
    Planned (step s (.append frames)) where
  named := h.named.append hnamed fun frame hin => (hnew frame hin).1
  once := h.once
  overlaps := h.overlaps.append fun frame hin => (hnew frame hin).2
  cursor_empty := h.cursor_empty
  cursor_last := h.cursor_last

theorem planned_trim (h : Planned s) (count : Nat) : Planned (step s (.trim count)) where
  named := h.named.sublist (drop_sublist count s.frames)
  once := h.once
  overlaps := h.overlaps.drop count
  cursor_empty := h.cursor_empty
  cursor_last := h.cursor_last

theorem planned_replace (h : Planned s) (hnamed : Named frames)
    (hoverlaps : Overlaps s.processed frames) : Planned (step s (.replace frames)) where
  named := hnamed
  once := h.once
  overlaps := hoverlaps
  cursor_empty := h.cursor_empty
  cursor_last := h.cursor_last

/-! ## An ingestion -/

variable {last : WaveformFrameIdentity}

/-- The frame that the anchor finds is the last one that was processed. -/
theorem findIdx_anchor {front back : List WaveformFrameIdentity} {id : String}
    (hnodup : (front ++ last :: back).Nodup) (hid : last.id = some id) :
    (front ++ last :: back).findIdx? (·.id = some id) = some front.length := by
  have hnone : front.findIdx? (·.id = some id) = none := by
    rw [findIdx?_eq_none_iff]
    intro frame hin
    have hne : frame ≠ last := fun heq =>
      (nodup_append.mp hnodup).2.2 frame hin last mem_cons_self heq
    have hid' : frame.id ≠ some id := fun heq => hne (by
      cases frame
      cases last
      simp_all)
    simpa using hid'
  simp [findIdx?_append, hnone, findIdx?_cons, hid]

/-- What an ingestion leaves behind. -/
structure Ingested (s next : State) : Prop where
  frames_eq : next.frames = s.frames
  cursor_eq : next.cursor = waveformFrameCursorAtEnd s.frames
  once : next.processed.Nodup
  complete : ∀ frame ∈ s.frames, frame ∈ next.processed
  last_eq : next.processed.getLast? = s.frames.getLast?

/-- After a reset the frames that are there are processed, and no other. -/
theorem ingested_reset (h : Planned s) (hplan : planWaveformFrameIngest s.frames s.cursor =
    ⟨0, true, waveformFrameCursorAtEnd s.frames⟩) : Ingested s (step s .ingest) := by
  have hprocessed : (step s .ingest).processed = s.frames := by simp [step, hplan]
  refine ⟨rfl, by simp [step, hplan], ?_, ?_, ?_⟩
  · rw [hprocessed]
    exact h.named.distinct
  · intro frame hin
    rwa [hprocessed]
  · rw [hprocessed]

/-- Behind the last frame that was processed the others are new. -/
theorem ingested_behind (h : Planned s) {front back : List WaveformFrameIdentity}
    (hlast : s.processed.getLast? = some last) (hframes : s.frames = front ++ last :: back)
    (hplan : planWaveformFrameIngest s.frames s.cursor =
      ⟨front.length + 1, false, waveformFrameCursorAtEnd s.frames⟩) :
    Ingested s (step s .ingest) := by
  obtain ⟨hold, hlater⟩ := h.overlaps last hlast front back hframes
  have hdrop : s.frames.drop (front.length + 1) = back := by
    rw [hframes, drop_append]
    simp
  have hprocessed : (step s .ingest).processed = s.processed ++ back := by
    simp [step, hplan, hdrop]
  have hback : back.Nodup := by
    have hsub : back.Sublist s.frames := by
      rw [hframes]
      exact (sublist_cons_self last back).trans (sublist_append_right front _)
    exact h.named.distinct.sublist hsub
  refine ⟨rfl, by simp [step, hplan], ?_, ?_, ?_⟩
  · rw [hprocessed, nodup_append]
    exact ⟨h.once, hback, fun a ha b hb heq => hlater b hb (heq ▸ ha)⟩
  · intro frame hin
    rw [hprocessed, mem_append]
    rw [hframes, mem_append, mem_cons] at hin
    rcases hin with hin | rfl | hin
    · exact .inl (hold frame hin)
    · exact .inl (mem_of_getLast? hlast)
    · exact .inr hin
  · rw [hprocessed, hframes, getLast?_append, getLast?_append, hlast, getLast?_cons]
    cases back.getLast? <;> rfl

theorem ingested (h : Planned s) : Ingested s (step s .ingest) := by
  cases hlast : s.processed.getLast? with
  | none =>
    -- Nothing was processed: the cursor is still the one at the start.
    have hcursor := h.cursor_empty (getLast?_eq_none_iff.mp hlast)
    have hplan : planWaveformFrameIngest s.frames s.cursor =
        ⟨0, false, waveformFrameCursorAtEnd s.frames⟩ := by
      simp [planWaveformFrameIngest, hcursor, WaveformFrameCursor.anchor]
    have hprocessed : (step s .ingest).processed = s.frames := by
      simp [step, hplan, getLast?_eq_none_iff.mp hlast]
    refine ⟨rfl, by simp [step, hplan], ?_, ?_, ?_⟩
    · rw [hprocessed]
      exact h.named.distinct
    · intro frame hin
      rwa [hprocessed]
    · rw [hprocessed]
  | some last =>
    obtain ⟨hid, id, hsome, hne⟩ := h.cursor_last last hlast
    have hanchor : s.cursor.anchor = some id := by
      simp [WaveformFrameCursor.anchor, hid, hsome, hne]
    cases hframes : s.frames with
    | nil =>
      apply ingested_reset h
      simp [planWaveformFrameIngest, hframes, hid, hsome]
    | cons first rest =>
      have hlength : s.frames.length ≠ 0 := by simp [hframes]
      by_cases hin : last ∈ s.frames
      · obtain ⟨front, back, hsplit⟩ := append_of_mem hin
        apply ingested_behind h hlast hsplit
        have hfind : s.frames.findIdx? (·.id = some id) = some front.length := by
          rw [hsplit]
          exact findIdx_anchor (hsplit ▸ h.named.distinct) hsome
        simp [planWaveformFrameIngest, hlength, hanchor, hfind]
      · apply ingested_reset h
        have hfind : s.frames.findIdx? (·.id = some id) = none := by
          rw [findIdx?_eq_none_iff]
          intro frame hframe
          have hne : frame.id ≠ some id := by
            intro heq
            apply hin
            have hsame : frame = last := by
              cases frame
              cases last
              simp_all
            rwa [← hsame]
          simpa using hne
        simp [planWaveformFrameIngest, hlength, hanchor, hfind]

/-- Behind an ingestion there is nothing new. -/
theorem Ingested.planned {next : State} (hi : Ingested s next) (h : Named s.frames) :
    Planned next where
  named := by
    rw [hi.frames_eq]
    exact h
  once := hi.once
  overlaps last hlast front back hsplit := by
    rw [hi.frames_eq] at hsplit
    rw [hi.last_eq, hsplit, getLast?_append, getLast?_cons] at hlast
    have hdistinct := h.distinct
    rw [hsplit, nodup_append, nodup_cons] at hdistinct
    refine ⟨fun frame hin => hi.complete frame (by simp [hsplit, hin]), ?_⟩
    -- What stands behind it would be the last one itself.
    intro frame hin
    cases hback : back.getLast? with
    | none => exact absurd hin (by simp [getLast?_eq_none_iff.mp hback])
    | some other =>
      have hother : other = last := by simpa [hback] using hlast
      exact absurd (hother ▸ mem_of_getLast? hback) hdistinct.2.1.1
  cursor_empty hempty := by
    have hnone : s.frames.getLast? = none := by
      rw [← hi.last_eq, hempty]
      rfl
    rw [hi.cursor_eq, getLast?_eq_none_iff.mp hnone]
    rfl
  cursor_last last hlast := by
    rw [hi.last_eq] at hlast
    refine ⟨?_, h.has_id last (mem_of_getLast? hlast)⟩
    simp [hi.cursor_eq, waveformFrameCursorAtEnd, hlast]

theorem planned_step {e : Event} (hadmissible : Admissible s e) (h : Planned s) :
    Planned (step s e) := by
  cases e with
  | append frames => exact planned_append h hadmissible.1 hadmissible.2
  | trim count => exact planned_trim h count
  | replace frames => exact planned_replace h hadmissible.1 hadmissible.2
  | ingest => exact (ingested h).planned h.named

/-- Ingestions process each frame once: in every history whose frames have ids of their own, no
frame twice since the last reset, and each that is still there; and the ring holds the newest
samples, under rising timestamps while the numbers can be counted. -/
theorem ingestion_exactly_once :
    (∀ events, Along step Admissible .initial events → (run step .initial events).processed.Nodup ∧
      (step (run step .initial events) .ingest).processed.Nodup ∧
      ∀ frame ∈ (run step .initial events).frames,
        frame ∈ (step (run step .initial events) .ingest).processed) ∧
    ∀ (α : Type) (capacity : Nat) (pushes : List (α × Option JsNumber)),
      (pushAll capacity pushes).samples = lastItems capacity (pushes.map Prod.fst) ∧
      (pushAll capacity pushes).samples.length ≤ capacity ∧
      (pushAll capacity pushes).timestamps.length = (pushAll capacity pushes).samples.length ∧
      (Along (fun buf push => pushSample buf push.1 push.2) Countable (createBuffer capacity)
          pushes →
        (pushAll capacity pushes).timestamps.Pairwise (· < ·)) := by
  constructor
  · intro events halong
    have h : Planned (run step .initial events) :=
      run_invariant_along (fun _ _ hadmissible h => planned_step hadmissible h) planned_initial
        halong
    have hingested := ingested h
    exact ⟨h.once, hingested.once, hingested.complete⟩
  · intro α capacity pushes
    have h := ring_pushAll capacity pushes
    exact ⟨h.newest, h.within, h.paired, sorted_pushAll⟩

/-- Two frames come in, one of them is dropped again and a third one comes behind them. -/
def trimmed : List Event :=
  [.append [⟨"a"⟩, ⟨"b"⟩], .ingest, .trim 1, .append [⟨"c"⟩], .ingest]

theorem ingestion_exactly_once_trimmed :
    (run step .initial trimmed).processed.Nodup ∧
      (pushAll 2 [((), some (.finite 5)), ((), none)]).timestamps.Pairwise (· < ·) := by
  have hnamed : Along step Admissible .initial trimmed :=
    ⟨⟨⟨by decide, by simp⟩, by simp [State.initial]⟩, trivial, trivial,
      ⟨⟨by decide, by simp⟩, by decide⟩, trivial, trivial⟩
  refine ⟨(ingestion_exactly_once.1 trimmed hnamed).1, ?_⟩
  refine (ingestion_exactly_once.2 Unit 2 [((), some (.finite 5)), ((), none)]).2.2.2 ?_
  refine ⟨by simp [Countable, createBuffer], fun last hlast => ?_, trivial⟩
  obtain rfl : 5 = last := by
    simpa [createBuffer, pushSample, normalizeSampleTimestamp, finiteValue] using hlast
  norm_num

/-- A frame that is put in front of the last one is skipped, so is one that takes the place of a
frame without an id, and behind `2 ^ 53` a timestamp is repeated. -/
theorem frame_in_front_skipped :
    (¬∀ events, ∀ frame ∈ (run step .initial events).frames,
      frame ∈ (step (run step .initial events) .ingest).processed) ∧
    (run step .initial
        [.append [⟨none⟩], .ingest, .trim 1, .append [⟨none⟩], .ingest]).processed.length = 1 ∧
    (pushAll 2 [((), some (.finite (2 ^ 53))), ((), some (.finite 0))]).timestamps =
      [2 ^ 53, 2 ^ 53] := by
  refine ⟨fun hall => ?_, by decide, ?_⟩
  · have hprocessed := hall [.append [⟨"a"⟩, ⟨"b"⟩], .ingest, .replace [⟨"c"⟩, ⟨"b"⟩]] ⟨"c"⟩
      (by decide)
    exact absurd hprocessed (by decide)
  · simp [pushAll, pushSample, createBuffer, normalizeSampleTimestamp, finiteValue,
      plusOne_two_pow_53]

end bbcom.waveform
