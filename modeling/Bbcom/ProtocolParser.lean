-- The streaming frame parser of `protocol-parser.ts`: the backing buffer with
-- its two cursors, the place of the buffer in the stream, the place where the
-- search for a delimiter goes on, and the counters.
import Bbcom.ByteSearch
import Bbcom.ParserConfig

open bbcom.js bbcom.byte_search

namespace bbcom.protocol_parser

open Uint8Array List

structure ParsedFrame where
  data : Uint8Array
  offset : Nat
  deriving DecidableEq

structure ProtocolParserStats where
  discardedBytes : Nat
  overflowEvents : Nat
  resyncEvents : Nat
  deriving DecidableEq

def ProtocolParserStats.zero : ProtocolParserStats := ⟨0, 0, 0⟩

def BUFFER_COMPACT_THRESHOLD : Nat := 64 * 1024

/-- The state of the parser. Only the bytes of `buffer` from `start` to `end_` are stream
data, and the first of them is byte `absoluteStartOffset` of the stream. -/
structure ProtocolParser where
  config : ByteParserConfig
  maxPendingBytes : Nat
  buffer : Uint8Array
  start : Nat
  end_ : Nat
  absoluteStartOffset : Nat
  delimiterSearchOffset : Nat
  stats : ProtocolParserStats

/-- The constructor. -/
def ProtocolParser.new (config : ParserConfig) (options : ProtocolParserOptions) :
    Except JsError ProtocolParser := do
  let config ← validateAndCloneConfig config
  .ok {
    config
    maxPendingBytes := pendingLimit config options
    buffer := zeros 0, start := 0, end_ := 0
    absoluteStartOffset := 0, delimiterSearchOffset := 0
    stats := .zero }

namespace ProtocolParser

def pending (p : ProtocolParser) : Nat := p.end_ - p.start

/-- The live bytes: the spare capacity is left out. -/
def view (p : ProtocolParser) : Uint8Array := p.buffer.subarray p.start p.end_

def consume (p : ProtocolParser) (count : Nat) : ProtocolParser :=
  { p with
    start := p.start + count
    absoluteStartOffset := p.absoluteStartOffset + count }

/-! ## The buffer -/

/-- `while (capacity < need) capacity *= 2`. -/
def growCapacity (capacity need : Nat) (h : 0 < capacity) : Nat :=
  if capacity < need then growCapacity (capacity * 2) need (by omega) else capacity
termination_by need - capacity

def append (p : ProtocolParser) (input : Uint8Array) : ProtocolParser :=
  let live := p.pending
  let need := live + input.length
  if p.buffer.length - p.end_ ≥ input.length then
    { p with buffer := p.buffer.set input p.end_, end_ := p.end_ + input.length }
  else if p.start > 0 ∧ p.buffer.length ≥ need then
    { p with
      buffer := (p.buffer.copyToFront p.start p.end_).set input live
      start := 0
      end_ := live + input.length }
  else
    let capacity := growCapacity (max 64 p.buffer.length) need (by omega)
    let grown := (zeros capacity).set (p.buffer.subarray p.start p.end_) 0
    { p with buffer := grown.set input live, start := 0, end_ := need }

def compactBuffer (p : ProtocolParser) : ProtocolParser :=
  if p.start = 0 then p
  else if p.start ≥ p.end_ then
    { p with start := 0, end_ := 0, delimiterSearchOffset := p.absoluteStartOffset }
  else if p.start ≥ BUFFER_COMPACT_THRESHOLD ∨ p.start ≥ p.pending then
    { p with
      buffer := p.buffer.copyToFront p.start p.end_
      end_ := p.pending
      start := 0 }
  else p

/-! ## One frame -/

/-- `sliceCopy`. -/
def sliceCopy (src : Uint8Array) (start length : Nat) : Uint8Array :=
  src.subarray start (start + length)

/-- The length field of a header, most significant byte first or last. -/
def readLengthValue (c : LengthConfig) (view : Uint8Array) : Nat :=
  let indices := if c.bigEndian then range c.lengthSize
    else (range c.lengthSize).reverse
  indices.foldl (fun value i => value * 256 + (view.getD (c.lengthOffset + i) 0).toNat) 0

def extractFixed (p : ProtocolParser) (c : FixedConfig) : Option ParsedFrame × ProtocolParser :=
  if p.view.length < c.frameSize then (none, p)
  else
    (some ⟨sliceCopy p.view 0 c.frameSize, p.absoluteStartOffset⟩, p.consume c.frameSize)

/-- Subtraction on `Nat` stops at zero, as the `Math.max(0, ..)` of the code does. -/
def extractDelimiter (p : ProtocolParser) (c : DelimiterConfig) :
    Option ParsedFrame × ProtocolParser :=
  let relativeSearchFrom := p.delimiterSearchOffset - p.absoluteStartOffset
  match indexOfArrayLike p.view c.delimiter relativeSearchFrom with
  | none =>
    (none, { p with
      delimiterSearchOffset := p.absoluteStartOffset + (p.view.length + 1 - c.delimiter.length) })
  | some index =>
    -- the probe byte past the limit may end a delimiter, never a frame over the limit
    if c.dataLength index > p.maxPendingBytes then (none, p)
    else
      let q := p.consume (index + c.delimiter.length)
      (some ⟨sliceCopy p.view 0 (c.dataLength index), p.absoluteStartOffset⟩,
        { q with delimiterSearchOffset := q.absoluteStartOffset })

def extractLength (p : ProtocolParser) (c : LengthConfig) : Option ParsedFrame × ProtocolParser :=
  if p.view.length < c.headerEnd then (none, p)
  else
    let total := c.lengthAdjust + readLengthValue c p.view
    if total < c.headerEnd ∨ total > MAX_LENGTH_FRAME_BYTES then
      -- an implausible length: drop one byte and look again
      (none, { p.consume 1 with stats := { p.stats with
        discardedBytes := p.stats.discardedBytes + 1
        resyncEvents := p.stats.resyncEvents + 1 } })
    else if p.view.length < total then (none, p)
    else (some ⟨sliceCopy p.view 0 total, p.absoluteStartOffset⟩, p.consume total)

def extractOne (p : ProtocolParser) : Option ParsedFrame × ProtocolParser :=
  match p.config with
  | .fixed c => p.extractFixed c
  | .delimiter c => p.extractDelimiter c
  | .length c => p.extractLength c

variable (p : ProtocolParser)

theorem view_length_le : p.view.length ≤ p.pending := by
  simp only [view, pending, subarray, length_drop, length_take]
  omega

/-- The step took `n` live bytes from the front. -/
def Moved (p q : ProtocolParser) (n : Nat) : Prop :=
  0 < n ∧ n ≤ p.view.length ∧ q.start = p.start + n ∧ q.end_ = p.end_

theorem extractFixed_moves (c : FixedConfig) :
    (p.extractFixed c).2 = p ∨ ∃ n, Moved p (p.extractFixed c).2 n := by
  unfold extractFixed
  split
  · exact Or.inl rfl
  · exact Or.inr ⟨c.frameSize, c.positive, by omega, rfl, rfl⟩

theorem extractDelimiter_moves (c : DelimiterConfig) :
    (p.extractDelimiter c).2.start = p.start ∨ ∃ n, Moved p (p.extractDelimiter c).2 n := by
  have hd := length_pos_of_ne_nil c.nonempty
  simp only [extractDelimiter, indexOfArrayLike_eq c.nonempty]
  rcases hi : firstOccurrence c.delimiter p.view
    (p.delimiterSearchOffset - p.absoluteStartOffset) with _ | i
  · exact Or.inl rfl
  · have hf := ((firstOccurrence_some c.nonempty).mp hi).2.1.fits c.nonempty
    simp only
    split
    · exact Or.inl rfl
    · exact Or.inr ⟨i + c.delimiter.length, by omega, hf, rfl, rfl⟩

theorem extractLength_moves (c : LengthConfig) :
    (p.extractLength c).2 = p ∨ ∃ n, Moved p (p.extractLength c).2 n := by
  have hc := c.headerEnd_pos
  unfold extractLength
  split
  · exact Or.inl rfl
  · simp only
    split
    · exact Or.inr ⟨1, by omega, by omega, rfl, rfl⟩
    · split
      · exact Or.inl rfl
      · exact Or.inr ⟨_, by omega, by omega, rfl, rfl⟩

theorem extractOne_moves : p.extractOne.2.start = p.start ∨ ∃ n, Moved p p.extractOne.2 n := by
  unfold extractOne
  split
  · rename_i c _
    exact (p.extractFixed_moves c).imp_left (congrArg start)
  · rename_i c _
    exact p.extractDelimiter_moves c
  · rename_i c _
    exact (p.extractLength_moves c).imp_left (congrArg start)

/-- A step that moves `start` leaves fewer live bytes, so that `drain` ends. -/
theorem extractOne_progress (h : p.extractOne.2.start ≠ p.start) :
    p.extractOne.2.pending < p.pending := by
  have hv := p.view_length_le
  obtain ⟨n, h1, h2, h3, h4⟩ := p.extractOne_moves.resolve_left h
  simp only [pending] at hv ⊢
  omega

/-! ## Feeding -/

def drain (p : ProtocolParser) : List ParsedFrame × ProtocolParser :=
  let step := p.extractOne
  if _h : step.2.start = p.start then (step.1.toList, step.2)
  else
    let rest := step.2.drain
    (step.1.toList ++ rest.1, rest.2)
termination_by p.pending
decreasing_by exact p.extractOne_progress _h

/-- Only a delimiter parser has a limit to enforce. The suffix that stays is too short to
hold a delimiter, but may be the front of one. -/
def enforcePendingLimit (p : ProtocolParser) : ProtocolParser :=
  match p.config with
  | .delimiter c =>
    if p.pending ≤ p.maxPendingBytes then p
    else
      let discard := p.pending - (c.delimiter.length - 1)
      let q := p.consume discard
      { q with
        stats := {
          discardedBytes := q.stats.discardedBytes + discard
          overflowEvents := q.stats.overflowEvents + 1
          resyncEvents := q.stats.resyncEvents + 1 }
        delimiterSearchOffset := max q.delimiterSearchOffset q.absoluteStartOffset }
  | _ => p

/-- The loop of `feed` for a delimiter: slices of at most one byte past the limit. -/
def feedDelimiter (p : ProtocolParser) (input : Uint8Array) : List ParsedFrame × ProtocolParser :=
  if _h : input.length = 0 then ([], p)
  else
    let room : ℤ := (p.maxPendingBytes : ℤ) - p.pending
    let take := min input.length (max 1 (room + 1)).toNat
    let drained := (p.append (input.take take)).drain
    let rest := feedDelimiter drained.2.enforcePendingLimit.compactBuffer (input.drop take)
    (drained.1 ++ rest.1, rest.2)
termination_by input.length
decreasing_by
  simp only [length_drop]
  omega

def feed (p : ProtocolParser) (input : Uint8Array) : List ParsedFrame × ProtocolParser :=
  if input.length = 0 then ([], p)
  else match p.config with
    | .delimiter _ => p.feedDelimiter input
    | _ =>
      let drained := (p.append input).drain
      (drained.1, drained.2.compactBuffer)

def reset (p : ProtocolParser) : ProtocolParser :=
  { p with
    buffer := zeros 0, start := 0, end_ := 0
    absoluteStartOffset := 0, delimiterSearchOffset := 0
    stats := .zero }

/-- Successive calls of `feed`, with the frames of all of them. -/
def feedAll : ProtocolParser → List Uint8Array → List ParsedFrame × ProtocolParser
  | p, [] => ([], p)
  | p, chunk :: chunks =>
    let first := p.feed chunk
    let rest := feedAll first.2 chunks
    (first.1 ++ rest.1, rest.2)

end ProtocolParser

end bbcom.protocol_parser
