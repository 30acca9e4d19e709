-- What the protocol parser is for: a parser that keeps every unconsumed byte
-- in one list, and reads that list from its start again at each feed. It has
-- no cursor, no buffer and no slices.
import Bbcom.ProtocolParser
import Bbcom.Lib.Framing

open bbcom.js bbcom.byte_search bbcom.framing

namespace bbcom.protocol_parser

open List

/-- What the parser does with the front of its list. -/
inductive Event
  | frame (data : Uint8Array)
  | overflow
  | resync
  deriving DecidableEq

/-! ## The three framings -/

/-- Every frame has the same size. -/
def fixedExtractor (c : FixedConfig) : Extractor UInt8 Event where
  next held :=
    if held.length < c.frameSize then none else some (.frame (held.take c.frameSize), c.frameSize)
  takes_some h := by
    have := c.positive
    split at h
    · cases h
    · cases h; omega
  takes_held h := by
    split at h
    · cases h
    · cases h; omega
  stable more h := by
    split at h
    · cases h
    · rename_i hlen
      cases h
      rw [if_neg (by simp; omega), take_append_of_le_length (by omega)]

/-- The value of the length field of a header. -/
def lengthField (c : LengthConfig) (held : List UInt8) : Nat :=
  let field := (held.drop c.lengthOffset).take c.lengthSize
  (if c.bigEndian then field else field.reverse).foldl (fun value b => value * 256 + b.toNat) 0

theorem lengthField_append (c : LengthConfig) (held more : List UInt8)
    (h : c.headerEnd ≤ held.length) : lengthField c (held ++ more) = lengthField c held := by
  unfold LengthConfig.headerEnd at h
  unfold lengthField
  rw [drop_append_of_le_length (by omega), take_append_of_le_length (by simp; omega)]

/-- The size of the frame that a header announces. -/
def frameTotal (c : LengthConfig) (held : List UInt8) : Nat := c.lengthAdjust + lengthField c held

/-- A size that no frame has: the stream is misaligned. -/
def Misaligned (c : LengthConfig) (total : Nat) : Prop :=
  total < c.headerEnd ∨ MAX_LENGTH_FRAME_BYTES < total

instance (c : LengthConfig) (total : Nat) : Decidable (Misaligned c total) :=
  inferInstanceAs (Decidable (_ ∨ _))

/-- The header says how long the frame is. A byte that no frame starts with is dropped. -/
def lengthExtractor (c : LengthConfig) : Extractor UInt8 Event where
  next held :=
    if held.length < c.headerEnd then none
    else if Misaligned c (frameTotal c held) then some (.resync, 1)
    else if held.length < frameTotal c held then none
    else some (.frame (held.take (frameTotal c held)), frameTotal c held)
  takes_some h := by
    have := c.headerEnd_pos
    split_ifs at h with h1 h2 h3
    · cases h; omega
    · simp only [Misaligned, not_or] at h2
      cases h
      omega
  takes_held h := by
    have := c.headerEnd_pos
    split_ifs at h with h1 h2 h3
    · cases h; omega
    · cases h; omega
  stable {held e n} more h := by
    split_ifs at h with h1 h2 h3
    · have ht : frameTotal c (held ++ more) = frameTotal c held := by
        unfold frameTotal
        rw [lengthField_append c held more (by omega)]
      rw [ht, if_neg (by simp; omega), if_pos h2]
      exact h
    · have ht : frameTotal c (held ++ more) = frameTotal c held := by
        unfold frameTotal
        rw [lengthField_append c held more (by omega)]
      rw [ht, if_neg (by simp; omega), if_neg h2, if_neg (by simp; omega),
        take_append_of_le_length (by omega)]
      exact h

/-- The frame of a delimiter at `index` ends at most one byte past the limit, and holds at
most `limit` bytes. -/
def Fits (c : DelimiterConfig) (limit index : Nat) : Prop :=
  index + c.delimiter.length ≤ limit + 1 ∧ c.dataLength index ≤ limit

instance (c : DelimiterConfig) (limit index : Nat) : Decidable (Fits c limit index) :=
  inferInstanceAs (Decidable (_ ∧ _))

theorem dataLength_le (c : DelimiterConfig) (index : Nat) :
    c.dataLength index ≤ index + c.delimiter.length := by
  unfold DelimiterConfig.dataLength
  split <;> omega

/-- The first delimiter, when its frame fits. -/
def firstFrame (c : DelimiterConfig) (limit : Nat) (held : List UInt8) : Option Nat :=
  (firstOccurrence c.delimiter held 0).filter (fun index => Fits c limit index)

variable {c : DelimiterConfig} {limit : Nat} {held : List UInt8}

theorem firstFrame_some {index : Nat} :
    firstFrame c limit held = some index ↔
      OccursAt c.delimiter held index ∧ (∀ j < index, ¬ OccursAt c.delimiter held j) ∧
        Fits c limit index := by
  unfold firstFrame
  rw [Option.filter_eq_some_iff, firstOccurrence_some c.nonempty]
  simp [and_assoc]

theorem firstFrame_append {index : Nat} (more : List UInt8)
    (h : firstFrame c limit held = some index) :
    firstFrame c limit (held ++ more) = some index := by
  rw [firstFrame_some] at h ⊢
  obtain ⟨h1, h2, h3⟩ := h
  have hf := h1.fits c.nonempty
  exact ⟨(occursAt_append more hf).mpr h1,
    fun j hj ho => h2 j hj ((occursAt_append more (by omega)).mp ho), h3⟩

/-- A frame that fits ends in the first `limit + 1` bytes, so bytes behind them make none. -/
theorem firstFrame_append_none (more : List UInt8) (hl : limit < held.length)
    (h : firstFrame c limit held = none) :
    firstFrame c limit (held ++ more) = none := by
  rw [Option.eq_none_iff_forall_ne_some] at h ⊢
  intro index hi
  apply h index
  rw [firstFrame_some] at hi ⊢
  obtain ⟨h1, h2, h3⟩ := hi
  have hf := h3.1
  exact ⟨(occursAt_append more (by omega)).mp h1,
    fun j hj ho => h2 j hj ((occursAt_append more (by omega)).mpr ho), h3⟩

/-- What a delimiter takes off: a frame, or the front of more bytes than may wait. -/
theorem delimited_cases {n : Nat} {item : Event} (h : (match firstFrame c limit held with
      | some index => some (.frame (held.take (c.dataLength index)), index + c.delimiter.length)
      | none =>
        if limit < held.length then some (.overflow, limit + 2 - c.delimiter.length) else none) =
      some (item, n)) :
    (∃ index, firstFrame c limit held = some index ∧
      item = .frame (held.take (c.dataLength index)) ∧ n = index + c.delimiter.length) ∨
    firstFrame c limit held = none ∧ limit < held.length ∧ item = .overflow ∧
      n = limit + 2 - c.delimiter.length := by
  split at h
  · rename_i index hi
    cases h
    exact .inl ⟨index, hi, rfl, rfl⟩
  · rename_i hi
    split at h
    · rename_i hlen
      cases h
      exact .inr ⟨hi, hlen, rfl, rfl⟩
    · cases h

/-- The delimiter ends the frame. When no frame fits and more than `limit` bytes wait, the
first `limit + 1` bytes go, but for the last of them that may start a delimiter. -/
def delimiterExtractor (c : DelimiterConfig) (limit : Nat) (hl : c.delimiter.length ≤ limit) :
    Extractor UInt8 Event where
  next held :=
    match firstFrame c limit held with
    | some index =>
      some (.frame (held.take (c.dataLength index)), index + c.delimiter.length)
    | none =>
      if limit < held.length then some (.overflow, limit + 2 - c.delimiter.length) else none
  takes_some h := by
    have := length_pos_of_ne_nil c.nonempty
    obtain ⟨index, -, -, rfl⟩ | ⟨-, -, -, rfl⟩ := delimited_cases h <;> omega
  takes_held h := by
    have hp := length_pos_of_ne_nil c.nonempty
    obtain ⟨index, hi, -, rfl⟩ | ⟨-, hlen, -, rfl⟩ := delimited_cases h
    · exact (firstFrame_some.mp hi).1.fits c.nonempty
    · omega
  stable more h := by
    obtain ⟨index, hi, rfl, rfl⟩ | ⟨hi, hlen, rfl, rfl⟩ := delimited_cases h
    · have hf := (firstFrame_some.mp hi).1.fits c.nonempty
      have hd := dataLength_le c index
      rw [firstFrame_append more hi]
      simp only
      rw [take_append_of_le_length (by omega)]
    · rw [firstFrame_append_none more hlen hi]
      simp only
      rw [if_pos (by simp; omega)]

/-- The framing of a configuration, under the limit that its options give. -/
def extractorOf (config : ByteParserConfig) (options : ProtocolParserOptions) :
    Extractor UInt8 Event :=
  match config with
  | .fixed c => fixedExtractor c
  | .length c => lengthExtractor c
  | .delimiter c => delimiterExtractor c (pendingLimit (.delimiter c) options)
      (delimiter_le_pendingLimit c options)

/-! ## The naive parser -/

/-- The unconsumed bytes with their place in the stream, and the counters. -/
structure NaiveParser where
  held : Held UInt8
  stats : ProtocolParserStats
  deriving DecidableEq

def NaiveParser.new : NaiveParser := ⟨⟨0, []⟩, .zero⟩

/-- What one event of `size` bytes adds to the counters. -/
def tally (stats : ProtocolParserStats) (event : Event) (size : Nat) : ProtocolParserStats :=
  match event with
  | .frame _ => stats
  | .overflow => {
      discardedBytes := stats.discardedBytes + size
      overflowEvents := stats.overflowEvents + 1
      resyncEvents := stats.resyncEvents + 1 }
  | .resync => { stats with
      discardedBytes := stats.discardedBytes + size
      resyncEvents := stats.resyncEvents + 1 }

def tallyAll (stats : ProtocolParserStats) (ts : List (Taken Event)) : ProtocolParserStats :=
  ts.foldl (fun s t => tally s t.event t.size) stats

/-- The frame of an event, when it is one. -/
def frameOf (event : Event) (offset : Nat) : Option ParsedFrame :=
  match event with
  | .frame data => some ⟨data, offset⟩
  | _ => none

def framesOf (ts : List (Taken Event)) : List ParsedFrame :=
  ts.filterMap (fun t => frameOf t.event t.offset)

/-- Appends the input to the list, and reads the list from its start. -/
def NaiveParser.feed (x : Extractor UInt8 Event) (n : NaiveParser) (input : Uint8Array) :
    List ParsedFrame × NaiveParser :=
  let r := framing.feed x n.held input
  (framesOf r.1, ⟨r.2, tallyAll n.stats r.1⟩)

def NaiveParser.feedAll (x : Extractor UInt8 Event) :
    NaiveParser → List Uint8Array → List ParsedFrame × NaiveParser
  | n, [] => ([], n)
  | n, chunk :: chunks =>
    let first := n.feed x chunk
    let rest := feedAll x first.2 chunks
    (first.1 ++ rest.1, rest.2)

@[simp] theorem framesOf_append (as bs : List (Taken Event)) :
    framesOf (as ++ bs) = framesOf as ++ framesOf bs := by simp [framesOf]

@[simp] theorem tallyAll_append (stats : ProtocolParserStats) (as bs : List (Taken Event)) :
    tallyAll stats (as ++ bs) = tallyAll (tallyAll stats as) bs := by simp [tallyAll]

theorem framesOf_cons (t : Taken Event) (ts : List (Taken Event)) :
    framesOf (t :: ts) = (frameOf t.event t.offset).toList ++ framesOf ts := by
  unfold framesOf
  cases h : frameOf t.event t.offset <;> simp [h]

theorem tallyAll_cons (stats : ProtocolParserStats) (t : Taken Event) (ts : List (Taken Event)) :
    tallyAll stats (t :: ts) = tallyAll (tally stats t.event t.size) ts := rfl

theorem NaiveParser.feed_settled (x : Extractor UInt8 Event) (n : NaiveParser)
    (input : Uint8Array) : Settled x (n.feed x input).2.held :=
  framing.feed_settled x n.held input

open NaiveParser

/-- The naive parser does not see the cuts of the stream. -/
theorem NaiveParser.feedAll_eq (x : Extractor UInt8 Event) (chunks : List Uint8Array)
    (n : NaiveParser) (hs : Settled x n.held) :
    n.feedAll x chunks = n.feed x chunks.flatten := by
  induction chunks generalizing n with
  | nil =>
    unfold feedAll feed
    rw [flatten_nil, feed_nil hs]
    rfl
  | cons c cs ih =>
    have hrest := ih _ (n.feed_settled x c)
    simp only [feedAll, hrest]
    simp only [feed, flatten_cons, framing.feed_append, framesOf_append, tallyAll_append]

end bbcom.protocol_parser
