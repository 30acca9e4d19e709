-- The parser with its cursors stands for a naive parser: each step of the
-- buffer, of a frame and of the limit does what the naive parser does.
import Bbcom.NaiveParser

open bbcom.js bbcom.byte_search bbcom.framing

namespace bbcom.protocol_parser

open Uint8Array ProtocolParser NaiveParser Nat Held

/-! ## The parser stands for a naive parser -/

/-- No delimiter stands where the search was over. -/
def Searched (c : DelimiterConfig) (p : ProtocolParser) : Prop :=
  ∀ j < p.delimiterSearchOffset - p.absoluteStartOffset,
    j + c.delimiter.length ≤ p.view.length ∧ ¬ OccursAt c.delimiter p.view j

structure Rep (config : ByteParserConfig) (limit : Nat) (p : ProtocolParser) (n : NaiveParser) :
    Prop where
  config_eq : p.config = config
  limit_eq : p.maxPendingBytes = limit
  start_le : p.start ≤ p.end_
  end_le : p.end_ ≤ p.buffer.length
  view_eq : p.view = n.held.items
  offset_eq : p.absoluteStartOffset = n.held.offset
  stats_eq : p.stats = n.stats
  searched : ∀ c, config = .delimiter c → Searched c p

variable {config : ByteParserConfig} {limit : Nat} {p : ProtocolParser} {n : NaiveParser}

theorem Rep.pending_eq (h : Rep config limit p n) : p.pending = n.held.items.length := by
  rw [← h.view_eq]
  exact (length_subarray p.buffer p.start p.end_ h.end_le).symm

/-- What the naive parser holds after one event. -/
def NaiveParser.take (n : NaiveParser) (e : Event) (size : Nat) : NaiveParser :=
  ⟨n.held.skip size, tally n.stats e size⟩

def NaiveParser.push (n : NaiveParser) (input : Uint8Array) : NaiveParser :=
  { n with held := n.held.push input }

variable {c : DelimiterConfig} {held : List UInt8} {options : ProtocolParserOptions}

theorem searched_of_zero (h : p.delimiterSearchOffset ≤ p.absoluteStartOffset) : Searched c p := by
  intro j hj
  omega

theorem view_consume (p : ProtocolParser) (k : Nat) : (p.consume k).view = p.view.drop k := by
  simp [view, consume, subarray, List.drop_drop]

/-! ## The buffer -/

theorem le_growCapacity (capacity need : Nat) (h : 0 < capacity) :
    need ≤ growCapacity capacity need h := by
  rw [growCapacity]
  split
  · exact le_growCapacity (capacity * 2) need (by omega)
  · omega
termination_by need - capacity

/-- `append` only puts the input behind the live bytes, wherever it moves them. -/
theorem append_spec (p : ProtocolParser) (input : Uint8Array) (hs : p.start ≤ p.end_)
    (he : p.end_ ≤ p.buffer.length) :
    (p.append input).view = p.view ++ input ∧
      (p.append input).start ≤ (p.append input).end_ ∧
      (p.append input).end_ ≤ (p.append input).buffer.length := by
  have hv : p.view.length = p.pending := length_subarray _ _ _ he
  unfold append
  simp only
  split
  · rename_i hroom
    have hset := length_set p.buffer input p.end_ (by omega)
    refine ⟨?_, by simp only; omega, by simp only; omega⟩
    exact subarray_set p.buffer input p.start p.end_ hs (by omega)
  · split
    · rename_i hmove
      have hcopy := length_copyToFront p.buffer p.start p.end_ he
      have hset := length_set (p.buffer.copyToFront p.start p.end_) input p.pending (by omega)
      refine ⟨?_, by simp only; omega, by simp only; omega⟩
      have h1 := subarray_set (p.buffer.copyToFront p.start p.end_) input 0 p.pending
        (by omega) (by omega)
      rw [show p.pending = p.end_ - p.start from rfl,
        subarray_copyToFront p.buffer p.start p.end_ he] at h1
      exact h1
    · rw [show p.buffer.subarray p.start p.end_ = p.view from rfl]
      have hgrow := le_growCapacity (max 64 p.buffer.length) (p.pending + input.length) (by omega)
      generalize growCapacity (max 64 p.buffer.length)
        (p.pending + input.length) (by omega) = capacity at hgrow ⊢
      have hz := length_zeros capacity
      have hfirst := length_set (zeros capacity) p.view 0 (by omega)
      have hset := length_set ((zeros capacity).set p.view 0) input p.pending (by omega)
      refine ⟨?_, by simp only; omega, by simp only; omega⟩
      have h1 := subarray_set (zeros capacity) p.view 0 0 (by omega) (by omega)
      have h2 := subarray_set ((zeros capacity).set p.view 0) input 0 p.pending
        (by omega) (by omega)
      rw [zero_add, hv] at h1
      rw [h1] at h2
      exact h2

theorem Rep.append (h : Rep config limit p n) (input : Uint8Array) :
    Rep config limit (p.append input) (n.push input) := by
  obtain ⟨hv, hs, he⟩ := append_spec p input h.start_le h.end_le
  have hsame : (p.append input).config = p.config ∧
      (p.append input).maxPendingBytes = p.maxPendingBytes ∧
      (p.append input).absoluteStartOffset = p.absoluteStartOffset ∧
      (p.append input).delimiterSearchOffset = p.delimiterSearchOffset ∧
      (p.append input).stats = p.stats := by
    unfold ProtocolParser.append
    simp only
    split
    · simp
    · split <;> simp
  obtain ⟨h1, h2, h3, h4, h5⟩ := hsame
  refine ⟨h1.trans h.config_eq, h2.trans h.limit_eq, hs, he, ?_, h3.trans h.offset_eq,
    h5.trans h.stats_eq, ?_⟩
  · rw [hv, h.view_eq]
    rfl
  · intro c hc j hj
    rw [h3, h4] at hj
    obtain ⟨h6, h7⟩ := h.searched c hc j hj
    rw [hv]
    exact ⟨by simp; omega, fun ho => h7 ((occursAt_append input h6).mp ho)⟩

theorem Rep.compactBuffer (h : Rep config limit p n) :
    Rep config limit p.compactBuffer n := by
  have hs := h.start_le
  have he := h.end_le
  have hv := h.view_eq
  unfold ProtocolParser.compactBuffer
  split
  · exact h
  · split
    · rename_i hempty
      have hnil : p.view = [] := by
        apply List.eq_nil_of_length_eq_zero
        rw [ProtocolParser.view, length_subarray _ _ _ he]
        omega
      refine ⟨h.config_eq, h.limit_eq, le_refl _, zero_le _, ?_, h.offset_eq, h.stats_eq,
        fun c _ => searched_of_zero (le_refl _)⟩
      rw [← hv, hnil]
      simp [ProtocolParser.view, subarray]
    · split
      · have hcopy := length_copyToFront p.buffer p.start p.end_ he
        have hview : subarray (p.buffer.copyToFront p.start p.end_) 0 p.pending =
            p.view := subarray_copyToFront p.buffer p.start p.end_ he
        refine ⟨h.config_eq, h.limit_eq, zero_le _, ?_, ?_, h.offset_eq, h.stats_eq, ?_⟩
        · simp only [ProtocolParser.pending]
          omega
        · exact hview.trans hv
        · intro c hc j hj
          have := h.searched c hc j hj
          simp only [ProtocolParser.view] at this hview ⊢
          rw [hview]
          exact this
      · exact h

/-! ## One step -/

theorem Rep.consume (h : Rep config limit p n) {k : Nat} (hk : k ≤ n.held.items.length)
    (search : Nat) {stats stats' : ProtocolParserStats} (hstats : stats = stats')
    (hs : ∀ c, config = .delimiter c → search ≤ p.absoluteStartOffset + k) :
    Rep config limit { p.consume k with delimiterSearchOffset := search, stats := stats }
      ⟨n.held.skip k, stats'⟩ := by
  have hp := h.pending_eq
  have h1 := h.start_le
  have h2 := h.end_le
  unfold ProtocolParser.pending at hp
  refine ⟨h.config_eq, h.limit_eq, ?_, h2, ?_, ?_, hstats, ?_⟩
  · simp only [ProtocolParser.consume]
    omega
  · have := view_consume p k
    rw [h.view_eq] at this
    exact this
  · simp only [ProtocolParser.consume, skip, h.offset_eq]
  · intro c hc
    exact searched_of_zero (hs c hc)

theorem sliceCopy_eq_take (v : Uint8Array) (k : Nat) :
    sliceCopy v 0 k = v.take k := by
  simp [sliceCopy, subarray]

/-- One step of the parser does what the event at the front of the list says. It leaves an
overflow to `enforcePendingLimit`. -/
def StepMatches (config : ByteParserConfig) (limit : Nat) (p : ProtocolParser) (n : NaiveParser)
    (step : Option ParsedFrame × ProtocolParser) : Option (Event × Nat) → Prop
  | none => step.1 = none ∧ step.2.start = p.start ∧ Rep config limit step.2 n
  | some (.overflow, _) => step.1 = none ∧ step.2.start = p.start ∧ Rep config limit step.2 n
  | some (e, k) => step.1 = frameOf e n.held.offset ∧ step.2.start = p.start + k ∧
      Rep config limit step.2 (n.take e k)

theorem extractFixed_matches {c : FixedConfig} (h : Rep (.fixed c) limit p n) :
    StepMatches (.fixed c) limit p n (p.extractFixed c) ((fixedExtractor c).next n.held.items) := by
  simp only [fixedExtractor, extractFixed, h.view_eq, sliceCopy_eq_take, h.offset_eq]
  split
  · exact ⟨rfl, rfl, h⟩
  · exact ⟨rfl, rfl, h.consume (by omega) p.delimiterSearchOffset h.stats_eq (by simp)⟩

theorem field_eq_map (c : LengthConfig) (v : Uint8Array) (h : c.headerEnd ≤ v.length) :
    (v.drop c.lengthOffset).take c.lengthSize =
      (List.range c.lengthSize).map (fun i => v.getD (c.lengthOffset + i) 0) := by
  unfold LengthConfig.headerEnd at h
  apply List.ext_getElem
  · simp only [List.length_take, List.length_drop, List.length_map, List.length_range]
    omega
  · intro i h1 h2
    simp only [List.length_map, List.length_range] at h2
    simp only [List.getElem_take, List.getElem_drop, List.getElem_map, List.getElem_range]
    rw [List.getD_eq_getElem _ _ (by omega)]

theorem readLengthValue_eq (c : LengthConfig) (v : Uint8Array) (h : c.headerEnd ≤ v.length) :
    readLengthValue c v = lengthField c v := by
  unfold readLengthValue lengthField
  simp only [field_eq_map c v h]
  split
  · rw [List.foldl_map]
  · rw [← List.map_reverse, List.foldl_map]

theorem extractLength_matches {c : LengthConfig} (h : Rep (.length c) limit p n) :
    StepMatches (.length c) limit p n (p.extractLength c)
      ((lengthExtractor c).next n.held.items) := by
  have hpos := c.headerEnd_pos
  simp only [lengthExtractor, extractLength, h.view_eq, sliceCopy_eq_take, h.offset_eq]
  split
  · exact ⟨rfl, rfl, h⟩
  · rename_i hlen
    have htotal : c.lengthAdjust + readLengthValue c n.held.items = frameTotal c n.held.items := by
      rw [readLengthValue_eq c _ (by omega), frameTotal]
    rw [htotal]
    by_cases hmis : Misaligned c (frameTotal c n.held.items)
    · have hsource : frameTotal c n.held.items < c.headerEnd ∨
          frameTotal c n.held.items > MAX_LENGTH_FRAME_BYTES := hmis
      rw [if_pos hmis, if_pos hsource]
      refine ⟨rfl, rfl, h.consume (by omega) p.delimiterSearchOffset ?_ (by simp)⟩
      simp only [h.stats_eq, tally]
    · have hsource : ¬ (frameTotal c n.held.items < c.headerEnd ∨
          frameTotal c n.held.items > MAX_LENGTH_FRAME_BYTES) := hmis
      rw [if_neg hmis, if_neg hsource]
      split
      · exact ⟨rfl, rfl, h⟩
      · exact ⟨rfl, rfl, h.consume (by omega) p.delimiterSearchOffset h.stats_eq (by simp)⟩

/-- The search of the code goes on where it stopped, and finds what a search of the whole
list finds. -/
theorem search_eq_firstOccurrence (h : Rep (.delimiter c) limit p n) :
    indexOfArrayLike p.view c.delimiter (p.delimiterSearchOffset - p.absoluteStartOffset) =
      firstOccurrence c.delimiter n.held.items 0 := by
  rw [indexOfArrayLike_eq c.nonempty, ← h.view_eq]
  exact firstOccurrence_resume c.nonempty fun j hj => (h.searched c rfl j hj).2

theorem extractDelimiter_matches (hlimit : c.delimiter.length ≤ limit)
    (h : Rep (.delimiter c) limit p n) (hb : n.held.items.length ≤ limit + 1) :
    StepMatches (.delimiter c) limit p n (p.extractDelimiter c)
      ((delimiterExtractor c limit hlimit).next n.held.items) := by
  simp only [extractDelimiter, search_eq_firstOccurrence h]
  rcases hi : firstOccurrence c.delimiter n.held.items 0 with _ | index
  · have hnone : firstFrame c limit n.held.items = none := by simp [firstFrame, hi]
    have hrep : Rep (.delimiter c) limit { p with delimiterSearchOffset :=
        p.absoluteStartOffset + (p.view.length + 1 - c.delimiter.length) } n := by
      refine ⟨h.config_eq, h.limit_eq, h.start_le, h.end_le, h.view_eq, h.offset_eq, h.stats_eq, ?_⟩
      rintro _ ⟨⟩ j hj
      have hv := h.view_eq
      simp only [view] at hj hv ⊢
      refine ⟨by omega, ?_⟩
      rw [hv]
      exact (firstOccurrence_none c.nonempty).mp hi j (zero_le j)
    simp only [delimiterExtractor, hnone]
    split
    · exact ⟨rfl, rfl, hrep⟩
    · exact ⟨rfl, rfl, hrep⟩
  · have hocc := (firstOccurrence_some c.nonempty).mp hi
    have hfit := hocc.2.1.fits c.nonempty
    simp only [delimiterExtractor, h.limit_eq, h.view_eq, sliceCopy_eq_take, h.offset_eq]
    by_cases hd : c.dataLength index ≤ limit
    · have hsome : firstFrame c limit n.held.items = some index :=
        firstFrame_some.mpr ⟨hocc.2.1, fun j hj => hocc.2.2 j (zero_le j) hj, by omega, hd⟩
      rw [if_neg (by omega), hsome]
      refine ⟨rfl, rfl, h.consume hfit _ h.stats_eq ?_⟩
      intro _ _
      simp only [consume, h.offset_eq]
      omega
    · have hnone : firstFrame c limit n.held.items = none := by
        simp [firstFrame, hi, Fits, hd]
      rw [if_pos (by omega), hnone]
      simp only
      split
      · exact ⟨rfl, rfl, h⟩
      · exact ⟨rfl, rfl, h⟩

/-! ## The loops -/

/-- The pending bytes of a delimiter parser pass the limit by one byte at most. -/
def Bounded (config : ByteParserConfig) (limit : Nat) (n : NaiveParser) : Prop :=
  ∀ c, config = .delimiter c → n.held.items.length ≤ limit + 1

theorem extractOne_matches (options : ProtocolParserOptions)
    (h : Rep config (pendingLimit config options) p n)
    (hb : Bounded config (pendingLimit config options) n) :
    StepMatches config (pendingLimit config options) p n p.extractOne
      ((extractorOf config options).next n.held.items) := by
  unfold extractOne
  rw [h.config_eq]
  cases config with
  | fixed c => exact extractFixed_matches h
  | length c => exact extractLength_matches h
  | delimiter c =>
    exact extractDelimiter_matches (delimiter_le_pendingLimit c options) h (hb c rfl)

/-- A parser that holds no more than its limit has nothing to enforce. -/
theorem enforcePendingLimit_idle (hp : ∀ c, p.config = .delimiter c →
    p.pending ≤ p.maxPendingBytes) :
    p.enforcePendingLimit = p := by
  unfold enforcePendingLimit
  split
  · rename_i c hc
    rw [if_pos (hp c hc)]
  · rfl

theorem enforcePendingLimit_config (p : ProtocolParser) :
    p.enforcePendingLimit.config = p.config := by
  unfold enforcePendingLimit
  split
  · split <;> rfl
  · rfl

/-- An overflow comes from a delimiter parser that holds one byte more than its limit. -/
theorem overflow_facts {k : Nat}
    (hx : (extractorOf config options).next held = some (.overflow, k)) :
    ∃ c, config = .delimiter c ∧ pendingLimit config options < held.length ∧
      k = pendingLimit config options + 2 - c.delimiter.length := by
  cases config with
  | fixed c =>
    simp only [extractorOf, fixedExtractor] at hx
    split at hx <;> simp at hx
  | length c =>
    simp only [extractorOf, lengthExtractor] at hx
    split_ifs at hx <;> simp at hx
  | delimiter c =>
    simp only [extractorOf, delimiterExtractor] at hx
    split at hx
    · simp at hx
    · split at hx
      · simp only [Option.some.injEq, Prod.mk.injEq, true_and] at hx
        exact ⟨c, rfl, by assumption, hx.symm⟩
      · cases hx

/-- The parser waits with no more than its limit. -/
theorem settled_le_limit (hx : (extractorOf (.delimiter c) options).next held = none) :
    held.length ≤ pendingLimit (.delimiter c) options := by
  simp only [extractorOf, delimiterExtractor] at hx
  split at hx
  · cases hx
  · split at hx
    · cases hx
    · omega

theorem enforcePendingLimit_overflow (hlimit : c.delimiter.length ≤ limit)
    (h : Rep (.delimiter c) limit p n) (hb : n.held.items.length = limit + 1) :
    Rep (.delimiter c) limit p.enforcePendingLimit
      (n.take .overflow (limit + 2 - c.delimiter.length)) := by
  have hd := List.length_pos_of_ne_nil c.nonempty
  have hp := h.pending_eq
  have hdiscard : p.pending - (c.delimiter.length - 1) = limit + 2 - c.delimiter.length := by omega
  unfold enforcePendingLimit
  simp only [h.config_eq, hdiscard]
  rw [if_neg (by rw [h.limit_eq]; omega)]
  refine h.consume (by omega) _ ?_ ?_
  · simp only [consume, h.stats_eq, tally]
  · rintro _ ⟨⟩
    have hsearch : p.delimiterSearchOffset ≤
        p.absoluteStartOffset + (limit + 2 - c.delimiter.length) := by
      by_contra hlt
      have := h.searched c rfl (limit + 2 - c.delimiter.length) (by omega)
      rw [h.view_eq] at this
      omega
    simp only [consume]
    omega

theorem drain_stop (h : p.extractOne.2.start = p.start) :
    p.drain = (p.extractOne.1.toList, p.extractOne.2) := by
  rw [ProtocolParser.drain]
  simp only [h, dite_true]

theorem drain_step (h : p.extractOne.2.start ≠ p.start) :
    p.drain = (p.extractOne.1.toList ++ p.extractOne.2.drain.1, p.extractOne.2.drain.2) := by
  rw [ProtocolParser.drain]
  simp only [h, dite_false]

/-- After an overflow the rest is too short for a delimiter, so the naive parser waits. -/
theorem overflow_settles (h : held.length < c.delimiter.length) :
    (extractorOf (.delimiter c) options).next held = none := by
  have hl := delimiter_le_pendingLimit c options
  simp only [extractorOf, delimiterExtractor]
  split
  · rename_i index hi
    have := (firstFrame_some.mp hi).1.fits c.nonempty
    omega
  · rw [if_neg (by omega)]

/-- The loop of `drain` and the limit behind it take the events of the naive parser. -/
theorem drain_rep (options : ProtocolParserOptions) (held : Held UInt8) :
    ∀ (p : ProtocolParser) (stats : ProtocolParserStats),
      Rep config (pendingLimit config options) p ⟨held, stats⟩ →
      Bounded config (pendingLimit config options) ⟨held, stats⟩ →
      p.drain.1 = framesOf (framing.drain (extractorOf config options) held).1 ∧
        Rep config (pendingLimit config options) p.drain.2.enforcePendingLimit
          ⟨(framing.drain (extractorOf config options) held).2,
            tallyAll stats (framing.drain (extractorOf config options) held).1⟩ := by
  induction held using drain_induction (x := extractorOf config options) with
  | waits held hx =>
    intro p stats h hb
    have hstep := extractOne_matches options h hb
    rw [hx] at hstep
    obtain ⟨h1, h2, h3⟩ := hstep
    rw [drain_stop h2, drain_none hx, h1]
    refine ⟨rfl, ?_⟩
    rw [enforcePendingLimit_idle]
    · exact h3
    · intro c hc
      have hconfig : config = .delimiter c := h3.config_eq.symm.trans hc
      subst hconfig
      rw [h3.pending_eq, h3.limit_eq]
      exact settled_le_limit hx
  | takes held e k hx ih =>
    intro p stats h hb
    have hstep := extractOne_matches options h hb
    rw [hx] at hstep
    have hpos := (extractorOf config options).takes_some hx
    rw [drain_some hx, framesOf_cons, tallyAll_cons]
    cases e with
    | overflow =>
      -- the parser leaves the loop, and the limit takes the overflow
      obtain ⟨h1, h2, h3⟩ := hstep
      obtain ⟨c, rfl, hlt, rfl⟩ := overflow_facts hx
      have hlimit := delimiter_le_pendingLimit c options
      have hlen : held.items.length = pendingLimit (.delimiter c) options + 1 := by
        have := hb c rfl
        simp only at this
        omega
      have hrest : (extractorOf (.delimiter c) options).next (held.skip
          (pendingLimit (.delimiter c) options + 2 - c.delimiter.length)).items = none := by
        have := List.length_pos_of_ne_nil c.nonempty
        apply overflow_settles
        simp only [skip, List.length_drop]
        omega
      rw [drain_stop h2, drain_none hrest, h1]
      exact ⟨rfl, enforcePendingLimit_overflow hlimit h3 hlen⟩
    | frame data =>
      obtain ⟨h1, h2, h3⟩ := hstep
      have hb' : Bounded config (pendingLimit config options) (take ⟨held, stats⟩
          (.frame data) k) := by
        intro c hc
        have := hb c hc
        simp only [take, skip, List.length_drop] at this ⊢
        omega
      obtain ⟨h4, h5⟩ := ih _ _ h3 hb'
      rw [drain_step (by omega), h1, h4]
      exact ⟨rfl, h5⟩
    | resync =>
      obtain ⟨h1, h2, h3⟩ := hstep
      have hb' : Bounded config (pendingLimit config options) (take ⟨held, stats⟩ .resync k) := by
        intro c hc
        have := hb c hc
        simp only [take, skip, List.length_drop] at this ⊢
        omega
      obtain ⟨h4, h5⟩ := ih _ _ h3 hb'
      rw [drain_step (by omega), h1, h4]
      exact ⟨rfl, h5⟩

/-! ## A feed -/

/-- One slice: append it, take the frames, keep the limit and compact. -/
theorem slice_rep (options : ProtocolParserOptions) (slice : Uint8Array)
    (h : Rep config (pendingLimit config options) p n)
    (hb : Bounded config (pendingLimit config options) (n.push slice)) :
    (p.append slice).drain.1 = (n.feed (extractorOf config options) slice).1 ∧
      Rep config (pendingLimit config options)
        (p.append slice).drain.2.enforcePendingLimit.compactBuffer
        (n.feed (extractorOf config options) slice).2 := by
  obtain ⟨h1, h2⟩ := drain_rep options (n.held.push slice) (p.append slice) n.stats
    (h.append slice) hb
  exact ⟨h1, h2.compactBuffer⟩

theorem NaiveParser.feed_append (x : Extractor UInt8 Event) (n : NaiveParser) (a b : Uint8Array) :
    n.feed x (a ++ b) =
      ((n.feed x a).1 ++ ((n.feed x a).2.feed x b).1, ((n.feed x a).2.feed x b).2) := by
  simp only [feed, framing.feed_append, framesOf_append, tallyAll_append]

theorem NaiveParser.feed_nil {x : Extractor UInt8 Event} (hs : Settled x n.held) :
    n.feed x [] = ([], n) := by
  unfold feed
  rw [framing.feed_nil hs]
  rfl

/-- The slices of the delimiter loop are one more way to cut the stream. -/
theorem feedDelimiter_rep (options : ProtocolParserOptions) (input : Uint8Array)
    (p : ProtocolParser) (n : NaiveParser)
    (h : Rep (.delimiter c) (pendingLimit (.delimiter c) options) p n)
    (hs : Settled (extractorOf (.delimiter c) options) n.held) :
    (p.feedDelimiter input).1 = (n.feed (extractorOf (.delimiter c) options) input).1 ∧
      Rep (.delimiter c) (pendingLimit (.delimiter c) options) (p.feedDelimiter input).2
        (n.feed (extractorOf (.delimiter c) options) input).2 := by
  rw [feedDelimiter]
  split
  · rename_i hnil
    rw [List.eq_nil_of_length_eq_zero hnil, NaiveParser.feed_nil hs]
    exact ⟨rfl, h⟩
  · rename_i hlen
    have hle := settled_le_limit hs
    have hp := h.pending_eq
    have hm := h.limit_eq
    simp only
    generalize htake : min input.length
      (max 1 ((p.maxPendingBytes : ℤ) - p.pending + 1)).toNat = take
    have hb : Bounded (.delimiter c) (pendingLimit (.delimiter c) options)
        (n.push (input.take take)) := by
      intro _ _
      simp only [NaiveParser.push, push_items, List.length_append, List.length_take]
      omega
    obtain ⟨h1, h2⟩ := slice_rep options (input.take take) h hb
    have hrest := feedDelimiter_rep options (input.drop take) _ _ h2
      (NaiveParser.feed_settled _ n (input.take take))
    have hjoin := NaiveParser.feed_append (extractorOf (.delimiter c) options) n
      (input.take take) (input.drop take)
    rw [List.take_append_drop] at hjoin
    rw [hjoin, h1, hrest.1]
    exact ⟨rfl, hrest.2⟩
termination_by input.length
decreasing_by
  simp only [List.length_drop]
  omega

theorem feed_rep (options : ProtocolParserOptions) (input : Uint8Array)
    (h : Rep config (pendingLimit config options) p n)
    (hs : Settled (extractorOf config options) n.held) :
    (p.feed input).1 = (n.feed (extractorOf config options) input).1 ∧
      Rep config (pendingLimit config options) (p.feed input).2
        (n.feed (extractorOf config options) input).2 := by
  unfold ProtocolParser.feed
  split
  · rename_i hnil
    rw [List.eq_nil_of_length_eq_zero hnil, NaiveParser.feed_nil hs]
    exact ⟨rfl, h⟩
  · split
    · rename_i c hc
      have hconfig : config = .delimiter c := h.config_eq.symm.trans hc
      subst hconfig
      exact feedDelimiter_rep options input p n h hs
    · rename_i hnot
      have hplain : ∀ c, config ≠ .delimiter c := fun c hc => hnot c (h.config_eq.trans hc)
      obtain ⟨h1, h2⟩ := drain_rep options (n.held.push input) (p.append input) n.stats
        (h.append input) (fun c hc => absurd hc (hplain c))
      have hidle : (p.append input).drain.2.enforcePendingLimit = (p.append input).drain.2 := by
        apply enforcePendingLimit_idle
        intro c hc
        have hconfig := h2.config_eq
        rw [enforcePendingLimit_config, hc] at hconfig
        exact absurd hconfig.symm (hplain c)
      rw [hidle] at h2
      exact ⟨h1, h2.compactBuffer⟩

theorem feedAll_rep (options : ProtocolParserOptions) (chunks : List Uint8Array)
    (p : ProtocolParser) (n : NaiveParser) (h : Rep config (pendingLimit config options) p n)
    (hs : Settled (extractorOf config options) n.held) :
    (p.feedAll chunks).1 = (n.feedAll (extractorOf config options) chunks).1 ∧
      Rep config (pendingLimit config options) (p.feedAll chunks).2
        (n.feedAll (extractorOf config options) chunks).2 := by
  induction chunks generalizing p n with
  | nil => exact ⟨rfl, h⟩
  | cons chunk chunks ih =>
    obtain ⟨h1, h2⟩ := feed_rep options chunk h hs
    obtain ⟨h3, h4⟩ := ih _ _ h2 (n.feed_settled _ chunk)
    simp only [ProtocolParser.feedAll, NaiveParser.feedAll, h1, h3]
    exact ⟨trivial, h4⟩

/-! ## From the constructor on -/

/-- What an accepted construction fixes for the life of the parser. -/
theorem new_ok {raw : ParserConfig} (h : ProtocolParser.new raw options = .ok p) :
    validateAndCloneConfig raw = .ok p.config ∧
      Rep p.config (pendingLimit p.config options) p NaiveParser.new := by
  unfold ProtocolParser.new at h
  rcases hv : validateAndCloneConfig raw with e | config
  · rw [hv] at h
    cases h
  · rw [hv] at h
    cases h
    exact ⟨rfl, rfl, rfl, le_refl _, le_refl _, rfl, rfl, rfl,
      fun c _ => searched_of_zero (le_refl _)⟩

theorem new_settled (x : Extractor UInt8 Event) : Settled x NaiveParser.new.held := next_nil x

end bbcom.protocol_parser
