-- The laws of the protocol parser. It does what the naive parser does, so the
-- cuts of the stream do not matter, no byte gets lost, and what waits stays
-- bounded.
import Bbcom.ProtocolParserRep

open bbcom.js bbcom.framing

namespace bbcom.protocol_parser

open ProtocolParser List Option

variable {config : ByteParserConfig} {limit : Nat} {p : ProtocolParser} {n : NaiveParser}

/-! ## The cuts of the stream -/

/-- Two ways to cut one stream into calls of `feed` give the same frames at the same places,
the same counters, and the same bytes that wait. -/
theorem the_cuts_of_the_stream_never_matter (raw : ParserConfig) (options : ProtocolParserOptions)
    (p : ProtocolParser) (h : new raw options = .ok p)
    (chunks chunks' : List Uint8Array) (hcut : chunks.flatten = chunks'.flatten) :
    (p.feedAll chunks).1 = (p.feedAll chunks').1 ∧
      (p.feedAll chunks).2.stats = (p.feedAll chunks').2.stats ∧
      (p.feedAll chunks).2.view = (p.feedAll chunks').2.view := by
  obtain ⟨_, hrep⟩ := new_ok h
  have hs := new_settled (extractorOf p.config options)
  obtain ⟨h1, h2⟩ := feedAll_rep options chunks p _ hrep hs
  obtain ⟨h3, h4⟩ := feedAll_rep options chunks' p _ hrep hs
  rw [NaiveParser.feedAll_eq _ chunks _ hs] at h1 h2
  rw [NaiveParser.feedAll_eq _ chunks' _ hs, ← hcut] at h3 h4
  exact ⟨h1.trans h3.symm, h2.stats_eq.trans h4.stats_eq.symm, h2.view_eq.trans h4.view_eq.symm⟩

/-- A CRLF parser whose stream is cut inside the delimiter. -/
theorem a_cut_inside_the_delimiter_does_not_matter :
    ∃ p, new (.delimiter [.finite 13, .finite 10] true) ⟨none⟩ = .ok p ∧
      (p.feedAll [[65, 13], [10, 66]]).1 = (p.feedAll [[65, 13, 10, 66]]).1 :=
  ⟨_, rfl, (the_cuts_of_the_stream_never_matter (.delimiter [.finite 13, .finite 10] true) ⟨none⟩ _
    rfl [[65, 13], [10, 66]] [[65, 13, 10, 66]] rfl).1⟩

/-! ## Feeds and resets in any order -/

inductive Call
  | feed (input : Uint8Array)
  | reset

def ProtocolParser.call (p : ProtocolParser) : Call → List ParsedFrame × ProtocolParser
  | .feed input => p.feed input
  | .reset => ([], p.reset)

def NaiveParser.call (x : Extractor UInt8 Event) (n : NaiveParser) :
    Call → List ParsedFrame × NaiveParser
  | .feed input => n.feed x input
  | .reset => ([], .new)

/-- The frames of each call, and the parser after the last one. -/
def ProtocolParser.run : ProtocolParser → List Call → List (List ParsedFrame) × ProtocolParser
  | p, [] => ([], p)
  | p, call :: calls =>
    let first := p.call call
    let rest := run first.2 calls
    (first.1 :: rest.1, rest.2)

def NaiveParser.run (x : Extractor UInt8 Event) :
    NaiveParser → List Call → List (List ParsedFrame) × NaiveParser
  | n, [] => ([], n)
  | n, call :: calls =>
    let first := n.call x call
    let rest := run x first.2 calls
    (first.1 :: rest.1, rest.2)

/-- What went in and came out since the construction or the last reset. -/
structure Since where
  fed : Uint8Array
  frames : List ParsedFrame

def Since.after (s : Since) (frames : List ParsedFrame) : Call → Since
  | .feed input => ⟨s.fed ++ input, s.frames ++ frames⟩
  | .reset => ⟨[], []⟩

/-- `Since` after a run of calls that gave these frames. -/
def sinceReset : Since → List Call → List (List ParsedFrame) → Since
  | s, call :: calls, frames :: rest => sinceReset (s.after frames call) calls rest
  | s, _, _ => s

/-- The delimiter bytes that the frames leave out. -/
def excludedDelimiterBytes (config : ByteParserConfig) (frames : List ParsedFrame) : Nat :=
  match config with
  | .delimiter c => if c.includeDelimiter then 0 else frames.length * c.delimiter.length
  | _ => 0

/-- The parser stands where the naive parser stands that read all of `fed` at once. -/
structure SinceRep (config : ByteParserConfig) (options : ProtocolParserOptions)
    (p : ProtocolParser) (s : Since) : Prop where
  rep : Rep config (pendingLimit config options) p
    (NaiveParser.new.feed (extractorOf config options) s.fed).2
  frames_eq : s.frames = (NaiveParser.new.feed (extractorOf config options) s.fed).1

theorem reset_rep (h : Rep config limit p n) : Rep config limit p.reset .new :=
  ⟨h.config_eq, h.limit_eq, Nat.le_refl _, Nat.le_refl _, rfl, rfl, rfl,
    fun _ _ => searched_of_zero (Nat.le_refl _)⟩

variable {options : ProtocolParserOptions}

theorem sinceRep_call {s : Since} (h : SinceRep config options p s) (call : Call) :
    SinceRep config options (p.call call).2 (s.after (p.call call).1 call) := by
  cases call with
  | reset =>
    have hnil := NaiveParser.feed_nil (new_settled (extractorOf config options))
    refine ⟨?_, ?_⟩
    · simp only [Since.after, hnil]
      exact reset_rep h.rep
    · simp only [Since.after, hnil]
  | feed input =>
    obtain ⟨h1, h2⟩ := feed_rep options input h.rep (NaiveParser.feed_settled _ _ _)
    have hjoin := NaiveParser.feed_append (extractorOf config options) .new s.fed input
    refine ⟨?_, ?_⟩
    · simp only [Since.after, hjoin]
      exact h2
    · simp only [Since.after, hjoin, call, h1, ← h.frames_eq]

theorem sinceRep_run (calls : List Call) {s : Since} (h : SinceRep config options p s) :
    SinceRep config options (p.run calls).2 (sinceReset s calls (p.run calls).1) := by
  induction calls generalizing p s with
  | nil => exact h
  | cons call calls ih => exact ih (sinceRep_call h call)

theorem run_rep (options : ProtocolParserOptions) (calls : List Call)
    (h : Rep config (pendingLimit config options) p n)
    (hs : Settled (extractorOf config options) n.held) :
    (p.run calls).1 = (n.run (extractorOf config options) calls).1 := by
  induction calls generalizing p n with
  | nil => rfl
  | cons call calls ih =>
    cases call with
    | reset =>
      have := ih (reset_rep h) (new_settled (extractorOf config options))
      simp only [run, NaiveParser.run, call, NaiveParser.call, this]
    | feed input =>
      obtain ⟨h1, h2⟩ := feed_rep options input h hs
      have := ih h2 (n.feed_settled _ input)
      simp only [run, NaiveParser.run, call, NaiveParser.call, h1, this]

/-! ## What the frames cover -/

/-- A frame is the front of what was held, and takes its bytes and the delimiter behind it. -/
theorem frame_facts {held data : List UInt8} {k : Nat}
    (hx : (extractorOf config options).next held = some (.frame data, k)) :
    data = held.take data.length ∧
      k = data.length + excludedDelimiterBytes config [⟨data, 0⟩] := by
  cases config with
  | fixed c =>
    simp only [extractorOf, fixedExtractor] at hx
    split at hx
    · cases hx
    · cases hx
      simp [excludedDelimiterBytes]
      omega
  | length c =>
    simp only [extractorOf, lengthExtractor] at hx
    split_ifs at hx
    · simp at hx
    · cases hx
      simp [excludedDelimiterBytes]
      omega
  | delimiter c =>
    simp only [extractorOf, delimiterExtractor] at hx
    split at hx
    · rename_i index hi
      have hf := (firstFrame_some.mp hi).1.fits c.nonempty
      have hd := dataLength_le c index
      cases hx
      simp only [length_take]
      rw [Nat.min_eq_left (by omega)]
      refine ⟨rfl, ?_⟩
      simp only [excludedDelimiterBytes, DelimiterConfig.dataLength]
      split <;> simp
    · split at hx <;> simp at hx

theorem excludedDelimiterBytes_nil (config : ByteParserConfig) :
    excludedDelimiterBytes config [] = 0 := by
  unfold excludedDelimiterBytes
  split
  · split <;> simp
  · rfl

theorem excludedDelimiterBytes_append (config : ByteParserConfig) (as bs : List ParsedFrame) :
    excludedDelimiterBytes config (as ++ bs) =
      excludedDelimiterBytes config as + excludedDelimiterBytes config bs := by
  unfold excludedDelimiterBytes
  split
  · split
    · rfl
    · simp [Nat.add_mul]
  · rfl

def frameBytes (frames : List ParsedFrame) : Nat := (frames.map (·.data.length)).sum

/-- Every taken byte is in a frame, in a delimiter left out, or counted as discarded. -/
theorem taken_conserves (ts : List (Taken Event))
    (h : ∀ t ∈ ts, ∃ held, (extractorOf config options).next held = some (t.event, t.size))
    (stats : ProtocolParserStats) :
    takenSize ts + stats.discardedBytes = frameBytes (framesOf ts) +
      excludedDelimiterBytes config (framesOf ts) + (tallyAll stats ts).discardedBytes := by
  induction ts generalizing stats with
  | nil => simp [framesOf, frameBytes, excludedDelimiterBytes_nil, tallyAll]
  | cons t ts ih =>
    obtain ⟨held, hx⟩ := h t (mem_cons_self ..)
    have hrest := ih (fun u hu => h u (mem_cons_of_mem _ hu)) (tally stats t.event t.size)
    rw [framesOf_cons, excludedDelimiterBytes_append, tallyAll_cons, takenSize_cons]
    generalize tallyAll (tally stats t.event t.size) ts = after at hrest ⊢
    rcases t with ⟨offset, event, size⟩
    cases event with
    | frame data =>
      have hf : size = data.length + excludedDelimiterBytes config [⟨data, offset⟩] :=
        (frame_facts hx).2
      simp only [tally] at hrest
      simp only [frameOf, toList_some, frameBytes, cons_append, nil_append,
        map_cons, sum_cons] at hrest ⊢
      omega
    | overflow =>
      simp only [tally] at hrest
      simp only [frameOf, toList_none, nil_append, excludedDelimiterBytes_nil]
      omega
    | resync =>
      simp only [tally] at hrest
      simp only [frameOf, toList_none, nil_append, excludedDelimiterBytes_nil]
      omega

theorem mem_framesOf {ts : List (Taken Event)} {f : ParsedFrame} (h : f ∈ framesOf ts) :
    ∃ t ∈ ts, t.event = .frame f.data ∧ t.offset = f.offset := by
  unfold framesOf at h
  obtain ⟨t, ht, hf⟩ := mem_filterMap.mp h
  refine ⟨t, ht, ?_⟩
  rcases t with ⟨offset, event, size⟩
  cases event with
  | frame data =>
    simp only [frameOf, some.injEq] at hf
    subst hf
    exact ⟨rfl, rfl⟩
  | overflow => cases hf
  | resync => cases hf

/-- A parser that waits holds no more than its limit, whatever its framing. -/
theorem settled_le_pendingLimit {held : List UInt8}
    (hx : (extractorOf config options).next held = none) :
    held.length ≤ pendingLimit config options := by
  cases config with
  | delimiter c => exact settled_le_limit hx
  | fixed c =>
    have hb := c.bounded
    have : MAX_FIXED_FRAME_BYTES ≤ DEFAULT_PROTOCOL_PARSER_MAX_PENDING_BYTES := by decide
    simp only [extractorOf, fixedExtractor] at hx
    simp only [pendingLimit]
    split at hx
    · omega
    · cases hx
  | length c =>
    have hb : c.headerEnd ≤ DEFAULT_PROTOCOL_PARSER_MAX_PENDING_BYTES := c.header_fits
    simp only [extractorOf, lengthExtractor] at hx
    simp only [pendingLimit]
    split_ifs at hx with h1 h2 h3
    · omega
    · simp only [Misaligned, MAX_LENGTH_FRAME_BYTES] at h2
      omega

/-! ## The parser refines the naive parser -/

/-- For any calls of `feed` and `reset`, each call gives the frames that the naive parser
gives. Of what was fed since the last reset, each frame is the slice at its offset, every
byte is in a frame, in a delimiter left out, discarded or pending, and the pending bytes
keep the limit. -/
theorem the_parser_does_what_the_naive_one_does (raw : ParserConfig)
    (options : ProtocolParserOptions)
    (p : ProtocolParser) (h : new raw options = .ok p) (calls : List Call) :
    let after := (p.run calls).2
    let since := sinceReset ⟨[], []⟩ calls (p.run calls).1
    (p.run calls).1 = (NaiveParser.new.run (extractorOf p.config options) calls).1 ∧
      (∀ f ∈ since.frames, f.offset + f.data.length ≤ since.fed.length ∧
        f.data = (since.fed.drop f.offset).take f.data.length) ∧
      frameBytes since.frames + excludedDelimiterBytes p.config since.frames +
        after.stats.discardedBytes + after.pending = since.fed.length ∧
      after.pending ≤ pendingLimit p.config options := by
  intro after since
  obtain ⟨_, hrep⟩ := new_ok h
  have hs := new_settled (extractorOf p.config options)
  have hstart : SinceRep p.config options p ⟨[], []⟩ := by
    have hnil := NaiveParser.feed_nil hs
    exact ⟨by rw [hnil]; exact hrep, by rw [hnil]⟩
  have hsince : SinceRep p.config options after since := sinceRep_run calls hstart
  -- all calls since the reset come to one drain of what was fed
  have hframes : since.frames = framesOf
      (framing.drain (extractorOf p.config options) ⟨0, since.fed⟩).1 := hsince.frames_eq
  have hpending : after.pending =
      (framing.drain (extractorOf p.config options) ⟨0, since.fed⟩).2.items.length :=
    hsince.rep.pending_eq
  have hstats : after.stats = tallyAll .zero
      (framing.drain (extractorOf p.config options) ⟨0, since.fed⟩).1 := hsince.rep.stats_eq
  have hmem := drain_mem (extractorOf p.config options) ⟨0, since.fed⟩
  obtain ⟨hrest, hsize⟩ := drain_conserves (extractorOf p.config options) ⟨0, since.fed⟩
  have hsettled := drain_settled (extractorOf p.config options) ⟨0, since.fed⟩
  refine ⟨run_rep options calls hrep hs, ?_, ?_, ?_⟩
  · intro f hf
    rw [hframes] at hf
    obtain ⟨t, ht, he, ho⟩ := mem_framesOf hf
    obtain ⟨_, hx⟩ := hmem t ht
    rw [he, ho, Nat.sub_zero] at hx
    have hheld := (extractorOf p.config options).takes_held hx
    have hdata := (frame_facts hx).1
    have hlen := congrArg length hdata
    simp only [length_take, length_drop] at hlen
    have hpos := (extractorOf p.config options).takes_some hx
    simp only [length_drop] at hheld
    exact ⟨by omega, hdata⟩
  · have hcons := @taken_conserves p.config options _ (fun t ht => ⟨_, (hmem t ht).2⟩) .zero
    rw [hframes, hpending, hstats, hrest]
    simp only [Held.skip, length_drop, ProtocolParserStats.zero] at hcons hsize ⊢
    omega
  · rw [hpending]
    exact settled_le_pendingLimit hsettled

/-- A length-prefixed parser with a reset between two feeds. -/
theorem a_run_with_a_reset_follows_the_naive_one :
    ∃ p, new (.length (.finite 0) (.finite 1) true (.finite 1)) ⟨none⟩ = .ok p ∧
      (p.run [.feed [2, 7], .reset, .feed [1, 9, 0]]).1 =
        (NaiveParser.new.run (extractorOf p.config ⟨none⟩)
          [.feed [2, 7], .reset, .feed [1, 9, 0]]).1 :=
  ⟨_, rfl, (the_parser_does_what_the_naive_one_does
    (.length (.finite 0) (.finite 1) true (.finite 1)) ⟨none⟩ _ rfl _).1⟩

end bbcom.protocol_parser
