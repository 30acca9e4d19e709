-- The serial console of the SMP parser. A call takes the lines that have ended off the front of
-- what its direction holds and consumes them one after the other, so that the cuts of the stream
-- into calls never matter.
import Bbcom.Lib.Framing
import Bbcom.SmpConsoleKeeps
import Bbcom.SmpConsoleView

open bbcom.js bbcom.base64 bbcom.framing

namespace bbcom.smp

open List Option Held McumgrSmpParser Option

namespace McumgrSmpParser

variable {runtime : Runtime}

/-! ## Lines -/

/-- A line ends at its first LF. -/
def lineExtractor : Extractor UInt8 Uint8Array where
  next held := (held.idxOf? 0x0A).map fun newline => (held.take (newline + 1), newline + 1)
  takes_some := by
    intro held line n h
    obtain ⟨newline, _, heq⟩ := map_eq_some_iff.1 h
    cases heq
    exact Nat.succ_pos newline
  takes_held := by
    intro held line n h
    obtain ⟨newline, hfound, heq⟩ := map_eq_some_iff.1 h
    cases heq
    exact (idxOf?_eq_some_iff.1 hfound).1
  stable := by
    intro held line n more h
    obtain ⟨newline, hfound, heq⟩ := map_eq_some_iff.1 h
    cases heq
    have hfirst : (held ++ more).idxOf? 0x0A = some newline := by
      unfold idxOf? at hfound ⊢
      rw [findIdx?_append, hfound]
      rfl
    have hlength := (idxOf?_eq_some_iff.1 hfound).1
    rw [hfirst, map_some, take_append_of_le_length hlength]

/-- What a direction holds of a line, and when it came. -/
structure HeldLine where
  inputOffset : Nat
  held : Held UInt8
  timestamp : Int
  captureSeq : Option Nat
  lastTimestamp : Int

/-- A line of the stream, as it is consumed at the time `t`. -/
def lineOf (t : Int) (seq : Option Nat) (taken : Taken Uint8Array) : ConsoleLine :=
  let line := taken.event.dropLast
  { line := if line.getLast? = some 0x0D then line.dropLast else line
    wireLine := taken.event
    offset := taken.offset
    timestamp := t
    captureSeq := seq
    now := t }

/-- The lines one after the other. -/
def consumeLines (runtime : Runtime) (d : Direction) :
    List ConsoleLine → McumgrSmpParser → McumgrSmpParser × List Nat
  | [], p => (p, [])
  | l :: lines, p =>
    let (p, consumed) := consumeConsoleLine runtime d 32 l p
    let (p, refs) := consumeLines runtime d lines p
    (p, consumed ++ refs)

theorem consumeLines_append (d : Direction) (lines more : List ConsoleLine) (p : McumgrSmpParser) :
    consumeLines runtime d (lines ++ more) p =
      let first := consumeLines runtime d lines p
      let rest := consumeLines runtime d more first.1
      (rest.1, first.2 ++ rest.2) := by
  induction lines generalizing p with
  | nil => rfl
  | cons l lines ih => simp only [cons_append, consumeLines, ih, append_assoc]

theorem Timely.consumeLines {p₀ p : McumgrSmpParser} {d : Direction} {t : Int}
    (h : Timely p₀ d t p) (seq : Option Nat) (lines : List (Taken Uint8Array)) :
    Timely p₀ d t (consumeLines runtime d (lines.map (lineOf t seq)) p).1 := by
  induction lines generalizing p with
  | nil => exact h
  | cons line lines ih => exact ih (h.consumeConsoleLine 32 rfl rfl)

/-! ## The parser but for a held line -/

/-- The state with other fields in place of its line. -/
def withLine (g : Option Nat → Option Nat) (h : HeldLine) (s : DirectionState) :
    DirectionState :=
  { s with
    inputOffset := h.inputOffset
    lineBuffer := h.held.items
    lineBufferOffset := h.held.offset
    lineTimestamp := h.timestamp
    lineCaptureSeq := g h.captureSeq
    lineLastTimestamp := h.lastTimestamp
    console := s.console.map (ConsoleAssembly.relabel g) }

def relabelState (g : Option Nat → Option Nat) (s : DirectionState) : DirectionState :=
  { s with
    lineCaptureSeq := g s.lineCaptureSeq
    console := s.console.map (ConsoleAssembly.relabel g) }

/-- The parser with other labels for the numbers of the capture that its records and its console
code hold. -/
def relabel (g : Option Nat → Option Nat) (p : McumgrSmpParser) : McumgrSmpParser :=
  p.seen g fun _ => relabelState g

def onLine (g : Option Nat → Option Nat) (d : Direction) (h : HeldLine) (d' : Direction)
    (s : DirectionState) : DirectionState :=
  if d' = d then withLine g h s else relabelState g s

variable {g : Option Nat → Option Nat}

theorem blind_relabel : Blind g fun _ => relabelState g := ⟨fun _ _ => rfl, fun _ _ _ => rfl⟩

theorem blind_onLine (d : Direction) (h : HeldLine) : Blind g (onLine g d h) where
  console d' s := by
    unfold onLine
    split_ifs <;> rfl
  setConsole d' s c := by
    unfold onLine
    split_ifs <;> rfl

/-- The parser `p` is `q`, with the line `h` in direction `d`, under the labels. -/
def Holds (g : Option Nat → Option Nat) (d : Direction) (h : HeldLine) (q p : McumgrSmpParser) :
    Prop :=
  p.relabel g = q.seen g (onLine g d h)

variable {d : Direction} {h : HeldLine} {p q : McumgrSmpParser}

theorem Holds.state (hp : Holds g d h q p) (d' : Direction) :
    relabelState g (p.state d') = onLine g d h d' (q.state d') := by
  have hstate := congrArg (fun r => McumgrSmpParser.state r d') hp
  simp only [relabel, seen_state] at hstate
  exact hstate

theorem Holds.line (hp : Holds g d h q p) :
    relabelState g (p.state d) = withLine g h (q.state d) := by
  have hstate := hp.state d
  rwa [onLine, if_pos rfl] at hstate

section

variable (hp : Holds g d h q p)
include hp

theorem Holds.lineBuffer : (p.state d).lineBuffer = h.held.items :=
  congrArg DirectionState.lineBuffer hp.line

theorem Holds.lineBufferOffset : (p.state d).lineBufferOffset = h.held.offset :=
  congrArg DirectionState.lineBufferOffset hp.line

theorem Holds.lineTimestamp : (p.state d).lineTimestamp = h.timestamp :=
  congrArg DirectionState.lineTimestamp hp.line

theorem Holds.lineCaptureSeq : g (p.state d).lineCaptureSeq = g h.captureSeq :=
  congrArg DirectionState.lineCaptureSeq hp.line

theorem Holds.lineLastTimestamp : (p.state d).lineLastTimestamp = h.lastTimestamp :=
  congrArg DirectionState.lineLastTimestamp hp.line

theorem Holds.inputOffset : (p.state d).inputOffset = h.inputOffset :=
  congrArg DirectionState.inputOffset hp.line

/-- Other fields in place of the line. -/
theorem Holds.setLine {h' : HeldLine} {s : DirectionState}
    (hs : relabelState g s = { relabelState g (p.state d) with
      inputOffset := h'.inputOffset
      lineBuffer := h'.held.items
      lineBufferOffset := h'.held.offset
      lineTimestamp := h'.timestamp
      lineCaptureSeq := g h'.captureSeq
      lineLastTimestamp := h'.lastTimestamp }) : Holds g d h' q (p.setState d s) := by
  rw [hp.line] at hs
  have hline : relabelState g s = withLine g h' (q.state d) := hs
  unfold Holds relabel seen at hp ⊢
  rw [mk.injEq] at hp ⊢
  obtain ⟨hconfig, hTX, hRX, hrest⟩ := hp
  cases d with
  | TX => exact ⟨hconfig, hline, hRX, hrest⟩
  | RX => exact ⟨hconfig, hTX, hline, hrest⟩

end

/-- A line is consumed whatever the direction holds behind it. -/
theorem Holds.consumeConsoleLine (hp : Holds g d h q p) {l l' : ConsoleLine}
    (hl : l.relabel g = l'.relabel g) :
    Holds g d h (consumeConsoleLine runtime d 32 l' q).1 (consumeConsoleLine runtime d 32 l p).1 ∧
      (consumeConsoleLine runtime d 32 l p).2 = (consumeConsoleLine runtime d 32 l' q).2 := by
  have hleft := @seen_consumeConsoleLine runtime g _ blind_relabel d 32 l p
  have hright := @seen_consumeConsoleLine runtime g _ (blind_onLine d h) d 32 l' q
  rw [← hp, ← hl] at hright
  exact Prod.mk.inj (hleft.symm.trans hright)

/-! ## The loop over the lines -/

theorem consoleLoop_lines {chunk : SmpTrafficChunk} (fuel : Nat) {h : HeldLine}
    {p q : McumgrSmpParser} (hp : Holds g chunk.direction h q p)
    (htime : h.timestamp = chunk.timestamp) {seq : Option Nat} (hseq : g chunk.captureSeq = g seq)
    (hheld : g h.captureSeq = g seq) (hfuel : h.held.items.length ≤ fuel) :
    let drained := drain lineExtractor h.held
    let consumed := consumeLines runtime chunk.direction
      (drained.1.map (lineOf chunk.timestamp seq)) q
    Holds g chunk.direction { h with held := drained.2 } consumed.1
        (consoleLoop runtime chunk fuel p).1 ∧
      (consoleLoop runtime chunk fuel p).2 = consumed.2 := by
  induction fuel generalizing h p q with
  | zero =>
    have hnil : h.held.items = [] := length_eq_zero_iff.1 (Nat.le_zero.1 hfuel)
    have hwaits : lineExtractor.next h.held.items = none := by rw [hnil]; rfl
    rw [drain_none hwaits]
    exact ⟨hp, rfl⟩
  | succ fuel ih =>
    unfold consoleLoop
    simp only [hp.lineBuffer]
    cases hfound : h.held.items.idxOf? 0x0A with
    | none =>
      have hwaits : lineExtractor.next h.held.items = none := map_eq_none_iff.2 hfound
      rw [drain_none hwaits]
      exact ⟨hp, rfl⟩
    | some newline =>
      have htakes : lineExtractor.next h.held.items =
          some (h.held.items.take (newline + 1), newline + 1) :=
        map_eq_some_iff.2 ⟨newline, hfound, rfl⟩
      have hlength := (idxOf?_eq_some_iff.1 hfound).1
      rw [drain_some htakes]
      simp only [map_cons, consumeLines]
      -- the line that has ended, and the parser without it
      set l : ConsoleLine :=
        { line := if (h.held.items.take newline).getLast? = some 0x0D then
            (h.held.items.take newline).dropLast else h.held.items.take newline
          wireLine := h.held.items.take (newline + 1)
          offset := (p.state chunk.direction).lineBufferOffset
          timestamp := (p.state chunk.direction).lineTimestamp
          captureSeq := (p.state chunk.direction).lineCaptureSeq
          now := chunk.timestamp } with hl
      have hline : l.relabel g = (lineOf chunk.timestamp seq
          ⟨h.held.offset, h.held.items.take (newline + 1), newline + 1⟩).relabel g := by
        have hdrop : (h.held.items.take (newline + 1)).dropLast = h.held.items.take newline := by
          rw [dropLast_eq_take, take_take, length_take]
          congr 1
          omega
        simp only [lineOf, hl, ConsoleLine.relabel, hdrop, hp.lineBufferOffset,
          hp.lineTimestamp, hp.lineCaptureSeq, hheld, htime]
      have hnext : Holds g chunk.direction { h with held := h.held.skip (newline + 1) } q
          (p.setState chunk.direction { p.state chunk.direction with
            lineBuffer := h.held.items.drop (newline + 1)
            lineBufferOffset := (p.state chunk.direction).lineBufferOffset + newline + 1
            lineTimestamp := chunk.timestamp
            lineCaptureSeq := chunk.captureSeq }) := by
        apply hp.setLine
        simp only [relabelState, skip, hp.lineBufferOffset, hp.inputOffset,
          hp.lineLastTimestamp, htime, hseq, hheld, Nat.add_assoc]
      obtain ⟨hholds, hrefs⟩ := @Holds.consumeConsoleLine runtime g _ _ _ _ hnext _ _ hline
      have hshorter : (h.held.skip (newline + 1)).items.length ≤ fuel := by
        simp only [skip, length_drop]
        omega
      obtain ⟨hlast, hrest⟩ := ih hholds htime hheld hshorter
      exact ⟨hlast, by rw [hrefs, hrest]⟩

/-! ## A call -/

theorem Holds.config (hp : Holds g d h q p) : p.config = q.config := by
  have hsame := congrArg McumgrSmpParser.config (show p.relabel g = q.seen g (onLine g d h) from hp)
  exact hsame

theorem Holds.pendingRequests (hp : Holds g d h q p) : p.pendingRequests = q.pendingRequests := by
  have hsame := congrArg McumgrSmpParser.pendingRequests
    (show p.relabel g = q.seen g (onLine g d h) from hp)
  exact hsame

/-- A call of `feedConsole` whose rest is no line too long. -/
theorem feedConsole_lines {chunk : SmpTrafficChunk} {chunkOffset : Nat} {h : HeldLine}
    {p q : McumgrSmpParser} (hp : Holds g chunk.direction h q p) {seq : Option Nat}
    (hseq : g chunk.captureSeq = g seq) (hoffset : h.held.items = [] → h.held.offset = chunkOffset)
    (hstart : h.held.items ≠ [] → h.timestamp = chunk.timestamp ∧ g h.captureSeq = g seq)
    (hlimit : (framing.feed lineExtractor h.held chunk.data).2.items.length ≤
      maxBufferedLine (consumeLines runtime chunk.direction
        ((framing.feed lineExtractor h.held chunk.data).1.map (lineOf chunk.timestamp seq))
        q).1.config) :
    let fed := framing.feed lineExtractor h.held chunk.data
    let consumed := consumeLines runtime chunk.direction
      (fed.1.map (lineOf chunk.timestamp seq)) q
    Holds g chunk.direction ⟨h.inputOffset, fed.2, chunk.timestamp, seq, chunk.timestamp⟩
        consumed.1 (p.feedConsole runtime chunk chunkOffset).1 ∧
      (p.feedConsole runtime chunk chunkOffset).2 = consumed.2 := by
  intro fed consumed
  obtain ⟨state, hstate⟩ : ∃ state, state = (let state := p.state chunk.direction
      let state := if state.lineBuffer.length = 0 then
          { state with
            lineBufferOffset := chunkOffset
            lineTimestamp := chunk.timestamp
            lineCaptureSeq := chunk.captureSeq }
        else state
      { state with
        lineLastTimestamp := chunk.timestamp
        lineBuffer := state.lineBuffer ++ chunk.data }) := ⟨_, rfl⟩
  have hfeed : p.feedConsole runtime chunk chunkOffset =
      let looped := consoleLoop runtime chunk state.lineBuffer.length
        (p.setState chunk.direction state)
      let limited := looped.1.limitLine chunk chunkOffset
      (limited.1, looped.2 ++ limited.2) := by
    rw [hstate]
    rfl
  have hbegun : Holds g chunk.direction
      ⟨h.inputOffset, h.held.push chunk.data, chunk.timestamp, seq, chunk.timestamp⟩ q
      (p.setState chunk.direction state) := by
    apply hp.setLine
    simp only [hstate, hp.lineBuffer]
    by_cases hempty : h.held.items = []
    · simp only [hempty, length_nil, if_true, relabelState, push, hoffset hempty,
        hp.inputOffset, hseq]
    · obtain ⟨htime, hheld⟩ := hstart hempty
      rw [if_neg (by rwa [length_eq_zero_iff])]
      simp only [relabelState, push, hp.inputOffset, hp.lineBufferOffset, hp.lineTimestamp,
        hp.lineCaptureSeq, hp.lineBuffer, htime, hheld]
  have hbuffer : (h.held.push chunk.data).items.length ≤ state.lineBuffer.length := by
    have hline := hbegun.lineBuffer
    rw [setState_same] at hline
    rw [hline]
  obtain ⟨hholds, hrefs⟩ := @consoleLoop_lines runtime g chunk state.lineBuffer.length _ _ _
    hbegun rfl seq hseq rfl hbuffer
  -- what is left is no line too long
  have hlimited : ∀ r, Holds g chunk.direction
      ⟨h.inputOffset, fed.2, chunk.timestamp, seq, chunk.timestamp⟩ consumed.1 r →
      r.limitLine chunk chunkOffset = (r, []) := by
    intro r hr
    unfold limitLine
    simp only [hr.lineBuffer, hr.config]
    rw [if_neg (not_lt.2 hlimit)]
  rw [hfeed]
  simp only [hlimited _ hholds, append_nil]
  exact ⟨hholds, hrefs⟩

/-! ## Every partition -/

/-- The calls one after the other. -/
def feedAll (runtime : Runtime) :
    McumgrSmpParser → List SmpTrafficChunk → McumgrSmpParser × List Nat
  | p, [] => (p, [])
  | p, chunk :: chunks =>
    let (p, fed) := p.feed runtime chunk
    let (p, refs) := feedAll runtime p chunks
    (p, fed ++ refs)

/-- No stretch of the stream without a line end is longer than the limit. -/
def LinesWithin (limit : Nat) (stream : Uint8Array) : Prop :=
  ∀ line, line <:+: stream → 0x0A ∉ line → line.length ≤ limit

/-- What a direction holds once the stream has come at the time `t`, under the number `seq`. -/
def heldAfter (t : Int) (seq : Option Nat) (stream : Uint8Array) : HeldLine :=
  let time := if stream = [] then 0 else t
  ⟨stream.length, (framing.feed lineExtractor ⟨0, []⟩ stream).2, time,
    if stream = [] then none else seq, time⟩

def linesOf (t : Int) (seq : Option Nat) (stream : Uint8Array) : List ConsoleLine :=
  (framing.feed lineExtractor ⟨0, []⟩ stream).1.map (lineOf t seq)

theorem feed_nothing : framing.feed lineExtractor ⟨0, []⟩ [] = ([], ⟨0, []⟩) :=
  feed_nil (next_nil lineExtractor)

@[simp] theorem linesOf_nil (t : Int) (seq : Option Nat) : linesOf t seq [] = [] := by
  unfold linesOf
  rw [feed_nothing]
  rfl

@[simp] theorem heldAfter_nil (t : Int) (seq : Option Nat) :
    heldAfter t seq [] = ⟨0, ⟨0, []⟩, 0, none, 0⟩ := by
  unfold heldAfter
  rw [feed_nothing]
  rfl

theorem linesOf_append (t : Int) (seq : Option Nat) (stream data : Uint8Array) :
    linesOf t seq (stream ++ data) = linesOf t seq stream ++
      (framing.feed lineExtractor (heldAfter t seq stream).held data).1.map (lineOf t seq) := by
  unfold linesOf heldAfter
  rw [feed_append, map_append]

theorem heldAfter_append (t : Int) (seq : Option Nat) (stream : Uint8Array) {data : Uint8Array}
    (hdata : data ≠ []) :
    heldAfter t seq (stream ++ data) = ⟨(heldAfter t seq stream).inputOffset + data.length,
      (framing.feed lineExtractor (heldAfter t seq stream).held data).2, t, seq, t⟩ := by
  have hmore : stream ++ data ≠ [] := by simp [hdata]
  unfold heldAfter
  rw [feed_append, if_neg hmore, if_neg hmore, length_append]

/-- What is held is the end of the stream, and has no line end. -/
theorem heldAfter_held (t : Int) (seq : Option Nat) (stream : Uint8Array) :
    (heldAfter t seq stream).held.items <:+ stream ∧
      (heldAfter t seq stream).held.offset + (heldAfter t seq stream).held.items.length =
        stream.length ∧ 0x0A ∉ (heldAfter t seq stream).held.items := by
  obtain ⟨hskip, hsize⟩ := drain_conserves lineExtractor (push ⟨0, []⟩ stream)
  have hheld : (heldAfter t seq stream).held =
      (push ⟨0, []⟩ stream).skip (takenSize (framing.feed lineExtractor ⟨0, []⟩ stream).1) :=
    hskip
  have hsettled := feed_settled lineExtractor ⟨0, []⟩ stream
  refine ⟨?_, ?_, ?_⟩
  · rw [hheld]
    exact drop_suffix _ _
  · rw [hheld]
    simp only [push, skip, nil_append, length_drop] at hsize ⊢
    change takenSize (framing.feed lineExtractor ⟨0, []⟩ stream).1 ≤ _ at hsize
    omega
  · exact idxOf?_eq_none_iff.1 (map_eq_none_iff.1 hsettled)

/-- What is held came at `t`, under `seq`. -/
theorem heldAfter_time {t : Int} {seq : Option Nat} {stream : Uint8Array}
    (hheld : (heldAfter t seq stream).held.items ≠ []) :
    (heldAfter t seq stream).timestamp = t ∧ (heldAfter t seq stream).captureSeq = seq ∧
      (heldAfter t seq stream).lastTimestamp = t := by
  have hstream : stream ≠ [] := by
    rintro rfl
    exact hheld (by rw [heldAfter_nil])
  unfold heldAfter
  simp only [if_neg hstream, and_self]

theorem consoleLastTimestamp_relabel (s : DirectionState) :
    consoleLastTimestamp (relabelState g s) = consoleLastTimestamp s := by
  unfold consoleLastTimestamp
  simp only [relabelState]
  cases s.console <;> rfl

theorem stateUnexpired_relabel {config : McumgrSmpParserConfig} {now : Int} {s : DirectionState} :
    StateUnexpired config now (relabelState g s) ↔ StateUnexpired config now s := by
  unfold StateUnexpired
  rw [consoleLastTimestamp_relabel]
  exact Iff.rfl

/-- A direction that nothing has come from, in a parser where nothing has waited for too long. -/
structure Fresh (p : McumgrSmpParser) (d : Direction) (t : Int) : Prop where
  transport : p.config.transport = .serialConsole
  direction : p.state d = createDirectionState
  unexpired : p.Unexpired t

theorem fresh_new {config : McumgrSmpParserConfig} (h : config.transport = .serialConsole)
    (d : Direction) (t : Int) : Fresh (new config) d t where
  transport := h
  direction := by cases d <;> rfl
  unexpired := by
    refine ⟨?_, ?_⟩
    · rintro (_ | _) <;> exact ⟨by rintro last ⟨⟩, fun hraw => absurd rfl hraw⟩
    · rintro pending ⟨⟩

/-- The lines of the stream have been consumed, and its rest is held. -/
structure After (runtime : Runtime) (g : Option Nat → Option Nat) (p₀ : McumgrSmpParser)
    (d : Direction) (t : Int) (seq : Option Nat) (stream : Uint8Array) (p : McumgrSmpParser) :
    Prop where
  holds : Holds g d (heldAfter t seq stream)
    (consumeLines runtime d (linesOf t seq stream) p₀).1 p
  timely : Timely p₀ d t (consumeLines runtime d (linesOf t seq stream) p₀).1

section

variable {p₀ : McumgrSmpParser} {t : Int} {seq : Option Nat} {stream : Uint8Array}

theorem Fresh.after (h : Fresh p₀ d t) : After runtime g p₀ d t seq [] p₀ := by
  have hstate : ∀ d', relabelState g (p₀.state d') =
      onLine g d (heldAfter t seq []) d' (p₀.state d') := by
    intro d'
    unfold onLine
    split_ifs with hd
    · rw [hd, h.direction, heldAfter_nil]
      rfl
    · rfl
  have hTX := hstate .TX
  have hRX := hstate .RX
  refine ⟨?_, ?_⟩
  · unfold Holds relabel seen
    rw [linesOf_nil, mk.injEq]
    exact ⟨rfl, hTX, hRX, rfl, rfl, rfl, rfl, rfl⟩
  · rw [linesOf_nil]
    exact
      { config := rfl
        others _ _ := rfl
        rawBuffer := rfl
        console := by
          unfold consumeLines
          rw [h.direction]
          rintro console ⟨⟩
        awaited := h.unexpired.2 }

theorem After.config (hp : After runtime g p₀ d t seq stream p) : p.config = p₀.config :=
  hp.holds.config.trans hp.timely.config

theorem After.unexpired (h : Fresh p₀ d t) (hp : After runtime g p₀ d t seq stream p) :
    p.Unexpired t := by
  have htimeout : (0 : Int) < p₀.config.reassemblyTimeoutMs := by
    have hmin := p₀.config.reassemblyTimeoutMs_min
    omega
  refine ⟨?_, ?_⟩
  · intro d'
    rw [hp.config]
    apply stateUnexpired_relabel.1
    rw [hp.holds.state d']
    by_cases hd : d' = d
    · subst hd
      rw [onLine, if_pos rfl]
      refine ⟨?_, ?_⟩
      · intro last hlast
        suffices hsame : last = t by
          rw [hsame, sub_self]
          exact htimeout
        unfold consoleLastTimestamp at hlast
        split_ifs at hlast with hmarker
        · cases hlast
          have hheld : (heldAfter t seq stream).held.items ≠ [] := by
            intro hnil
            simp only [withLine, hnil] at hmarker
            cases hmarker
          exact (heldAfter_time hheld).2.2
        · obtain ⟨console, hconsole, rfl⟩ := map_eq_some_iff.1 hlast
          obtain ⟨kept, hkept, rfl⟩ := map_eq_some_iff.1 hconsole
          exact (hp.timely.console kept hkept).2
      · intro hraw
        refine absurd ?_ hraw
        change ((consumeLines runtime d' (linesOf t seq stream) p₀).1.state d').rawBuffer = []
        rw [hp.timely.rawBuffer, h.direction]
        rfl
    · rw [onLine, if_neg hd, stateUnexpired_relabel, hp.timely.others d' hd]
      exact h.unexpired.1 d'
  · intro pending hpending
    rw [hp.holds.pendingRequests] at hpending
    exact hp.timely.awaited pending hpending

/-- A call goes on in the stream. -/
theorem After.feed (h : Fresh p₀ d t) (hp : After runtime g p₀ d t seq stream p)
    {chunk : SmpTrafficChunk} (hdirection : chunk.direction = d) (htime : chunk.timestamp = t)
    (hseq : g chunk.captureSeq = g seq)
    (hlines : LinesWithin (maxBufferedLine p₀.config) (stream ++ chunk.data)) :
    After runtime g p₀ d t seq (stream ++ chunk.data) (p.feed runtime chunk).1 ∧
      (consumeLines runtime d (linesOf t seq stream) p₀).2 ++ (p.feed runtime chunk).2 =
        (consumeLines runtime d (linesOf t seq (stream ++ chunk.data)) p₀).2 := by
  subst hdirection htime
  have hflush := flushExpired_unexpired (hp.unexpired h)
  unfold feed
  by_cases hempty : chunk.data.length = 0
  · rw [if_pos hempty, hflush, length_eq_zero_iff.1 hempty, append_nil, append_nil]
    exact ⟨hp, rfl⟩
  · rw [if_neg hempty]
    have hdata : chunk.data ≠ [] := fun hnil => hempty (length_eq_zero_iff.2 hnil)
    have htransport : p.config.transport = .serialConsole := by rw [hp.config, h.transport]
    have htimely := @Timely.consumeLines runtime _ _ _ _ hp.timely seq
      (framing.feed lineExtractor (heldAfter chunk.timestamp seq stream).held chunk.data).1
    obtain ⟨-, hplace, -⟩ := heldAfter_held chunk.timestamp seq stream
    obtain ⟨hsuffix, -, hend⟩ := heldAfter_held chunk.timestamp seq (stream ++ chunk.data)
    rw [heldAfter_append _ _ _ hdata] at hsuffix hend
    simp only [hflush, setState_config, htransport, nil_append]
    have hnext : Holds g chunk.direction
        { heldAfter chunk.timestamp seq stream with
          inputOffset := (heldAfter chunk.timestamp seq stream).inputOffset + chunk.data.length }
        (consumeLines runtime chunk.direction (linesOf chunk.timestamp seq stream) p₀).1
        (p.setState chunk.direction { p.state chunk.direction with
          inputOffset := (p.state chunk.direction).inputOffset + chunk.data.length }) := by
      apply hp.holds.setLine
      simp only [relabelState, hp.holds.inputOffset, hp.holds.lineBuffer, hp.holds.lineBufferOffset,
        hp.holds.lineTimestamp, hp.holds.lineCaptureSeq, hp.holds.lineLastTimestamp]
    have hoffset : (heldAfter chunk.timestamp seq stream).held.items = [] →
        (heldAfter chunk.timestamp seq stream).held.offset =
          (p.state chunk.direction).inputOffset := by
      intro hnil
      rw [hnil] at hplace
      rw [hp.holds.inputOffset]
      exact hplace
    have hstart : (heldAfter chunk.timestamp seq stream).held.items ≠ [] →
        (heldAfter chunk.timestamp seq stream).timestamp = chunk.timestamp ∧
          g (heldAfter chunk.timestamp seq stream).captureSeq = g seq := by
      intro hheld
      obtain ⟨htime, hnumber, -⟩ := heldAfter_time hheld
      exact ⟨htime, by rw [hnumber]⟩
    have hlimit : (framing.feed lineExtractor (heldAfter chunk.timestamp seq stream).held
        chunk.data).2.items.length ≤ maxBufferedLine p₀.config :=
      hlines _ hsuffix.isInfix hend
    rw [← htimely.config] at hlimit
    obtain ⟨hfed, hrefs⟩ := @feedConsole_lines runtime g chunk
      (p.state chunk.direction).inputOffset _ _ _ hnext seq hseq hoffset hstart hlimit
    refine ⟨⟨?_, ?_⟩, ?_⟩
    · rw [linesOf_append, consumeLines_append, heldAfter_append _ _ _ hdata]
      exact hfed
    · rw [linesOf_append, consumeLines_append]
      exact htimely
    · rw [linesOf_append, consumeLines_append, hrefs]

/-- Any calls go on in the stream. -/
theorem After.feedAll (h : Fresh p₀ d t) (hp : After runtime g p₀ d t seq stream p)
    (chunks : List SmpTrafficChunk)
    (hchunks : ∀ chunk ∈ chunks, chunk.direction = d ∧ chunk.timestamp = t ∧
      g chunk.captureSeq = g seq)
    (hlines : LinesWithin (maxBufferedLine p₀.config) (stream ++ (chunks.map (·.data)).flatten)) :
    After runtime g p₀ d t seq (stream ++ (chunks.map (·.data)).flatten)
        (feedAll runtime p chunks).1 ∧
      (consumeLines runtime d (linesOf t seq stream) p₀).2 ++ (feedAll runtime p chunks).2 =
        (consumeLines runtime d
          (linesOf t seq (stream ++ (chunks.map (·.data)).flatten)) p₀).2 := by
  induction chunks generalizing stream p with
  | nil =>
    simp only [map_nil, flatten_nil, append_nil]
    exact ⟨hp, append_nil _⟩
  | cons chunk chunks ih =>
    obtain ⟨hdirection, htime, hseq⟩ := hchunks chunk mem_cons_self
    simp only [map_cons, flatten_cons, ← append_assoc] at hlines ⊢
    have hfirst : LinesWithin (maxBufferedLine p₀.config) (stream ++ chunk.data) :=
      fun line hline => hlines line (hline.trans (prefix_append _ _).isInfix)
    obtain ⟨hnext, hrefs⟩ := hp.feed h hdirection htime hseq hfirst
    obtain ⟨hlast, hrest⟩ :=
      ih hnext (fun other hother => hchunks other (mem_cons_of_mem _ hother)) hlines
    refine ⟨hlast, ?_⟩
    rw [← hrest, ← hrefs, append_assoc]
    rfl

end

/-- Two partitions of one stream, whose lines stay within the limit, into calls of one time give
the same records and leave the parser the same, under all labels that the numbers of the capture
in the calls share: in full where the calls have one number, and but for the numbers where they
have different ones. -/
theorem console_cuts_never_matter {p : McumgrSmpParser} {d : Direction} {t : Int}
    (hfresh : Fresh p d t) (as bs : List SmpTrafficChunk)
    (hcalls : ∀ chunk ∈ as ++ bs, chunk.direction = d ∧ chunk.timestamp = t)
    (hsame : (as.map (·.data)).flatten = (bs.map (·.data)).flatten)
    (hlines : LinesWithin (maxBufferedLine p.config) (as.map (·.data)).flatten)
    (g : Option Nat → Option Nat) (seq : Option Nat)
    (hseq : ∀ chunk ∈ as ++ bs, g chunk.captureSeq = g seq) :
    (feedAll runtime p as).1.relabel g = (feedAll runtime p bs).1.relabel g ∧
      (feedAll runtime p as).2 = (feedAll runtime p bs).2 := by
  have hstart := @Fresh.after runtime g _ _ _ seq hfresh
  have hall : ∀ chunk ∈ as ++ bs, chunk.direction = d ∧ chunk.timestamp = t ∧
      g chunk.captureSeq = g seq := fun chunk hchunk =>
    ⟨(hcalls chunk hchunk).1, (hcalls chunk hchunk).2, hseq chunk hchunk⟩
  obtain ⟨ha, harefs⟩ := hstart.feedAll hfresh as
    (fun chunk hchunk => hall chunk (mem_append_left _ hchunk)) hlines
  obtain ⟨hb, hbrefs⟩ := hstart.feedAll hfresh bs
    (fun chunk hchunk => hall chunk (mem_append_right _ hchunk)) (by rwa [← hsame])
  rw [← hsame] at hb hbrefs
  exact ⟨Eq.trans ha.holds hb.holds.symm, append_cancel_left (harefs.trans hbrefs.symm)⟩

/-- A runtime for packets that have no payload. -/
def noPayload : Runtime := ⟨fun _ => .error "", fun _ => ""⟩

def consoleConfig : McumgrSmpParserConfig :=
  ⟨.serialConsole, 256, 1000, header_fits, waits_a_second⟩

/-- A call of the receiving direction at the time 5. -/
def receivedAt5 (captureSeq : Option Nat) (data : Uint8Array) : SmpTrafficChunk :=
  ⟨.RX, data, 5, captureSeq⟩

/-- A read request on a line of its own, in one call, and cut inside its marker, inside its
fragment and in front of the line end. -/
theorem console_cuts_of_a_request :
    let whole : List SmpTrafficChunk := [receivedAt5 none [0x3E, 0x06, 0x09, 65, 65, 111, 65, 65,
      65, 65, 65, 65, 65, 65, 66, 65, 68, 77, 120, 0x0D, 0x0A]]
    let cut : List SmpTrafficChunk := [receivedAt5 (some 1) [0x3E, 0x06],
      receivedAt5 (some 2) [0x09, 65, 65, 111, 65, 65, 65], receivedAt5 (some 3) [],
      receivedAt5 (some 4) [65, 65, 65, 65, 65, 66, 65, 68, 77, 120, 0x0D],
      receivedAt5 (some 5) [0x0A]]
    (feedAll noPayload (new consoleConfig) whole).1.records.map
        (fun record => (record.offset, record.crcStatus, record.status)) =
      [(1, .valid, .pending)] ∧
    (feedAll noPayload (new consoleConfig) whole).1.relabel (fun _ => none) =
      (feedAll noPayload (new consoleConfig) cut).1.relabel (fun _ => none) := by
  intro whole cut
  refine ⟨by decide +kernel, ?_⟩
  refine (console_cuts_never_matter (fresh_new rfl .RX 5) whole cut (by decide) (by decide) ?_
    (fun _ => none) none (fun _ _ => rfl)).1
  intro line hline _
  exact hline.length_le.trans (by decide)

end McumgrSmpParser

end bbcom.smp
