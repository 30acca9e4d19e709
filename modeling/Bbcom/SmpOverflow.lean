-- Where the bytes of a console stream go (`feedConsole`, `flushConsole`): into lines, away with a
-- line that is too long or has waited for too long, or into the line that is still held.
import Bbcom.SmpExpiry

open bbcom.js bbcom.runs

namespace bbcom.smp

open List Nat

/-! ## Pieces of a stream -/

/-- A range of the stream of a direction, as it is given, with its bytes. -/
structure Piece where
  offset : Nat
  endOffset : Nat
  data : Uint8Array

def Piece.ofLine (l : McumgrSmpParser.ConsoleLine) : Piece :=
  ⟨l.offset, l.offset + l.wireLine.length, l.wireLine⟩

def Piece.ofRecord (record : SmpRecord) : Piece := ⟨record.offset, record.endOffset, record.data⟩

/-- The line that a direction holds, when it is given up. -/
def Piece.ofHeld (s : DirectionState) : Piece :=
  ⟨s.lineBufferOffset, s.lineBufferOffset + s.lineBuffer.length, s.lineBuffer⟩

/-- The pieces lie one behind the other from `offset` on, each with the bytes that the stream has
there, and `line` is what is left of the stream. -/
def Tiled : Nat → Uint8Array → List Piece → Uint8Array → Prop
  | _, stream, [], line => stream = line
  | offset, stream, piece :: pieces, line =>
    piece.offset = offset ∧ piece.endOffset = offset + piece.data.length ∧
      ∃ rest, stream = piece.data ++ rest ∧ Tiled piece.endOffset rest pieces line

section

variable {offset start : Nat} {stream line : Uint8Array} {pieces more : List Piece}

/-- More bytes come in behind the line. -/
theorem Tiled.receive (h : Tiled offset stream pieces line) (data : Uint8Array) :
    Tiled offset (stream ++ data) pieces (line ++ data) := by
  induction pieces generalizing offset stream with
  | nil =>
    obtain rfl : stream = line := h
    rfl
  | cons piece pieces ih =>
    obtain ⟨hoffset, hend, rest, rfl, hrest⟩ := h
    exact ⟨hoffset, hend, rest ++ data, append_assoc _ _ _, ih hrest⟩

/-- What leaves the line next has to begin where the line begins. -/
theorem Tiled.append_iff (h : Tiled offset stream pieces line)
    (hstart : start + line.length = offset + stream.length) {left : Uint8Array} :
    Tiled offset stream (pieces ++ more) left ↔ Tiled start line more left := by
  induction pieces generalizing offset stream with
  | nil =>
    obtain rfl : stream = line := h
    obtain rfl : start = offset := by omega
    rfl
  | cons piece pieces ih =>
    obtain ⟨hoffset, hend, rest, rfl, hrest⟩ := h
    have hlength : start + line.length = piece.endOffset + rest.length := by
      rw [hstart, hend, length_append, add_assoc]
    rw [← ih hrest hlength]
    constructor
    · rintro ⟨_, _, rest', hsame, htiled⟩
      rwa [append_cancel_left hsame]
    · exact fun htiled => ⟨hoffset, hend, rest, rfl, htiled⟩

/-- A line that goes as a whole. -/
theorem tiled_ofHeld (s : DirectionState) :
    Tiled s.lineBufferOffset s.lineBuffer [.ofHeld s] [] :=
  ⟨rfl, rfl, [], (append_nil _).symm, rfl⟩

end

namespace McumgrSmpParser

/-! ## What leaves the line alone -/

/-- The line of a direction is as it was. -/
structure SameLine (s s' : DirectionState) : Prop where
  inputOffset : s'.inputOffset = s.inputOffset
  lineBuffer : s'.lineBuffer = s.lineBuffer
  lineBufferOffset : s'.lineBufferOffset = s.lineBufferOffset

theorem SameLine.refl (s : DirectionState) : SameLine s s := ⟨rfl, rfl, rfl⟩

variable {s s' : DirectionState} {chunk : SmpTrafficChunk} {pieces : List Piece} {line : Uint8Array}
  {p : McumgrSmpParser}

theorem SameLine.trans {s'' : DirectionState} (h : SameLine s s') (h' : SameLine s' s'') :
    SameLine s s'' :=
  ⟨h'.inputOffset.trans h.inputOffset, h'.lineBuffer.trans h.lineBuffer,
    h'.lineBufferOffset.trans h.lineBufferOffset⟩

/-- The lines of both directions are as they were. -/
structure SameLines (p q : McumgrSmpParser) : Prop where
  config : q.config = p.config
  line : ∀ d, SameLine (p.state d) (q.state d)

variable {runtime : Runtime} {p q r : McumgrSmpParser}

theorem SameLines.refl (p : McumgrSmpParser) : SameLines p p := ⟨rfl, fun _ => .refl _⟩

theorem SameLines.trans (h : SameLines p q) (h' : SameLines q r) : SameLines p r :=
  ⟨h'.config.trans h.config, fun d => (h.line d).trans (h'.line d)⟩

theorem SameStates.lines (h : SameStates p q) : SameLines p q :=
  ⟨h.config, fun d => h.state d ▸ .refl _⟩

theorem setState_lines (p : McumgrSmpParser) {d : Direction} (h : SameLine (p.state d) s) :
    SameLines p (p.setState d s) where
  config := setState_config p d s
  line d' := by
    by_cases hd : d' = d
    · rw [hd, setState_same]
      exact h
    · rw [setState_other p hd]
      exact .refl _

theorem setConsole_lines (p : McumgrSmpParser) (d : Direction) (console : Option ConsoleAssembly) :
    SameLines p (p.setConsole d console) :=
  p.setState_lines ⟨rfl, rfl, rfl⟩

theorem transportErrorRecord_lines (p : McumgrSmpParser) (d : Direction) (timestamp : Int)
    (captureSeq : Option Nat) (offset : Nat) (data : Uint8Array) (code message : String)
    (severity : Severity) :
    SameLines p (p.transportErrorRecord d timestamp captureSeq offset data code message
      severity).1 :=
  (create_adds p _).1.toSameStates.lines

theorem decodeFrom_lines (packet : Uint8Array) (context : TransportContext)
    (fuel packetOffset : Nat) (p : McumgrSmpParser) :
    SameLines p (decodeFrom runtime packet context fuel packetOffset p).1 := by
  induction fuel generalizing packetOffset p with
  | zero => exact .refl p
  | succ fuel ih =>
    simp only [decodeFrom]
    split_ifs
    · exact .refl p
    · exact transportErrorRecord_lines p _ _ _ _ _ _ _ _
    · exact transportErrorRecord_lines p _ _ _ _ _ _ _ _
    · exact ((decodeMessage_adds p _ _ _).1.toSameStates.trans (change_states _ _ _)).lines.trans
        (ih _ _)
    · exact (decodeMessage_adds p _ _ _).1.toSameStates.lines.trans (ih _ _)

theorem restart_lines (p : McumgrSmpParser) (d : Direction) (kind : MarkerKind) :
    SameLines p (p.restart d kind).1 := by
  unfold restart
  split
  · exact .refl p
  · split_ifs
    · exact (transportErrorRecord_lines p _ _ _ _ _ _ _ _).trans (setConsole_lines _ d none)
    · exact .refl p

theorem finishConsole_lines (p : McumgrSmpParser) (d : Direction) :
    SameLines p (p.finishConsole runtime d).1 := by
  unfold finishConsole
  split
  · exact .refl p
  · split_ifs
    · exact .refl p
    all_goals exact (setConsole_lines p d none).trans (decodeFrom_lines _ _ _ _ _)

theorem consumeFragment_lines (p : McumgrSmpParser) (d : Direction) (l : ConsoleLine)
    (kind : MarkerKind) (index : Nat) :
    SameLines p (p.consumeFragment runtime d l kind index).1 := by
  have hrestart := restart_lines p d kind
  have herror : ∀ code message, SameLines p
      ((p.restart d kind).1.lineError d l index code message).1 := fun code message =>
    hrestart.trans (transportErrorRecord_lines _ _ _ _ _ _ _ _ _)
  unfold consumeFragment
  simp only
  split
  · exact (herror _ _).trans (setConsole_lines _ d none)
  · split
    · split_ifs
      · exact herror _ _
      · exact herror _ _
      · exact (hrestart.trans (setConsole_lines _ d _)).trans (finishConsole_lines _ d)
    · split
      · exact herror _ _
      · exact (hrestart.trans (setConsole_lines _ d _)).trans (finishConsole_lines _ d)

theorem consumeConsoleLine_lines (d : Direction) (budget : Nat) (l : ConsoleLine)
    (p : McumgrSmpParser) : SameLines p (consumeConsoleLine runtime d budget l p).1 := by
  induction budget generalizing l p with
  | zero =>
    unfold consumeConsoleLine
    split
    · exact .refl p
    · exact consumeFragment_lines p d l _ _
  | succ budget ih =>
    unfold consumeConsoleLine
    split
    · exact .refl p
    · have hnext := @consumeFragment_lines runtime p d l
      simp only
      split
      · exact hnext _ _
      · split_ifs
        · exact (hnext _ _).trans (ih _ _)
        · exact hnext _ _

/-! ## The loop -/

/-- The line that is still open behind the last line feed. -/
def openLine (bytes : Uint8Array) : Uint8Array := bytes.rtakeWhile (· != 0x0A)

theorem openLine_append (bytes rest : Uint8Array) :
    openLine (bytes ++ 0x0A :: rest) = openLine rest := by
  induction rest using reverseRecOn with
  | nil => exact rtakeWhile_concat_neg _ _ _ (by decide)
  | append_singleton rest last ih =>
    unfold openLine at ih ⊢
    rw [← cons_append, ← append_assoc, rtakeWhile_concat, rtakeWhile_concat, ih]

theorem openLine_self {bytes : Uint8Array} (h : 0x0A ∉ bytes) : openLine bytes = bytes :=
  rtakeWhile_eq_self_iff.2 fun _ hx => bne_iff_ne.2 fun hfeed => h (hfeed ▸ hx)

/-- A turn of the loop up to `consumeConsoleLine`: the line that it takes. -/
def takeLine (chunk : SmpTrafficChunk) (p : McumgrSmpParser) :
    Option (ConsoleLine × McumgrSmpParser) :=
  let state := p.state chunk.direction
  (state.lineBuffer.idxOf? 0x0A).map fun newline =>
    let line := state.lineBuffer.take newline
    ({  line := if line.getLast? = some 0x0D then line.dropLast else line
        wireLine := state.lineBuffer.take (newline + 1)
        offset := state.lineBufferOffset
        timestamp := state.lineTimestamp
        captureSeq := state.lineCaptureSeq
        now := chunk.timestamp },
      p.setState chunk.direction { state with
        lineBuffer := state.lineBuffer.drop (newline + 1)
        lineBufferOffset := state.lineBufferOffset + newline + 1
        lineTimestamp := chunk.timestamp
        lineCaptureSeq := chunk.captureSeq })

theorem consoleLoop_succ (chunk : SmpTrafficChunk) (fuel : Nat) (p : McumgrSmpParser) :
    consoleLoop runtime chunk (fuel + 1) p = match takeLine chunk p with
      | none => (p, [])
      | some (l, p) =>
        let (p, consumed) := consumeConsoleLine runtime chunk.direction 32 l p
        let (p, refs) := consoleLoop runtime chunk fuel p
        (p, consumed ++ refs) := by
  unfold takeLine
  simp only [consoleLoop]
  cases (p.state chunk.direction).lineBuffer.idxOf? 0x0A with
  | none => rfl
  | some newline => rfl

/-- The lines that `consoleLoop` hands to `consumeConsoleLine`. -/
def linesTaken (runtime : Runtime) (chunk : SmpTrafficChunk) :
    Nat → McumgrSmpParser → List ConsoleLine
  | 0, _ => []
  | fuel + 1, p =>
    match takeLine chunk p with
    | none => []
    | some (l, p) =>
      l :: linesTaken runtime chunk fuel (consumeConsoleLine runtime chunk.direction 32 l p).1

theorem takeLine_none (h : takeLine chunk p = none) : 0x0A ∉ (p.state chunk.direction).lineBuffer :=
  idxOf?_eq_none_iff.1 (Option.map_eq_none_iff.1 h)

/-- What a turn of the loop leaves of the line. -/
structure LineTaken (chunk : SmpTrafficChunk) (p : McumgrSmpParser) (l : ConsoleLine)
    (q : McumgrSmpParser) : Prop where
  config : q.config = p.config
  others : ∀ d, d ≠ chunk.direction → q.state d = p.state d
  lineBuffer : (p.state chunk.direction).lineBuffer =
    l.wireLine ++ (q.state chunk.direction).lineBuffer
  ends : ∃ bytes, l.wireLine = bytes ++ [0x0A]
  offset : l.offset = (p.state chunk.direction).lineBufferOffset
  lineBufferOffset : (q.state chunk.direction).lineBufferOffset = l.offset + l.wireLine.length
  inputOffset : (q.state chunk.direction).inputOffset = (p.state chunk.direction).inputOffset

theorem takeLine_some {l : ConsoleLine} (h : takeLine chunk p = some (l, q)) :
    LineTaken chunk p l q := by
  obtain ⟨newline, hnewline, hturn⟩ := Option.map_eq_some_iff.1 h
  obtain ⟨rfl, rfl⟩ := Prod.mk.inj hturn
  obtain ⟨hlength, hfeed, _⟩ := idxOf?_eq_some_iff.1 hnewline
  refine ⟨setState_config _ _ _, fun d hd => setState_other _ hd _, ?_, ?_, rfl, ?_, ?_⟩
  · rw [setState_same]
    exact (take_append_drop _ _).symm
  · refine ⟨(p.state chunk.direction).lineBuffer.take newline, ?_⟩
    rw [take_add_one, getElem?_eq_getElem hlength, hfeed]
    rfl
  · rw [setState_same]
    simp only [length_take]
    omega
  · rw [setState_same]

/-- The loop cuts the line into the lines that it hands on and what is still open of it. -/
structure Looped (runtime : Runtime) (chunk : SmpTrafficChunk) (fuel : Nat)
    (p q : McumgrSmpParser) : Prop where
  config : q.config = p.config
  others : ∀ d, d ≠ chunk.direction → SameLine (p.state d) (q.state d)
  tiled : Tiled (p.state chunk.direction).lineBufferOffset (p.state chunk.direction).lineBuffer
    ((linesTaken runtime chunk fuel p).map .ofLine) (q.state chunk.direction).lineBuffer
  lineBuffer : (q.state chunk.direction).lineBuffer =
    openLine (p.state chunk.direction).lineBuffer
  lineBufferOffset : (q.state chunk.direction).lineBufferOffset +
      (q.state chunk.direction).lineBuffer.length =
    (p.state chunk.direction).lineBufferOffset + (p.state chunk.direction).lineBuffer.length
  inputOffset : (q.state chunk.direction).inputOffset = (p.state chunk.direction).inputOffset

theorem consoleLoop_looped (chunk : SmpTrafficChunk) (fuel : Nat) (p : McumgrSmpParser)
    (hfuel : (p.state chunk.direction).lineBuffer.length ≤ fuel) :
    Looped runtime chunk fuel p (consoleLoop runtime chunk fuel p).1 := by
  induction fuel generalizing p with
  | zero =>
    have hnil : (p.state chunk.direction).lineBuffer = [] :=
      length_eq_zero_iff.1 (le_zero.1 hfuel)
    refine ⟨rfl, fun d _ => .refl _, rfl, ?_, rfl, rfl⟩
    change (p.state chunk.direction).lineBuffer = _
    rw [hnil]
    rfl
  | succ fuel ih =>
    rw [consoleLoop_succ]
    cases hturn : takeLine chunk p with
    | none =>
      refine ⟨rfl, fun d _ => .refl _, ?_, (openLine_self (takeLine_none hturn)).symm, rfl, rfl⟩
      rw [linesTaken, hturn]
      rfl
    | some turn =>
      obtain ⟨l, taken⟩ := turn
      have htaken := takeLine_some hturn
      have hsame := @consumeConsoleLine_lines runtime chunk.direction 32 l taken
      have hline := hsame.line chunk.direction
      obtain ⟨bytes, hends⟩ := htaken.ends
      have hbuffer := htaken.lineBuffer
      have hpositive : 0 < l.wireLine.length := by simp [hends]
      have hlength : (p.state chunk.direction).lineBuffer.length =
          l.wireLine.length + (taken.state chunk.direction).lineBuffer.length := by
        rw [hbuffer, length_append]
      have hshorter : ((consumeConsoleLine runtime chunk.direction 32 l taken).1.state
          chunk.direction).lineBuffer.length ≤ fuel := by
        rw [hline.lineBuffer]
        omega
      have hrest := ih _ hshorter
      refine ⟨?_, fun d hd => ?_, ?_, ?_, ?_, ?_⟩
      · exact hrest.config.trans (hsame.config.trans htaken.config)
      · have hother := (hsame.line d).trans (hrest.others d hd)
        rwa [htaken.others d hd] at hother
      · rw [linesTaken, hturn]
        refine ⟨htaken.offset, by rw [Piece.ofLine, htaken.offset], _, hbuffer, ?_⟩
        have htiled := hrest.tiled
        rwa [hline.lineBuffer, hline.lineBufferOffset, htaken.lineBufferOffset] at htiled
      · refine hrest.lineBuffer.trans ?_
        rw [hline.lineBuffer, hbuffer, hends, append_assoc]
        exact (openLine_append _ _).symm
      · have hoffset := hrest.lineBufferOffset
        rw [hline.lineBuffer, hline.lineBufferOffset, htaken.lineBufferOffset, htaken.offset]
          at hoffset
        refine hoffset.trans ?_
        omega
      · exact hrest.inputOffset.trans (hline.inputOffset.trans htaken.inputOffset)

/-! ## A line that is too long -/

/-- The records of `limitLine`. -/
def overflowRecords (chunk : SmpTrafficChunk) (chunkOffset : Nat) (p : McumgrSmpParser) :
    List SmpRecord :=
  (p.limitLine chunk chunkOffset).1.recordsAt (p.limitLine chunk chunkOffset).2

theorem limitLine_short {chunkOffset : Nat}
    (h : (p.state chunk.direction).lineBuffer.length ≤ maxBufferedLine p.config) :
    p.limitLine chunk chunkOffset = (p, []) :=
  if_neg (not_lt.2 h)

/-- The marker's first byte stays, and the record of the rest ends where the stream ends. -/
structure Limited (chunk : SmpTrafficChunk) (p q : McumgrSmpParser) (records : List SmpRecord) :
    Prop where
  config : q.config = p.config
  others : ∀ d, d ≠ chunk.direction → q.state d = p.state d
  lineBuffer : (q.state chunk.direction).lineBuffer =
    findLastMarkerPrefix (p.state chunk.direction).lineBuffer
  lineBufferOffset : (q.state chunk.direction).lineBufferOffset =
    (p.state chunk.direction).inputOffset - (q.state chunk.direction).lineBuffer.length
  inputOffset : (q.state chunk.direction).inputOffset = (p.state chunk.direction).inputOffset
  pieces : ∃ data, (p.state chunk.direction).lineBuffer =
      data ++ (q.state chunk.direction).lineBuffer ∧
    records.map Piece.ofRecord =
      [⟨(p.state chunk.direction).inputOffset - data.length,
        (p.state chunk.direction).inputOffset - data.length + data.length, data⟩]

theorem findLastMarkerPrefix_suffix (bytes : Uint8Array) :
    findLastMarkerPrefix bytes <:+ bytes := by
  unfold findLastMarkerPrefix
  cases hlast : bytes.getLast? with
  | none => exact nil_suffix
  | some last =>
    simp only
    split_ifs
    · obtain ⟨front, rfl⟩ := getLast?_eq_some_iff.1 hlast
      exact suffix_append _ _
    · exact nil_suffix

theorem findLastMarkerPrefix_length (bytes : Uint8Array) :
    (findLastMarkerPrefix bytes).length ≤ 1 := by
  unfold findLastMarkerPrefix
  cases bytes.getLast? with
  | none => exact zero_le _
  | some last =>
    simp only
    split_ifs <;> simp

theorem limitLine_limited {chunkOffset : Nat}
    (h : maxBufferedLine p.config < (p.state chunk.direction).lineBuffer.length)
    (hoffset : chunkOffset + chunk.data.length = (p.state chunk.direction).inputOffset) :
    Limited chunk p (p.limitLine chunk chunkOffset).1 (overflowRecords chunk chunkOffset p) := by
  obtain ⟨data, hdata⟩ := findLastMarkerPrefix_suffix (p.state chunk.direction).lineBuffer
  have htake : (p.state chunk.direction).lineBuffer.take
      ((p.state chunk.direction).lineBuffer.length -
        (findLastMarkerPrefix (p.state chunk.direction).lineBuffer).length) = data := by
    have hlength := congrArg length hdata
    rw [length_append] at hlength
    have htake := congrArg (take data.length) hdata
    rw [take_left] at htake
    rw [← hlength, Nat.add_sub_cancel]
    exact htake.symm
  have hpositive : 0 < data.length := by
    have hlength := congrArg length hdata
    have hshort := findLastMarkerPrefix_length (p.state chunk.direction).lineBuffer
    have hlong : 8192 ≤ maxBufferedLine p.config := le_max_left _ _
    rw [length_append] at hlength
    omega
  obtain ⟨q, hq⟩ : ∃ q, q = p.setState chunk.direction { p.state chunk.direction with
      lineBuffer := findLastMarkerPrefix (p.state chunk.direction).lineBuffer
      lineBufferOffset := (p.state chunk.direction).inputOffset -
        (findLastMarkerPrefix (p.state chunk.direction).lineBuffer).length } := ⟨_, rfl⟩
  have hlimit : p.limitLine chunk chunkOffset =
      ((q.transportErrorRecord chunk.direction (p.state chunk.direction).lineTimestamp
          (p.state chunk.direction).lineCaptureSeq
          (lineOffsetForChunk chunkOffset chunk.data.length data.length) data
          "smp.console.line-overflow" "Serial Console line exceeded the parser limit" .error).1,
        [q.records.length]) := by
    unfold limitLine
    simp only [if_pos h, htake, if_pos hpositive, ← hq]
    rfl
  have hstate : q.state chunk.direction = { p.state chunk.direction with
      lineBuffer := findLastMarkerPrefix (p.state chunk.direction).lineBuffer
      lineBufferOffset := (p.state chunk.direction).inputOffset -
        (findLastMarkerPrefix (p.state chunk.direction).lineBuffer).length } := by
    rw [hq]
    exact setState_same _ _ _
  have hsame : ∀ record d, ((q.create record).1.state d) = q.state d := fun record d =>
    (create_adds q record).1.toSameStates.state d
  unfold overflowRecords
  rw [hlimit]
  simp only [transportErrorRecord]
  refine ⟨?_, fun d hd => ?_, ?_, ?_, ?_, data, ?_, ?_⟩
  · rw [(create_adds q _).1.config, hq]
    exact setState_config _ _ _
  · rw [hsame, hq]
    exact setState_other _ hd _
  · rw [hsame, hstate]
  · rw [hsame, hstate]
  · rw [hsame, hstate]
  · rw [hsame, hstate]
    exact hdata.symm
  · simp [recordsAt, create, Piece.ofRecord, lineOffsetForChunk, hoffset]

/-! ## A call -/

/-- The line that a flush gives up. -/
def timedOut (config : McumgrSmpParserConfig) (now : Int) (s : DirectionState) : List Piece :=
  match consoleLastTimestamp s with
  | none => []
  | some last =>
    if config.reassemblyTimeoutMs ≤ now - last ∧ hasPotentialConsoleMarker s.lineBuffer = true then
      [.ofHeld s]
    else []

/-- A flush leaves the line of a direction alone, or gives it up as a whole. -/
inductive LineFlushed (s s' : DirectionState) : List Piece → Prop
  | kept (h : SameLine s s') : LineFlushed s s' []
  | dropped (hheld : s.lineBuffer ≠ []) (hinput : s'.inputOffset = s.inputOffset)
      (hnil : s'.lineBuffer = []) : LineFlushed s s' [.ofHeld s]

theorem LineFlushed.trans {s'' : DirectionState} (h : LineFlushed s s' pieces)
    (h' : SameLine s' s'') : LineFlushed s s'' pieces := by
  cases h with
  | kept h => exact .kept (h.trans h')
  | dropped hheld hinput hnil =>
    exact .dropped hheld (h'.inputOffset.trans hinput) (h'.lineBuffer.trans hnil)

theorem flushConsole_line (p : McumgrSmpParser) (d : Direction) (now : Int) :
    LineFlushed (p.state d) ((p.flushConsole d now).1.state d)
      (timedOut p.config now (p.state d)) := by
  unfold flushConsole timedOut
  simp only
  cases consoleLastTimestamp (p.state d) with
  | none => exact .kept (.refl _)
  | some last =>
    simp only
    by_cases hlate : p.config.reassemblyTimeoutMs ≤ now - last
    · simp only [hlate, if_true, true_and]
      by_cases hmarked : hasPotentialConsoleMarker (p.state d).lineBuffer = true
      · simp only [hmarked, if_true, setState_same]
        refine .dropped (fun hnil => ?_) rfl rfl
        rw [hnil] at hmarked
        exact absurd hmarked (by decide)
      · simp only [hmarked, setState_same]
        exact .kept ⟨rfl, rfl, rfl⟩
    · simp only [hlate, if_false, false_and]
      exact .kept (.refl _)

theorem flushRaw_lines (p : McumgrSmpParser) (d : Direction) (now : Int) :
    SameLines p (p.flushRaw d now).1 := by
  unfold flushRaw
  simp only
  split
  · have hsame : ∀ record, (p.create record).1.state d = p.state d := fun record =>
      (create_adds p record).1.toSameStates.state d
    refine (transportErrorRecord_lines p _ _ _ _ _ _ _ _).trans (setState_lines _ ?_)
    simp only [transportErrorRecord, hsame]
    exact ⟨rfl, rfl, rfl⟩
  · exact .refl p

theorem flushExpired_line (p : McumgrSmpParser) (now : Int) :
    (p.flushExpired now).1.config = p.config ∧
      ∀ d, LineFlushed (p.state d) ((p.flushExpired now).1.state d)
        (timedOut p.config now (p.state d)) := by
  have hTX := (flushConsole_unexpired p .TX now).2
  have hrawTX := flushRaw_lines (p.flushConsole .TX now).1 .TX now
  obtain ⟨q, hq⟩ : ∃ q, q = ((p.flushConsole .TX now).1.flushRaw .TX now).1 := ⟨_, rfl⟩
  have hRX := (flushConsole_unexpired q .RX now).2
  have hrawRX := flushRaw_lines (q.flushConsole .RX now).1 .RX now
  have hexpire := (expire_records ((q.flushConsole .RX now).1.flushRaw .RX now).1
    now).toSameStates.lines
  have hlast := hrawRX.trans hexpire
  rw [← hq] at hrawTX
  have hresult : (p.flushExpired now).1 =
      ((q.flushConsole .RX now).1.flushRaw .RX now).1.expirePendingRequests now := by
    simp only [flushExpired, hq]
  have hconfig : q.config = p.config := hrawTX.config.trans hTX.config
  rw [hresult]
  refine ⟨hlast.config.trans (hRX.config.trans hconfig), fun d => ?_⟩
  cases d with
  | TX =>
    apply (flushConsole_line p .TX now).trans
    have hother := hlast.line .TX
    rw [hRX.others .TX (by decide)] at hother
    exact (hrawTX.line .TX).trans hother
  | RX =>
    have hbefore : q.state .RX = p.state .RX := by
      rw [hq, (flushRaw_unexpired _ .TX now).2.others .RX (by decide), hTX.others .RX (by decide)]
    have hline := flushConsole_line q .RX now
    rw [hconfig, hbefore] at hline
    exact hline.trans (hlast.line .RX)

/-- The start of `feedConsole`: the bytes come in behind the line. -/
def joined (p : McumgrSmpParser) (chunk : SmpTrafficChunk) (chunkOffset : Nat) :
    McumgrSmpParser :=
  let state := p.state chunk.direction
  let state := if state.lineBuffer.length = 0 then
      { state with
        lineBufferOffset := chunkOffset
        lineTimestamp := chunk.timestamp
        lineCaptureSeq := chunk.captureSeq }
    else state
  p.setState chunk.direction { state with
    lineLastTimestamp := chunk.timestamp
    lineBuffer := state.lineBuffer ++ chunk.data }

/-- `feed` up to the loop of `feedConsole`. -/
def received (p : McumgrSmpParser) (chunk : SmpTrafficChunk) : McumgrSmpParser :=
  let p := (p.flushExpired chunk.timestamp).1
  let state := p.state chunk.direction
  (p.setState chunk.direction { state with
    inputOffset := state.inputOffset + chunk.data.length }).joined chunk state.inputOffset

/-- `feed` up to `limitLine`. -/
def looped (runtime : Runtime) (p : McumgrSmpParser) (chunk : SmpTrafficChunk) : McumgrSmpParser :=
  (consoleLoop runtime chunk ((p.received chunk).state chunk.direction).lineBuffer.length
    (p.received chunk)).1

/-- Where a chunk begins. -/
def chunkOffset (p : McumgrSmpParser) (chunk : SmpTrafficChunk) : Nat :=
  ((p.flushExpired chunk.timestamp).1.state chunk.direction).inputOffset

theorem feed_console (hconsole : p.config.transport = .serialConsole) {chunk : SmpTrafficChunk}
    (hdata : chunk.data ≠ []) :
    (p.feed runtime chunk).1 =
      ((p.looped runtime chunk).limitLine chunk (p.chunkOffset chunk)).1 := by
  have hlength : chunk.data.length ≠ 0 := length_eq_zero_iff.not.2 hdata
  have htransport : ((p.flushExpired chunk.timestamp).1.setState chunk.direction
      { (p.flushExpired chunk.timestamp).1.state chunk.direction with
        inputOffset := ((p.flushExpired chunk.timestamp).1.state chunk.direction).inputOffset +
          chunk.data.length }).config.transport = .serialConsole := by
    rw [setState_config, (flushExpired_line p chunk.timestamp).1]
    exact hconsole
  unfold feed
  simp only [if_neg hlength, htransport]
  unfold feedConsole looped received joined chunkOffset
  simp only [setState_same]

/-- The bytes of a chunk have come in behind the line of its direction. -/
structure ComesIn (chunk : SmpTrafficChunk) (p q : McumgrSmpParser) : Prop where
  config : q.config = p.config
  others : ∀ d, d ≠ chunk.direction → q.state d = p.state d
  inputOffset : (q.state chunk.direction).inputOffset =
    (p.state chunk.direction).inputOffset + chunk.data.length
  lineBuffer : (q.state chunk.direction).lineBuffer =
    (p.state chunk.direction).lineBuffer ++ chunk.data
  lineBufferOffset : (q.state chunk.direction).lineBufferOffset =
    if (p.state chunk.direction).lineBuffer = [] then (p.state chunk.direction).inputOffset
    else (p.state chunk.direction).lineBufferOffset

theorem received_comesIn (p : McumgrSmpParser) (chunk : SmpTrafficChunk) :
    ComesIn chunk (p.flushExpired chunk.timestamp).1 (p.received chunk) := by
  unfold received joined
  simp only [setState_same]
  refine ⟨?_, fun d hd => ?_, ?_, ?_, ?_⟩
  · rw [setState_config, setState_config]
  · rw [setState_other _ hd, setState_other _ hd]
  all_goals
    simp only [setState_same, length_eq_zero_iff]
    split_ifs <;> rfl

/-! ## The account of a run -/

/-- A line that was too long: all of it, and what has been kept. -/
structure Overflow where
  line : Uint8Array
  kept : Uint8Array

/-- What has come in since the last reset, what has left the line since then, in order, and the
lines that were too long. -/
structure Account where
  parser : McumgrSmpParser
  stream : Direction → Uint8Array
  pieces : Direction → List Piece
  overflows : List Overflow

def Account.new (config : McumgrSmpParserConfig) : Account :=
  ⟨.new config, fun _ => [], fun _ => [], []⟩

/-- What a flush gives up of each line. -/
def flushPieces (p : McumgrSmpParser) (now : Int) (d : Direction) : List Piece :=
  timedOut p.config now (p.state d)

/-- What a chunk makes leave the line of its direction, behind the flush. -/
def chunkPieces (runtime : Runtime) (p : McumgrSmpParser) (chunk : SmpTrafficChunk) : List Piece :=
  (linesTaken runtime chunk ((p.received chunk).state chunk.direction).lineBuffer.length
      (p.received chunk)).map .ofLine ++
    (overflowRecords chunk (p.chunkOffset chunk) (p.looped runtime chunk)).map .ofRecord

/-- The line that is too long behind a chunk. -/
def chunkOverflow (runtime : Runtime) (p : McumgrSmpParser) (chunk : SmpTrafficChunk) :
    List Overflow :=
  (overflowRecords chunk (p.chunkOffset chunk) (p.looped runtime chunk)).map fun _ =>
    ⟨((p.looped runtime chunk).state chunk.direction).lineBuffer,
      ((p.feed runtime chunk).1.state chunk.direction).lineBuffer⟩

def Account.step (runtime : Runtime) (a : Account) (e : Event) : Account :=
  let parser := bbcom.smp.step runtime a.parser e
  match e with
  | .feed chunk =>
    if chunk.data = [] then
      { a with
        parser
        pieces := fun d => a.pieces d ++ flushPieces a.parser chunk.timestamp d }
    else
      { parser
        stream := fun d => if d = chunk.direction then a.stream d ++ chunk.data else a.stream d
        pieces := fun d => a.pieces d ++ flushPieces a.parser chunk.timestamp d ++
          if d = chunk.direction then chunkPieces runtime a.parser chunk else []
        overflows := a.overflows ++ chunkOverflow runtime a.parser chunk }
  | .flushExpired now =>
    { a with
      parser
      pieces := fun d => a.pieces d ++ flushPieces a.parser now d }
  | .message .. => { a with parser }
  | .diagnostic .. => { a with parser }
  | .reset => .new a.parser.config

/-- A marker, or its first byte, at the end of the line is what has been kept. -/
def Overflow.KeepsMarker (o : Overflow) : Prop :=
  ∀ marker ∈ [SMP_CONSOLE_INITIAL_MARKER, SMP_CONSOLE_CONTINUATION_MARKER],
    ∀ start, start = marker.take 1 ∨ start = marker → start <:+ o.line → o.kept = start

/-- Nothing of the streams has been lost, given twice or put in another place, and no start of a
packet has gone with a line that was too long. -/
structure Exact (a : Account) : Prop where
  tiled : ∀ d, Tiled 0 (a.stream d) (a.pieces d) (a.parser.state d).lineBuffer
  kept : ∀ o ∈ a.overflows, o.KeepsMarker

def EndsInMarker (line : Uint8Array) : Prop :=
  ∃ marker ∈ [SMP_CONSOLE_INITIAL_MARKER, SMP_CONSOLE_CONTINUATION_MARKER],
    marker.take 1 <:+ line ∨ marker <:+ line

/-- The line does not grow too long with a chunk, or it does not end in a marker then, nor in the
first byte of one. -/
def NoMarkerCut (a : Account) : Event → Prop
  | .feed chunk =>
    let flushed := (a.parser.flushExpired chunk.timestamp).1
    let line := openLine ((flushed.state chunk.direction).lineBuffer ++ chunk.data)
    chunk.data ≠ [] → maxBufferedLine a.parser.config < line.length → ¬EndsInMarker line
  | _ => True

/-! ## Overflows -/

theorem endsInMarker_of_kept (h : findLastMarkerPrefix line ≠ []) : EndsInMarker line := by
  have hsuffix := findLastMarkerPrefix_suffix line
  unfold findLastMarkerPrefix at h hsuffix
  cases hlast : line.getLast? with
  | none =>
    rw [hlast] at h
    exact absurd rfl h
  | some last =>
    simp only [hlast] at h hsuffix
    split_ifs at h hsuffix with hmarker
    · rcases hmarker with rfl | rfl
      · exact ⟨SMP_CONSOLE_INITIAL_MARKER, by simp, .inl hsuffix⟩
      · exact ⟨SMP_CONSOLE_CONTINUATION_MARKER, by simp, .inl hsuffix⟩
    · exact absurd rfl h

theorem not_keepsMarker (h : EndsInMarker line) : ¬Overflow.KeepsMarker ⟨line, []⟩ := by
  obtain ⟨marker, hmarker, hfirst | hwhole⟩ := h
  · intro hkeeps
    have hnil : [] = marker.take 1 := hkeeps marker hmarker _ (.inl rfl) hfirst
    simp only [mem_cons, not_mem_nil, or_false] at hmarker
    rcases hmarker with rfl | rfl
    · cases hnil
    · cases hnil
  · intro hkeeps
    have hnil : [] = marker := hkeeps marker hmarker _ (.inr rfl) hwhole
    simp only [mem_cons, not_mem_nil, or_false] at hmarker
    rcases hmarker with rfl | rfl
    · cases hnil
    · cases hnil

theorem keepsMarker_of_not_ends {kept : Uint8Array} (h : ¬EndsInMarker line) :
    Overflow.KeepsMarker ⟨line, kept⟩ := by
  rintro marker hmarker start (rfl | rfl) hstart
  · exact absurd ⟨marker, hmarker, .inl hstart⟩ h
  · exact absurd ⟨start, hmarker, .inr hstart⟩ h

/-- The record of a line that is too long stands where the line stood just when nothing of the
line has been kept. -/
theorem tiled_limited {q : McumgrSmpParser} {records : List SmpRecord}
    (h : Limited chunk p q records) {start : Nat}
    (hstart : start + (p.state chunk.direction).lineBuffer.length =
      (p.state chunk.direction).inputOffset) :
    Tiled start (p.state chunk.direction).lineBuffer (records.map .ofRecord)
        (q.state chunk.direction).lineBuffer ↔
      (q.state chunk.direction).lineBuffer = [] := by
  obtain ⟨data, hline, hpieces⟩ := h.pieces
  have hlength : start + data.length + (q.state chunk.direction).lineBuffer.length =
      (p.state chunk.direction).inputOffset := by
    rw [← hstart, hline, length_append, add_assoc]
  rw [hpieces, hline]
  constructor
  · rintro ⟨hoffset, _⟩
    have hoffset' : (p.state chunk.direction).inputOffset - data.length = start := hoffset
    apply length_eq_zero_iff.1
    omega
  · intro hnil
    rw [hnil, length_nil] at hlength
    refine ⟨?_, ?_, [], by rw [hnil], hnil.symm⟩
    all_goals
      simp only
      omega

/-! ## Steps -/

/-- Each line ends where its stream has been read to. -/
structure Reading (a : Account) : Prop where
  console : a.parser.config.transport = .serialConsole
  read : ∀ d, (a.parser.state d).inputOffset = (a.stream d).length
  placed : ∀ d, (a.parser.state d).lineBuffer ≠ [] →
    (a.parser.state d).lineBufferOffset + (a.parser.state d).lineBuffer.length =
      (a.parser.state d).inputOffset

theorem reading_new {config : McumgrSmpParserConfig} (h : config.transport = .serialConsole) :
    Reading (.new config) := by
  refine ⟨h, fun d => ?_, fun d hheld => ?_⟩
  · cases d <;> rfl
  · cases d <;> exact absurd rfl hheld

theorem exact_new (config : McumgrSmpParserConfig) : Exact (.new config) := by
  refine ⟨fun d => ?_, fun o ho => absurd ho not_mem_nil⟩
  cases d <;> rfl

/-- The lines are as they were, and so is the account. -/
theorem SameLines.reading {a : Account} (h : SameLines a.parser p) (ha : Reading a) :
    Reading { a with parser := p } := by
  refine ⟨by rw [h.config]; exact ha.console, fun d => ?_, fun d hheld => ?_⟩
  · exact (h.line d).inputOffset.trans (ha.read d)
  · have hline := h.line d
    simp only [hline.lineBuffer, hline.lineBufferOffset, hline.inputOffset] at hheld ⊢
    exact ha.placed d hheld

theorem SameLines.exact_iff {a : Account} (h : SameLines a.parser p) :
    Exact { a with parser := p } ↔ Exact a := by
  constructor
  · exact fun ha => ⟨fun d => (h.line d).lineBuffer ▸ ha.tiled d, ha.kept⟩
  · exact fun ha => ⟨fun d => (h.line d).lineBuffer.symm ▸ ha.tiled d, ha.kept⟩

section

variable (h : LineFlushed s s' pieces)
  (hs : s.lineBuffer ≠ [] → s.lineBufferOffset + s.lineBuffer.length = s.inputOffset)
include h hs

theorem LineFlushed.placed :
    s'.inputOffset = s.inputOffset ∧
      (s'.lineBuffer ≠ [] → s'.lineBufferOffset + s'.lineBuffer.length = s'.inputOffset) := by
  cases h with
  | kept h =>
    refine ⟨h.inputOffset, ?_⟩
    rw [h.inputOffset, h.lineBuffer, h.lineBufferOffset]
    exact hs
  | dropped _ hinput hnil => exact ⟨hinput, fun hheld => absurd hnil hheld⟩

/-- What a flush gives up leaves the line as it should. -/
theorem LineFlushed.tiled {before : List Piece} {stream : Uint8Array}
    (hread : s.inputOffset = stream.length) (hbefore : Tiled 0 stream before s.lineBuffer) :
    Tiled 0 stream (before ++ pieces) s'.lineBuffer := by
  cases h with
  | kept h =>
    rw [h.lineBuffer, append_nil]
    exact hbefore
  | dropped hheld _ hnil =>
    have hstart : s.lineBufferOffset + s.lineBuffer.length = 0 + stream.length := by
      rw [hs hheld, hread, zero_add]
    rw [hnil, hbefore.append_iff hstart]
    exact tiled_ofHeld s

end

/-- A chunk has gone through the loop, and nothing but the limit is left to do. -/
structure ChunkRead (runtime : Runtime) (a : Account) (chunk : SmpTrafficChunk)
    (p : McumgrSmpParser) : Prop where
  config : p.config = a.parser.config
  others : ∀ d, d ≠ chunk.direction →
    SameLine ((a.parser.flushExpired chunk.timestamp).1.state d) (p.state d)
  inputOffset : (p.state chunk.direction).inputOffset =
    (a.stream chunk.direction ++ chunk.data).length
  placed : (p.state chunk.direction).lineBufferOffset +
    (p.state chunk.direction).lineBuffer.length = (p.state chunk.direction).inputOffset
  chunkOffset : a.parser.chunkOffset chunk + chunk.data.length =
    (p.state chunk.direction).inputOffset
  lineBuffer : (p.state chunk.direction).lineBuffer =
    openLine (((a.parser.flushExpired chunk.timestamp).1.state chunk.direction).lineBuffer ++
      chunk.data)

theorem Reading.looped {a : Account} (h : Reading a) {chunk : SmpTrafficChunk} {runtime : Runtime} :
    ChunkRead runtime a chunk (a.parser.looped runtime chunk) ∧
      ∀ before, Tiled 0 (a.stream chunk.direction) before
          ((a.parser.flushExpired chunk.timestamp).1.state chunk.direction).lineBuffer →
        Tiled 0 (a.stream chunk.direction ++ chunk.data)
          (before ++ (linesTaken runtime chunk
            ((a.parser.received chunk).state chunk.direction).lineBuffer.length
            (a.parser.received chunk)).map .ofLine)
          ((a.parser.looped runtime chunk).state chunk.direction).lineBuffer := by
  obtain ⟨hconfig, hflushed⟩ := flushExpired_line a.parser chunk.timestamp
  obtain ⟨hinput, hplaced⟩ := (hflushed chunk.direction).placed (h.placed chunk.direction)
  have hreceived := received_comesIn a.parser chunk
  have hlooped : Looped runtime chunk _ _ (a.parser.looped runtime chunk) :=
    consoleLoop_looped chunk _ (a.parser.received chunk) le_rfl
  have hread : ((a.parser.received chunk).state chunk.direction).inputOffset =
      (a.stream chunk.direction ++ chunk.data).length := by
    rw [hreceived.inputOffset, hinput, h.read, length_append]
  have hoffset : ((a.parser.received chunk).state chunk.direction).lineBufferOffset +
      ((a.parser.received chunk).state chunk.direction).lineBuffer.length =
        ((a.parser.received chunk).state chunk.direction).inputOffset := by
    rw [hreceived.lineBufferOffset, hreceived.lineBuffer, hreceived.inputOffset]
    split_ifs with hnil
    · rw [hnil]
      rfl
    · rw [← hplaced hnil, length_append, add_assoc]
  refine ⟨⟨?_, fun d hd => ?_, ?_, ?_, ?_, ?_⟩, fun before hbefore => ?_⟩
  · exact hlooped.config.trans (hreceived.config.trans hconfig)
  · have hother := hlooped.others d hd
    rwa [hreceived.others d hd] at hother
  · rw [hlooped.inputOffset, hread]
  · rw [hlooped.lineBufferOffset, hoffset, hlooped.inputOffset]
  · rw [hlooped.inputOffset, hreceived.inputOffset]
    rfl
  · rw [hlooped.lineBuffer, hreceived.lineBuffer]
  · have hcome := hbefore.receive chunk.data
    rw [← hreceived.lineBuffer] at hcome
    have hstart : ((a.parser.received chunk).state chunk.direction).lineBufferOffset +
        ((a.parser.received chunk).state chunk.direction).lineBuffer.length =
          0 + (a.stream chunk.direction ++ chunk.data).length := by
      rw [hoffset, hread, zero_add]
    exact (hcome.append_iff hstart).2 hlooped.tiled

/-- A call that only flushes. -/
theorem Reading.flush {a : Account} (h : Reading a) {now : Int} :
    Reading { a with
      parser := (a.parser.flushExpired now).1
      pieces d := a.pieces d ++ flushPieces a.parser now d } ∧
    (Exact a → Exact { a with
      parser := (a.parser.flushExpired now).1
      pieces d := a.pieces d ++ flushPieces a.parser now d }) := by
  obtain ⟨hconfig, hflushed⟩ := flushExpired_line a.parser now
  refine ⟨⟨?_, fun d => ?_, fun d => ?_⟩, fun hexact => ⟨fun d => ?_, hexact.kept⟩⟩
  all_goals simp only
  · rw [hconfig]
    exact h.console
  · exact ((hflushed d).placed (h.placed d)).1.trans (h.read d)
  · exact ((hflushed d).placed (h.placed d)).2
  · exact (hflushed d).tiled (h.placed d) (h.read d) (hexact.tiled d)

/-- The limit is all that matters of a chunk. -/
theorem Reading.fed_iff {a : Account} (h : Reading a) (hexact : Exact a) {runtime : Runtime}
    {chunk : SmpTrafficChunk} (hdata : chunk.data ≠ [])
    (hothers : ∀ d, d ≠ chunk.direction → SameLine
      ((a.parser.flushExpired chunk.timestamp).1.state d)
      ((a.parser.feed runtime chunk).1.state d)) :
    Exact (a.step runtime (.feed chunk)) ↔
      Tiled ((a.parser.looped runtime chunk).state chunk.direction).lineBufferOffset
          ((a.parser.looped runtime chunk).state chunk.direction).lineBuffer
          ((overflowRecords chunk (a.parser.chunkOffset chunk)
            (a.parser.looped runtime chunk)).map .ofRecord)
          ((a.parser.feed runtime chunk).1.state chunk.direction).lineBuffer ∧
        ∀ o ∈ chunkOverflow runtime a.parser chunk, o.KeepsMarker := by
  obtain ⟨_, hflushed⟩ := flushExpired_line a.parser chunk.timestamp
  obtain ⟨hread, htiled⟩ := @Reading.looped a h chunk runtime
  have hflush : ∀ d, Tiled 0 (a.stream d) (a.pieces d ++ flushPieces a.parser chunk.timestamp d)
      ((a.parser.flushExpired chunk.timestamp).1.state d).lineBuffer := fun d =>
    (hflushed d).tiled (h.placed d) (h.read d) (hexact.tiled d)
  have hstart : ((a.parser.looped runtime chunk).state chunk.direction).lineBufferOffset +
      ((a.parser.looped runtime chunk).state chunk.direction).lineBuffer.length =
        0 + (a.stream chunk.direction ++ chunk.data).length := by
    rw [hread.placed, hread.inputOffset, zero_add]
  have hlimit := @Tiled.append_iff _ _ _ _ _ ((overflowRecords chunk (a.parser.chunkOffset chunk)
    (a.parser.looped runtime chunk)).map .ofRecord) (htiled _ (hflush chunk.direction)) hstart
    ((a.parser.feed runtime chunk).1.state chunk.direction).lineBuffer
  rw [← hlimit, append_assoc]
  unfold Account.step
  simp only [if_neg hdata]
  constructor
  · intro hnext
    refine ⟨?_, fun o ho => hnext.kept o (mem_append_right _ ho)⟩
    have hline := hnext.tiled chunk.direction
    simp only [if_true] at hline
    exact hline
  · rintro ⟨hline, hkept⟩
    refine ⟨fun d => ?_, fun o ho => ?_⟩
    · by_cases hd : d = chunk.direction
      · subst hd
        simp only [if_true]
        exact hline
      · simp only [if_neg hd, append_nil]
        have hother := hflush d
        rwa [← (hothers d hd).lineBuffer] at hother
    · rcases mem_append.1 ho with hold | hnew
      · exact hexact.kept o hold
      · exact hkept o hnew

/-- Behind a chunk, each line ends where its stream has been read to, whatever the limit does. -/
theorem Reading.feed {a : Account} (h : Reading a) {runtime : Runtime} {chunk : SmpTrafficChunk}
    (hdata : chunk.data ≠ []) {q : McumgrSmpParser} (hconfig : q.config = a.parser.config)
    (hothers : ∀ d, d ≠ chunk.direction → SameLine
      ((a.parser.flushExpired chunk.timestamp).1.state d) (q.state d))
    (hinput : (q.state chunk.direction).inputOffset =
      (a.stream chunk.direction ++ chunk.data).length)
    (hplaced : (q.state chunk.direction).lineBuffer ≠ [] →
      (q.state chunk.direction).lineBufferOffset + (q.state chunk.direction).lineBuffer.length =
        (q.state chunk.direction).inputOffset) (hfeed : (a.parser.feed runtime chunk).1 = q) :
    Reading (a.step runtime (.feed chunk)) := by
  obtain ⟨_, hflushed⟩ := flushExpired_line a.parser chunk.timestamp
  have hparser : (a.step runtime (.feed chunk)).parser = q := by
    unfold Account.step
    simp only [if_neg hdata]
    exact hfeed
  have hstream : ∀ d, (a.step runtime (.feed chunk)).stream d =
      if d = chunk.direction then a.stream d ++ chunk.data else a.stream d := by
    intro d
    unfold Account.step
    simp only [if_neg hdata]
  refine ⟨?_, fun d => ?_, fun d => ?_⟩
  · rw [hparser, hconfig]
    exact h.console
  · rw [hparser, hstream]
    split_ifs with hd
    · rw [hd]
      exact hinput
    · rw [(hothers d hd).inputOffset, ((hflushed d).placed (h.placed d)).1]
      exact h.read d
  · rw [hparser]
    by_cases hd : d = chunk.direction
    · rw [hd]
      exact hplaced
    · have hline := hothers d hd
      rw [hline.lineBuffer, hline.lineBufferOffset, hline.inputOffset]
      exact ((hflushed d).placed (h.placed d)).2

/-- A chunk keeps the account exact just when it does not cut a marker off. -/
theorem feed_exact_iff {a : Account} (h : Reading a) {runtime : Runtime} {chunk : SmpTrafficChunk}
    (hdata : chunk.data ≠ []) :
    Reading (a.step runtime (.feed chunk)) ∧
      (Exact a → (Exact (a.step runtime (.feed chunk)) ↔ NoMarkerCut a (.feed chunk))) := by
  obtain ⟨hread, _⟩ := @Reading.looped a h chunk runtime
  have hfeed := @feed_console runtime a.parser h.console chunk hdata
  obtain ⟨l, hl⟩ : ∃ l, l = a.parser.looped runtime chunk := ⟨_, rfl⟩
  obtain ⟨offset, hoffset⟩ : ∃ offset, offset = a.parser.chunkOffset chunk := ⟨_, rfl⟩
  have hfed := fun hexact hothers => @Reading.fed_iff a h hexact runtime chunk hdata hothers
  unfold chunkOverflow at hfed
  have hcut : NoMarkerCut a (.feed chunk) ↔
      (maxBufferedLine l.config < (l.state chunk.direction).lineBuffer.length →
        ¬EndsInMarker (l.state chunk.direction).lineBuffer) := by
    rw [hl, hread.lineBuffer, hread.config]
    exact ⟨fun hcut => hcut hdata, fun hcut _ => hcut⟩
  rw [hcut]
  rw [← hl] at hread hfeed hfed
  have hchunk := hread.chunkOffset
  rw [← hoffset] at hchunk hfeed hfed
  by_cases hlong : maxBufferedLine l.config < (l.state chunk.direction).lineBuffer.length
  · have hlimited := limitLine_limited hlong hchunk
    rw [← hfeed] at hlimited
    have hothers : ∀ d, d ≠ chunk.direction → SameLine
        ((a.parser.flushExpired chunk.timestamp).1.state d)
        ((a.parser.feed runtime chunk).1.state d) := by
      intro d hd
      rw [hlimited.others d hd]
      exact hread.others d hd
    constructor
    · apply h.feed hdata (hlimited.config.trans hread.config) hothers
        (hlimited.inputOffset.trans hread.inputOffset) (fun _ => ?_) rfl
      have hshort := (findLastMarkerPrefix_suffix (l.state chunk.direction).lineBuffer).length_le
      have hplaced := hread.placed
      rw [← hlimited.lineBuffer] at hshort
      rw [hlimited.lineBufferOffset, hlimited.inputOffset]
      omega
    · intro hexact
      obtain ⟨data, _, hpieces⟩ := hlimited.pieces
      obtain ⟨record, hrecord⟩ : ∃ record, overflowRecords chunk offset l = [record] := by
        have hone := congrArg length hpieces
        rw [length_map] at hone
        exact length_eq_one_iff.1 hone
      have htiled := tiled_limited hlimited hread.placed
      rw [hfed hexact hothers, htiled, hrecord, map_singleton, forall_mem_singleton]
      constructor
      · rintro ⟨hnone, hkeeps⟩ _ hends
        rw [hnone] at hkeeps
        exact not_keepsMarker hends hkeeps
      · intro hnot
        refine ⟨?_, keepsMarker_of_not_ends (hnot hlong)⟩
        by_contra hkept
        rw [hlimited.lineBuffer] at hkept
        exact hnot hlong (endsInMarker_of_kept hkept)
  · have hnone : l.limitLine chunk offset = (l, []) := limitLine_short (not_lt.1 hlong)
    have hrecords : overflowRecords chunk offset l = [] := by
      unfold overflowRecords
      rw [hnone]
      rfl
    rw [hnone] at hfeed
    have hothers : ∀ d, d ≠ chunk.direction → SameLine
        ((a.parser.flushExpired chunk.timestamp).1.state d)
        ((a.parser.feed runtime chunk).1.state d) := by
      rw [hfeed]
      exact hread.others
    constructor
    · exact h.feed hdata hread.config hread.others hread.inputOffset (fun _ => hread.placed) hfeed
    · intro hexact
      rw [hfed hexact hothers, hrecords, hfeed]
      refine iff_of_true ⟨rfl, ?_⟩ fun hlong' => absurd hlong' hlong
      exact fun o ho => absurd ho not_mem_nil

theorem step_exact_iff {a : Account} (h : Reading a) (runtime : Runtime) (e : Event) :
    Reading (a.step runtime e) ∧ (Exact a → (Exact (a.step runtime e) ↔ NoMarkerCut a e)) := by
  cases e with
  | feed chunk =>
    by_cases hdata : chunk.data = []
    · have hflush := @Reading.flush a h chunk.timestamp
      have hfeed : (a.parser.feed runtime chunk).1 = (a.parser.flushExpired chunk.timestamp).1 := by
        unfold McumgrSmpParser.feed
        rw [if_pos (by simp [hdata])]
      unfold Account.step
      simp only [if_pos hdata, bbcom.smp.step, hfeed]
      refine ⟨hflush.1, fun hexact => iff_of_true (hflush.2 hexact) fun hnot => ?_⟩
      exact absurd hdata hnot
    · exact feed_exact_iff h hdata
  | flushExpired now =>
    have hflush := @Reading.flush a h now
    simp only [Account.step, bbcom.smp.step]
    exact ⟨hflush.1, fun hexact => iff_of_true (hflush.2 hexact) trivial⟩
  | message message context packetOffset =>
    have hsame := (@decodeMessage_adds runtime a.parser message context
      packetOffset).1.toSameStates.lines
    simp only [Account.step, bbcom.smp.step]
    exact ⟨hsame.reading h, fun hexact => iff_of_true (hsame.exact_iff.2 hexact) trivial⟩
  | diagnostic direction timestamp captureSeq code message severity data =>
    have hsame : SameLines a.parser (a.parser.diagnostic direction timestamp captureSeq code message
      severity data).1 := transportErrorRecord_lines a.parser _ _ _ _ _ _ _ _
    simp only [Account.step, bbcom.smp.step]
    exact ⟨hsame.reading h, fun hexact => iff_of_true (hsame.exact_iff.2 hexact) trivial⟩
  | reset => exact ⟨reading_new h.console, fun _ => iff_of_true (exact_new _) trivial⟩

/-- A line that is too long at its end, where a marker may begin. -/
theorem not_exact_of_long_line {line : Uint8Array} (hfeed : 0x0A ∉ line)
    (hlong : 8192 ≤ line.length) :
    ¬Exact ((Account.new ⟨.serialConsole, 256, 1000, by decide, by decide⟩).step
      ⟨fun _ => .error "", fun _ => ""⟩ (.feed ⟨.RX, line ++ [0x06], 0, none⟩)) := by
  intro hexact
  have hcut := ((step_exact_iff (reading_new rfl) _ _).2 (exact_new _)).1 hexact
  have hopen : openLine (line ++ [0x06]) = line ++ [0x06] := openLine_self (by simp [hfeed])
  refine hcut (by simp) ?_ ?_
  · change 8192 < (openLine (line ++ [0x06])).length
    rw [hopen, length_append, length_singleton]
    omega
  · change EndsInMarker (openLine (line ++ [0x06]))
    rw [hopen]
    exact ⟨SMP_CONSOLE_INITIAL_MARKER, by simp, .inl (suffix_append _ _)⟩

/-- A line of 8193 bytes, the last of which may be the first byte of a marker. -/
def longLine : SmpTrafficChunk := ⟨.RX, replicate 8192 0x41 ++ [0x06], 0, none⟩

end McumgrSmpParser

end bbcom.smp
