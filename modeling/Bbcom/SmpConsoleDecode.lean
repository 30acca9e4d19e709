-- The lines of a sender of packets, in any calls of the parser: the bytes of the frame gather in
-- the console packet of the direction, up to the last fragment, which makes the messages.
import Bbcom.SmpConsoleCodec

open bbcom.js

namespace bbcom.smp

open McumgrSmpParser List Option

namespace McumgrSmpParser

variable {runtime : Runtime} {p₀ p q : McumgrSmpParser} {d : Direction} {packet : Uint8Array}
  {messages : List (Nat × Uint8Array)} {sent held : Uint8Array} {refs : List Nat}

/-! ## The bytes that have come -/

/-- The marker of the fragment behind these bytes of the frame. -/
def markerAfter (sent : Uint8Array) : Uint8Array :=
  if sent = [] then SMP_CONSOLE_INITIAL_MARKER else SMP_CONSOLE_CONTINUATION_MARKER

/-- The bytes `sent` of the frame have come since `p₀`, and `held` of the next line. -/
structure Received (runtime : Runtime) (p₀ : McumgrSmpParser) (d : Direction)
    (packet : Uint8Array) (messages : List (Nat × Uint8Array)) (sent held : Uint8Array)
    (refs : List Nat) (p : McumgrSmpParser) : Prop where
  config : p.config = p₀.config
  lineBuffer : (p.state d).lineBuffer = held
  console : ((p.state d).console.map fun c => (c.expectedBytes, c.body)) =
    if sent = [] ∨ sent = consoleFrame packet then none
    else some (packet.length + 2, sent.drop 2)
  cores : ∃ context : TransportContext, context.crcStatus = .valid ∧
    p.cores = p₀.cores ++
      if sent = consoleFrame packet then messageCores runtime p₀ context messages else []
  refs : refs =
    if sent = consoleFrame packet then range' p₀.records.length messages.length else []

theorem consoleFrame_length (packet : Uint8Array) :
    (consoleFrame packet).length = packet.length + 4 := by
  unfold consoleFrame
  simp only [length_append, bigEndian_length]
  omega

theorem consoleFrame_ne_nil (packet : Uint8Array) : consoleFrame packet ≠ [] := by
  intro hnil
  have hlength := consoleFrame_length packet
  rw [hnil] at hlength
  exact absurd hlength (by simp)

/-- An idle direction has had nothing of the frame. -/
theorem received_nothing (hbuffer : (p₀.state d).lineBuffer = [])
    (hconsole : (p₀.state d).console = none) :
    Received runtime p₀ d packet messages [] [] [] p₀ where
  config := rfl
  lineBuffer := hbuffer
  console := by rw [hconsole, if_pos (.inl rfl), map_none]
  cores := by
    refine ⟨⟨d, 0, none, 0, none, .valid, []⟩, rfl, ?_⟩
    rw [if_neg (consoleFrame_ne_nil packet).symm, append_nil]
  refs := by rw [if_neg (consoleFrame_ne_nil packet).symm]

theorem Received.same (h : Received runtime p₀ d packet messages sent held refs p)
    (hsame : SameRecords p q) : Received runtime p₀ d packet messages sent held refs q where
  config := hsame.config.trans h.config
  lineBuffer := by rw [hsame.state, h.lineBuffer]
  console := by rw [hsame.state, h.console]
  cores := by rw [hsame.cores]; exact h.cores
  refs := h.refs

theorem setState_cores (p : McumgrSmpParser) (d : Direction) (s : DirectionState) :
    (p.setState d s).cores = p.cores := by
  cases d <;> rfl

/-- What the line of a direction does not touch. -/
theorem Received.setLine (h : Received runtime p₀ d packet messages sent held refs p)
    {s : DirectionState} (hconsole : s.console = (p.state d).console) {left : Uint8Array}
    (hbuffer : s.lineBuffer = left) :
    Received runtime p₀ d packet messages sent left refs (p.setState d s) where
  config := (setState_config p d s).trans h.config
  lineBuffer := by rw [setState_same, hbuffer]
  console := by rw [setState_same, hconsole, h.console]
  cores := by rw [setState_cores]; exact h.cores
  refs := h.refs

/-! ## A fragment -/

theorem messageCores_config (hconfig : p.config = q.config) (context : TransportContext)
    (messages : List (Nat × Uint8Array)) :
    messageCores runtime p context messages = messageCores runtime q context messages := by
  unfold messageCores messageRecord
  rw [hconfig]

/-- The console packet has got more of the frame. -/
theorem received_finish (hpacket : PacketFrom 0 packet messages)
    (hfits : packet.length ≤ p₀.config.maxPacketBytes) (hconfig : p.config = p₀.config)
    (hbuffer : (p.state d).lineBuffer = held) (hcores : p.cores = p₀.cores)
    {console : ConsoleAssembly} (hconsole : (p.state d).console = some console)
    (hexpected : console.expectedBytes = packet.length + 2) (hbody : console.body = sent.drop 2)
    (hlength : 2 ≤ sent.length) (hsent : sent <+: consoleFrame packet) :
    Received runtime p₀ d packet messages sent held (p.finishConsole runtime d).2
      (p.finishConsole runtime d).1 := by
  have hframe := consoleFrame_length packet
  have hsome : sent ≠ [] := ne_nil_of_length_pos (by omega)
  by_cases hwhole : sent = consoleFrame packet
  · have hall : console.body = packet ++ bigEndian (crc16Xmodem packet) := by
      rw [hbody, hwhole]
      rfl
    obtain ⟨context, hvalid, hsame, hmade, hrefs⟩ :=
      @finish_whole runtime p d console packet messages hconsole hexpected hall hpacket
        (by rw [hconfig]; exact hfits)
    have hrecords : p.records.length = p₀.records.length := by
      have hcount := congrArg length hcores
      unfold cores at hcount
      rwa [length_map, length_map] at hcount
    have hstate := hsame.state d
    unfold setConsole at hstate
    rw [setState_same] at hstate
    exact
      { config := (hsame.config.trans (setState_config _ _ _)).trans hconfig
        lineBuffer := by rw [hstate]; exact hbuffer
        console := by rw [hstate, if_pos (.inr hwhole)]; rfl
        cores := by
          refine ⟨context, hvalid, ?_⟩
          rw [hmade, if_pos hwhole, hcores, messageCores_config hconfig]
        refs := by rw [hrefs, if_pos hwhole, hrecords] }
  · have hshort : sent.length < (consoleFrame packet).length := by
      refine lt_of_le_of_ne hsent.length_le ?_
      intro hsame
      exact hwhole (hsent.eq_of_length hsame)
    have hpartial : console.body.length < console.expectedBytes := by
      rw [hbody, hexpected, length_drop]
      omega
    rw [finish_short hconsole hpartial]
    exact
      { config := hconfig
        lineBuffer := hbuffer
        console := by
          rw [hconsole, if_neg (by simp [hsome, hwhole]), map_some, hexpected, hbody]
        cores := by
          refine ⟨⟨d, 0, none, 0, none, .valid, []⟩, rfl, ?_⟩
          rw [if_neg hwhole, append_nil, hcores]
        refs := by rw [if_neg hwhole] }

/-- The length stands in the first two bytes of the frame. -/
theorem readU16_frame (hsize : packet.length + 2 < 2 ^ 16) (hlength : 2 ≤ sent.length)
    (hsent : sent <+: consoleFrame packet) : readU16 sent 0 = packet.length + 2 := by
  obtain ⟨more, hmore⟩ := hsent
  have hread := readU16_bigEndian hsize [] (packet ++ bigEndian (crc16Xmodem packet))
  rw [nil_append, ← append_assoc] at hread
  rw [← @readU16_append 0 sent more (by omega), hmore]
  exact hread

/-- A fragment is taken behind those before it. -/
theorem Received.fragment (h : Received runtime p₀ d packet messages sent held refs p)
    (hpacket : PacketFrom 0 packet messages) (hfits : packet.length ≤ p₀.config.maxPacketBytes)
    (hsize : packet.length + 2 < 2 ^ 16) {fragment : Uint8Array}
    (hmore : sent ≠ consoleFrame packet) (hnext : sent ++ fragment <+: consoleFrame packet)
    (hsome : sent ≠ [] → 2 ≤ sent.length) (hfirst : sent = [] → 2 ≤ fragment.length)
    {l : ConsoleLine} (hline : l.line = fragmentLine (markerAfter sent) fragment) :
    Received runtime p₀ d packet messages (sent ++ fragment) held
      (refs ++ (consumeConsoleLine runtime d 32 l p).2)
      (consumeConsoleLine runtime d 32 l p).1 := by
  have hcores : p.cores = p₀.cores := by
    obtain ⟨context, -, hcores⟩ := h.cores
    rw [hcores, if_neg hmore, append_nil]
  have hheader : SMP_HEADER_BYTES ≤ packet.length := by
    cases hpacket with
    | last hmessage _ => exact hmessage.1.trans (IsPrefix.length_le (prefix_append _ _))
    | more hmessage _ _ =>
      rw [append_assoc]
      exact hmessage.1.trans (IsPrefix.length_le (prefix_append _ _))
  have hrefs := h.refs
  rw [if_neg hmore] at hrefs
  rw [hrefs, nil_append]
  unfold markerAfter at hline
  by_cases hnone : sent = []
  · subst hnone
    have hlength := hfirst rfl
    have hidle := h.console
    rw [if_pos (.inl rfl), map_eq_none_iff] at hidle
    have hexpected := readU16_frame hsize hlength hnext
    rw [if_pos rfl] at hline
    rw [consume_initial hline hidle hlength hexpected (by omega) (by rw [h.config]; omega)]
    apply received_finish hpacket hfits
    · exact (setState_config _ _ _).trans h.config
    · unfold setConsole
      rw [setState_same]
      exact h.lineBuffer
    · exact (setState_cores _ _ _).trans hcores
    · unfold setConsole
      rw [setState_same]
    · rfl
    · rfl
    · exact hlength
    · exact hnext
  · have hlength := hsome hnone
    obtain ⟨console, hconsole, hfields⟩ := map_eq_some_iff.1
      (h.console.trans (if_neg (by simp [hnone, hmore])))
    obtain ⟨hexpected, hbody⟩ := Prod.mk.inj hfields
    rw [if_neg hnone] at hline
    rw [consume_continuation hline hconsole]
    apply received_finish hpacket hfits
    · exact (setState_config _ _ _).trans h.config
    · unfold setConsole
      rw [setState_same]
      exact h.lineBuffer
    · exact (setState_cores _ _ _).trans hcores
    · unfold setConsole
      rw [setState_same]
    · exact hexpected
    · rw [hbody, drop_append_of_le_length hlength]
    · rw [length_append]
      omega
    · exact hnext

/-! ## The lines of the sender -/

/-- What is still to come: these fragments, on these lines. -/
structure Rest (packet sent : Uint8Array) (fragments lines : List Uint8Array) : Prop where
  transcript : Transcript (markerAfter sent) fragments lines
  frame : sent ++ fragments.flatten = consoleFrame packet
  begun : sent ≠ [] → 2 ≤ sent.length
  first : sent = [] → ∀ fragment ∈ fragments.head?, 2 ≤ fragment.length
  last : ∀ fragment ∈ fragments.getLast?, fragment ≠ []

variable {fragments lines : List Uint8Array}

variable {fragment : Uint8Array}

theorem Rest.unsent (h : Rest packet sent (fragment :: fragments) lines) :
    sent ≠ consoleFrame packet := by
  intro hall
  have hframe := h.frame
  rw [hall, append_right_eq_self, flatten_eq_nil_iff] at hframe
  exact h.last _ (getLast?_eq_some_getLast (cons_ne_nil fragment fragments))
    (hframe _ (getLast_mem _))

theorem Rest.next {all : List Uint8Array} (h : Rest packet sent (fragment :: fragments) all)
    (hrest : Transcript SMP_CONSOLE_CONTINUATION_MARKER fragments lines) :
    Rest packet (sent ++ fragment) fragments lines := by
  have hlength : 2 ≤ (sent ++ fragment).length := by
    rw [length_append]
    by_cases hnone : sent = []
    · have hfirst := h.first hnone fragment rfl
      omega
    · have hbegun := h.begun hnone
      omega
  have hsome : sent ++ fragment ≠ [] := ne_nil_of_length_pos (by omega)
  exact
    { transcript := by
        unfold markerAfter
        rw [if_neg hsome]
        exact hrest
      frame := by
        rw [append_assoc, ← flatten_cons]
        exact h.frame
      begun _ := hlength
      first hnone := absurd hnone hsome
      last last hlast := by
        apply h.last last
        rw [getLast?_cons, mem_def.1 hlast]
        rfl }

theorem fragmentLine_ends (sent fragment : Uint8Array) :
    0x0A ∉ fragmentLine (markerAfter sent) fragment ∧
      (fragmentLine (markerAfter sent) fragment).getLast? ≠ some 0x0D := by
  have hinitial : ∀ byte ∈ SMP_CONSOLE_INITIAL_MARKER, byte ≠ 0x0A ∧ byte ≠ 0x0D := by
    decide +kernel
  have hcontinuation : ∀ byte ∈ SMP_CONSOLE_CONTINUATION_MARKER, byte ≠ 0x0A ∧ byte ≠ 0x0D := by
    decide +kernel
  have hmarker : ∀ byte ∈ markerAfter sent, byte ≠ 0x0A ∧ byte ≠ 0x0D := by
    unfold markerAfter
    split_ifs
    · exact hinitial
    · exact hcontinuation
  have hbytes : ∀ byte ∈ fragmentLine (markerAfter sent) fragment, byte ≠ 0x0A ∧ byte ≠ 0x0D := by
    intro byte hbyte
    rcases mem_append.1 hbyte with hbyte | hbyte
    · exact hmarker byte hbyte
    · exact mem_asciiEncode hbyte
  exact ⟨fun hlf => (hbytes _ hlf).1 rfl, fun hcr => (hbytes _ (mem_of_getLast? hcr)).2 rfl⟩

/-- A line ends at its first LF only. -/
theorem line_unique {line other rest more : Uint8Array} (hline : 0x0A ∉ line)
    (hother : 0x0A ∉ other) (h : line ++ 0x0A :: rest = other ++ 0x0A :: more) :
    line = other ∧ rest = more := by
  induction line generalizing other with
  | nil =>
    cases other with
    | nil => exact ⟨rfl, tail_eq_of_cons_eq h⟩
    | cons byte other =>
      exact absurd (mem_cons.2 (.inl (head_eq_of_cons_eq h))) hother
  | cons byte line ih =>
    cases other with
    | nil => exact absurd (mem_cons.2 (.inl (head_eq_of_cons_eq h).symm)) hline
    | cons byte' other =>
      obtain ⟨rfl, htail⟩ := cons.inj h
      obtain ⟨rfl, hrest⟩ := ih (fun hlf => hline (mem_cons_of_mem _ hlf))
        (fun hlf => hother (mem_cons_of_mem _ hlf)) htail
      exact ⟨rfl, hrest⟩

theorem joinLines_cons (line : Uint8Array) (lines : List Uint8Array) :
    joinLines (line :: lines) = line ++ 0x0A :: joinLines lines := by
  unfold joinLines
  rw [map_cons, flatten_cons, append_assoc, singleton_append]

theorem markerFree_dropLast {line : Uint8Array} (h : MarkerFree line) :
    MarkerFree line.dropLast :=
  ⟨fun hin => h.1 (hin.trans ( dropLast_prefix line).isInfix),
    fun hin => h.2 (hin.trans ( dropLast_prefix line).isInfix)⟩

/-- Where a call stands in the lines of the sender. -/
structure Reached (runtime : Runtime) (p₀ : McumgrSmpParser) (d : Direction)
    (packet : Uint8Array) (messages : List (Nat × Uint8Array)) (more held : Uint8Array)
    (refs : List Nat) (p : McumgrSmpParser) : Prop where
  place : ∃ sent fragments lines, Rest packet sent fragments lines ∧
    Received runtime p₀ d packet messages sent held refs p ∧ held ++ more = joinLines lines

/-- A line that has ended is consumed. -/
theorem Reached.line (hpacket : PacketFrom 0 packet messages)
    (hfits : packet.length ≤ p₀.config.maxPacketBytes) (hsize : packet.length + 2 < 2 ^ 16)
    {line rest more : Uint8Array} (hend : 0x0A ∉ line)
    (h : Reached runtime p₀ d packet messages more (line ++ 0x0A :: rest) refs p) {l : ConsoleLine}
    (hl : l.line = if line.getLast? = some 0x0D then line.dropLast else line) {s : DirectionState}
    (hconsole : s.console = (p.state d).console) (hbuffer : s.lineBuffer = rest) :
    let consumed := consumeConsoleLine runtime d 32 l (p.setState d s)
    Reached runtime p₀ d packet messages more rest (refs ++ consumed.2) consumed.1 := by
  obtain ⟨sent, fragments, lines, hlines, hreceived, hstream⟩ := h.place
  have htaken := hreceived.setLine hconsole hbuffer
  intro consumed
  rw [append_assoc, cons_append] at hstream
  obtain ⟨htranscript, hframe, hbegun, hfirst, hlast⟩ := hlines
  obtain ⟨marker, hmarker⟩ : ∃ marker, marker = markerAfter sent := ⟨_, rfl⟩
  rw [← hmarker] at htranscript
  cases htranscript with
  | done => exact absurd hstream (by simp [joinLines])
  | @noise _ other _ lines hfree hother hrest =>
    -- other output is dropped
    rw [joinLines_cons] at hstream
    obtain ⟨rfl, hlater⟩ := line_unique hend hother hstream
    have hnoise : MarkerFree l.line := by
      rw [hl]
      split_ifs
      · exact markerFree_dropLast hfree
      · exact hfree
    have hdropped : consumed = (p.setState d s, []) := consume_noise hnoise _
    rw [hdropped, append_nil]
    exact ⟨sent, fragments, lines, ⟨hmarker ▸ hrest, hframe, hbegun, hfirst, hlast⟩, htaken, hlater⟩
  | @fragment _ fragment fragments lines hrest =>
    obtain ⟨hlf, hcr⟩ := fragmentLine_ends sent fragment
    rw [joinLines_cons, hmarker] at hstream
    obtain ⟨rfl, hlater⟩ := line_unique hend hlf hstream
    rw [if_neg hcr] at hl
    have hnow : Rest packet sent (fragment :: fragments)
        (fragmentLine (markerAfter sent) fragment :: lines) :=
      ⟨.fragment hrest, hframe, hbegun, hfirst, hlast⟩
    have hafter := hnow.next hrest
    refine ⟨sent ++ fragment, fragments, lines, hafter, ?_, hlater⟩
    apply htaken.fragment hpacket hfits hsize hnow.unsent
    · exact ⟨fragments.flatten, hafter.frame⟩
    · exact hbegun
    · exact fun hnone => hfirst hnone fragment rfl
    · exact hl

/-! ## A call -/

section

variable (hpacket : PacketFrom 0 packet messages) (hfits : packet.length ≤ p₀.config.maxPacketBytes)
  (hsize : packet.length + 2 < 2 ^ 16)
include hpacket hfits hsize

variable {call : SmpTrafficChunk} {more : Uint8Array}

/-- The loop consumes the lines that have ended. -/
theorem Reached.loop (fuel : Nat)
    (h : Reached runtime p₀ call.direction packet messages more held refs p)
    (hfuel : held.length ≤ fuel) :
    let looped := consoleLoop runtime call fuel p
    ∃ left, left <:+ held ∧ 0x0A ∉ left ∧
      Reached runtime p₀ call.direction packet messages more left (refs ++ looped.2) looped.1 := by
  induction fuel generalizing held refs p with
  | zero =>
    have hnil : held = [] := length_eq_zero_iff.1 (Nat.le_zero.1 hfuel)
    subst hnil
    exact ⟨[], suffix_refl _, by simp, by rwa [consoleLoop, append_nil]⟩
  | succ fuel ih =>
    have hheld : (p.state call.direction).lineBuffer = held := by
      obtain ⟨sent, fragments, lines, -, hreceived, -⟩ := h.place
      exact hreceived.lineBuffer
    unfold consoleLoop
    simp only [hheld]
    cases hfound : held.idxOf? 0x0A with
    | none =>
      exact ⟨held, suffix_refl _, idxOf?_eq_none_iff.1 hfound, by rwa [append_nil]⟩
    | some newline =>
      obtain ⟨hlength, hlf, hfirst⟩ := idxOf?_eq_some_iff.1 hfound
      have hcut : held = held.take newline ++ 0x0A :: held.drop (newline + 1) := by
        rw [← hlf, ← drop_eq_getElem_cons hlength, take_append_drop]
      have hend : 0x0A ∉ held.take newline := by
        intro hin
        obtain ⟨i, hi, heq⟩ := getElem_of_mem hin
        rw [length_take] at hi
        rw [getElem_take] at heq
        exact hfirst i (by omega) heq
      rw [hcut] at h
      have hnext := @Reached.line runtime p₀ p call.direction packet messages refs hpacket hfits
        hsize _ _ more hend h
      have hstep := hnext (l := {
          line := if (held.take newline).getLast? = some 0x0D then (held.take newline).dropLast
            else held.take newline
          wireLine := held.take (newline + 1)
          offset := (p.state call.direction).lineBufferOffset
          timestamp := (p.state call.direction).lineTimestamp
          captureSeq := (p.state call.direction).lineCaptureSeq
          now := call.timestamp }) rfl
        (s := { p.state call.direction with
          lineBuffer := held.drop (newline + 1)
          lineBufferOffset := (p.state call.direction).lineBufferOffset + newline + 1
          lineTimestamp := call.timestamp
          lineCaptureSeq := call.captureSeq }) rfl rfl
      have hshorter : (held.drop (newline + 1)).length ≤ fuel := by
        rw [length_drop]
        omega
      obtain ⟨left, hsuffix, hsettled, hlast⟩ := ih hstep hshorter
      rw [append_assoc] at hlast
      exact ⟨left, hsuffix.trans (drop_suffix _ _), hsettled, hlast⟩

theorem Reached.feedConsole
    (h : Reached runtime p₀ call.direction packet messages (call.data ++ more) held refs p)
    (hlimit : ∀ left, left <:+ held ++ call.data → 0x0A ∉ left →
      left.length ≤ maxBufferedLine p₀.config) (chunkOffset : Nat) :
    let fed := p.feedConsole runtime call chunkOffset
    ∃ left, left <:+ held ++ call.data ∧ 0x0A ∉ left ∧
      Reached runtime p₀ call.direction packet messages more left (refs ++ fed.2) fed.1 := by
  obtain ⟨sent, fragments, lines, hlines, hreceived, hstream⟩ := h.place
  rw [← append_assoc] at hstream
  obtain ⟨state, hstate⟩ : ∃ state, state = (let state := p.state call.direction
      let state := if state.lineBuffer.length = 0 then
          { state with
            lineBufferOffset := chunkOffset
            lineTimestamp := call.timestamp
            lineCaptureSeq := call.captureSeq }
        else state
      { state with
        lineLastTimestamp := call.timestamp
        lineBuffer := state.lineBuffer ++ call.data }) := ⟨_, rfl⟩
  have hfeed : p.feedConsole runtime call chunkOffset =
      let looped := consoleLoop runtime call state.lineBuffer.length
        (p.setState call.direction state)
      let limited := looped.1.limitLine call chunkOffset
      (limited.1, looped.2 ++ limited.2) := by
    rw [hstate]
    rfl
  have hconsole : state.console = (p.state call.direction).console := by
    rw [hstate]
    simp only
    split_ifs <;> rfl
  have hbuffer : state.lineBuffer = held ++ call.data := by
    rw [hstate, ← hreceived.lineBuffer]
    simp only
    split_ifs <;> rfl
  have hbegun := hreceived.setLine hconsole hbuffer
  obtain ⟨left, hsuffix, hsettled, hreached⟩ := Reached.loop hpacket hfits hsize
    state.lineBuffer.length ⟨sent, fragments, lines, hlines, hbegun, hstream⟩ (by rw [hbuffer])
  -- what is left is no line too long
  have hlimited : ∀ q, Reached runtime p₀ call.direction packet messages more left
      (refs ++ (consoleLoop runtime call state.lineBuffer.length
        (p.setState call.direction state)).2) q → q.limitLine call chunkOffset = (q, []) := by
    intro q hq
    obtain ⟨sent, fragments, lines, -, hreceived, -⟩ := hq.place
    unfold limitLine
    simp only [hreceived.lineBuffer, hreceived.config]
    rw [if_neg (not_lt.2 (hlimit left hsuffix hsettled))]
  rw [hfeed]
  simp only [hlimited _ hreached, append_nil]
  exact ⟨left, hsuffix, hsettled, hreached⟩

end

/-- A call goes on in the lines of the sender. -/
theorem Reached.feed (hpacket : PacketFrom 0 packet messages)
    (hfits : packet.length ≤ p₀.config.maxPacketBytes) (hsize : packet.length + 2 < 2 ^ 16)
    (htransport : p₀.config.transport = .serialConsole) {call : SmpTrafficChunk} {more : Uint8Array}
    (h : Reached runtime p₀ call.direction packet messages (call.data ++ more) held refs p)
    (hsettled : 0x0A ∉ held) (hwaits : ∀ d, StateUnexpired p.config call.timestamp (p.state d))
    (hlimit : ∀ left, left <:+ held ++ call.data → 0x0A ∉ left →
      left.length ≤ maxBufferedLine p₀.config) :
    ∃ left, left <:+ held ++ call.data ∧ 0x0A ∉ left ∧
      Reached runtime p₀ call.direction packet messages more left
        (refs ++ (p.feed runtime call).2) (p.feed runtime call).1 := by
  obtain ⟨sent, fragments, lines, hlines, hreceived, hstream⟩ := h.place
  have hawaits := hreceived.same (expire_records p call.timestamp)
  rw [← append_assoc] at hstream
  unfold McumgrSmpParser.feed
  rw [flushExpired_states hwaits]
  split_ifs with hempty
  · rw [length_eq_zero_iff.1 hempty, append_nil] at hstream ⊢
    exact ⟨held, suffix_refl _, hsettled, by
      rw [append_nil]
      exact ⟨sent, fragments, lines, hlines, hawaits, hstream⟩⟩
  · simp only [setState_config, hawaits.config, htransport, nil_append]
    apply Reached.feedConsole hpacket hfits hsize _ hlimit
    refine ⟨sent, fragments, lines, hlines, ?_, ?_⟩
    · apply hawaits.setLine
      · rfl
      · exact hawaits.lineBuffer
    · rw [← append_assoc]
      exact hstream

/-! ## All calls -/

/-- The calls bring the rest of the lines. -/
theorem Reached.feedAll (hpacket : PacketFrom 0 packet messages)
    (hfits : packet.length ≤ p₀.config.maxPacketBytes) (hsize : packet.length + 2 < 2 ^ 16)
    (htransport : p₀.config.transport = .serialConsole) (before calls : List SmpTrafficChunk)
    (hdirection : ∀ call ∈ calls, call.direction = d)
    (h : Reached runtime p₀ d packet messages (calls.map (·.data)).flatten held refs p)
    (hsettled : 0x0A ∉ held) (hsuffix : held <:+ (before.map (·.data)).flatten)
    (hwithin : HeldWithin (maxBufferedLine p₀.config) (before ++ calls))
    (htime : NoTimeout runtime p calls) :
    ∃ left, 0x0A ∉ left ∧ Reached runtime p₀ d packet messages [] left
      (refs ++ (feedAll runtime p calls).2) (feedAll runtime p calls).1 := by
  induction calls generalizing before held refs p with
  | nil => exact ⟨held, hsettled, by rwa [feedAll, append_nil]⟩
  | cons call calls ih =>
    obtain ⟨hwaits, hlater⟩ := htime
    have hd := hdirection call mem_cons_self
    rw [map_cons, flatten_cons] at h
    have hall : ((before ++ [call]).map (·.data)).flatten =
        (before.map (·.data)).flatten ++ call.data := by
      rw [map_append, flatten_append, map_singleton, flatten_singleton]
    have hgrows : ∀ left, left <:+ held ++ call.data →
        left <:+ ((before ++ [call]).map (·.data)).flatten := by
      intro left hleft
      rw [hall]
      obtain ⟨front, hfront⟩ := hsuffix
      refine hleft.trans ⟨front, ?_⟩
      rw [← append_assoc, hfront]
    have hlimit : ∀ left, left <:+ held ++ call.data → 0x0A ∉ left →
        left.length ≤ maxBufferedLine p₀.config := fun left hleft =>
      hwithin _ ⟨calls, by rw [append_assoc, singleton_append]⟩ left (hgrows left hleft)
    rw [← hd] at h
    obtain ⟨left, hleft, hend, hnext⟩ :=
      h.feed hpacket hfits hsize htransport hsettled hwaits hlimit
    rw [hd] at hnext
    obtain ⟨last, hlast, hreached⟩ := ih (before ++ [call])
      (fun other hother => hdirection other (mem_cons_of_mem _ hother)) hnext hend
      (hgrows left hleft) (by rwa [append_assoc, singleton_append]) hlater
    rw [append_assoc] at hreached
    exact ⟨last, hlast, hreached⟩

/-- When all the lines have come, so has the whole frame. -/
theorem Reached.done (h : Reached runtime p₀ d packet messages [] held refs p)
    (hsettled : 0x0A ∉ held) :
    Received runtime p₀ d packet messages (consoleFrame packet) [] refs p := by
  obtain ⟨sent, fragments, lines, ⟨htranscript, hframe, -⟩, hreceived, hstream⟩ := h.place
  rw [append_nil] at hstream
  cases lines with
  | cons line lines =>
    rw [joinLines_cons] at hstream
    exact absurd (by rw [hstream]; simp) hsettled
  | nil =>
    cases htranscript
    rw [flatten_nil, append_nil] at hframe
    rw [hstream, hframe] at hreceived
    exact hreceived

/-- The message, the header and the CRC of a record. -/
def readingOf (record : SmpRecord) : Uint8Array × Option SmpHeader × CrcStatus :=
  (record.data, record.header, record.crcStatus)

/-- The records that calls return. -/
def readingsOf (p : McumgrSmpParser) (refs : List Nat) :
    List (Option (Uint8Array × Option SmpHeader × CrcStatus)) :=
  refs.map fun ref => p.records[ref]?.map readingOf

theorem readingsOf_cores (p : McumgrSmpParser) (refs : List Nat) :
    readingsOf p refs = (refs.map fun ref => p.cores[ref]?).map (Option.map readingOf) := by
  unfold readingsOf cores
  rw [List.map_map]
  apply map_congr_left
  intro ref _
  rw [Function.comp_apply, List.getElem?_map, Option.map_map]
  rfl

/-- The lines of a packet, however they are cut into calls, make its messages and nothing else,
each with a valid CRC, and leave the direction idle. -/
theorem console_decode_undoes_encode {p : McumgrSmpParser} {d : Direction}
    (htransport : p.config.transport = .serialConsole) (hbuffer : (p.state d).lineBuffer = [])
    (hconsole : (p.state d).console = none) {packet : Uint8Array}
    {messages : List (Nat × Uint8Array)} (hpacket : PacketFrom 0 packet messages)
    (hfits : packet.length ≤ p.config.maxPacketBytes) (hsize : packet.length + 2 < 2 ^ 16)
    {fragments lines : List Uint8Array} (hframe : fragments.flatten = consoleFrame packet)
    (hfirst : ∀ fragment ∈ fragments.head?, 2 ≤ fragment.length)
    (hlast : ∀ fragment ∈ fragments.getLast?, fragment ≠ [])
    (hlines : Transcript SMP_CONSOLE_INITIAL_MARKER fragments lines) {calls : List SmpTrafficChunk}
    (hdirection : ∀ call ∈ calls, call.direction = d)
    (hstream : (calls.map (·.data)).flatten = joinLines lines)
    (hheld : HeldWithin (maxBufferedLine p.config) calls) (htime : NoTimeout runtime p calls) :
    let fed := feedAll runtime p calls
    readingsOf fed.1 fed.2 =
        messages.map (fun message => some (message.2, some (readHeader message.2), .valid)) ∧
      (fed.1.state d).lineBuffer = [] ∧ (fed.1.state d).console = none := by
  intro fed
  have hrest : Rest packet [] fragments lines :=
    ⟨hlines, hframe, fun hsome => absurd rfl hsome, fun _ => hfirst, hlast⟩
  have hstart : Reached runtime p d packet messages (calls.map (·.data)).flatten [] [] p :=
    ⟨[], fragments, lines, hrest, received_nothing hbuffer hconsole, hstream⟩
  obtain ⟨left, hsettled, hreached⟩ := hstart.feedAll hpacket hfits hsize htransport [] calls
    hdirection (by simp) (suffix_refl _) hheld htime
  obtain ⟨-, hempty, hnone, ⟨context, hvalid, hcores⟩, hrefs⟩ := hreached.done hsettled
  rw [if_pos rfl] at hcores hrefs
  rw [if_pos (.inr rfl), map_eq_none_iff] at hnone
  rw [nil_append] at hrefs
  refine ⟨?_, hempty, hnone⟩
  have hlength : p.records.length = p.cores.length := by
    unfold cores
    rw [length_map]
  have hcount : (messageCores runtime p context messages).length = messages.length := by
    unfold messageCores
    rw [length_map]
  have hmap := map_getElem_range' p.cores (messageCores runtime p context messages)
  rw [← hcores, ← hlength, hcount] at hmap
  calc readingsOf fed.1 fed.2
      = ((List.range' p.records.length messages.length).map fun ref => fed.1.cores[ref]?).map
          (Option.map readingOf) := by rw [readingsOf_cores, ← hrefs]
    _ = (messageCores runtime p context messages).map (some ∘ readingOf) := by
        rw [hmap, List.map_map]
        rfl
    _ = _ := by
        unfold messageCores
        rw [List.map_map]
        apply map_congr_left
        intro message _
        rw [← hvalid]
        rfl

/-- A read request. -/
def readRequest : Uint8Array := [0, 0, 0, 0, 0, 0, 1, 0]

/-- A read request in two fragments, behind other output and cut inside its lines. -/
theorem console_decode_of_two_fragments :
    let calls : List SmpTrafficChunk := [
      receivedAt5 none [0x6F, 0x6B, 0x0A, 0x06, 0x09, 65, 65, 111, 65],
      receivedAt5 none [65, 65, 61, 61, 0x0A, 0x04],
      receivedAt5 none [0x14, 65, 65, 65, 65, 65, 65, 69, 65, 77, 122, 69, 61, 0x0A]]
    let fed := feedAll noPayload (new consoleConfig) calls
    readingsOf fed.1 fed.2 = [some (readRequest, some (readHeader readRequest), .valid)] ∧
      (fed.1.state .RX).lineBuffer = [] ∧ (fed.1.state .RX).console = none := by
  intro calls
  have hpacket : PacketFrom 0 (readRequest ++ []) [(0, readRequest)] :=
    .last ⟨by decide, by decide⟩ (by decide)
  have hlines : Transcript SMP_CONSOLE_INITIAL_MARKER
      [[0, 10, 0, 0], [0, 0, 0, 0, 1, 0, 0x33, 0x31]] [[0x6F, 0x6B],
        fragmentLine SMP_CONSOLE_INITIAL_MARKER [0, 10, 0, 0],
        fragmentLine SMP_CONSOLE_CONTINUATION_MARKER [0, 0, 0, 0, 1, 0, 0x33, 0x31]] :=
    .noise ⟨(by decide), (by decide)⟩ (by decide) (.fragment (.fragment .done))
  refine console_decode_undoes_encode rfl rfl rfl hpacket (by decide) (by decide)
    (by decide +kernel) (by decide) (by decide) hlines (by decide) (by decide +kernel) ?_
    (by decide +kernel)
  intro before hbefore held hheld _
  have hall : ∀ before ∈ calls.inits, (before.map (·.data)).flatten.length ≤ 8192 := by
    decide +kernel
  exact (hheld.length_le.trans (hall before ((mem_inits _ _).2 hbefore))).trans (by decide)

/-- A first fragment too short for the length, and an empty last fragment, each make an error in
place of the message or next to it. -/
theorem console_decode_of_short_fragments :
    let short : List Uint8Array := [[0], [10] ++ readRequest ++ [0x33, 0x31]]
    let empty : List Uint8Array := [[0, 10] ++ readRequest ++ [0x33, 0x31], []]
    let calls (fragments : List Uint8Array) : List SmpTrafficChunk :=
      [receivedAt5 none (fragmentLine SMP_CONSOLE_INITIAL_MARKER (fragments.getD 0 []) ++ [0x0A]),
        receivedAt5 none
          (fragmentLine SMP_CONSOLE_CONTINUATION_MARKER (fragments.getD 1 []) ++ [0x0A])]
    let codes (fragments : List Uint8Array) :=
      (feedAll noPayload (new consoleConfig) (calls fragments)).1.records.map fun record =>
        (record.data.length, record.diagnostics.map (·.code))
    short.flatten = consoleFrame readRequest ∧ empty.flatten = consoleFrame readRequest ∧
      codes short = [(7, ["smp.console.length-missing"]),
        (19, ["smp.console.orphan-continuation"])] ∧
      codes empty = [(8, []), (3, ["smp.console.orphan-continuation"])] := by
  decide +kernel

end McumgrSmpParser

end bbcom.smp
