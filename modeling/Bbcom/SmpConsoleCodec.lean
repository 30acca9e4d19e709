-- The serial console undoes what a sender of packets does to them: length, CRC, fragments of any
-- size in Base64, a line for each, and other output in the lines between.
import Bbcom.SmpConsole

open bbcom.js bbcom.base64

namespace bbcom.smp

open List UInt8 McumgrSmpParser

/-! ## The sender -/

def bigEndian (value : Nat) : Uint8Array := [ofNat (value / 256), ofNat (value % 256)]

/-- The packet with the length in front, of the packet and the CRC, and the CRC behind. -/
def consoleFrame (packet : Uint8Array) : Uint8Array :=
  bigEndian (packet.length + 2) ++ packet ++ bigEndian (crc16Xmodem packet)

def asciiEncode (text : List Char) : Uint8Array := text.map fun c => ofNat c.toNat

/-- The line of a fragment, without its end. -/
def fragmentLine (marker fragment : Uint8Array) : Uint8Array :=
  marker ++ asciiEncode (btoa fragment)

/-- Neither marker stands in the line. -/
def MarkerFree (line : Uint8Array) : Prop :=
  ¬SMP_CONSOLE_INITIAL_MARKER <:+: line ∧
    ¬SMP_CONSOLE_CONTINUATION_MARKER <:+: line

/-- The lines of the fragments, without their ends, with other output between them: `marker` is
the one of the next fragment. -/
inductive Transcript : Uint8Array → List Uint8Array → List Uint8Array → Prop
  | done {marker : Uint8Array} : Transcript marker [] []
  | noise {marker line : Uint8Array} {fragments lines : List Uint8Array} (hfree : MarkerFree line)
      (hend : 0x0A ∉ line) (hrest : Transcript marker fragments lines) :
      Transcript marker fragments (line :: lines)
  | fragment {marker fragment : Uint8Array} {fragments lines : List Uint8Array}
      (hrest : Transcript SMP_CONSOLE_CONTINUATION_MARKER fragments lines) :
      Transcript marker (fragment :: fragments) (fragmentLine marker fragment :: lines)

/-- The bytes of the lines. -/
def joinLines (lines : List Uint8Array) : Uint8Array :=
  (lines.map fun line => line ++ [0x0A]).flatten

/-- What has come of a line where a call ends is within the limit. -/
def HeldWithin (limit : Nat) (calls : List SmpTrafficChunk) : Prop :=
  ∀ before, before <+: calls → ∀ held, held <:+ (before.map (·.data)).flatten → 0x0A ∉ held →
    held.length ≤ limit

/-! ## Base64 on a line -/

def IsBase64 (c : Char) : Prop := c = '=' ∨ ∃ n < 64, c = encodeSix n

theorem btoa_mem (bytes : List UInt8) : ∀ c ∈ btoa bytes, IsBase64 c := by
  have hsix : ∀ {n : Nat}, n < 64 → IsBase64 (encodeSix n) := fun h => .inr ⟨_, h, rfl⟩
  have hpad : IsBase64 '=' := .inl rfl
  induction bytes using btoa.induct with
  | case1 => rintro c ⟨⟩
  | case2 a =>
    have ha := a.toNat_lt
    simp only [btoa, forall_mem_cons]
    exact ⟨hsix (by omega), hsix (by omega), hpad, hpad, by rintro c ⟨⟩⟩
  | case3 a b =>
    have ha := a.toNat_lt
    have hb := b.toNat_lt
    simp only [btoa, forall_mem_cons]
    exact ⟨hsix (by omega), hsix (by omega), hsix (by omega), hpad, by rintro c ⟨⟩⟩
  | case4 a b c rest ih =>
    have ha := a.toNat_lt
    have hb := b.toNat_lt
    have hc := c.toNat_lt
    simp only [btoa, forall_mem_cons]
    exact ⟨hsix (by omega), hsix (by omega), hsix (by omega), hsix (by omega), ih⟩

theorem IsBase64.toNat {c : Char} (h : IsBase64 c) : 43 ≤ c.toNat ∧ c.toNat ≤ 122 := by
  rcases h with rfl | ⟨n, hn, rfl⟩
  · decide
  · have hcode := mem_map_of_mem (f := Char.toNat) (encodeSix_mem hn)
    rw [map_toNat_alphabet] at hcode
    simp only [mem_append, mem_range'_1, mem_pair] at hcode
    omega

/-- The characters of Base64 are ASCII, and no space or line end. -/
theorem base64_char {c : Char} (h : IsBase64 c) :
    ofNat c.toNat ≠ 0x0A ∧ ofNat c.toNat ≠ 0x0D ∧ isSpace c = false ∧
      asciiDecode [ofNat c.toNat] = [c] := by
  have hcode := h.toNat
  have hbyte : (ofNat c.toNat).toNat = c.toNat := by
    rw [toNat_ofNat']
    omega
  refine ⟨fun hsame => ?_, fun hsame => ?_, ?_, ?_⟩
  · rw [hsame] at hbyte
    simp at hbyte
    omega
  · rw [hsame] at hbyte
    simp at hbyte
    omega
  · simp [isSpace]
    omega
  · simp only [asciiDecode, map_cons, map_nil, hbyte]
    rw [if_neg (by omega), Char.ofNat_toNat]

theorem asciiDecode_asciiEncode {text : List Char} (h : ∀ c ∈ text, IsBase64 c) :
    (asciiDecode (asciiEncode text)).filter (fun c => !isSpace c) = text := by
  induction text with
  | nil => rfl
  | cons c text ih =>
    obtain ⟨-, -, hspace, hdecode⟩ := base64_char (h c mem_cons_self)
    have hfirst : asciiDecode (asciiEncode (c :: text)) =
        asciiDecode [ofNat c.toNat] ++ asciiDecode (asciiEncode text) := rfl
    rw [hfirst, hdecode, singleton_append, filter_cons_of_pos (by simp [hspace]),
      ih fun c hc => h c (mem_cons_of_mem _ hc)]

/-- A fragment comes out of its line. -/
theorem base64ToBytes_asciiEncode (fragment : Uint8Array) :
    base64ToBytes ((asciiDecode (asciiEncode (btoa fragment))).filter fun c => !isSpace c) =
      some fragment := by
  rw [asciiDecode_asciiEncode (btoa_mem fragment), base64ToBytes_btoa]

variable {fragment : Uint8Array}

theorem mem_asciiEncode {byte : UInt8} (h : byte ∈ asciiEncode (btoa fragment)) :
    byte ≠ 0x0A ∧ byte ≠ 0x0D := by
  obtain ⟨c, hc, rfl⟩ := mem_map.1 h
  obtain ⟨hlf, hcr, -⟩ := base64_char (btoa_mem fragment c hc)
  exact ⟨hlf, hcr⟩

/-! ## The frame -/

theorem readU16_bigEndian {value : Nat} (h : value < 2 ^ 16) (front back : Uint8Array) :
    readU16 (front ++ bigEndian value ++ back) front.length = value := by
  have hhigh : (ofNat (value / 256)).toNat = value / 256 :=
    toNat_ofNat_of_lt (show value / 256 < 256 by omega)
  have hlow : (ofNat (value % 256)).toNat = value % 256 :=
    toNat_ofNat_of_lt (show value % 256 < 256 by omega)
  unfold readU16 bigEndian
  simp only [append_assoc, getD_eq_getElem?_getD, cons_append, nil_append]
  rw [getElem?_append_right (by omega), getElem?_append_right (by omega)]
  simp only [Nat.sub_self, Nat.add_sub_cancel_left, getElem?_cons_zero,
    getElem?_cons_succ, Option.getD_some, hhigh, hlow]
  omega

theorem crcBit_lt (crc : Nat) : crcBit crc < 2 ^ 16 := by
  unfold crcBit
  split_ifs
  · exact Nat.and_lt_two_pow _ (by decide)
  · exact Nat.and_lt_two_pow _ (by decide)

theorem crc16Xmodem_lt (bytes : Uint8Array) : crc16Xmodem bytes < 2 ^ 16 := by
  cases bytes using reverseRecOn with
  | nil => decide
  | append_singleton bytes byte =>
    unfold crc16Xmodem
    rw [foldl_concat, Function.iterate_succ_apply']
    exact crcBit_lt _

theorem bigEndian_length (value : Nat) : (bigEndian value).length = 2 := rfl

namespace McumgrSmpParser

variable {runtime : Runtime} {p q : McumgrSmpParser} {d : Direction}

/-! ## A line without a marker -/

theorem findConsoleMarkerFrom_none {line : Uint8Array} (h : MarkerFree line) (index : Nat) :
    findConsoleMarkerFrom index line = none := by
  induction line generalizing index with
  | nil => rfl
  | cons first line ih =>
    cases line with
    | nil => rfl
    | cons second line =>
      have hrest : MarkerFree (second :: line) :=
        ⟨fun hin => h.1 (hin.trans (suffix_cons _ _).isInfix),
          fun hin => h.2 (hin.trans (suffix_cons _ _).isInfix)⟩
      have hfront : [first, second] <:+: first :: second :: line :=
        IsPrefix.isInfix ⟨line, rfl⟩
      unfold findConsoleMarkerFrom
      rw [if_neg, if_neg]
      · exact ih hrest (index + 1)
      · intro hsame
        exact h.2 (hsame ▸ hfront)
      · intro hsame
        exact h.1 (hsame ▸ hfront)

variable {l : ConsoleLine} {console : ConsoleAssembly}

theorem consume_noise (h : MarkerFree l.line) (p : McumgrSmpParser) :
    consumeConsoleLine runtime d 32 l p = (p, []) := by
  unfold consumeConsoleLine findConsoleMarker
  rw [findConsoleMarkerFrom_none h]

/-! ## A fragment -/

theorem restart_none (h : (p.state d).console = none) (kind : MarkerKind) :
    p.restart d kind = (p, []) := by
  unfold restart
  rw [h]

theorem restart_continuation (p : McumgrSmpParser) (d : Direction) :
    p.restart d .continuation = (p, []) := by
  unfold restart
  split
  · rfl
  · rfl

/-- A line that does not go on to the next marker. -/
theorem consume_found {kind : MarkerKind} {index : Nat} {refs : List Nat}
    (hmarker : findConsoleMarker l.line = some (kind, index))
    (hconsumed : p.consumeFragment runtime d l kind index = (q, refs, false)) :
    consumeConsoleLine runtime d 32 l p = (q, refs) := by
  unfold consumeConsoleLine
  rw [hmarker]
  simp only [hconsumed]
  split <;> rfl

theorem consume_initial {expected : Nat}
    (hline : l.line = fragmentLine SMP_CONSOLE_INITIAL_MARKER fragment)
    (hnone : (p.state d).console = none) (hlength : 2 ≤ fragment.length)
    (hexpected : readU16 fragment 0 = expected) (hlow : SMP_HEADER_BYTES + 2 ≤ expected)
    (hhigh : expected ≤ p.config.maxPacketBytes + 2) :
    consumeConsoleLine runtime d 32 l p = (p.setConsole d (some
      ⟨expected, fragment.drop 2, [l.wireLine], l.timestamp, l.captureSeq, l.offset,
        l.now⟩)).finishConsole runtime d := by
  have hmarker : findConsoleMarker l.line = some (.initial, 0) := by
    rw [hline]
    rfl
  have hdrop : l.line.drop (0 + 2) = asciiEncode (btoa fragment) := by
    rw [hline]
    rfl
  apply consume_found hmarker
  unfold consumeFragment
  simp only [restart_none hnone, hdrop, base64ToBytes_asciiEncode]
  rw [if_neg (by omega), if_neg (by omega), hexpected]
  rfl

theorem consume_continuation
    (hline : l.line = fragmentLine SMP_CONSOLE_CONTINUATION_MARKER fragment)
    (hconsole : (p.state d).console = some console) :
    consumeConsoleLine runtime d 32 l p = (p.setConsole d (some { console with
      body := console.body ++ fragment
      wireParts := console.wireParts ++ [l.wireLine]
      lastTimestamp := l.now })).finishConsole runtime d := by
  have hmarker : findConsoleMarker l.line = some (.continuation, 0) := by
    rw [hline]
    rfl
  have hdrop : l.line.drop (0 + 2) = asciiEncode (btoa fragment) := by
    rw [hline]
    rfl
  apply consume_found hmarker
  unfold consumeFragment
  simp only [restart_continuation, hdrop, base64ToBytes_asciiEncode, hconsole]
  rfl

/-! ## The packet -/

theorem finish_short (h : (p.state d).console = some console)
    (hshort : console.body.length < console.expectedBytes) :
    p.finishConsole runtime d = (p, []) := by
  unfold finishConsole
  rw [h]
  exact if_pos hshort

/-- All the bytes of a packet are there. -/
theorem finish_whole {packet : Uint8Array} {messages : List (Nat × Uint8Array)}
    (h : (p.state d).console = some console) (hexpected : console.expectedBytes = packet.length + 2)
    (hbody : console.body = packet ++ bigEndian (crc16Xmodem packet))
    (hpacket : PacketFrom 0 packet messages) (hfits : packet.length ≤ p.config.maxPacketBytes) :
    ∃ context : TransportContext, context.crcStatus = .valid ∧
      SameStates (p.setConsole d none) (p.finishConsole runtime d).1 ∧
      (p.finishConsole runtime d).1.cores = p.cores ++ messageCores runtime p context messages ∧
      (p.finishConsole runtime d).2 = range' p.records.length messages.length := by
  have hsize : (packet ++ bigEndian (crc16Xmodem packet)).length = packet.length + 2 := by
    rw [length_append, bigEndian_length]
  have hcrc : readU16 (packet ++ bigEndian (crc16Xmodem packet)) packet.length =
      crc16Xmodem packet := by
    have hread := readU16_bigEndian (crc16Xmodem_lt packet) packet []
    rwa [append_nil] at hread
  have hconfig : (p.setConsole d none).config = p.config := setState_config _ _ _
  have hcores : (p.setConsole d none).cores = p.cores := by cases d <;> rfl
  have hrecords : (p.setConsole d none).records = p.records := by cases d <;> rfl
  have hframed : (packet ++ bigEndian (crc16Xmodem packet)).take (packet.length + 2) =
      packet ++ bigEndian (crc16Xmodem packet) := take_of_length_le hsize.le
  have hfinish : p.finishConsole runtime d =
      (p.setConsole d none).decodeTransportPacket runtime packet ⟨d, console.timestamp,
        console.captureSeq, console.offset, some console.wireParts.flatten, .valid, []⟩ := by
    unfold finishConsole
    rw [h]
    simp only [hexpected, hbody, hsize, lt_irrefl, if_false, Nat.sub_self, hframed,
      Nat.add_sub_cancel, take_left, hcrc, ne_eq, not_true_eq_false, append_nil, if_true]
  obtain ⟨hsame, hmade, hrefs⟩ := @decodeFrom_messages runtime 0 packet packet messages hpacket rfl
    ⟨d, console.timestamp, console.captureSeq, console.offset, some console.wireParts.flatten,
      .valid, []⟩ (p.setConsole d none) (by rw [hconfig]; exact hfits) packet.length le_rfl
  refine ⟨⟨d, console.timestamp, console.captureSeq, console.offset,
    some console.wireParts.flatten, .valid, []⟩, rfl, ?_, ?_, ?_⟩
  · rw [hfinish]
    exact hsame
  · rw [hfinish, ← hcores]
    refine hmade.trans ?_
    unfold messageCores messageRecord
    rw [hconfig]
  · rw [hfinish, ← hrecords]
    exact hrefs

end McumgrSmpParser

end bbcom.smp
