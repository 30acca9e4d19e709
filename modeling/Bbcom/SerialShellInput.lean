-- The input of the serial shell (`input.ts`): what a terminal hands over becomes keys, and each
-- key its bytes. Text, control characters and escape sequences are meant to come through as they
-- are, with line ends and backspaces mapped.
import Bbcom.SerialShellNewline
import Bbcom.TextEncoder

open bbcom.js bbcom.js.TextEncoder

namespace bbcom.serial_shell

open List Nat

/-! ## Keys -/

inductive SerialShellKey
  | text (text : JsString)
  | enter
  | backspace
  | tab
  | control (code : UInt16)
  | bytes (bytes : Uint8Array)
  deriving DecidableEq

inductive SerialShellEncoding
  | utf8 | gbk | latin1
  deriving DecidableEq

inductive SerialShellBackspace
  | del | bs
  deriving DecidableEq

/-- `encodeSerialShellText`; `encodeGbk` stands for the tables of the platform. -/
def encodeSerialShellText (encodeGbk : JsString → Uint8Array) (text : JsString) :
    SerialShellEncoding → Uint8Array
  | .utf8 => if text.length = 0 then [] else encode text
  | .latin1 => text.map fun unit => UInt8.ofNat (unit.toNat % 0x100)
  | .gbk => if text.length = 0 then [] else encodeGbk text

def backspaceBytes (backspace : SerialShellBackspace) : Uint8Array :=
  [if backspace = .del then 0x7f else 0x08]

def encodeSerialShellKey (encodeGbk : JsString → Uint8Array) (key : SerialShellKey)
    (encoding : SerialShellEncoding) (txNewline : SerialShellNewline)
    (backspace : SerialShellBackspace) : Uint8Array :=
  match key with
  | .text text => encodeSerialShellText encodeGbk text encoding
  | .enter => serialShellNewlineBytes txNewline
  | .backspace => backspaceBytes backspace
  | .tab => [0x09]
  | .control code => [UInt8.ofNat (code.toNat % 0x20)]
  | .bytes bytes => bytes

def ESC : UInt16 := 0x1b
def BS : UInt16 := 0x08
def TAB : UInt16 := 0x09
def DEL : UInt16 := 0x7f

/-- The letters of `CSI_FINAL_BYTES`: A, B, C, D, H and F. -/
def csiFinals : List UInt16 := [0x41, 0x42, 0x43, 0x44, 0x48, 0x46]

def CSI_FINAL_BYTES (final : UInt16) : Option Uint8Array :=
  if final ∈ csiFinals then some [0x1b, 0x5b, UInt8.ofNat final.toNat] else none

def isFinal (unit : UInt16) : Bool := 0x40 ≤ unit ∧ unit ≤ 0x7e

/-- `[` and `O` begin a sequence that goes on up to its final byte. -/
def beginsSequence (unit : UInt16) : Bool := unit = 0x5b ∨ unit = 0x4f

/-- `consumeEscapeSequence` of the string from the ESC on: the key, and how much it takes. -/
def consumeEscapeSequence (data : JsString) : SerialShellKey × Nat :=
  match data[1]? with
  | none => (.control 0x1b, 1)
  | some finalChar =>
    match CSI_FINAL_BYTES finalChar, decide (2 = data.length) with
    | some csiBytes, true => (.bytes csiBytes, 2)
    | _, _ =>
      if beginsSequence finalChar then
        let stop := 2 + (data.drop 2).findIdx isFinal
        (.bytes (encode (data.take (stop + 1))), stop + 1)
      else (.bytes (encode (data.take 2)), 2)

/-- A unit that the text run of a key takes. -/
def isText (unit : UInt16) : Bool := ¬ (unit < 0x20 ∨ unit = DEL ∨ unit = ESC)

theorem consumeEscapeSequence_pos (data : JsString) : 0 < (consumeEscapeSequence data).2 := by
  unfold consumeEscapeSequence
  split
  · exact one_pos
  · split
    · exact two_pos
    · split
      · exact succ_pos _
      · exact two_pos

/-- The loop from one index on, with the units that are left. -/
def serialShellKeysFromData : JsString → List SerialShellKey
  | [] => []
  | char :: rest =>
    if char = ESC then
      if _hconsumed : (consumeEscapeSequence (char :: rest)).2 > 0 then
        (consumeEscapeSequence (char :: rest)).1 ::
          serialShellKeysFromData ((char :: rest).drop (consumeEscapeSequence (char :: rest)).2)
      else [.bytes (encode (char :: rest))]
    else if char = CR ∨ char = LF then
      .enter :: serialShellKeysFromData
        (if char = CR ∧ rest.head? = some LF then rest.drop 1 else rest)
    else if char = DEL ∨ char = BS then .backspace :: serialShellKeysFromData rest
    else if char = TAB then .tab :: serialShellKeysFromData rest
    else if char < 0x20 then .control char :: serialShellKeysFromData rest
    else .text (char :: rest.takeWhile isText) :: serialShellKeysFromData (rest.dropWhile isText)
termination_by data => data.length
decreasing_by
  · simp only [length_drop, length_cons]
    omega
  · split <;> simp only [length_drop, length_cons] <;> omega
  · exact lt_succ_self _
  · exact lt_succ_self _
  · exact lt_succ_self _
  · exact lt_succ_of_le (length_dropWhile_le _ _)

/-- The bytes of all keys, one behind the other. -/
def encodedKeys (encodeGbk : JsString → Uint8Array) (encoding : SerialShellEncoding)
    (txNewline : SerialShellNewline) (backspace : SerialShellBackspace) (data : JsString) :
    Uint8Array :=
  (serialShellKeysFromData data).flatMap fun key =>
    encodeSerialShellKey encodeGbk key encoding txNewline backspace

/-! ## What the input says -/

/-- The parts that an input is made of: escape sequences, line ends, backspaces, and units that
stand for themselves. -/
inductive Token
  | escape (units : JsString)
  | newline (units : JsString)
  | erase (unit : UInt16)
  | plain (unit : UInt16)

def Token.units : Token → JsString
  | .escape units | .newline units => units
  | .erase unit | .plain unit => [unit]

/-- What belongs to an escape sequence behind its ESC: one unit, or a sequence up to its final
byte. -/
def sequenceAfter : JsString → JsString
  | [] => []
  | char :: rest =>
    if beginsSequence char then char :: rest.take (rest.findIdx isFinal + 1) else [char]

def tokens : JsString → List Token
  | [] => []
  | char :: rest =>
    if char = ESC then
      .escape (ESC :: sequenceAfter rest) :: tokens (rest.drop (sequenceAfter rest).length)
    else if char = CR ∧ rest.head? = some LF then .newline [CR, LF] :: tokens (rest.drop 1)
    else if char = CR ∨ char = LF then .newline [char] :: tokens rest
    else if char = DEL ∨ char = BS then .erase char :: tokens rest
    else .plain char :: tokens rest
termination_by data => data.length
decreasing_by
  all_goals simp only [length_drop, length_cons]; omega

/-- The UTF-8 encoding of the parts behind a run of units, with line ends and backspaces
replaced. What stands between two of them is encoded as one string. -/
def encodeTokens (txNewline : SerialShellNewline) (backspace : SerialShellBackspace) :
    JsString → List Token → Uint8Array
  | run, [] => encode run
  | run, .escape units :: rest => encodeTokens txNewline backspace (run ++ units) rest
  | run, .plain unit :: rest => encodeTokens txNewline backspace (run ++ [unit]) rest
  | run, .newline _ :: rest =>
    encode run ++ serialShellNewlineBytes txNewline ++ encodeTokens txNewline backspace [] rest
  | run, .erase _ :: rest =>
    encode run ++ backspaceBytes backspace ++ encodeTokens txNewline backspace [] rest

/-- The units in front of the first line end or backspace. -/
def lead : List Token → JsString
  | .escape units :: rest => units ++ lead rest
  | .plain unit :: rest => unit :: lead rest
  | _ => []

/-- No escape sequence of two units ends the input with one of the letters A, B, C, D, H and F, and
none has half of a surrogate pair as its second unit. -/
def Regular (data : JsString) : Prop :=
  ∀ before unit after, tokens data = before ++ .escape [ESC, unit] :: after →
    (after = [] → unit ∉ csiFinals) ∧ ¬ Splits [unit] (lead after)

/-- The parts are all of the input. -/
theorem sequenceAfter_append (data : JsString) :
    sequenceAfter data ++ data.drop (sequenceAfter data).length = data := by
  cases data with
  | nil => rfl
  | cons char rest =>
    by_cases hbegins : beginsSequence char = true
    · simp only [sequenceAfter, if_pos hbegins, length_cons, drop_succ_cons,
        cons_append, length_take]
      conv_rhs => rw [← take_append_drop (rest.findIdx isFinal + 1) rest]
      congr 2
      rcases le_total (rest.findIdx isFinal + 1) rest.length with hle | hle
      · rw [min_eq_left hle]
      · rw [min_eq_right hle, drop_length, drop_of_length_le hle]
    · simp [sequenceAfter, if_neg hbegins]

theorem tokens_units (data : JsString) : (tokens data).flatMap Token.units = data := by
  induction data using tokens.induct with
  | case1 => simp [tokens]
  | case2 rest ih =>
    rw [tokens]
    simp only [if_true, flatMap_cons, ih, Token.units, cons_append, sequenceAfter_append]
  | case3 char rest hesc hcrlf ih =>
    obtain ⟨rfl, hhead⟩ := hcrlf
    obtain ⟨rest, rfl⟩ := head?_eq_some_iff.mp hhead
    rw [tokens]
    simp only [if_neg hesc, hhead, and_self, if_true, flatMap_cons, ih, Token.units]
    rfl
  | case4 char rest hesc hcrlf hline ih =>
    rw [tokens]
    simp only [if_neg hesc, if_neg hcrlf, if_pos hline, flatMap_cons, ih, Token.units]
    rfl
  | case5 char rest hesc hcrlf hline herase ih =>
    rw [tokens]
    simp only [if_neg hesc, if_neg hcrlf, if_neg hline, if_pos herase, flatMap_cons, ih,
      Token.units]
    rfl
  | case6 char rest hesc hcrlf hline herase ih =>
    rw [tokens]
    simp only [if_neg hesc, if_neg hcrlf, if_neg hline, if_neg herase, flatMap_cons, ih,
      Token.units]
    rfl

/-! ## Keys and parts -/

variable (txNewline : SerialShellNewline) (backspace : SerialShellBackspace)

/-- What comes behind the lead of some parts. -/
def behind : List Token → Uint8Array
  | .escape _ :: rest => behind rest
  | .plain _ :: rest => behind rest
  | .newline _ :: rest =>
    serialShellNewlineBytes txNewline ++ encodeTokens txNewline backspace [] rest
  | .erase _ :: rest => backspaceBytes backspace ++ encodeTokens txNewline backspace [] rest
  | [] => []

theorem encodeTokens_eq (run : JsString) (parts : List Token) :
    encodeTokens txNewline backspace run parts =
      encode (run ++ lead parts) ++ behind txNewline backspace parts := by
  induction parts generalizing run with
  | nil => simp [encodeTokens, lead, behind]
  | cons part parts ih =>
    cases part with
    | escape units => simp [encodeTokens, lead, behind, ih]
    | plain unit => simp [encodeTokens, lead, behind, ih]
    | newline units => simp [encodeTokens, lead, behind]
    | erase unit => simp [encodeTokens, lead, behind]

/-- A run is encoded by itself, where no pair is split behind it. -/
theorem encodeTokens_run {run : JsString} {parts : List Token}
    (hwhole : ¬ Splits run (lead parts)) :
    encodeTokens txNewline backspace run parts =
      encode run ++ encodeTokens txNewline backspace [] parts := by
  rw [encodeTokens_eq, encodeTokens_eq, encode_append _ _ hwhole, nil_append, append_assoc]

/-- A lead begins as its input does. -/
theorem lead_head {data : JsString} {unit : UInt16}
    (h : (lead (tokens data)).head? = some unit) : data.head? = some unit := by
  cases data with
  | nil => simp [tokens, lead] at h
  | cons char rest =>
    rw [tokens] at h
    split at h
    · rename_i hesc
      simpa [lead, hesc] using h
    · split at h
      · cases h
      · split at h
        · cases h
        · split at h
          · cases h
          · simpa [lead] using h

/-- No pair is split behind a unit that is no high surrogate. -/
theorem not_splits_of_last {run : JsString} {last : UInt16} (hlast : run.getLast? = some last)
    (hlow : last < 0xD800) (next : JsString) : ¬ Splits run next := by
  rintro ⟨high, low, hhigh, -, hpair, -⟩
  obtain rfl : last = high := by
    rw [hlast] at hhigh
    exact Option.some.inj hhigh
  simp only [isHighSurrogate, decide_eq_true_eq] at hpair
  exact absurd hpair.1 (by simpa using hlow)

theorem getLast?_cons_of {a last : UInt16} {rest : JsString} (h : rest.getLast? = some last) :
    (a :: rest).getLast? = some last := by
  cases rest with
  | nil => cases h
  | cons b rest => rwa [getLast?_cons_cons]

/-- Behind an escape sequence no pair is split: it ends with its final byte, or with the input, or
the input is regular. -/
theorem not_splits_escape {rest : JsString} (hregular : Regular (ESC :: rest)) :
    ¬ Splits (ESC :: sequenceAfter rest)
      (lead (tokens (rest.drop (sequenceAfter rest).length))) := by
  cases rest with
  | nil => simpa [sequenceAfter, tokens, lead] using not_splits_nil [ESC]
  | cons char rest =>
    by_cases hbegins : beginsSequence char = true
    · simp only [sequenceAfter, if_pos hbegins, length_cons, drop_succ_cons]
      rcases lt_or_ge (rest.findIdx isFinal) rest.length with hlt | hge
      · have hfinal := findIdx_getElem (w := hlt)
        simp only [isFinal, decide_eq_true_eq] at hfinal
        have hlast : (ESC :: char :: rest.take (rest.findIdx isFinal + 1)).getLast? =
            some rest[rest.findIdx isFinal] := by
          apply getLast?_cons_of
          apply getLast?_cons_of
          rw [take_succ_eq_append_getElem hlt, getLast?_append]
          rfl
        exact not_splits_of_last hlast (UInt16.lt_of_le_of_lt hfinal.2 (by decide)) _
      · rw [take_of_length_le (by omega), drop_length]
        simpa [tokens, lead] using not_splits_nil _
    · have htokens : tokens (ESC :: char :: rest) = .escape [ESC, char] :: tokens rest := by
        rw [tokens]
        simp [sequenceAfter, hbegins]
      have hsplit := (hregular [] char (tokens rest) htokens).2
      simp only [sequenceAfter, if_neg hbegins, length_singleton, drop_succ_cons, drop_zero]
      rintro ⟨high, low, hhigh, hlow, hpair⟩
      exact hsplit ⟨high, low, by simpa using hhigh, hlow, hpair⟩

/-- No letter of the table begins a sequence. -/
theorem not_begins_of_final {char : UInt16} (h : char ∈ csiFinals) :
    beginsSequence char = false := by
  simp only [csiFinals, mem_cons, not_mem_nil, or_false] at h
  rcases h with rfl | rfl | rfl | rfl | rfl | rfl <;> rfl

theorem tokens_esc (rest : JsString) :
    tokens (ESC :: rest) =
      .escape (ESC :: sequenceAfter rest) :: tokens (rest.drop (sequenceAfter rest).length) := by
  rw [tokens]
  simp

/-- Of a regular input the table is not used. -/
theorem not_table {char : UInt16} {rest : JsString} (hregular : Regular (ESC :: char :: rest)) :
    ¬ (char ∈ csiFinals ∧ rest = []) := by
  rintro ⟨hfinal, rfl⟩
  have htokens : tokens [ESC, char] = [.escape [ESC, char]] := by
    rw [tokens_esc]
    simp [sequenceAfter, not_begins_of_final hfinal, tokens]
  exact (hregular [] char [] htokens).1 rfl hfinal

/-- An escape sequence is sent as it is. -/
theorem consumeEscapeSequence_spec (encodeGbk : JsString → Uint8Array) {rest : JsString}
    (hregular : Regular (ESC :: rest)) :
    encodeSerialShellKey encodeGbk (consumeEscapeSequence (ESC :: rest)).1 .utf8 txNewline
        backspace = encode (ESC :: sequenceAfter rest) ∧
      (ESC :: rest).drop (consumeEscapeSequence (ESC :: rest)).2 =
        rest.drop (sequenceAfter rest).length := by
  cases rest with
  | nil => exact ⟨rfl, rfl⟩
  | cons char rest =>
    have htable : ∀ csiBytes, ¬ (CSI_FINAL_BYTES char = some csiBytes ∧
        decide (2 = (ESC :: char :: rest).length) = true) := by
      rintro csiBytes ⟨hbytes, hlength⟩
      refine not_table hregular ⟨?_, by simpa [eq_comm] using hlength⟩
      by_contra hfinal
      simp [CSI_FINAL_BYTES, hfinal] at hbytes
    unfold consumeEscapeSequence
    simp only [getElem?_cons_succ, getElem?_cons_zero]
    split
    · rename_i hbytes hlength
      exact absurd ⟨hbytes, hlength⟩ (htable _)
    · by_cases hbegins : beginsSequence char = true
      · have htake : (ESC :: char :: rest).take (2 + rest.findIdx isFinal + 1) =
            ESC :: char :: rest.take (rest.findIdx isFinal + 1) := by
          rw [add_assoc, add_comm 2]
          rfl
        have hdrop : (ESC :: char :: rest).drop (2 + rest.findIdx isFinal + 1) =
            rest.drop (rest.findIdx isFinal + 1) := by
          rw [add_assoc, add_comm 2]
          rfl
        have hsequence : sequenceAfter (char :: rest) =
            char :: rest.take (rest.findIdx isFinal + 1) := by
          simp [sequenceAfter, hbegins]
        rw [if_pos hbegins, hsequence]
        refine ⟨congrArg encode htake, hdrop.trans ?_⟩
        rw [length_cons, drop_succ_cons, length_take]
        rcases le_total (rest.findIdx isFinal + 1) rest.length with hle | hle
        · rw [min_eq_left hle]
        · rw [min_eq_right hle, drop_length, drop_of_length_le hle]
      · simp [hbegins, sequenceAfter, encodeSerialShellKey]

/-- The rest of a regular input is regular. -/
theorem Regular.rest {data data' : JsString} {part : Token} (h : Regular data)
    (htokens : tokens data = part :: tokens data') : Regular data' := by
  intro before unit after hsplit
  exact h (part :: before) unit after (by rw [htokens, hsplit]; rfl)

/-- A unit that no branch of the loop treats otherwise. -/
theorem tokens_plain {char : UInt16} (rest : JsString) (hesc : char ≠ ESC)
    (hline : ¬ (char = CR ∨ char = LF)) (herase : ¬ (char = DEL ∨ char = BS)) :
    tokens (char :: rest) = .plain char :: tokens rest := by
  have hcrlf : ¬ (char = CR ∧ rest.head? = some LF) := fun h => hline (.inl h.1)
  rw [tokens]
  simp only [if_neg hesc, if_neg hcrlf, if_neg hline, if_neg herase]

/-- A unit of a text run is plain. -/
theorem isText_plain {unit : UInt16} (h : isText unit = true) :
    unit ≠ ESC ∧ ¬ (unit = CR ∨ unit = LF) ∧ ¬ (unit = DEL ∨ unit = BS) := by
  simp only [isText, decide_eq_true_eq, not_or] at h
  obtain ⟨hcontrol, hdel, hesc⟩ := h
  refine ⟨hesc, ?_, ?_⟩
  · rintro (rfl | rfl) <;> exact hcontrol (by decide)
  · rintro (rfl | rfl)
    · exact hdel rfl
    · exact hcontrol (by decide)

theorem tokens_run (run rest : JsString) (hrun : ∀ unit ∈ run, isText unit = true) :
    tokens (run ++ rest) = run.map .plain ++ tokens rest := by
  induction run with
  | nil => rfl
  | cons unit run ih =>
    obtain ⟨hesc, hline, herase⟩ := isText_plain (hrun unit (by simp))
    rw [cons_append, tokens_plain _ hesc hline herase, ih (fun u hu => hrun u (by simp [hu]))]
    rfl

theorem encodeTokens_plain (run units : JsString) (parts : List Token) :
    encodeTokens txNewline backspace run (units.map .plain ++ parts) =
      encodeTokens txNewline backspace (run ++ units) parts := by
  induction units generalizing run with
  | nil => simp
  | cons unit units ih => simp [encodeTokens, ih]

/-- A unit that ends a text run is no low surrogate. -/
theorem not_low_of_not_text {unit : UInt16} (h : isText unit = false) :
    isLowSurrogate unit = false := by
  simp only [isText, decide_eq_false_iff_not, not_not] at h
  simp only [isLowSurrogate, decide_eq_false_iff_not, not_and]
  intro hlow
  exfalso
  have hsmall : unit < 0xDC00 := by
    rcases h with h | rfl | rfl
    · exact UInt16.lt_trans h (by decide)
    · decide
    · decide
  exact absurd hlow (by simpa using hsmall)

/-- A control character is its own byte. -/
theorem encode_control {char : UInt16} (h : char < 0x20) :
    [UInt8.ofNat (char.toNat % 0x20)] = encode [char] := by
  have hnat : char.toNat < 0x20 := by simpa [UInt16.lt_iff_toNat_lt] using h
  have hhigh : isHighSurrogate char = false := by
    simp only [isHighSurrogate, decide_eq_false_iff_not, not_and, UInt16.le_iff_toNat_le]
    intro hle
    have : (0xD800 : UInt16).toNat = 0xD800 := rfl
    omega
  have hlow : isLowSurrogate char = false := by
    simp only [isLowSurrogate, decide_eq_false_iff_not, not_and, UInt16.le_iff_toNat_le]
    intro hle
    have : (0xDC00 : UInt16).toNat = 0xDC00 := rfl
    omega
  simp [encode, encodeUnit, encodeCodePoint, hhigh, hlow, mod_eq_of_lt hnat,
    show char.toNat < 0x80 by omega]

/-- The run of a text key ends before a unit that no pair goes on with. -/
theorem not_splits_text (run rest : JsString) :
    ¬ Splits run (lead (tokens (rest.dropWhile isText))) := by
  rintro ⟨high, low, -, hlow, -, hpair⟩
  have hhead := lead_head hlow
  have hnot : isText low = false := by
    have hfirst := head?_dropWhile_not isText rest
    rw [hhead] at hfirst
    simpa using hfirst
  rw [not_low_of_not_text hnot] at hpair
  cases hpair

/-- The bytes of the keys are the encoding of the input, with line ends and backspaces replaced
that stand outside of escape sequences. -/
theorem encodedKeys_eq (encodeGbk : JsString → Uint8Array) (data : JsString)
    (hregular : Regular data) :
    encodedKeys encodeGbk .utf8 txNewline backspace data =
      encodeTokens txNewline backspace [] (tokens data) := by
  unfold encodedKeys
  induction data using serialShellKeysFromData.induct with
  | case1 => simp [serialShellKeysFromData, tokens, encodeTokens, encode]
  | case2 rest hconsumed ih =>
    obtain ⟨hkey, hdrop⟩ := consumeEscapeSequence_spec txNewline backspace encodeGbk hregular
    have htokens := tokens_esc rest
    rw [hdrop] at ih
    have hrest := ih (hregular.rest htokens)
    rw [serialShellKeysFromData, if_pos rfl, dif_pos hconsumed, hdrop, flatMap_cons, hkey,
      hrest, htokens]
    exact (encodeTokens_run txNewline backspace (not_splits_escape hregular)).symm
  | case3 rest hconsumed => exact absurd (consumeEscapeSequence_pos _) hconsumed
  | case4 char rest hesc hline ih =>
    have htokens : ∃ units, tokens (char :: rest) = .newline units ::
        tokens (if char = CR ∧ rest.head? = some LF then rest.drop 1 else rest) := by
      rw [tokens]
      by_cases hcrlf : char = CR ∧ rest.head? = some LF
      · exact ⟨[CR, LF], by simp only [if_neg hesc, if_pos hcrlf]⟩
      · exact ⟨[char], by simp only [if_neg hesc, if_neg hcrlf, if_pos hline]⟩
    obtain ⟨units, htokens⟩ := htokens
    simp only [dite_eq_ite] at ih
    rw [serialShellKeysFromData, if_neg hesc, if_pos hline, flatMap_cons,
      ih (hregular.rest htokens), htokens]
    simp [encodeTokens, encodeSerialShellKey, encode]
  | case5 char rest hesc hline herase ih =>
    have htokens : tokens (char :: rest) = .erase char :: tokens rest := by
      have hcrlf : ¬ (char = CR ∧ rest.head? = some LF) := fun h => hline (.inl h.1)
      rw [tokens]
      simp only [if_neg hesc, if_neg hcrlf, if_neg hline, if_pos herase]
    rw [serialShellKeysFromData, if_neg hesc, if_neg hline, if_pos herase, flatMap_cons,
      ih (hregular.rest htokens), htokens]
    simp [encodeTokens, encodeSerialShellKey, encode]
  | case6 rest hesc hline herase ih =>
    have htokens := tokens_plain rest hesc hline herase
    have hwhole : ¬ Splits [TAB] (lead (tokens rest)) := not_splits_of_last rfl (by decide) _
    rw [serialShellKeysFromData, if_neg hesc, if_neg hline, if_neg herase, if_pos rfl,
      flatMap_cons, ih (hregular.rest htokens), htokens]
    exact (encodeTokens_run txNewline backspace hwhole).symm
  | case7 char rest hesc hline herase htab hcontrol ih =>
    have htokens := tokens_plain rest hesc hline herase
    have hwhole : ¬ Splits [char] (lead (tokens rest)) :=
      not_splits_of_last rfl (UInt16.lt_trans hcontrol (by decide)) _
    rw [serialShellKeysFromData, if_neg hesc, if_neg hline, if_neg herase, if_neg htab,
      if_pos hcontrol, flatMap_cons, ih (hregular.rest htokens), htokens]
    simp only [encodeSerialShellKey, encode_control hcontrol]
    exact (encodeTokens_run txNewline backspace hwhole).symm
  | case8 char rest hesc hline herase htab hcontrol ih =>
    have hrun : ∀ unit ∈ rest.takeWhile isText, isText unit = true :=
      fun unit hin => mem_takeWhile_imp hin
    have htokens : tokens (char :: rest) =
        (char :: rest.takeWhile isText).map .plain ++ tokens (rest.dropWhile isText) := by
      rw [tokens_plain rest hesc hline herase]
      conv_lhs => rw [← takeWhile_append_dropWhile (p := isText) (l := rest)]
      rw [tokens_run _ _ hrun]
      rfl
    have hrest : Regular (rest.dropWhile isText) := by
      intro before unit after hsplit
      apply hregular ((char :: rest.takeWhile isText).map .plain ++ before) unit after
      rw [htokens, hsplit, append_assoc]
    have hencoded := encodeTokens_run txNewline backspace
      (not_splits_text (char :: rest.takeWhile isText) rest)
    rw [serialShellKeysFromData, if_neg hesc, if_neg hline, if_neg herase, if_neg htab,
      if_neg hcontrol, flatMap_cons, ih hrest, htokens, encodeTokens_plain, nil_append, hencoded]
    simp [encodeSerialShellKey, encodeSerialShellText]

/-- Whatever the input is, as long as it is regular, the bytes of its keys are its UTF-8 encoding,
with the line ends and backspaces replaced that stand outside of escape sequences: the parts are
all of the input, and nothing else of it is changed, lost or split. -/
theorem input_lossless (encodeGbk : JsString → Uint8Array) (txNewline : SerialShellNewline)
    (backspace : SerialShellBackspace) (data : JsString) (hregular : Regular data) :
    (tokens data).flatMap Token.units = data ∧
      encodedKeys encodeGbk .utf8 txNewline backspace data =
        encodeTokens txNewline backspace [] (tokens data) :=
  ⟨tokens_units data, encodedKeys_eq txNewline backspace encodeGbk data hregular⟩

/-- An arrow key, a line end and a backspace. -/
theorem arrow_and_enter_lossless :
    encodedKeys (fun _ => []) .utf8 .lf .del [ESC, 0x5b, 0x41, CR, LF, BS] =
      [0x1b, 0x5b, 0x41, 0x0a, 0x7f] := by
  have htokens : tokens [ESC, 0x5b, 0x41, CR, LF, BS] =
      [.escape [ESC, 0x5b, 0x41], .newline [CR, LF], .erase BS] := by
    simp [tokens, sequenceAfter, beginsSequence, findIdx_cons, isFinal, ESC, CR, LF, BS, DEL]
  have hregular : Regular [ESC, 0x5b, 0x41, CR, LF, BS] := by
    intro before unit after hsplit
    rw [htokens] at hsplit
    have hin : Token.escape [ESC, unit] ∈
        [Token.escape [ESC, 0x5b, 0x41], .newline [CR, LF], .erase BS] := by
      rw [hsplit]
      simp
    simp at hin
  rw [(input_lossless (fun _ => []) .lf .del _ hregular).2, htokens]
  rfl

/-- What the keys leave as it is or change besides: an Alt-modified Enter is sent raw, `ESC A` at
the end of the input gets a bracket, and a surrogate pair behind an ESC is torn. -/
theorem input_not_replaced_everywhere :
    encodedKeys (fun _ => []) .utf8 .lf .del [ESC, CR] ≠
        encode [ESC] ++ serialShellNewlineBytes .lf ∧
      encodedKeys (fun _ => []) .utf8 .lf .del [ESC, 0x41] ≠ encode [ESC, 0x41] ∧
      encodedKeys (fun _ => []) .utf8 .lf .del [ESC, 0xD83D, 0xDE00] ≠
        encode [ESC, 0xD83D, 0xDE00] := by
  have hone : ∀ unit,
      consumeEscapeSequence [ESC, unit] = ((consumeEscapeSequence [ESC, unit]).1, 2) →
      serialShellKeysFromData [ESC, unit] = [(consumeEscapeSequence [ESC, unit]).1] := by
    intro unit htwo
    rw [serialShellKeysFromData, htwo]
    simp [serialShellKeysFromData]
  refine ⟨?_, ?_, ?_⟩
  · unfold encodedKeys
    rw [hone CR rfl]
    decide
  · unfold encodedKeys
    rw [hone 0x41 rfl]
    decide
  · have htorn : serialShellKeysFromData [ESC, 0xD83D, 0xDE00] =
        [.bytes (encode [ESC, 0xD83D]), .text [0xDE00]] := by
      simp [serialShellKeysFromData, consumeEscapeSequence, CSI_FINAL_BYTES, csiFinals,
        beginsSequence, ESC, CR, LF, DEL, BS, TAB]
    unfold encodedKeys
    rw [htorn]
    decide

end bbcom.serial_shell
