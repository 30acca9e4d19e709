-- How an export encodes its frames (`formatter.rs`, `hex.rs`, `log_text.rs`).
import Bbcom.DataFrame

open bbcom.js bbcom.serial

namespace bbcom.export_session

/-! ## Frames and formats -/

/-- `DataFramePayload` behind the boundary, where its bytes are in `data`. -/
structure DataFramePayload where
  id : String
  direction : Direction
  timestamp : JsNumber
  data : Uint8Array
  deriving DecidableEq

inductive ExportFormat
  | txtHex | txtAscii | csv | jsonl | bin
  deriving DecidableEq

inductive AppError
  | validationError (field message : String)
  | limitError (field : String) (limit actual : Nat)
  | exportError (message : String) (format : ExportFormat) (path : String)
  | ioError (message : String)
  | busy (message : String)
  deriving DecidableEq

/-- What the encoders take from elsewhere: the local time of `chrono`, and `serde_json`. -/
structure FormatterLibrary where
  formatTimestampMs : Nat → Uint8Array
  toJson : DataFramePayload → Except String Uint8Array

/-- `as u64` of a double. -/
def asU64 : JsNumber → Nat
  | .nan | .negativeZero | .infinity true => 0
  | .infinity false => 2 ^ 64 - 1
  | .finite q => min (trunc q).toNat (2 ^ 64 - 1)

def asciiBytes (text : String) : Uint8Array := text.toList.map fun c => UInt8.ofNat c.toNat

/-! ## Hexadecimal text -/

def hexUpper (digit : Nat) : UInt8 :=
  UInt8.ofNat (if digit < 10 then 0x30 + digit else 0x37 + digit)

def hexByte (byte : UInt8) : Uint8Array := [hexUpper (byte.toNat / 16), hexUpper (byte.toNat % 16)]

/-- `append_hex`, without the bytes in front. -/
def appendHex : Uint8Array → Uint8Array
  | [] => []
  | [byte] => hexByte byte
  | byte :: data => hexByte byte ++ 0x20 :: appendHex data

def BYTES_PER_DUMP_LINE : Nat := 16

/-- One line of `visit_hex_dump_lines`. -/
def hexDumpLine (chunk : Uint8Array) : Uint8Array :=
  let shown := chunk.map fun byte => if 0x20 ≤ byte ∧ byte ≤ 0x7e then byte else 0x2e
  appendHex chunk ++ [0x20, 0x20, 0x7c] ++
    shown ++ List.replicate (BYTES_PER_DUMP_LINE - chunk.length) 0x20 ++ [0x7c]

/-! ## Readable log lines -/

/-- What is left of some bytes behind these, if they stand in front. -/
def stripPrefix (front data : Uint8Array) : Option Uint8Array :=
  if front.isPrefixOf data then some (data.drop front.length) else none

def csiEnd (data : Uint8Array) : Option Uint8Array :=
  match data.dropWhile fun byte => decide (0x20 ≤ byte ∧ byte ≤ 0x3f) with
  | byte :: rest => if 0x40 ≤ byte ∧ byte ≤ 0x7e then some rest else none
  | [] => none

def oscEnd : Uint8Array → Option Uint8Array
  | [] => none
  | byte :: rest =>
    if byte = 0x07 then some rest
    else if byte = 0x1b ∧ rest.head? = some 0x5c then some rest.tail
    else oscEnd rest

def isAsciiDigit (byte : UInt8) : Bool := decide (0x30 ≤ byte ∧ byte ≤ 0x39)

def orphanSgrEnd (data : Uint8Array) : Option Uint8Array :=
  stripPrefix [0x6d] (data.dropWhile fun byte => isAsciiDigit byte || byte == 0x3b)

def needsSanitizing : Uint8Array → Bool
  | [] => false
  | byte :: rest =>
    byte == 0x0d || byte == 0x1b || (byte == 0x5b && (orphanSgrEnd rest).isSome) ||
      needsSanitizing rest

/-- The loop of `sanitize_log_bytes`; each turn takes a byte at least. -/
def sanitizeLoop : (fuel : Nat) → (oscTerminatorPossible : Bool) → Uint8Array → Uint8Array
  | 0, _, _ => []
  | _ + 1, _, [] => []
  | fuel + 1, osc, byte :: rest =>
    if byte = 0x1b then
      match (stripPrefix [0x5b] rest).bind csiEnd with
      | some after => sanitizeLoop fuel osc after
      | none =>
        if rest.head? = some 0x5d ∧ osc then
          match oscEnd rest.tail with
          | some after => sanitizeLoop fuel osc after
          | none => sanitizeLoop fuel false rest
        else sanitizeLoop fuel osc rest
    else
      match if byte = 0x5b then orphanSgrEnd rest else none with
      | some after => sanitizeLoop fuel osc after
      | none =>
        if byte = 0x0d then
          0x0a :: sanitizeLoop fuel osc ((stripPrefix [0x0a] rest).getD rest)
        else byte :: sanitizeLoop fuel osc rest

def sanitizeLogBytes (data : Uint8Array) : Uint8Array := sanitizeLoop data.length true data

/-- Which second bytes go with the first one of a character, and how many bytes follow it. -/
def utf8Lead (byte : UInt8) : Option (Nat × UInt8 × UInt8) :=
  if 0xc2 ≤ byte ∧ byte ≤ 0xdf then some (1, 0x80, 0xbf)
  else if 0xe0 ≤ byte ∧ byte ≤ 0xef then
    some (2, if byte = 0xe0 then 0xa0 else 0x80, if byte = 0xed then 0x9f else 0xbf)
  else if 0xf0 ≤ byte ∧ byte ≤ 0xf4 then
    some (3, if byte = 0xf0 then 0x90 else 0x80, if byte = 0xf4 then 0x8f else 0xbf)
  else none

def isContinuation (byte : UInt8) : Bool := decide (0x80 ≤ byte ∧ byte ≤ 0xbf)

/-- How many of the bytes behind the first one belong to its character. -/
def continuationCount (needed : Nat) (low high : UInt8) : Uint8Array → Nat
  | [] => 0
  | second :: rest =>
    if low ≤ second ∧ second ≤ high then
      1 + ((rest.take (needed - 1)).takeWhile isContinuation).length
    else 0

/-- `String::from_utf8_lossy`: each broken piece becomes one replacement character. -/
def fromUtf8Lossy : (fuel : Nat) → Uint8Array → Uint8Array
  | 0, _ => []
  | _ + 1, [] => []
  | fuel + 1, byte :: rest =>
    if byte < 0x80 then byte :: fromUtf8Lossy fuel rest
    else
      match utf8Lead byte with
      | none => [0xef, 0xbf, 0xbd] ++ fromUtf8Lossy fuel rest
      | some (needed, low, high) =>
        let count := continuationCount needed low high rest
        if count = needed then byte :: rest.take count ++ fromUtf8Lossy fuel (rest.drop count)
        else [0xef, 0xbf, 0xbd] ++ fromUtf8Lossy fuel (rest.drop count)

def isAsciiWhitespace (byte : UInt8) : Bool :=
  byte == 0x20 || byte == 0x09 || byte == 0x0a || byte == 0x0c || byte == 0x0d

def isMcubootSeverityPrefix (previous : Option UInt8) (tail : Uint8Array) : Bool :=
  tail.head?.any (fun byte => [0x49, 0x57, 0x45, 0x44].contains byte) &&
    tail[1]? == some 0x3a && tail[2]?.any isAsciiWhitespace &&
    previous.all fun byte => !(decide (0x41 ≤ byte ∧ byte ≤ 0x5a)) && byte != 0x5f

def isZephyrTimestampPrefix (tail : Uint8Array) : Bool :=
  let level := (tail.drop 18).dropWhile isAsciiWhitespace
  decide (23 ≤ tail.length) && tail[0]? == some 0x5b && tail[3]? == some 0x3a &&
    tail[6]? == some 0x3a && tail[9]? == some 0x2e && tail[13]? == some 0x2c &&
    tail[17]? == some 0x5d &&
    [1, 2, 4, 5, 7, 8, 10, 11, 12, 14, 15, 16].all (fun index => tail[index]?.any isAsciiDigit) &&
    level[0]? == some 0x3c &&
    [1, 2, 3].all (fun index => level[index]?.any fun byte => decide (0x61 ≤ byte ∧ byte ≤ 0x7a)) &&
    level[4]? == some 0x3e

def isLogRecordPrefix (data : Uint8Array) (index : Nat) : Bool :=
  let tail := data.drop index
  (asciiBytes "*** Booting").isPrefixOf tail || (asciiBytes "*** Using").isPrefixOf tail ||
    isMcubootSeverityPrefix (if index = 0 then none else data[index - 1]?) tail ||
    isZephyrTimestampPrefix tail

/-- One turn of the loop of `visit_normalized_lines`: where the line begins, and the lines so
far. -/
def visitByte (bytes : Uint8Array) (inferRecordBoundaries : Bool)
    (visited : Nat × List Uint8Array) (index : Nat) : Nat × List Uint8Array :=
  let (start, lines) := visited
  let explicitBreak := bytes[index]? == some 0x0a
  if explicitBreak ||
      (inferRecordBoundaries && decide (start < index) && isLogRecordPrefix bytes index) then
    (index + explicitBreak.toNat, lines ++ [bytes.subarray start index])
  else (start, lines)

def visitNormalizedLines (bytes : Uint8Array) (inferRecordBoundaries : Bool) : List Uint8Array :=
  let (start, lines) :=
    (List.range bytes.length).foldl (visitByte bytes inferRecordBoundaries) (0, [])
  if start < bytes.length then lines ++ [bytes.drop start]
  else if lines.isEmpty then [[]]
  else lines

/-- The lines that `visit_readable_log_lines` visits. -/
def readableLogLines (data : Uint8Array) (inferRecordBoundaries : Bool) : List Uint8Array :=
  let data := if needsSanitizing data then sanitizeLogBytes data else data
  visitNormalizedLines (fromUtf8Lossy data.length data) inferRecordBoundaries

/-! ## Frames -/

def dirLabel : Direction → Uint8Array
  | .TX => asciiBytes "TX"
  | .RX => asciiBytes "RX"

/-- `append_header`. -/
def header (format : ExportFormat) : Uint8Array :=
  if format = .csv then asciiBytes "timestamp,direction,data\n" else []

variable (library : FormatterLibrary)

/-- What one turn of `append_frames` adds. -/
def encodeFrame (format : ExportFormat) (path : String) (frame : DataFramePayload) :
    Except AppError Uint8Array :=
  let linePrefix :=
    [0x5b] ++ library.formatTimestampMs (asU64 frame.timestamp) ++ [0x5d, 0x20] ++
      dirLabel frame.direction ++ asciiBytes " | "
  match format with
  | .jsonl =>
    match library.toJson frame with
    | .ok text => .ok (text ++ [0x0a])
    | .error message => .error (.exportError message format path)
  | .txtHex =>
    if frame.data.isEmpty then
      .ok ([0x5b] ++ library.formatTimestampMs (asU64 frame.timestamp) ++ [0x5d, 0x20] ++
        dirLabel frame.direction ++ asciiBytes " |\n")
    else
      .ok ((frame.data.toChunks BYTES_PER_DUMP_LINE).flatMap fun chunk =>
        linePrefix ++ hexDumpLine chunk ++ [0x0a])
  | .txtAscii =>
    .ok ((readableLogLines frame.data (frame.direction = .RX)).flatMap fun line =>
      linePrefix ++ line ++ [0x0a])
  | .csv =>
    .ok (library.formatTimestampMs (asU64 frame.timestamp) ++ [0x2c] ++
      dirLabel frame.direction ++ asciiBytes ",\"" ++ appendHex frame.data ++ asciiBytes "\"\n")
  | .bin => .ok frame.data

/-- `append_frames` into an empty buffer. -/
def encodeFrames (format : ExportFormat) (path : String) :
    List DataFramePayload → Except AppError Uint8Array
  | [] => .ok []
  | frame :: frames => do
    let first ← encodeFrame library format path frame
    let rest ← encodeFrames format path frames
    pure (first ++ rest)

/-- Batch by batch or all at once, the bytes are the same. -/
theorem encodeFrames_append {format : ExportFormat} {path : String}
    {frames more : List DataFramePayload} {front back : Uint8Array}
    (hfront : encodeFrames library format path frames = .ok front)
    (hback : encodeFrames library format path more = .ok back) :
    encodeFrames library format path (frames ++ more) = .ok (front ++ back) := by
  induction frames generalizing front with
  | nil =>
    cases hfront
    exact hback
  | cons frame frames ih =>
    obtain ⟨first, hfirst, hmore⟩ := bind_eq_ok.1 hfront
    obtain ⟨rest, hrest, hboth⟩ := bind_eq_ok.1 hmore
    cases hboth
    have htail := ih hrest
    simp only [List.cons_append, encodeFrames, hfirst, htail, bind, Except.bind, pure, Except.pure,
      List.append_assoc]

end bbcom.export_session
