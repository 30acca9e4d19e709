-- Hex dumps on both sides: the backend fills one line buffer again and again (`hex.rs`), the
-- renderer one array of a length that it has worked out before (`format.ts`).
import Bbcom.Base64
import Bbcom.ExportFormatter
import Bbcom.TextDecoder

open bbcom.js bbcom.base64 bbcom.export_session

namespace bbcom.hex_dump

open List Uint8Array

def MAX_DUMP_LINE_LEN : Nat := BYTES_PER_DUMP_LINE * 3 + 19

/-- The pairs of a line, as the loop over its bytes writes them. -/
def hexPairs (chunk : Uint8Array) : Uint8Array :=
  chunk.zipIdx.flatMap fun (byte, index) => (if 0 < index then [0x20] else []) ++ hexByte byte

/-- What stands in a column of the gutter. -/
def gutterByte (chunk : Uint8Array) (index : Nat) : UInt8 :=
  match chunk[index]? with
  | some byte => if 0x20 ≤ byte ∧ byte ≤ 0x7e then byte else 0x2e
  | none => 0x20

def gutter (chunk : Uint8Array) (width : Nat) : Uint8Array :=
  (List.range width).map (gutterByte chunk)

/-! ## The backend -/

/-- `line[length] = byte; length += 1`, which panics behind the end of the buffer. -/
def put (line : Uint8Array × Nat) (byte : UInt8) : Option (Uint8Array × Nat) :=
  if line.2 < line.1.length then some (line.1.set [byte] line.2, line.2 + 1) else none

/-- One turn of the loop of `visit_hex_dump_lines`: the buffer, and the lines that were visited. -/
def visitLine (state : Uint8Array × List Uint8Array) (chunk : Uint8Array) :
    Option (Uint8Array × List Uint8Array) := do
  let line ← (hexPairs chunk).foldlM put (state.1, 0)
  let line ← [0x20, 0x20, 0x7c].foldlM put line
  let line ← (gutter chunk BYTES_PER_DUMP_LINE).foldlM put line
  let line ← put line 0x7c
  some (line.1, state.2 ++ [line.1.take line.2])

def visitHexDumpLines (data : Uint8Array) : Option (List Uint8Array) :=
  ((chunks BYTES_PER_DUMP_LINE data).foldlM visitLine
    (List.replicate MAX_DUMP_LINE_LEN 0x20, [])).map Prod.snd

/-- Lines with an LF between them. -/
def joinLines : List Uint8Array → Uint8Array
  | [] => []
  | line :: lines => line ++ lines.flatMap (0x0a :: ·)

def formatHexDump (data : Uint8Array) : Option Uint8Array := (visitHexDumpLines data).map joinLines

/-! ## The renderer -/

/-- `output[position++] = byte`, which does nothing behind the end of the array. -/
def store (output : Uint8Array × Nat) (byte : UInt8) : Uint8Array × Nat :=
  (if output.2 < output.1.length then output.1.set [byte] output.2 else output.1, output.2 + 1)

/-- `outputLength`. -/
def outputLength (data : Uint8Array) (bytesPerLine : Nat) : Nat :=
  let lineCount := (data.length + bytesPerLine - 1) / bytesPerLine
  lineCount - 1 +
    ((chunks bytesPerLine data).map fun chunk => chunk.length * 3 + bytesPerLine + 3).sum

/-- What the turn of one line writes. -/
def lineBytes (bytesPerLine : Nat) (line : Uint8Array × Nat) : Uint8Array :=
  (if 0 < line.2 then [0x0a] else []) ++ hexPairs line.1 ++ [0x20, 0x20, 0x7c] ++
    gutter line.1 bytesPerLine ++ [0x7c]

/-- The array that `formatHexAscii` fills, and the position in the end. -/
def fillHexAscii (data : Uint8Array) (bytesPerLine : Nat) : Uint8Array × Nat :=
  (chunks bytesPerLine data).zipIdx.foldl
    (fun output line => (lineBytes bytesPerLine line).foldl store output)
    (zeros (outputLength data bytesPerLine), 0)

/-- The decoder keeps a byte of ASCII as it is. -/
def decodeAscii (bytes : Uint8Array) : JsString := bytes.map fun byte => byte.toUInt16

def formatHexAscii (data : Uint8Array) (bytesPerLine : Nat) : JsString :=
  if data.length = 0 then [] else decodeAscii (fillHexAscii data bytesPerLine).1

/-! ## Lines -/

variable {chunk line : Uint8Array}

theorem zipIdx_hexPairs (chunk : Uint8Array) (start : Nat) :
    (chunk.zipIdx (start + 1)).flatMap
      (fun (byte, index) => (if 0 < index then [(0x20 : UInt8)] else []) ++ hexByte byte) =
      chunk.flatMap fun byte => 0x20 :: hexByte byte := by
  induction chunk generalizing start with
  | nil => rfl
  | cons byte chunk ih => simp [zipIdx_cons, ih (start + 1)]

theorem appendHex_cons (byte : UInt8) (chunk : Uint8Array) :
    appendHex (byte :: chunk) = hexByte byte ++ chunk.flatMap fun byte => 0x20 :: hexByte byte := by
  induction chunk generalizing byte with
  | nil => simp [appendHex]
  | cons next chunk ih => simp [appendHex, ih]

theorem hexPairs_eq (chunk : Uint8Array) : hexPairs chunk = appendHex chunk := by
  cases chunk with
  | nil => rfl
  | cons byte chunk =>
    rw [appendHex_cons, ← zipIdx_hexPairs chunk 0]
    simp [hexPairs, zipIdx_cons]

theorem length_hexPairs (h : chunk ≠ []) : (hexPairs chunk).length + 1 = chunk.length * 3 := by
  rw [hexPairs_eq]
  cases chunk with
  | nil => exact absurd rfl h
  | cons byte chunk =>
    rw [appendHex_cons]
    simp [hexByte, length_flatMap]
    omega

theorem gutter_eq {width : Nat} (h : chunk.length ≤ width) :
    gutter chunk width = (chunk.map fun byte => if 0x20 ≤ byte ∧ byte ≤ 0x7e then byte else 0x2e) ++
        List.replicate (width - chunk.length) 0x20 := by
  apply ext_getElem
  · simp [gutter, h]
  · intro index hindex _
    by_cases hin : index < chunk.length
    · simp [gutter, gutterByte, hin]
    · have hout : chunk.length ≤ index := Nat.le_of_not_lt hin
      rw [getElem_append_right (by simpa using hout), getElem_replicate]
      simp [gutter, gutterByte, hout]

/-- The buffer holds this text at its front. -/
structure Holds (size : Nat) (text : Uint8Array) (line : Uint8Array × Nat) : Prop where
  size : line.1.length = size
  length : line.2 = text.length
  text : line.1.take text.length = text

variable {size : Nat} {text : Uint8Array}

theorem Holds.set {line : Uint8Array × Nat} (h : Holds size text line) (hroom : text.length < size)
    (byte : UInt8) :
    Holds size (text ++ [byte]) (line.1.set [byte] line.2, line.2 + 1) := by
  have hlength := length_set line.1 [byte] line.2 (by
    rw [h.length, h.size]
    exact hroom)
  refine ⟨hlength.trans h.size, by simp [h.length], ?_⟩
  have hset := subarray_set line.1 [byte] 0 line.2 (Nat.zero_le _) (by
    rw [h.length, h.size]
    exact hroom)
  simpa [subarray, h.length, h.text] using hset

theorem Holds.foldlM_put {line : Uint8Array × Nat} (h : Holds size text line) (bytes : Uint8Array)
    (hroom : text.length + bytes.length ≤ size) :
    ∃ line', bytes.foldlM put line = some line' ∧ Holds size (text ++ bytes) line' := by
  induction bytes generalizing text line with
  | nil => exact ⟨line, rfl, by simpa using h⟩
  | cons byte bytes ih =>
    simp only [length_cons] at hroom
    have hput : put line byte = some (line.1.set [byte] line.2, line.2 + 1) :=
      if_pos (by rw [h.length, h.size]; omega)
    obtain ⟨line', hrest, hline'⟩ := ih (h.set (by omega) byte) (by simp; omega)
    exact ⟨line', by simp [hput, hrest], by simpa using hline'⟩

variable {output : Uint8Array × Nat}

/-- A whole array is its text. -/
theorem Holds.whole (h : Holds size text output) (hsize : text.length = size) :
    output = (text, size) := by
  have htext := h.text
  rw [hsize, ← h.size, take_length] at htext
  exact Prod.ext htext (h.length.trans hsize)

theorem Holds.foldl_store (h : Holds size text output) (bytes : Uint8Array)
    (hroom : text.length + bytes.length ≤ size) :
    Holds size (text ++ bytes) (bytes.foldl store output) := by
  induction bytes generalizing text output with
  | nil => simpa using h
  | cons byte bytes ih =>
    simp only [length_cons] at hroom
    have hstore : store output byte = (output.1.set [byte] output.2, output.2 + 1) := by
      unfold store
      rw [if_pos (by rw [h.length, h.size]; omega)]
    rw [foldl_cons, hstore]
    simpa using ih (h.set (by omega) byte) (by simp; omega)

/-- Whatever the line before has left in the buffer, the next one is written in full. -/
theorem visitLine_eq (hsize : line.length = MAX_DUMP_LINE_LEN) (hsome : chunk ≠ [])
    (hchunk : chunk.length ≤ BYTES_PER_DUMP_LINE) (visited : List Uint8Array) :
    ∃ line', visitLine (line, visited) chunk = some (line', visited ++ [hexDumpLine chunk]) ∧
      line'.length = MAX_DUMP_LINE_LEN := by
  have hpairs := length_hexPairs hsome
  have hgutter : (gutter chunk BYTES_PER_DUMP_LINE).length = 16 := by
    simp [gutter, BYTES_PER_DUMP_LINE]
  have hbytes : chunk.length ≤ 16 := hchunk
  have hstart : Holds MAX_DUMP_LINE_LEN [] (line, 0) := ⟨hsize, rfl, rfl⟩
  have hmax : MAX_DUMP_LINE_LEN = 67 := rfl
  obtain ⟨line₁, h₁, hline₁⟩ := hstart.foldlM_put (hexPairs chunk) (by simp; omega)
  obtain ⟨line₂, h₂, hline₂⟩ := hline₁.foldlM_put [0x20, 0x20, 0x7c] (by simp; omega)
  obtain ⟨line₃, h₃, hline₃⟩ := hline₂.foldlM_put (gutter chunk BYTES_PER_DUMP_LINE)
    (by simp [hgutter]; omega)
  obtain ⟨line₄, h₄, hline₄⟩ := hline₃.foldlM_put [0x7c] (by simp [hgutter]; omega)
  have h₄' : put line₃ 0x7c = some line₄ := by simpa using h₄
  refine ⟨line₄.1, ?_, hline₄.size⟩
  have htext : line₄.1.take line₄.2 = hexDumpLine chunk := by
    rw [hline₄.length, hline₄.text, hexPairs_eq, gutter_eq hchunk]
    simp [hexDumpLine]
  simp only [visitLine, h₁, h₂, h₃, h₄', htext, Option.bind_eq_bind, Option.bind_some]

/-! ## Both dumps -/

/-- The pieces of a list: full but for the last, and as many as `Math.ceil` has it. -/
theorem chunks_spec (h : 0 < size) (data : Uint8Array) :
    (∀ chunk ∈ chunks size data, chunk ≠ [] ∧ chunk.length ≤ size) ∧
      (chunks size data).length = (data.length + size - 1) / size := by
  induction data using chunks.induct size with
  | case1 data hstop =>
    obtain rfl := hstop.resolve_left (by omega)
    unfold chunks
    rw [dif_pos hstop]
    refine ⟨by simp, (Nat.div_eq_of_lt ?_).symm⟩
    simp only [length_nil]
    omega
  | case2 data hgo ih =>
    unfold chunks
    rw [dif_neg hgo]
    have hsome : data ≠ [] := fun hnone => hgo (.inr hnone)
    have hpos := length_pos_of_ne_nil hsome
    refine ⟨forall_mem_cons.2 ⟨⟨?_, by simp⟩, ih.1⟩, ?_⟩
    · simp [hsome]
      omega
    · rw [length_cons, ih.2, length_drop]
      by_cases hle : data.length ≤ size
      · have hone : (data.length + size - 1) / size = 1 := Nat.div_eq_of_lt_le (by omega) (by omega)
        rw [Nat.sub_eq_zero_of_le hle, Nat.zero_add, Nat.div_eq_of_lt (by omega), hone]
      · rw [← Nat.add_div_right _ h]
        congr 1
        omega

variable (lines : List Uint8Array)

theorem visitLines_eq (hlines : ∀ chunk ∈ lines, chunk ≠ [] ∧ chunk.length ≤ BYTES_PER_DUMP_LINE) :
    ∀ (line : Uint8Array) (visited : List Uint8Array), line.length = MAX_DUMP_LINE_LEN →
      (lines.foldlM visitLine (line, visited)).map Prod.snd =
        some (visited ++ lines.map hexDumpLine) := by
  induction lines with
  | nil => simp
  | cons chunk lines ih =>
    intro line visited hsize
    obtain ⟨⟨hsome, hchunk⟩, hrest⟩ := forall_mem_cons.1 hlines
    obtain ⟨line', hvisit, hsize'⟩ := visitLine_eq hsize hsome hchunk visited
    simpa [hvisit] using ih hrest line' (visited ++ [hexDumpLine chunk]) hsize'

theorem visitHexDumpLines_eq (data : Uint8Array) :
    visitHexDumpLines data = some ((chunks BYTES_PER_DUMP_LINE data).map hexDumpLine) := by
  unfold visitHexDumpLines
  rw [visitLines_eq _ (chunks_spec (by decide) data).1 _ _ length_replicate]
  rfl

/-- A line of the renderer. -/
def hexAsciiLine (bytesPerLine : Nat) (chunk : Uint8Array) : Uint8Array :=
  hexPairs chunk ++ [0x20, 0x20, 0x7c] ++ gutter chunk bytesPerLine ++ [0x7c]

theorem hexAsciiLine_eq (h : chunk.length ≤ BYTES_PER_DUMP_LINE) :
    hexAsciiLine BYTES_PER_DUMP_LINE chunk = hexDumpLine chunk := by
  simp [hexAsciiLine, hexDumpLine, hexPairs_eq, gutter_eq h]

variable (bytesPerLine : Nat)

theorem flatMap_lineBytes_succ (start : Nat) :
    (lines.zipIdx (start + 1)).flatMap (lineBytes bytesPerLine) =
      (lines.map (hexAsciiLine bytesPerLine)).flatMap (0x0a :: ·) := by
  induction lines generalizing start with
  | nil => rfl
  | cons chunk lines ih =>
    simp [zipIdx_cons, ih (start + 1), lineBytes, hexAsciiLine]

theorem flatMap_lineBytes :
    lines.zipIdx.flatMap (lineBytes bytesPerLine) =
      joinLines (lines.map (hexAsciiLine bytesPerLine)) := by
  cases lines with
  | nil => rfl
  | cons chunk lines =>
    simp [zipIdx_cons, flatMap_lineBytes_succ, joinLines, lineBytes, hexAsciiLine]

theorem length_hexAsciiLine (h : chunk ≠ []) :
    (hexAsciiLine bytesPerLine chunk).length = chunk.length * 3 + bytesPerLine + 3 := by
  have hpairs := length_hexPairs h
  simp [hexAsciiLine, gutter]
  omega

/-- The length that was worked out before is that of the lines. -/
theorem outputLength_eq {bytesPerLine : Nat} (h : 0 < bytesPerLine) (data : Uint8Array) :
    (joinLines ((chunks bytesPerLine data).map (hexAsciiLine bytesPerLine))).length =
      outputLength data bytesPerLine := by
  obtain ⟨hchunks, hcount⟩ := chunks_spec h data
  unfold outputLength
  rw [← hcount]
  generalize (chunks bytesPerLine data : List Uint8Array) = lines at hchunks
  have hsum : ∀ lines : List Uint8Array, (∀ chunk ∈ lines, chunk ≠ []) →
      ((lines.map (hexAsciiLine bytesPerLine)).flatMap (0x0a :: ·)).length =
        lines.length + (lines.map fun chunk => List.length chunk * 3 + bytesPerLine + 3).sum := by
    intro lines hlines
    induction lines with
    | nil => rfl
    | cons chunk lines ih =>
      obtain ⟨hchunk, hrest⟩ := forall_mem_cons.1 hlines
      have hlater := ih hrest
      simp [length_hexAsciiLine bytesPerLine hchunk, hlater] at hlater ⊢
      omega
  cases lines with
  | nil => rfl
  | cons chunk lines =>
    obtain ⟨hchunk, hrest⟩ := forall_mem_cons.1 hchunks
    have hlater := hsum lines fun other hother => (hrest other hother).1
    simp only [map_cons, joinLines, length_append, hlater, length_cons,
      sum_cons, length_hexAsciiLine bytesPerLine hchunk.1, Nat.add_sub_cancel]
    omega

/-- The array is filled to its end and no further. -/
theorem fillHexAscii_eq {bytesPerLine : Nat} (h : 0 < bytesPerLine) (data : Uint8Array) :
    fillHexAscii data bytesPerLine =
      (joinLines ((chunks bytesPerLine data).map (hexAsciiLine bytesPerLine)),
        outputLength data bytesPerLine) := by
  have hlength := outputLength_eq h data
  have hstart : Holds (outputLength data bytesPerLine) []
      (zeros (outputLength data bytesPerLine), 0) :=
    ⟨length_zeros _, rfl, rfl⟩
  have hall := hstart.foldl_store
    ((chunks bytesPerLine data).zipIdx.flatMap (lineBytes bytesPerLine)) (by
      rw [flatMap_lineBytes, hlength]
      simp)
  rw [foldl_flatMap, nil_append, flatMap_lineBytes] at hall
  exact hall.whole hlength

theorem ascii_hexDumpLine (chunk : Uint8Array) : ∀ byte ∈ hexDumpLine chunk, byte < 0x80 := by
  have hdigit : ∀ n < 16, hexUpper n < 0x80 := by decide
  have hpair : ∀ byte : UInt8, ∀ digit ∈ hexByte byte, digit < 0x80 := by
    intro byte digit hin
    have hbyte := byte.toNat_lt
    simp only [hexByte, mem_cons, not_mem_nil, or_false] at hin
    rcases hin with rfl | rfl
    · exact hdigit _ (by omega)
    · exact hdigit _ (by omega)
  have hpairs : ∀ byte ∈ appendHex chunk, byte < 0x80 := by
    cases chunk with
    | nil => nofun
    | cons first chunk =>
      rw [appendHex_cons]
      intro byte hin
      simp only [mem_append, mem_flatMap, mem_cons] at hin
      rcases hin with hin | ⟨other, -, rfl | hin⟩
      · exact hpair _ _ hin
      · decide
      · exact hpair _ _ hin
  intro byte hin
  simp only [hexDumpLine, mem_append, mem_map, mem_replicate, mem_cons,
    not_mem_nil, or_false] at hin
  rcases hin with (((hin | rfl | rfl | rfl) | ⟨shown, -, rfl⟩) | ⟨-, rfl⟩) | rfl
  · exact hpairs _ hin
  · decide
  · decide
  · decide
  · split
    · rename_i hshown
      exact UInt8.lt_of_le_of_lt hshown.2 (by decide)
    · decide
  · decide
  · decide

/-- The lines that the backend visits are those of the pieces, each from its own bytes alone, and
joined they are what the renderer shows; the renderer fills its array to the last byte for lines
of any width. -/
theorem the_dumps_agree (data : Uint8Array) :
    visitHexDumpLines data = some ((chunks BYTES_PER_DUMP_LINE data).map hexDumpLine) ∧
    (∃ dump, formatHexDump data = some dump ∧ (∀ byte ∈ dump, byte < 0x80) ∧
      formatHexAscii data BYTES_PER_DUMP_LINE = decodeAscii dump) ∧
    ∀ bytesPerLine, 0 < bytesPerLine →
      (fillHexAscii data bytesPerLine).2 = outputLength data bytesPerLine ∧
      (fillHexAscii data bytesPerLine).1.length = outputLength data bytesPerLine := by
  have hlines : (chunks BYTES_PER_DUMP_LINE data).map (hexAsciiLine BYTES_PER_DUMP_LINE) =
      (chunks BYTES_PER_DUMP_LINE data).map hexDumpLine :=
    map_congr_left fun chunk hin =>
      hexAsciiLine_eq ((chunks_spec (by decide) data).1 chunk hin).2
  refine ⟨visitHexDumpLines_eq data, ⟨joinLines ((chunks BYTES_PER_DUMP_LINE data).map hexDumpLine),
    by simp [formatHexDump, visitHexDumpLines_eq], ?_, ?_⟩, fun bytesPerLine h => ?_⟩
  · generalize chunks BYTES_PER_DUMP_LINE data = lines
    intro byte hin
    cases lines with
    | nil => cases hin
    | cons chunk lines =>
      simp only [map_cons, joinLines, mem_append, mem_flatMap, mem_map, mem_cons] at hin
      rcases hin with hin | ⟨_, ⟨other, -, rfl⟩, rfl | hin⟩
      · exact ascii_hexDumpLine _ byte hin
      · decide
      · exact ascii_hexDumpLine _ byte hin
  · unfold formatHexAscii
    split
    · rename_i hnone
      rw [length_eq_zero_iff.1 hnone]
      unfold chunks
      rfl
    · rw [fillHexAscii_eq (by decide), hlines]
  · rw [fillHexAscii_eq h]
    exact ⟨rfl, outputLength_eq h data⟩

end bbcom.hex_dump
