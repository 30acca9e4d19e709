-- The newlines of the serial shell (`newline.ts`): what a key press of Enter sends, and what the
-- terminal is given of the text that a device has sent, chunk by chunk.
import Mathlib

namespace bbcom.serial_shell

/-! ## Text -/

/-- A string is its code units. The characters that the loops of the source tell apart are single
units, and a pair of surrogates is passed on unit by unit. -/
abbrev Text := List UInt16

def CR : UInt16 := 0x0d
def LF : UInt16 := 0x0a

inductive SerialShellNewline
  | none
  | cr
  | lf
  | crlf
  deriving DecidableEq

def serialShellNewlineBytes : SerialShellNewline → List UInt8
  | .cr => [0x0d]
  | .lf => [0x0a]
  | .crlf => [0x0d, 0x0a]
  | .none => []

inductive SerialShellRxNewline
  | auto
  | none
  | cr
  | lf
  | crlf
  deriving DecidableEq

/-! ## The mapper -/

structure SerialShellRxMapper where
  mode : SerialShellRxNewline
  lastWasCr : Bool := false
  deriving DecidableEq

/-- What one unit is mapped to. -/
def SerialShellRxMapper.mapUnit (mapper : SerialShellRxMapper) (unit : UInt16) : Text :=
  if unit = CR then
    if mapper.mode = .cr then [CR, LF] else [CR]
  else if unit = LF then
    if mapper.mode = .cr then
      if mapper.lastWasCr then [] else [CR, LF]
    else if mapper.lastWasCr then [LF] else [CR, LF]
  else [unit]

def SerialShellRxMapper.pushUnits (mapper : SerialShellRxMapper) :
    Text → Text × SerialShellRxMapper
  | [] => ([], mapper)
  | unit :: rest =>
    let next : SerialShellRxMapper := { mapper with lastWasCr := unit = CR }
    let (out, mapper') := next.pushUnits rest
    (mapper.mapUnit unit ++ out, mapper')

def SerialShellRxMapper.push (mapper : SerialShellRxMapper) (text : Text) :
    Text × SerialShellRxMapper :=
  if text.length = 0 then ([], mapper)
  else if mapper.mode = .none ∨ mapper.mode = .crlf then (text, mapper)
  else mapper.pushUnits text

/-- The outputs of a run of chunks, one behind the other, and the mapper behind them. -/
def SerialShellRxMapper.pushAll (mapper : SerialShellRxMapper) :
    List Text → Text × SerialShellRxMapper
  | [] => ([], mapper)
  | chunk :: rest =>
    let (out, mapper') := mapper.push chunk
    let (more, mapper'') := mapper'.pushAll rest
    (out ++ more, mapper'')

/-! ## Chunks -/

variable (mapper : SerialShellRxMapper)

open SerialShellRxMapper

theorem pushUnits_append (front back : Text) :
    mapper.pushUnits (front ++ back) =
      ((mapper.pushUnits front).1 ++ ((mapper.pushUnits front).2.pushUnits back).1,
        ((mapper.pushUnits front).2.pushUnits back).2) := by
  induction front generalizing mapper with
  | nil => rfl
  | cons unit rest ih =>
    simp only [List.cons_append, pushUnits, ih, List.append_assoc]

theorem pushUnits_mode (text : Text) : (mapper.pushUnits text).2.mode = mapper.mode := by
  induction text generalizing mapper with
  | nil => rfl
  | cons unit rest ih =>
    simp only [pushUnits]
    exact ih _

/-- Two chunks behind each other are mapped as one. -/
theorem push_append (front back : Text) :
    mapper.push (front ++ back) =
      ((mapper.push front).1 ++ ((mapper.push front).2.push back).1,
        ((mapper.push front).2.push back).2) := by
  by_cases hpass : mapper.mode = .none ∨ mapper.mode = .crlf
  · unfold push
    by_cases hfront : front = [] <;> by_cases hback : back = [] <;> simp [hpass, hfront, hback]
  · have hpush : ∀ other : SerialShellRxMapper, other.mode = mapper.mode →
        ∀ text, other.push text = other.pushUnits text := by
      intro other hmode text
      unfold push
      rw [hmode, if_neg hpass]
      split
      · rename_i hnil
        rw [List.length_eq_zero_iff.1 hnil]
        rfl
      · rfl
    rw [hpush mapper rfl, hpush mapper rfl, hpush _ (pushUnits_mode mapper front), pushUnits_append]

theorem pushAll_eq (chunks : List Text) : mapper.pushAll chunks = mapper.push chunks.flatten := by
  induction chunks generalizing mapper with
  | nil => rfl
  | cons chunk rest ih =>
    rw [List.flatten_cons, push_append]
    simp only [pushAll, ih]

/-! ## What is inserted -/

/-- A text with a CR in front of each LF that has none, behind the unit `previous`. -/
def withCr (previous : Option UInt16) (text : Text) : Text :=
  (List.zip (previous :: text.map some) text).flatMap fun (before, unit) =>
    if unit = LF ∧ before ≠ some CR then [CR, unit] else [unit]

theorem withCr_cons (previous : Option UInt16) (unit : UInt16) (rest : Text) :
    withCr previous (unit :: rest) =
      (if unit = LF ∧ previous ≠ some CR then [CR, unit] else [unit]) ++
        withCr (some unit) rest := by
  simp [withCr]

theorem pushUnits_withCr (hmode : mapper.mode ≠ .cr) (previous : Option UInt16)
    (hlast : mapper.lastWasCr = true ↔ previous = some CR) (text : Text) :
    (mapper.pushUnits text).1 = withCr previous text := by
  induction text generalizing mapper previous with
  | nil => rfl
  | cons unit rest ih =>
    rw [withCr_cons]
    have hrest := ih { mapper with lastWasCr := unit = CR } hmode (some unit) (by simp)
    simp only [pushUnits, hrest]
    congr 1
    unfold mapUnit
    by_cases hcr : unit = CR
    · have hlf : ¬(unit = LF ∧ previous ≠ some CR) := by
        rintro ⟨rfl, -⟩
        exact absurd hcr (by decide)
      rw [if_pos hcr, if_neg hmode, if_neg hlf, hcr]
    · by_cases hunit : unit = LF
      · rw [if_neg hcr, if_pos hunit, if_neg hmode]
        by_cases hprevious : previous = some CR
        · rw [if_pos (hlast.2 hprevious), if_neg (fun h => h.2 hprevious), hunit]
        · rw [if_neg (fun h => hprevious (hlast.1 h)), if_pos ⟨hunit, hprevious⟩, hunit]
      · rw [if_neg hcr, if_neg hunit, if_neg (fun h => hunit h.1)]

/-- How a text is cut into chunks makes no difference, and in the modes `auto` and `lf` the
terminal is given the text with a CR in front of each LF that has none. -/
theorem mapping_exact (mapper : SerialShellRxMapper) :
    (∀ chunks chunks' : List Text, chunks.flatten = chunks'.flatten →
      mapper.pushAll chunks = mapper.pushAll chunks') ∧
    ∀ mode, mode = .auto ∨ mode = .lf → ∀ chunks : List Text,
      (pushAll { mode } chunks).1 = withCr none chunks.flatten := by
  constructor
  · intro chunks chunks' hsame
    rw [pushAll_eq, pushAll_eq, hsame]
  · intro mode hmode chunks
    have hcr : mode ≠ .cr := by rcases hmode with rfl | rfl <;> decide
    have hpass : ¬(mode = .none ∨ mode = .crlf) := by rcases hmode with rfl | rfl <;> decide
    rw [pushAll_eq]
    unfold push
    rw [if_neg hpass]
    split
    · rename_i hnil
      rw [List.length_eq_zero_iff.1 hnil]
      rfl
    · exact pushUnits_withCr { mode } hcr none (by simp) _

end bbcom.serial_shell
