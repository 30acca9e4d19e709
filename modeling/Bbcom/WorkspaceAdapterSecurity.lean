-- What the renderer lets into the workspace (`workspace-adapter-security.ts`): texts that UTF-8
-- can hold, identifiers, and nested values without paths and handles.
import Bbcom.TextEncoder

open bbcom.js bbcom.js.TextEncoder

namespace bbcom.adapter_security

open TextDecoder List UInt16

/-- `WorkspaceAdapterValidationError`, with its field. -/
structure WorkspaceAdapterValidationError where
  field : JsString
  deriving DecidableEq

abbrev Admitted := Except WorkspaceAdapterValidationError

def refuse {α : Type} (field : JsString) : Admitted α := .error ⟨field⟩

/-! ## Well-formed strings -/

/-- The loop over the units. Behind the last unit `charCodeAt` is not a number, and no comparison
with that holds. -/
def isWellFormedUnicode : JsString → Bool
  | [] => true
  | [unit] => isHighSurrogate unit || !isLowSurrogate unit
  | unit :: next :: rest =>
    if isHighSurrogate unit then
      if next < 0xDC00 || 0xDFFF < next then false else isWellFormedUnicode rest
    else if isLowSurrogate unit then false
    else isWellFormedUnicode (next :: rest)

/-- Every high surrogate stands right before a low one, and every low one right behind a high
one. -/
structure WellFormed (text : JsString) : Prop where
  neighbours : text.IsChain fun unit next => isHighSurrogate unit ↔ isLowSurrogate next
  first : ∀ unit ∈ text.head?, ¬ isLowSurrogate unit
  last : ∀ unit ∈ text.getLast?, ¬ isHighSurrogate unit

/-- A high surrogate with nothing behind it. -/
def EndsInHighSurrogate (text : JsString) : Prop := ∃ unit ∈ text.getLast?, isHighSurrogate unit

/-- What a text is behind UTF-8; a byte order mark counts as text. -/
def throughUtf8 (text : JsString) : JsString :=
  let (d, decoded) := { TextDecoder.new with bomSeen := true }.decode (encode text)
  decoded ++ d.flush

/-! ## Texts -/

/-- `value` of the validators, where it need not be a string. -/
inductive WorkspaceValue
  | null
  | boolean (value : Bool)
  | number (value : JsNumber)
  | text (text : JsString)
  | array (items : List WorkspaceValue)
  /-- A plain object, with its entries. -/
  | record (entries : List (JsString × WorkspaceValue))
  /-- `undefined`, a symbol, a function or an object with another prototype. -/
  | foreign

/-- `toLowerCase`, as far as it ends in an ASCII letter: the Kelvin sign is the only such unit
outside ASCII. -/
def toLowerCase (text : JsString) : JsString :=
  text.map fun unit =>
    if unit = 0x212A then 0x6B else if 0x41 ≤ unit ∧ unit ≤ 0x5A then unit + 0x20 else unit

def isAsciiLetter (byte : UInt8) : Bool :=
  (0x41 ≤ byte && byte ≤ 0x5A) || (0x61 ≤ byte && byte ≤ 0x7A)

def isAbsolutePathLike (text : JsString) : Bool :=
  let bytes := encode text
  (units "/").isPrefixOf text || (units "\\\\").isPrefixOf text ||
    (units "file:").isPrefixOf (toLowerCase text) ||
    (decide (bytes.length ≥ 3) && bytes[0]?.any isAsciiLetter && bytes[1]? == some 0x3A &&
      (bytes[2]? == some 0x2F || bytes[2]? == some 0x5C))

/-- `[A-Za-z0-9]`. -/
def isAlphanumeric (unit : UInt16) : Bool :=
  (0x41 ≤ unit && unit ≤ 0x5A) || (0x61 ≤ unit && unit ≤ 0x7A) || (0x30 ≤ unit && unit ≤ 0x39)

/-- `[A-Za-z0-9._:-]`. -/
def isIdentifierUnit (unit : UInt16) : Bool :=
  isAlphanumeric unit || unit == 0x2E || unit == 0x5F || unit == 0x3A || unit == 0x2D

/-- `WORKSPACE_IDENTIFIER`. -/
def isWorkspaceIdentifier : JsString → Bool
  | [] => false
  | first :: rest => isAlphanumeric first && rest.all isIdentifierUnit && decide (rest.length ≤ 127)

def validateWorkspaceIdentifier (value : WorkspaceValue) (field : JsString) : Admitted JsString :=
  match value with
  | .text text =>
    if !isWellFormedUnicode text then refuse field
    else if !isWorkspaceIdentifier (trim text) then refuse field
    else .ok (trim text)
  | _ => refuse field

structure TextOptions where
  maxBytes : Nat
  allowEmpty : Bool := false

def utf8ByteLength (text : JsString) : Nat := (encode text).length

def validateSafeText (value : WorkspaceValue) (field : JsString) (options : TextOptions) :
    Admitted JsString :=
  match value with
  | .text text =>
    if !isWellFormedUnicode text || (!options.allowEmpty && text.length == 0) ||
        decide (options.maxBytes < utf8ByteLength text) || isAbsolutePathLike text then
      refuse field
    else .ok text
  | _ => refuse field

def validateOpaqueText (value : WorkspaceValue) (field : JsString) (options : TextOptions) :
    Admitted JsString :=
  match value with
  | .text text =>
    if !isWellFormedUnicode text || (!options.allowEmpty && text.length == 0) ||
        decide (options.maxBytes < utf8ByteLength text) then
      refuse field
    else .ok text
  | _ => refuse field

/-! ## Nested values -/

/-- `FORBIDDEN_KEY_FRAGMENT`. -/
def forbiddenFragments : List JsString := ["path", "handle", "token", "grant", "secret"].map units

def isForbiddenKey (key : JsString) : Bool :=
  let normalized := (toLowerCase key).map fun unit => if unit = 0x2D then 0x5F else unit
  forbiddenFragments.any (fun fragment => decide (fragment <:+: normalized)) ||
    normalized == units "key" || (units "_key").isSuffixOf normalized ||
    (units "apikey").isSuffixOf normalized

def itemField (field : JsString) (index : Nat) : JsString :=
  field ++ units "[" ++ units (toString index) ++ units "]"

def entryField (field key : JsString) : JsString := field ++ units "." ++ key

mutual
/-- A value is a tree here, so that none is its own ancestor. -/
def visit (rejectAbsolutePaths : Bool) (field : JsString) : WorkspaceValue → Admitted Unit
  | .null | .boolean _ => .ok ()
  | .number value => if value.isFinite then .ok () else refuse field
  | .text text =>
    if !isWellFormedUnicode text || (rejectAbsolutePaths && isAbsolutePathLike text) then
      refuse field
    else .ok ()
  | .array items => visitItems rejectAbsolutePaths field 0 items
  | .record entries => visitEntries rejectAbsolutePaths field entries
  | .foreign => refuse field

def visitItems (rejectAbsolutePaths : Bool) (field : JsString) (index : Nat) :
    List WorkspaceValue → Admitted Unit
  | [] => .ok ()
  | item :: items => do
    visit rejectAbsolutePaths (itemField field index) item
    visitItems rejectAbsolutePaths field (index + 1) items

def visitEntries (rejectAbsolutePaths : Bool) (field : JsString) :
    List (JsString × WorkspaceValue) → Admitted Unit
  | [] => .ok ()
  | (key, value) :: entries => do
    if isForbiddenKey key then refuse (entryField field key)
    visit rejectAbsolutePaths (entryField field key) value
    visitEntries rejectAbsolutePaths field entries
end

def assertSafeWorkspaceValue (value : WorkspaceValue) (field : JsString := units "payload")
    (rejectAbsolutePaths : Bool := true) : Admitted Unit :=
  visit rejectAbsolutePaths field value

mutual
/-- The texts that a value holds, at any depth. The keys of its records are not among them: they are
only looked at for forbidden words. -/
def WorkspaceValue.texts : WorkspaceValue → List JsString
  | .text text => [text]
  | .array items => itemTexts items
  | .record entries => entryTexts entries
  | _ => []

def itemTexts : List WorkspaceValue → List JsString
  | [] => []
  | item :: items => item.texts ++ itemTexts items

def entryTexts : List (JsString × WorkspaceValue) → List JsString
  | [] => []
  | (_, value) :: entries => value.texts ++ entryTexts entries
end

/-! ## What is well formed -/

variable {unit next : UInt16} {text rest : JsString}

theorem not_low_of_high (h : isHighSurrogate unit) : ¬ isLowSurrogate unit := by
  simp only [isHighSurrogate, isLowSurrogate, decide_eq_true_eq, le_iff_toNat_le] at h ⊢
  simp at h ⊢
  omega

theorem low_iff : (next < 0xDC00 || 0xDFFF < next) = false ↔ isLowSurrogate next := by
  simp [isLowSurrogate]

/-- No high surrogate is followed by another unit than a low one, and no low surrogate stands
without a high one in front. -/
def InOrder (text : JsString) : Prop :=
  text.IsChain (fun unit next => isHighSurrogate unit ↔ isLowSurrogate next) ∧
    ∀ unit ∈ text.head?, ¬ isLowSurrogate unit

theorem wellFormed_iff : WellFormed text ↔ InOrder text ∧ ¬ EndsInHighSurrogate text := by
  constructor
  · rintro ⟨hchain, hfirst, hlast⟩
    exact ⟨⟨hchain, hfirst⟩, fun ⟨unit, hunit, hhigh⟩ => hlast unit hunit hhigh⟩
  · rintro ⟨⟨hchain, hfirst⟩, hend⟩
    exact ⟨hchain, hfirst, fun unit hunit hhigh => hend ⟨unit, hunit, hhigh⟩⟩

theorem inOrder_cons_cons :
    InOrder (unit :: next :: rest) ↔ ¬ isLowSurrogate unit ∧
      (isHighSurrogate unit ↔ isLowSurrogate next) ∧
      (next :: rest).IsChain fun unit next => isHighSurrogate unit ↔ isLowSurrogate next := by
  simp [InOrder, and_comm]

/-- Behind a pair the text starts anew. -/
theorem inOrder_pair (hhigh : isHighSurrogate unit) (hlow : isLowSurrogate next) :
    InOrder (unit :: next :: rest) ↔ InOrder rest := by
  have hnext : ¬ isHighSurrogate next := fun h => not_low_of_high h hlow
  rw [inOrder_cons_cons, isChain_cons]
  simp [InOrder, not_low_of_high hhigh, hhigh, hlow, hnext, and_comm]

/-- So it does behind a unit that is no surrogate. -/
theorem inOrder_plain (hhigh : ¬ isHighSurrogate unit) (hlow : ¬ isLowSurrogate unit) :
    InOrder (unit :: next :: rest) ↔ InOrder (next :: rest) := by
  rw [inOrder_cons_cons]
  simp [InOrder, hhigh, hlow, and_comm]

/-- What the loop lets through: texts in order, whatever stands at the end. -/
theorem isWellFormedUnicode_iff : isWellFormedUnicode text = true ↔ InOrder text := by
  induction text using isWellFormedUnicode.induct with
  | case1 => simp [isWellFormedUnicode, InOrder]
  | case2 unit =>
    by_cases hhigh : isHighSurrogate unit
    · simp [isWellFormedUnicode, InOrder, hhigh, not_low_of_high hhigh]
    · simp [isWellFormedUnicode, InOrder, hhigh]
  | case3 unit next rest hhigh hapart =>
    have hlow : ¬ isLowSurrogate next := fun hlow => by simp [low_iff.2 hlow] at hapart
    simp [isWellFormedUnicode, inOrder_cons_cons, hhigh, hapart, hlow]
  | case4 unit next rest hhigh hpair ih =>
    have hlow : isLowSurrogate next := low_iff.1 (by simpa using hpair)
    rw [inOrder_pair hhigh hlow, ← ih]
    simp only [isWellFormedUnicode, if_pos hhigh, if_neg hpair]
  | case5 unit next rest hhigh hlow =>
    simp [isWellFormedUnicode, inOrder_cons_cons, hhigh, hlow]
  | case6 unit next rest hhigh hlow ih =>
    rw [inOrder_plain hhigh hlow, ← ih]
    simp only [isWellFormedUnicode, if_neg hhigh, if_neg hlow]

/-! ## Through UTF-8 -/

/-- A decoder between two characters. -/
def between : TextDecoder := { TextDecoder.new with bomSeen := true }

theorem toNat_ofNat_of_lt {n : Nat} (h : n < 0x100) : (UInt8.ofNat n).toNat = n := by
  simp
  omega

theorem decode_cons (d : TextDecoder) (byte : UInt8) (bytes : Uint8Array) :
    d.decode (byte :: bytes) = (((d.decodeByte byte).1.decode bytes).1,
      (d.decodeByte byte).2 ++ ((d.decodeByte byte).1.decode bytes).2) := rfl

variable {d : TextDecoder} {field : JsString} {value : WorkspaceValue}

/-- A first byte that others follow. -/
theorem decode_first {byte : UInt8} {bytes : Uint8Array}
    (h : between.decodeFirst byte.toNat = (d, [])) :
    between.decode (byte :: bytes) = d.decode bytes := by
  have hbyte : between.decodeByte byte = (d, []) := h
  simp [decode_cons, hbyte]

/-- A byte within its bounds, with others to come. -/
theorem decode_more {byte : UInt8} {bytes : Uint8Array} (hneeded : d.bytesSeen + 1 < d.bytesNeeded)
    (hbounds : d.lowerBoundary ≤ byte.toNat ∧ byte.toNat ≤ d.upperBoundary) :
    d.decode (byte :: bytes) = { d with
      codePoint := d.codePoint * 0x40 + byte.toNat % 0x40
      bytesSeen := d.bytesSeen + 1
      lowerBoundary := 0x80
      upperBoundary := 0xBF }.decode bytes := by
  have hin : ¬ (byte.toNat < d.lowerBoundary ∨ d.upperBoundary < byte.toNat) := by omega
  have hsome : d.bytesNeeded ≠ 0 := by omega
  have hlast : d.bytesSeen + 1 ≠ d.bytesNeeded := by omega
  simp [decode_cons, decodeByte, hsome, hin, hlast]

/-- The last byte of a character. -/
theorem decode_last {byte : UInt8} {codePoint : Nat} (hbom : d.bomSeen = true)
    (hneeded : d.bytesNeeded = d.bytesSeen + 1)
    (hbounds : d.lowerBoundary ≤ byte.toNat ∧ byte.toNat ≤ d.upperBoundary)
    (hvalue : d.codePoint * 0x40 + byte.toNat % 0x40 = codePoint) :
    d.decode [byte] = (between, fromCodePoint codePoint) := by
  have hin : ¬ (byte.toNat < d.lowerBoundary ∨ d.upperBoundary < byte.toNat) := by omega
  simp [decode, decodeByte, hneeded, hin, hvalue, emit, restarted, hbom, between, new]

theorem decode_encodeCodePoint {codePoint : Nat} (hrange : codePoint < 0x110000)
    (hscalar : codePoint < 0xD800 ∨ 0xDFFF < codePoint) :
    between.decode (encodeCodePoint codePoint) = (between, fromCodePoint codePoint) := by
  have htail : ∀ n, (UInt8.ofNat (0x80 + n % 0x40)).toNat = 0x80 + n % 0x40 :=
    fun n => toNat_ofNat_of_lt (by omega)
  unfold encodeCodePoint
  split
  · have hbyte := toNat_ofNat_of_lt (n := codePoint) (by omega)
    have hascii : codePoint ≤ 0x7F := by omega
    simp [decode, decodeByte, decodeFirst, hbyte, hascii, emit, between, new]
  split
  · have hbyte := toNat_ofNat_of_lt (n := 0xC0 + codePoint / 0x40) (by omega)
    rw [decode_first (by
      rw [hbyte, decodeFirst, if_neg (by omega), if_pos (by omega)])]
    apply decode_last rfl rfl
    · simp only [htail, between, new]
      omega
    · simp only [htail]
      omega
  split
  · have hbyte := toNat_ofNat_of_lt (n := 0xE0 + codePoint / 0x1000) (by omega)
    rw [decode_first (by
      rw [hbyte, decodeFirst, if_neg (by omega), if_neg (by omega),
        if_pos (by omega)]), decode_more Nat.one_lt_two]
    · apply decode_last rfl rfl
      · simp only [htail]
        omega
      · simp only [htail]
        omega
    · simp only [htail, between, new]
      constructor <;> split <;> omega
  · have hbyte := toNat_ofNat_of_lt (n := 0xF0 + codePoint / 0x40000) (by omega)
    rw [decode_first (by
      rw [hbyte, decodeFirst, if_neg (by omega), if_neg (by omega),
        if_neg (by omega), if_pos (by omega)]), decode_more (by decide : 1 < 3),
        decode_more (by decide : 2 < 3)]
    · apply decode_last rfl rfl
      · simp only [htail]
        omega
      · simp only [htail]
        omega
    · simp only [htail]
      omega
    · simp only [htail, between, new]
      constructor <;> split <;> omega

/-- A unit that is no surrogate comes through, and so does a pair. -/
theorem decode_encodeUnit (hhigh : ¬ isHighSurrogate unit) (hlow : ¬ isLowSurrogate unit) :
    between.decode (encodeUnit unit) = (between, [unit]) := by
  have hrange := unit.toNat_lt
  have hscalar : unit.toNat < 0xD800 ∨ 0xDFFF < unit.toNat := by
    simp only [isHighSurrogate, isLowSurrogate, decide_eq_true_eq, le_iff_toNat_le] at hhigh hlow
    simp at hhigh hlow
    omega
  have hone : fromCodePoint unit.toNat = [unit] := by simp [fromCodePoint, hrange]
  unfold encodeUnit
  rw [if_neg (by simp [hhigh, hlow]), decode_encodeCodePoint (by omega) hscalar, hone]

theorem decode_encodePair (hhigh : isHighSurrogate unit) (hlow : isLowSurrogate next) :
    between.decode (encodePair unit next) = (between, [unit, next]) := by
  simp only [isHighSurrogate, isLowSurrogate, decide_eq_true_eq, le_iff_toNat_le] at hhigh hlow
  simp at hhigh hlow
  have hboth : fromCodePoint (0x10000 + (unit.toNat - 0xD800) * 0x400 + (next.toNat - 0xDC00)) =
      [unit, next] := by
    have hback : ∀ (u : UInt16) (n : Nat), n = u.toNat → ofNat n = u := by
      rintro u _ rfl
      simp
    unfold fromCodePoint
    rw [if_neg (by omega)]
    simp only [cons.injEq, and_true]
    exact ⟨hback _ _ (by omega), hback _ _ (by omega)⟩
  unfold encodePair
  rw [decode_encodeCodePoint (by omega) (by omega), hboth]

/-- A well-formed text comes through. -/
theorem decode_encode (h : WellFormed text) : between.decode (encode text) = (between, text) := by
  rw [wellFormed_iff] at h
  obtain ⟨horder, hend⟩ := h
  induction text using encode.induct with
  | case1 => rfl
  | case2 unit =>
    have hhigh : ¬ isHighSurrogate unit := fun hhigh => hend ⟨unit, rfl, hhigh⟩
    exact decode_encodeUnit hhigh (horder.2 unit rfl)
  | case3 unit next rest hpair ih =>
    have hrest := ih ((inOrder_pair hpair.1 hpair.2).1 horder) fun hends => by
      obtain ⟨last, hlast, hhigh⟩ := hends
      cases rest with
      | nil => cases hlast
      | cons a rest => exact hend ⟨last, by simpa using hlast, hhigh⟩
    simp [encode, hpair, decode_append, decode_encodePair hpair.1 hpair.2, hrest]
  | case4 unit next rest hapart ih =>
    obtain ⟨hlow, hneighbours, -⟩ := inOrder_cons_cons.1 horder
    have hhigh : ¬ isHighSurrogate unit := fun hhigh => hapart ⟨hhigh, hneighbours.1 hhigh⟩
    have hrest := ih ((inOrder_plain hhigh hlow).1 horder) fun hends => by
      obtain ⟨last, hlast, hhigh⟩ := hends
      exact hend ⟨last, by simpa using hlast, hhigh⟩
    simp [encode, hhigh, decode_append, decode_encodeUnit hhigh hlow, hrest]

/-- A text in order that ends in a high surrogate is a well-formed one with that unit behind it. -/
theorem InOrder.front {front : JsString} (h : InOrder (front ++ [unit]))
    (hhigh : isHighSurrogate unit) : WellFormed front := by
  obtain ⟨hchain, hfirst⟩ := h
  obtain ⟨hfront, -, hborder⟩ := isChain_append.1 hchain
  refine ⟨hfront, fun first hin => hfirst first ?_, fun last hlast hlasthigh => ?_⟩
  · cases front with
    | nil => cases hin
    | cons a front => exact hin
  · exact not_low_of_high hhigh ((hborder last hlast unit rfl).1 hlasthigh)

theorem WellFormed.concat {front : JsString} (h : WellFormed front) (hhigh : isHighSurrogate unit) :
    InOrder (front ++ [unit]) := by
  refine ⟨isChain_append.2 ⟨h.neighbours, .singleton unit, ?_⟩, fun first hfirst => ?_⟩
  · intro last hlast next hnext
    cases hnext
    exact iff_of_false (h.last last hlast) (not_low_of_high hhigh)
  · cases front with
    | nil =>
      cases hfirst
      exact not_low_of_high hhigh
    | cons a front => exact h.first first hfirst

/-- Such a unit is replaced on the way. -/
theorem throughUtf8_of_inOrder (h : InOrder text) :
    throughUtf8 text = text ↔ ¬ EndsInHighSurrogate text := by
  by_cases hend : EndsInHighSurrogate text
  · refine iff_of_false (fun hsame => ?_) (by simpa using hend)
    obtain ⟨unit, hlast, hhigh⟩ := hend
    obtain ⟨front, rfl⟩ := getLast?_eq_some_iff.1 hlast
    have hwhole : ¬ Splits front [unit] := by
      rintro ⟨high, low, -, hlow, hsplit⟩
      cases hlow
      exact not_low_of_high hhigh hsplit.2
    have hreplaced : between.decode (encode [unit]) = (between, [0xFFFD]) := by
      have halone : encode [unit] = encodeCodePoint 0xFFFD := by simp [encode, encodeUnit, hhigh]
      rw [halone, decode_encodeCodePoint (by decide) (.inr (by decide))]
      rfl
    have hdecoded : between.decode (encode (front ++ [unit])) = (between, front ++ [0xFFFD]) := by
      rw [encode_append _ _ hwhole, decode_append, decode_encode (h.front hhigh), hreplaced]
    have hflush : between.flush = [] := rfl
    change (between.decode (encode (front ++ [unit]))).2 ++
      (between.decode (encode (front ++ [unit]))).1.flush = front ++ [unit] at hsame
    rw [hdecoded, hflush, append_nil] at hsame
    have hunit := append_cancel_left hsame
    cases hunit
    revert hhigh
    decide
  · refine iff_of_true ?_ hend
    have hdecoded := decode_encode (wellFormed_iff.2 ⟨h, hend⟩)
    change (between.decode (encode text)).2 ++ (between.decode (encode text)).1.flush = text
    rw [hdecoded]
    exact append_nil text

/-! ## What the validators admit -/

theorem inOrder_of_plain (h : ∀ unit ∈ text, ¬ isHighSurrogate unit ∧ ¬ isLowSurrogate unit) :
    InOrder text ∧ ¬ EndsInHighSurrogate text := by
  refine ⟨⟨?_, fun unit hunit => (h unit (mem_of_mem_head? hunit)).2⟩, ?_⟩
  · induction text with
    | nil => exact .nil
    | cons unit rest ih =>
      obtain ⟨hunit, hrest⟩ := forall_mem_cons.1 h
      refine isChain_cons.2 ⟨fun next hnext => ?_, ih hrest⟩
      exact iff_of_false hunit.1 (hrest next (mem_of_mem_head? hnext)).2
  · rintro ⟨unit, hunit, hhigh⟩
    exact (h unit (mem_of_mem_getLast? hunit)).1 hhigh

theorem plain_of_isIdentifierUnit (h : isIdentifierUnit unit) :
    ¬ isHighSurrogate unit ∧ ¬ isLowSurrogate unit := by
  simp only [isIdentifierUnit, isAlphanumeric, isHighSurrogate, isLowSurrogate, Bool.or_eq_true,
    Bool.and_eq_true, beq_iff_eq, decide_eq_true_eq, UInt16.le_iff_toNat_le, ← UInt16.toNat_inj]
    at h ⊢
  simp at h ⊢
  omega

theorem plain_of_isWorkspaceIdentifier (h : isWorkspaceIdentifier text) :
    ∀ unit ∈ text, ¬ isHighSurrogate unit ∧ ¬ isLowSurrogate unit := by
  intro unit hunit
  apply plain_of_isIdentifierUnit
  cases text with
  | nil => cases hunit
  | cons first rest =>
    simp only [isWorkspaceIdentifier, Bool.and_eq_true, all_eq_true] at h
    obtain ⟨⟨hfirst, hrest⟩, -⟩ := h
    rcases mem_cons.1 hunit with rfl | hin
    · simp [isIdentifierUnit, hfirst]
    · exact hrest unit hin

theorem validateSafeText_inOrder {options : TextOptions}
    (h : validateSafeText value field options = .ok text) : InOrder text := by
  unfold validateSafeText at h
  split at h
  · split at h
    · cases h
    · rename_i hadmitted
      cases h
      apply isWellFormedUnicode_iff.1
      simp at hadmitted
      exact hadmitted.1.1.1
  · cases h

theorem validateOpaqueText_inOrder {options : TextOptions}
    (h : validateOpaqueText value field options = .ok text) : InOrder text := by
  unfold validateOpaqueText at h
  split at h
  · split at h
    · cases h
    · rename_i hadmitted
      cases h
      apply isWellFormedUnicode_iff.1
      simp at hadmitted
      exact hadmitted.1.1
  · cases h

theorem validateWorkspaceIdentifier_plain (h : validateWorkspaceIdentifier value field = .ok text) :
    ∀ unit ∈ text, ¬ isHighSurrogate unit ∧ ¬ isLowSurrogate unit := by
  unfold validateWorkspaceIdentifier at h
  split at h
  · split at h
    · cases h
    split at h
    · cases h
    · rename_i hadmitted
      cases h
      exact plain_of_isWorkspaceIdentifier (by simpa using hadmitted)
  · cases h

mutual
theorem visit_inOrder {rejectAbsolutePaths : Bool} {field : JsString} :
    ∀ (value : WorkspaceValue), visit rejectAbsolutePaths field value = .ok () →
      ∀ text ∈ value.texts, InOrder text
  | .null, _, _, hin | .boolean _, _, _, hin | .number _, _, _, hin => nomatch hin
  | .foreign, h, _, _ => nomatch h
  | .text text, h, other, hin => by
    obtain rfl := mem_singleton.1 hin
    unfold visit at h
    split at h
    · cases h
    · rename_i hadmitted
      apply isWellFormedUnicode_iff.1
      simp at hadmitted
      exact hadmitted.1
  | .array items, h, text, hin => by
    simp only [visit] at h
    exact visitItems_inOrder items h text (by simpa [WorkspaceValue.texts] using hin)
  | .record entries, h, text, hin => by
    simp only [visit] at h
    exact visitEntries_inOrder entries h text (by simpa [WorkspaceValue.texts] using hin)

theorem visitItems_inOrder {rejectAbsolutePaths : Bool} {field : JsString} {index : Nat} :
    ∀ (items : List WorkspaceValue), visitItems rejectAbsolutePaths field index items = .ok () →
      ∀ text ∈ itemTexts items, InOrder text
  | [], _, _, hin => nomatch hin
  | item :: items, h, text, hin => by
    obtain ⟨_, hitem, hitems⟩ := bind_eq_ok.1 h
    rcases mem_append.1 hin with hin | hin
    · exact visit_inOrder item hitem text hin
    · exact visitItems_inOrder items hitems text hin

theorem visitEntries_inOrder {rejectAbsolutePaths : Bool} {field : JsString} :
    ∀ (entries : List (JsString × WorkspaceValue)),
      visitEntries rejectAbsolutePaths field entries = .ok () →
      ∀ text ∈ entryTexts entries, InOrder text
  | [], _, _, hin => nomatch hin
  | (key, value) :: entries, h, text, hin => by
    unfold visitEntries at h
    split at h
    · cases h
    obtain ⟨_, hvalue, hentries⟩ := bind_eq_ok.1 h
    rcases mem_append.1 hin with hin | hin
    · exact visit_inOrder value hvalue text hin
    · exact visitEntries_inOrder entries hentries text hin
end

/-- The admission of texts is right but for one kind: a well-formed text with a high surrogate
behind it gets in, and is another text behind UTF-8. -/
theorem a_last_high_surrogate_slips_through (text : JsString) :
    ((isWellFormedUnicode text = true ↔ WellFormed text) ↔
      ¬ (EndsInHighSurrogate text ∧ WellFormed text.dropLast)) ∧
    (∀ value field options, validateSafeText value field options = .ok text →
      (throughUtf8 text = text ↔ ¬ EndsInHighSurrogate text)) ∧
    (∀ value field options, validateOpaqueText value field options = .ok text →
      (throughUtf8 text = text ↔ ¬ EndsInHighSurrogate text)) ∧
    (∀ value field, validateWorkspaceIdentifier value field = .ok text → throughUtf8 text = text) ∧
    ∀ value field rejectAbsolutePaths,
      assertSafeWorkspaceValue value field rejectAbsolutePaths = .ok () → text ∈ value.texts →
      (throughUtf8 text = text ↔ ¬ EndsInHighSurrogate text) := by
  refine ⟨?_, fun _ _ _ h => ?_, fun _ _ _ h => ?_, fun _ _ h => ?_, fun value _ _ h hin => ?_⟩
  · rw [isWellFormedUnicode_iff, wellFormed_iff]
    constructor
    · rintro hiff ⟨hend, hfront⟩
      apply (hiff.1 ?_).2 hend
      obtain ⟨unit, hlast, hhigh⟩ := hend
      obtain ⟨front, rfl⟩ := getLast?_eq_some_iff.1 hlast
      rw [dropLast_concat] at hfront
      exact hfront.concat hhigh
    · intro hslips
      refine ⟨fun horder => ⟨horder, fun hend => hslips ⟨hend, ?_⟩⟩, And.left⟩
      obtain ⟨unit, hlast, hhigh⟩ := hend
      obtain ⟨front, rfl⟩ := getLast?_eq_some_iff.1 hlast
      rw [dropLast_concat]
      exact horder.front hhigh
  · exact throughUtf8_of_inOrder (validateSafeText_inOrder h)
  · exact throughUtf8_of_inOrder (validateOpaqueText_inOrder h)
  · obtain ⟨horder, hend⟩ := inOrder_of_plain (validateWorkspaceIdentifier_plain h)
    exact (throughUtf8_of_inOrder horder).2 hend
  · exact throughUtf8_of_inOrder (visit_inOrder value h text hin)

/-- One half of an emoji. -/
def halfEmoji : JsString := [0x61, 0xD83D]

theorem half_an_emoji_gets_in :
    ¬ ((∀ text : JsString, isWellFormedUnicode text = true ↔ WellFormed text) ∧
      ∀ value field options text, validateOpaqueText value field options = .ok text →
        throughUtf8 text = text) := by
  rintro ⟨-, hadmitted⟩
  have hthrough := hadmitted (.text halfEmoji) (units "content") ⟨16, false⟩ halfEmoji
    (by decide +kernel)
  revert hthrough
  decide +kernel

end bbcom.adapter_security
