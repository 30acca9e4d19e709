-- The two searches of the parser panel: a run of bytes by the failure table of the needle, and
-- a text in the bytes decoded chunk by chunk.
import Bbcom.Lib.Borders
import Bbcom.Base64
import Bbcom.ByteSearch
import Bbcom.TextDecoder

namespace bbcom.parser_panel

open List

open bbcom.borders bbcom.byte_search bbcom.js

/-! ## byteSequenceIncludes -/

section bytes

variable {α : Type} [DecidableEq α]

/-- `while (matched > 0 && item !== needle[matched]) matched = prefix[matched - 1]`; `none`
where the fuel does not last or the table has no such entry. -/
def fallBack (needle : List α) (table : List Nat) (item : α) : Nat → Nat → Option Nat
  | 0, _ => none
  | fuel + 1, matched =>
    if 0 < matched ∧ needle[matched]? ≠ some item then
      (table[matched - 1]?).bind (fallBack needle table item fuel)
    else some matched

/-- The body that both loops share: fall back, then compare once more. -/
def advance (needle : List α) (table : List Nat) (item : α) (matched : Nat) : Option Nat := do
  let matched ← fallBack needle table item (matched + 1) matched
  return if needle[matched]? = some item then matched + 1 else matched

/-- The loop over the needle from its second item on. -/
def fillPrefix (needle : List α) : List α → Nat → Nat → List Nat → Option (List Nat)
  | [], _, _, table => some table
  | item :: rest, index, matched, table => do
    let matched ← advance needle table item matched
    fillPrefix needle rest (index + 1) matched (table.set index matched)

/-- The loop over the data. -/
def searchData (needle : List α) (table : List Nat) : List α → Nat → Option Bool
  | [], _ => some false
  | item :: data, matched => do
    let matched ← advance needle table item matched
    if matched = needle.length then return true
    searchData needle table data matched

def byteSequenceIncludes (data needle : List α) : Option Bool :=
  if needle.length = 0 then some true
  else if needle.length > data.length then some false
  else do
    let table ← fillPrefix needle needle.tail 1 0 (replicate needle.length 0)
    searchData needle table data 0

/-- The first `filled` entries of the table are the borders that they stand for. -/
def Filled (needle : List α) (table : List Nat) (filled : Nat) : Prop :=
  ∀ j < filled, ∃ border, table[j]? = some border ∧ Border needle (j + 1) border

variable {needle data text : List α} {table : List Nat} {item : α} {matched : Nat}

/-- The inner loop comes to an end: at an end of the text that the item continues, or at the
empty one, and it passes no end that the item continues. -/
theorem fallBack_spec {fuel : Nat} (htable : Filled needle table matched)
    (hends : Ends needle text matched) (hbounds : Bounds needle text item matched)
    (hfuel : matched < fuel) :
    ∃ fallen, fallBack needle table item fuel matched = some fallen ∧
      Ends needle text fallen ∧ Bounds needle text item fallen ∧
      (fallen = 0 ∨ needle[fallen]? = some item) := by
  induction fuel generalizing matched with
  | zero => exact absurd hfuel (Nat.not_lt_zero _)
  | succ fuel ih =>
    unfold fallBack
    split
    · rename_i hgo
      obtain ⟨hpos, hitem⟩ := hgo
      obtain ⟨border, hget, hborder⟩ := htable (matched - 1) (by omega)
      rw [Nat.sub_add_cancel hpos] at hborder
      have hlt : border < matched := hborder.lt hpos
      rw [hget]
      apply ih (fun j hj => htable j (by omega)) (hends.of_border hborder.ends)
        (hbounds.fall hends hitem hborder) (by omega)
    · rename_i hstop
      refine ⟨matched, rfl, hends, hbounds, ?_⟩
      by_cases hzero : matched = 0
      · exact .inl hzero
      · exact .inr (by_contra fun hitem => hstop ⟨Nat.pos_of_ne_zero hzero, hitem⟩)

/-- One turn of either loop keeps `matched` the most of the needle that the text ends with. -/
theorem advance_spec (item : α) (htable : Filled needle table matched)
    (hlongest : Longest needle text matched) :
    ∃ after, advance needle table item matched = some after ∧
      Longest needle (text ++ [item]) after := by
  obtain ⟨fallen, hfallen, hends, hbounds, hstop⟩ :=
    fallBack_spec htable hlongest.ends (hlongest.bounds item) (Nat.lt_succ_self matched)
  unfold advance
  rw [hfallen]
  by_cases hitem : needle[fallen]? = some item
  · exact ⟨fallen + 1, by simp [hitem], hends.grown hbounds hitem⟩
  · obtain rfl : fallen = 0 := hstop.resolve_right hitem
    exact ⟨0, by simp [hitem], Longest.none hbounds hitem⟩

/-- The first loop fills the table with the borders. -/
theorem fillPrefix_spec (done rest : List α) (hneedle : needle = done ++ rest)
    (hdone : done ≠ []) (htable : Filled needle table done.length)
    (hsize : table.length = needle.length) (hborder : Border needle done.length matched) :
    ∃ filled, fillPrefix needle rest done.length matched table = some filled ∧
      Filled needle filled needle.length := by
  induction rest generalizing done matched table with
  | nil =>
    rw [append_nil] at hneedle
    exact ⟨table, rfl, by rwa [hneedle] at htable ⊢⟩
  | cons item rest ih =>
    have hpos := length_pos_of_ne_nil hdone
    have hitem : needle[done.length]? = some item := by simp [hneedle]
    have hlt : matched < done.length := hborder.lt hpos
    obtain ⟨after, hafter, hlongest⟩ := advance_spec item (fun j hj => htable j (by omega)) hborder
    rw [← tail_take_succ hpos hitem] at hlongest
    have hfilled : Filled needle (table.set done.length after) (done ++ [item]).length := by
      intro j hj
      rw [length_append, length_singleton] at hj
      by_cases hlast : j = done.length
      · subst hlast
        refine ⟨after, ?_, hlongest⟩
        rw [getElem?_set_self (by rw [hsize, hneedle]; simp)]
      · obtain ⟨border, hget, hborder⟩ := htable j (by omega)
        exact ⟨border, by rw [getElem?_set_ne (Ne.symm hlast), hget], hborder⟩
    obtain ⟨filled, hfill, hall⟩ := ih (done ++ [item]) (by simp [hneedle]) (by simp) hfilled
      (by rw [length_set, hsize]) (by simpa [Border] using hlongest)
    refine ⟨filled, ?_, hall⟩
    unfold fillPrefix
    rw [hafter]
    simpa using hfill

/-- The second loop tells whether the whole needle stands in the data, given that it does not
stand in what was read before. -/
theorem searchData_spec (read data : List α) (htable : Filled needle table needle.length)
    (hlongest : Longest needle read matched) (hread : ¬ needle <:+: read) :
    searchData needle table data matched = some (decide (needle <:+: read ++ data)) := by
  induction data generalizing read matched with
  | nil => simp [searchData, hread]
  | cons item data ih =>
    obtain ⟨after, hafter, hnext⟩ := advance_spec item
      (fun j hj => htable j (Nat.lt_of_lt_of_le hj hlongest.ends.1)) hlongest
    have happend : read ++ item :: data = (read ++ [item]) ++ data := by simp
    unfold searchData
    rw [hafter, happend]
    simp only [Option.bind_eq_bind, Option.bind_some]
    split
    · rename_i hwhole
      have hinfix : needle <:+: read ++ [item] :=
        infix_iff_ends.mpr ⟨read ++ [item], prefix_refl _, hwhole ▸ hnext.ends⟩
      have hall : needle <:+: read ++ [item] ++ data := infix_append_of_infix_left hinfix
      rw [decide_eq_true hall]
      rfl
    · rename_i hpart
      apply ih (read ++ [item]) hnext
      intro hinfix
      rw [infix_concat_iff] at hinfix
      rcases hinfix with hsuffix | hinfix
      · have hwhole : Ends needle (read ++ [item]) needle.length :=
          ⟨Nat.le_refl _, by rwa [take_length]⟩
        exact hpart (Nat.le_antisymm hnext.ends.1 (hnext.max _ hwhole))
      · exact hread hinfix

/-- The byte search gives an answer, and it is whether the needle stands in the data. -/
theorem byteSequenceIncludes_eq (data needle : List α) :
    byteSequenceIncludes data needle = some (decide (needle <:+: data)) := by
  unfold byteSequenceIncludes
  split
  · rename_i hempty
    simp [length_eq_zero_iff.mp hempty]
  · rename_i hsome
    split
    · rename_i hlong
      have hnot : ¬ needle <:+: data := fun h => absurd h.length_le (by omega)
      simp [hnot]
    · cases needle with
      | nil => exact absurd rfl hsome
      | cons first rest =>
        have hfilled : Filled (first :: rest) (replicate (first :: rest).length 0) 1 := by
          intro j hj
          obtain rfl : j = 0 := by omega
          exact ⟨0, by simp, border_one⟩
        obtain ⟨table, hfill, hall⟩ := fillPrefix_spec [first] rest rfl (by simp) hfilled
          (by simp) border_one
        have hfill : fillPrefix (first :: rest) (first :: rest).tail 1 0
            (replicate (first :: rest).length 0) = some table := hfill
        rw [hfill]
        simpa using searchData_spec [] data hall longest_nil (by simp)

example : byteSequenceIncludes [1, 2, 1, 2, 1, 2, 3] [1, 2, 1, 2, 3] = some true := by decide

end bytes

/-! ## decodedBytesIncludeText -/

def MAX_SEARCH_CHUNK_BYTES : Nat := 64 * 1024

/-- `toLowerCase` of a string, for a map of its units. So the case pairs that take two units each
(Deseret, Adlam) are left out. -/
def toLowerCase (lower : UInt16 → JsString) (text : JsString) : JsString := text.flatMap lower

/-- `overlapLength === 0 ? '' : candidate.slice(-overlapLength)`. -/
def overlapOf (overlapLength : Nat) (candidate : JsString) : JsString :=
  if overlapLength = 0 then [] else candidate.drop (candidate.length - overlapLength)

/-- `decoder.decode(chunk, { stream })`. -/
def decodeChunk (decoder : TextDecoder) (chunk : Uint8Array) (stream : Bool) :
    TextDecoder × JsString :=
  let (decoder, decoded) := decoder.decode chunk
  (decoder, if stream then decoded else decoded ++ decoder.flush)

/-- The loop from one offset on, with the bytes that are left. -/
def searchChunks (lower : UInt16 → JsString) (search : JsString) (decoder : TextDecoder)
    (overlap : JsString) (data : Uint8Array) : Bool :=
  if _hsome : data = [] then false
  else
    let rest := data.drop MAX_SEARCH_CHUNK_BYTES
    let (decoder, decoded) := decodeChunk decoder (data.take MAX_SEARCH_CHUNK_BYTES) (rest ≠ [])
    let candidate := toLowerCase lower (overlap ++ decoded)
    if search <:+: candidate then true
    else searchChunks lower search decoder (overlapOf (search.length - 1) candidate) rest
termination_by data.length
decreasing_by
  have hpos := length_pos_of_ne_nil _hsome
  simp only [MAX_SEARCH_CHUNK_BYTES, length_drop]
  omega

def decodedBytesIncludeText (lower : UInt16 → JsString) (data : Uint8Array)
    (search : JsString) : Bool :=
  searchChunks lower search .new [] data

/-- The decoding of all bytes in one call. -/
def decodeAtOnce (decoder : TextDecoder) (data : Uint8Array) : JsString :=
  (decoder.decode data).2 ++ (decoder.decode data).1.flush

section text

variable {lower : UInt16 → JsString} {search : JsString}

theorem overlapOf_eq (count : Nat) (candidate : JsString) :
    overlapOf count candidate = lastItems count candidate := by
  unfold overlapOf lastItems
  split
  · rename_i hzero
    simp [hzero]
  · rfl

@[simp] theorem toLowerCase_append (a b : JsString) :
    toLowerCase lower (a ++ b) = toLowerCase lower a ++ toLowerCase lower b := by
  simp [toLowerCase]

/-- A text of lower-case characters stays as it is. -/
theorem toLowerCase_of_fixed {text : JsString} (h : ∀ unit ∈ text, lower unit = [unit]) :
    toLowerCase lower text = text := by
  unfold toLowerCase
  induction text with
  | nil => rfl
  | cons unit text ih =>
    rw [flatMap_cons, h unit (by simp), ih (fun x hx => h x (by simp [hx]))]
    rfl

theorem fixed_toLowerCase (hlower : ∀ unit, ∀ x ∈ lower unit, lower x = [x]) (text : JsString) :
    ∀ x ∈ toLowerCase lower text, lower x = [x] := by
  intro x hx
  obtain ⟨unit, -, hx⟩ := mem_flatMap.mp hx
  exact hlower unit x hx

open TextDecoder

/-- The text of one chunk, with what the decoder makes of the bytes behind it, is the text of
all of them. -/
theorem decodeChunk_append (decoder : TextDecoder) (data : Uint8Array) (count : Nat) :
    (decodeChunk decoder (data.take count) (data.drop count ≠ [])).2 ++
        (if data.drop count = [] then []
          else decodeAtOnce (decodeChunk decoder (data.take count) (data.drop count ≠ [])).1
            (data.drop count)) =
      decodeAtOnce decoder data := by
  conv_rhs => rw [← take_append_drop count data]
  unfold decodeChunk decodeAtOnce
  rw [decode_append]
  by_cases hrest : data.drop count = []
  · simp [hrest, decode]
  · simp [hrest]

/-- The loop finds what is not in the text read so far where the whole text has it: the
overlap is all of that text that a match can still need. -/
theorem searchChunks_eq (hlower : ∀ unit, ∀ x ∈ lower unit, lower x = [x]) (hsearch : search ≠ [])
    (decoder : TextDecoder) (read : JsString) (data : Uint8Array)
    (hfixed : ∀ x ∈ read, lower x = [x]) (hread : ¬ search <:+: read) :
    searchChunks lower search decoder (lastItems (search.length - 1) read) data =
      decide (search <:+: read ++
        toLowerCase lower (if data = [] then [] else decodeAtOnce decoder data)) := by
  induction hcount : data.length using Nat.strong_induction_on
    generalizing decoder read data with | _ count ih
  unfold searchChunks
  split
  · simp [hread, toLowerCase]
  · rename_i hsome
    have hpos := length_pos_of_ne_nil hsome
    have hless : (data.drop MAX_SEARCH_CHUNK_BYTES).length < count := by
      simp only [MAX_SEARCH_CHUNK_BYTES, length_drop]
      omega
    simp only [← decodeChunk_append decoder data MAX_SEARCH_CHUNK_BYTES]
    generalize decodeChunk decoder (data.take MAX_SEARCH_CHUNK_BYTES) _ = turn
    obtain ⟨decoder, decoded⟩ := turn
    have hlast : ∀ x ∈ lastItems (search.length - 1) read, lower x = [x] :=
      fun x hx => hfixed x ((lastItems_suffix _ _).subset hx)
    -- the overlap is lower-cased already
    simp only [toLowerCase_append, toLowerCase_of_fixed hlast, overlapOf_eq]
    by_cases hfound : search <:+: read ++ toLowerCase lower decoded
    · have hall : search <:+: read ++ toLowerCase lower decoded ++
          toLowerCase lower (if data.drop MAX_SEARCH_CHUNK_BYTES = [] then []
            else decodeAtOnce decoder (data.drop MAX_SEARCH_CHUNK_BYTES)) :=
        infix_append_of_infix_left hfound
      rw [append_assoc] at hall
      rw [if_pos ((infix_append_iff_last hsearch hread).mp hfound), decide_eq_true hall]
    · have hnext := fun h => hfound ((infix_append_iff_last hsearch hread).mpr h)
      rw [if_neg hnext, lastItems_append, ← append_assoc]
      apply ih _ hless decoder _ _ _ hfound rfl
      intro x hx
      rcases mem_append.mp hx with hx | hx
      · exact hfixed x hx
      · exact fixed_toLowerCase hlower decoded x hx

/-- The chunked search finds a text where the decoding of all bytes in one call has it. -/
theorem decodedBytesIncludeText_eq (hlower : ∀ unit, ∀ x ∈ lower unit, lower x = [x])
    (hsearch : search ≠ []) (data : Uint8Array) :
    decodedBytesIncludeText lower data search =
      decide (search <:+: toLowerCase lower (decodeAtOnce .new data)) := by
  have hnothing : lastItems (search.length - 1) ([] : JsString) = [] := by simp [lastItems]
  have h := searchChunks_eq hlower hsearch .new [] data (by simp) (by simpa using hsearch)
  rw [hnothing, nil_append] at h
  unfold decodedBytesIncludeText
  rw [h]
  by_cases hdata : data = []
  · simp [hdata, decodeAtOnce, decode, flush, new]
  · rw [if_neg hdata]

end text

/-! ## The three searches -/

/-- All three searches agree with the plain meaning: whether the needle stands in the data,
where it first stands at or after the start, and whether the text stands in the decoding of
all bytes. -/
theorem searches_exact {α : Type} [DecidableEq α] (data needle : List α)
    (lower : UInt16 → JsString) (bytes : Uint8Array) (search : JsString) :
    byteSequenceIncludes data needle = some (decide (needle <:+: data)) ∧
    (∀ start : Int, (needle ≠ [] →
        (∀ index, indexOfArrayLikeFrom data needle start = some index ↔
          IsLeast {i : Nat | start ≤ i ∧ OccursAt needle data i} index) ∧
        (indexOfArrayLikeFrom data needle start = none ↔
          ∀ i : Nat, start ≤ i → ¬ OccursAt needle data i)) ∧
      (needle = [] → indexOfArrayLikeFrom data needle start = some 0)) ∧
    ((∀ unit, ∀ x ∈ lower unit, lower x = [x]) → search ≠ [] →
      decodedBytesIncludeText lower bytes search =
        decide (search <:+: toLowerCase lower (decodeAtOnce .new bytes))) := by
  refine ⟨byteSequenceIncludes_eq data needle, ?_, ?_⟩
  · intro start
    refine ⟨fun hneedle => ⟨fun index => ?_, ?_⟩, ?_⟩
    · exact indexOfArrayLikeFrom_some hneedle
    · exact indexOfArrayLikeFrom_none hneedle
    · rintro rfl
      exact indexOfArrayLikeFrom_nil data start
  · intro hlower hsearch
    exact decodedBytesIncludeText_eq hlower hsearch bytes

def lowerAscii (unit : UInt16) : JsString :=
  if 0x41 ≤ unit ∧ unit ≤ 0x5a then [unit + 0x20] else [unit]

theorem lowerAscii_lower (unit : UInt16) : ∀ x ∈ lowerAscii unit, lowerAscii x = [x] := by
  intro x hx
  unfold lowerAscii at hx ⊢
  split at hx <;> cases mem_singleton.1 hx
  · rename_i hupper
    simp only [UInt16.le_iff_toNat_le, UInt16.reduceToNat] at hupper
    rw [if_neg]
    simp only [UInt16.le_iff_toNat_le, UInt16.toNat_add, UInt16.reduceToNat]
    omega
  · rename_i hlower
    rw [if_neg hlower]

theorem searches_exact_in_ascii :
    decodedBytesIncludeText lowerAscii [0x4f, 0x4b] [0x6b] = true := by
  have htext := (searches_exact [1] [1] lowerAscii [0x4f, 0x4b] [0x6b]).2.2 lowerAscii_lower
    (cons_ne_nil _ _)
  rw [htext]
  decide

/-- A needle without items is found in front of the start. -/
theorem empty_needle_before_start :
    indexOfArrayLikeFrom [1, 2, 3] ([] : List Nat) 2 = some 0 ∧
      ¬ IsLeast {i : Nat | (2 : Int) ≤ i ∧ OccursAt [] [1, 2, 3] i} 0 := by
  refine ⟨rfl, ?_⟩
  rintro ⟨⟨hstart, -⟩, -⟩
  exact absurd hstart (by decide)

end bbcom.parser_panel
