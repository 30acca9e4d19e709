-- The byte channel of the IPC: `base64.ts` on the side of the renderer, the standard engine of
-- `decode_data_b64` on the native one.
import Bbcom.Js

open bbcom.js

namespace bbcom.base64

open List UInt8 List

/-! ## Groups of six bits -/

def alphabet : List Char :=
  "ABCDEFGHIJKLMNOPQRSTUVWXYZabcdefghijklmnopqrstuvwxyz0123456789+/".toList

def encodeSix (n : Nat) : Char := alphabet.getD n 'A'

def decodeSix (c : Char) : Option Nat := alphabet.idxOf? c

variable {n : Nat}

theorem alphabet_eq_chars : alphabet =
    ['A', 'B', 'C', 'D', 'E', 'F', 'G', 'H', 'I', 'J', 'K', 'L', 'M', 'N', 'O', 'P',
      'Q', 'R', 'S', 'T', 'U', 'V', 'W', 'X', 'Y', 'Z', 'a', 'b', 'c', 'd', 'e', 'f',
      'g', 'h', 'i', 'j', 'k', 'l', 'm', 'n', 'o', 'p', 'q', 'r', 's', 't', 'u', 'v',
      'w', 'x', 'y', 'z', '0', '1', '2', '3', '4', '5', '6', '7', '8', '9', '+', '/'] :=
  String.toList_ofList

theorem length_alphabet : alphabet.length = 64 := by
  rw [alphabet_eq_chars]
  rfl

theorem map_toNat_alphabet : alphabet.map Char.toNat =
    range' 65 26 ++ range' 97 26 ++ range' 48 10 ++ [43, 47] := by
  rw [alphabet_eq_chars]
  rfl

theorem nodup_alphabet : alphabet.Nodup := by
  have hcodes : (range' 65 26 ++ range' 97 26 ++ range' 48 10 ++ [43, 47]).Nodup := by
    simp only [nodup_append, mem_append, mem_range'_1]
    refine ⟨⟨⟨nodup_range', nodup_range', ?_⟩, nodup_range', ?_⟩, by simp, ?_⟩
    · omega
    · omega
    · simp
      omega
  exact Nodup.of_map Char.toNat (map_toNat_alphabet ▸ hcodes)

theorem encodeSix_eq (h : n < alphabet.length) : encodeSix n = alphabet[n] :=
  getD_eq_getElem _ _ _

theorem encodeSix_mem (h : n < 64) : encodeSix n ∈ alphabet := by
  rw [encodeSix_eq (by rwa [length_alphabet])]
  exact getElem_mem _

theorem decodeSix_encodeSix (h : n < 64) : decodeSix (encodeSix n) = some n := by
  have hlength : n < alphabet.length := by rwa [length_alphabet]
  rw [encodeSix_eq hlength, decodeSix, idxOf?_eq_some_iff]
  refine ⟨hlength, rfl, fun j hj hsame => ?_⟩
  rw [nodup_alphabet.getElem_inj_iff] at hsame
  omega

theorem encodeSix_ne_pad (h : n < 64) : encodeSix n ≠ '=' := by
  have hpad : '=' ∉ alphabet := by
    rw [alphabet_eq_chars]
    decide +kernel
  exact ne_of_mem_of_not_mem (encodeSix_mem h) hpad

/-! ## The encoder -/

/-- `btoa` of the binary string of the bytes. -/
def btoa : List UInt8 → List Char
  | [] => []
  | [a] => [encodeSix (a.toNat / 4), encodeSix (a.toNat % 4 * 16), '=', '=']
  | [a, b] =>
    [encodeSix (a.toNat / 4), encodeSix (a.toNat % 4 * 16 + b.toNat / 16),
      encodeSix (b.toNat % 16 * 4), '=']
  | a :: b :: c :: rest =>
    encodeSix (a.toNat / 4) :: encodeSix (a.toNat % 4 * 16 + b.toNat / 16) ::
      encodeSix (b.toNat % 16 * 4 + c.toNat / 64) :: encodeSix (c.toNat % 64) :: btoa rest

def ENCODE_CHUNK_BYTES : Nat := 0x3000
def BINARY_SLICE_BYTES : Nat := 0x1000

/-- The pieces that a loop with a step of `size` cuts a list into. -/
def chunks {α : Type} (size : Nat) (items : List α) : List (List α) :=
  if _h : size = 0 ∨ items = [] then []
  else items.take size :: chunks size (items.drop size)
termination_by items.length
decreasing_by
  have := length_pos_of_ne_nil fun e => _h (.inr e)
  simp only [length_drop]
  omega

def bytesToBase64 (bytes : Uint8Array) : String :=
  String.ofList <| (chunks ENCODE_CHUNK_BYTES bytes).flatMap fun chunk =>
    btoa (chunks BINARY_SLICE_BYTES chunk).flatten

/-! ## The native decoder -/

/-- Full padding, and no bits left over in the last group. -/
def decodeStandard : List Char → Option (List UInt8)
  | [] => some []
  | a :: b :: c :: d :: rest =>
    if rest = [] ∧ d = '=' then
      if c = '=' then do
        let x ← decodeSix a
        let y ← decodeSix b
        if y % 16 = 0 then pure [ofNat (x * 4 + y / 16)] else none
      else do
        let x ← decodeSix a
        let y ← decodeSix b
        let z ← decodeSix c
        if z % 4 = 0 then
          pure [ofNat (x * 4 + y / 16), ofNat (y % 16 * 16 + z / 4)]
        else none
    else do
      let x ← decodeSix a
      let y ← decodeSix b
      let z ← decodeSix c
      let w ← decodeSix d
      let tail ← decodeStandard rest
      pure (ofNat (x * 4 + y / 16) :: ofNat (y % 16 * 16 + z / 4) ::
        ofNat (z % 4 * 64 + w) :: tail)
  | _ => none

/-! ## The decoder of the renderer -/

def DECODE_CHUNK_CHARS : Nat := 0x8000

/-- `CANONICAL_BASE64`: full padding, but bits may be left over in the last group. -/
def isCanonicalBase64 : List Char → Bool
  | [] => true
  | a :: b :: c :: d :: rest =>
    if rest = [] ∧ d = '=' then
      a ∈ alphabet ∧ b ∈ alphabet ∧ (c = '=' ∨ c ∈ alphabet)
    else a ∈ alphabet ∧ b ∈ alphabet ∧ c ∈ alphabet ∧ d ∈ alphabet ∧ isCanonicalBase64 rest
  | _ => false

/-- `atob`, on text that `CANONICAL_BASE64` lets through. -/
def atob : List Char → List UInt8
  | a :: b :: c :: d :: rest =>
    let x := (decodeSix a).getD 0
    let y := (decodeSix b).getD 0
    let z := (decodeSix c).getD 0
    let w := (decodeSix d).getD 0
    if c = '=' then [ofNat (x * 4 + y / 16)]
    else if d = '=' then [ofNat (x * 4 + y / 16), ofNat (y % 16 * 16 + z / 4)]
    else
      ofNat (x * 4 + y / 16) :: ofNat (y % 16 * 16 + z / 4) ::
        ofNat (z % 4 * 64 + w) :: atob rest
  | _ => []

/-- `base64ToBytes`; `none` where it throws. -/
def base64ToBytes (value : List Char) : Option Uint8Array :=
  if isCanonicalBase64 value then some ((chunks DECODE_CHUNK_CHARS value).flatMap atob) else none

/-! ## There and back -/

variable {size : Nat}

theorem flatten_chunks {α : Type} (h : 0 < size) (items : List α) :
    (chunks size items).flatten = items := by
  induction items using chunks.induct size with
  | case1 items hstop =>
    unfold chunks
    rw [dif_pos hstop]
    rcases hstop with h0 | rfl
    · omega
    · rfl
  | case2 items hgo ih =>
    unfold chunks
    rw [dif_neg hgo, flatten_cons, ih, take_append_drop]

/-- Whole groups of three bytes encode on their own. -/
theorem btoa_append (a b : List UInt8) (h : a.length % 3 = 0) :
    btoa (a ++ b) = btoa a ++ btoa b := by
  induction a using btoa.induct with
  | case1 => rfl
  | case2 x => simp at h
  | case3 x y => simp at h
  | case4 x y z rest ih =>
    have h' : rest.length % 3 = 0 := by
      simp only [length_cons] at h
      omega
    simp only [cons_append, btoa, ih h']

theorem flatMap_btoa (h3 : size % 3 = 0) (bytes : List UInt8) (h0 : 0 < size) :
    (chunks size bytes).flatMap btoa = btoa bytes := by
  induction bytes using chunks.induct size with
  | case1 bytes hstop =>
    unfold chunks
    rw [dif_pos hstop]
    rcases hstop with h | rfl
    · omega
    · rfl
  | case2 bytes hgo ih =>
    unfold chunks
    rw [dif_neg hgo, flatMap_cons, ih]
    by_cases hs : size ≤ bytes.length
    · rw [← btoa_append _ _ (by rw [length_take, Nat.min_eq_left hs]; exact h3), take_append_drop]
    · rw [take_of_length_le (by omega), drop_of_length_le (by omega)]
      simp [btoa]

theorem toList_bytesToBase64 (bytes : Uint8Array) :
    (bytesToBase64 bytes).toList = btoa bytes := by
  have hb : ∀ chunk : List UInt8, (chunks BINARY_SLICE_BYTES chunk).flatten = chunk :=
    flatten_chunks (by decide)
  simp only [bytesToBase64, hb, String.toList_ofList]
  exact flatMap_btoa (by decide) bytes (by decide)

theorem ofNat_toNat_eq {a : UInt8} (h : n = a.toNat) : UInt8.ofNat n = a := by
  subst h
  exact UInt8.ofNat_toNat

theorem isCanonicalBase64_btoa (bytes : List UInt8) : isCanonicalBase64 (btoa bytes) = true := by
  induction bytes using btoa.induct with
  | case1 => rfl
  | case2 a =>
    have ha := a.toNat_lt
    simp [btoa, isCanonicalBase64, encodeSix_mem (show a.toNat / 4 < 64 by omega),
      encodeSix_mem (show a.toNat % 4 * 16 < 64 by omega)]
  | case3 a b =>
    have ha := a.toNat_lt
    have hb := b.toNat_lt
    simp [btoa, isCanonicalBase64, encodeSix_mem (show a.toNat / 4 < 64 by omega),
      encodeSix_mem (show a.toNat % 4 * 16 + b.toNat / 16 < 64 by omega),
      encodeSix_mem (show b.toNat % 16 * 4 < 64 by omega)]
  | case4 a b c rest ih =>
    have ha := a.toNat_lt
    have hb := b.toNat_lt
    have hc := c.toNat_lt
    have hpad : ¬(btoa rest = [] ∧ encodeSix (c.toNat % 64) = '=') :=
      fun h => encodeSix_ne_pad (by omega) h.2
    rw [btoa, isCanonicalBase64, if_neg hpad, decide_eq_true_iff]
    exact ⟨encodeSix_mem (by omega), encodeSix_mem (by omega), encodeSix_mem (by omega),
      encodeSix_mem (by omega), ih⟩

theorem atob_btoa (bytes : List UInt8) : atob (btoa bytes) = bytes := by
  induction bytes using btoa.induct with
  | case1 => rfl
  | case2 a =>
    have ha := a.toNat_lt
    rw [btoa, atob, if_pos rfl, decodeSix_encodeSix (by omega), decodeSix_encodeSix (by omega)]
    simp only [Option.getD_some, cons.injEq, and_true]
    exact ofNat_toNat_eq (by omega)
  | case3 a b =>
    have ha := a.toNat_lt
    have hb := b.toNat_lt
    rw [btoa, atob, if_neg (encodeSix_ne_pad (by omega)), if_pos rfl,
      decodeSix_encodeSix (by omega), decodeSix_encodeSix (by omega),
      decodeSix_encodeSix (by omega)]
    simp only [Option.getD_some, cons.injEq, and_true]
    exact ⟨ofNat_toNat_eq (by omega), ofNat_toNat_eq (by omega)⟩
  | case4 a b c rest ih =>
    have ha := a.toNat_lt
    have hb := b.toNat_lt
    have hc := c.toNat_lt
    rw [btoa, atob, if_neg (encodeSix_ne_pad (by omega)), if_neg (encodeSix_ne_pad (by omega)),
      decodeSix_encodeSix (by omega), decodeSix_encodeSix (by omega),
      decodeSix_encodeSix (by omega), decodeSix_encodeSix (by omega), ih]
    simp only [Option.getD_some, cons.injEq, and_true]
    exact ⟨ofNat_toNat_eq (by omega), ofNat_toNat_eq (by omega), ofNat_toNat_eq (by omega)⟩

theorem length_btoa (bytes : List UInt8) :
    (btoa bytes).length = (bytes.length + 2) / 3 * 4 := by
  induction bytes using btoa.induct with
  | case1 => rfl
  | case2 a => simp [btoa]
  | case3 a b => simp [btoa]
  | case4 a b c rest ih =>
    simp only [btoa, length_cons, ih]
    omega

/-- The decoder's chunks end where groups of three bytes do. -/
theorem flatMap_atob (groups : Nat) (hgroups : 0 < groups) (bytes : List UInt8) :
    (chunks (4 * groups) (btoa bytes)).flatMap atob = bytes := by
  induction bytes using chunks.induct (3 * groups) with
  | case1 bytes hstop =>
    rcases hstop with hzero | rfl
    · omega
    · unfold chunks
      rw [dif_pos (.inr rfl)]
      rfl
  | case2 bytes hgo ih =>
    rw [not_or] at hgo
    have hne : btoa bytes ≠ [] := by
      intro hnil
      have hdecoded := atob_btoa bytes
      rw [hnil] at hdecoded
      exact hgo.2 hdecoded.symm
    unfold chunks
    rw [dif_neg (not_or.2 ⟨by omega, hne⟩), flatMap_cons]
    by_cases hlong : 3 * groups ≤ bytes.length
    · have hfront : (bytes.take (3 * groups)).length = 3 * groups := by
        rw [length_take, Nat.min_eq_left hlong]
      have hlength : (btoa (bytes.take (3 * groups))).length = 4 * groups := by
        rw [length_btoa, hfront]
        omega
      have hsplit : btoa bytes =
          btoa (bytes.take (3 * groups)) ++ btoa (bytes.drop (3 * groups)) := by
        rw [← btoa_append _ _ (by omega), take_append_drop]
      rw [hsplit, take_left' hlength, drop_left' hlength, ih, atob_btoa, take_append_drop]
    · have hshort : (btoa bytes).length ≤ 4 * groups := by
        rw [length_btoa]
        omega
      rw [take_of_length_le hshort, drop_of_length_le hshort, atob_btoa]
      unfold chunks
      rw [dif_pos (.inr rfl)]
      simp

/-- The renderer reads back what it encodes. -/
theorem base64ToBytes_btoa (bytes : List UInt8) : base64ToBytes (btoa bytes) = some bytes := by
  unfold base64ToBytes
  rw [if_pos (isCanonicalBase64_btoa bytes)]
  exact congrArg some (flatMap_atob 0x2000 (by decide) bytes)

end bbcom.base64
