-- Which text `base64ToBytes` takes, and whether it is what `bytesToBase64` writes. The pattern
-- asks for full padding and leaves the bits of the last group alone.
import Bbcom.Base64

open bbcom.js

namespace bbcom.base64

open List Option

/-! ## The array of the decoder -/

/-- The characters of padding that a text ends with. -/
def padding (value : List Char) : Nat :=
  if ['=', '='] <:+ value then 2 else if ['='] <:+ value then 1 else 0

def allocatedLength (value : List Char) : Nat := value.length / 4 * 3 - padding value

/-- A typed array of a length, written from its start on; what lies beyond it is lost. -/
def written (length : Nat) (bytes : List UInt8) : Uint8Array :=
  bytes.take length ++ List.replicate (length - bytes.length) 0

/-- `base64ToBytes`, with the array that it allocates. -/
def base64ToArray (value : List Char) : Option Uint8Array :=
  (base64ToBytes value).map (written (allocatedLength value))

/-! ## Stray bits -/

/-- The last group has padding, and bits that its bytes do not take. -/
def strayBits : List Char → Bool
  | _ :: b :: c :: d :: rest =>
    if rest = [] ∧ d = '=' then
      if c = '=' then (decodeSix b).getD 0 % 16 ≠ 0 else (decodeSix c).getD 0 % 4 ≠ 0
    else strayBits rest
  | _ => false

theorem alphabet_eq : alphabet = (List.range 64).map encodeSix := by
  refine ext_getElem (by simp [length_alphabet]) fun n hn _ => ?_
  simp [encodeSix_eq hn]

variable {c : Char} {value : List Char}

theorem decodeSix_mem (h : c ∈ alphabet) :
    (decodeSix c).getD 0 < 64 ∧ encodeSix ((decodeSix c).getD 0) = c := by
  rw [alphabet_eq] at h
  obtain ⟨n, hn, rfl⟩ := mem_map.1 h
  rw [mem_range] at hn
  rw [decodeSix_encodeSix hn]
  exact ⟨hn, rfl⟩

theorem ne_pad_of_mem (h : c ∈ alphabet) : c ≠ '=' := by
  rw [alphabet_eq] at h
  obtain ⟨n, hn, rfl⟩ := mem_map.1 h
  exact encodeSix_ne_pad (mem_range.1 hn)

/-! ## Groups -/

variable {rest : List Char}

/-- A group without padding, and what follows it. -/
theorem canonical_cons {a b d : Char} (hpad : ¬(rest = [] ∧ d = '=')) :
    isCanonicalBase64 (a :: b :: c :: d :: rest) = true ↔
      a ∈ alphabet ∧ b ∈ alphabet ∧ c ∈ alphabet ∧ d ∈ alphabet ∧
        isCanonicalBase64 rest = true := by
  rw [isCanonicalBase64, if_neg hpad, decide_eq_true_iff]

theorem canonical_last {a b : Char} :
    isCanonicalBase64 [a, b, c, '='] = true ↔
      a ∈ alphabet ∧ b ∈ alphabet ∧ (c = '=' ∨ c ∈ alphabet) := by
  rw [isCanonicalBase64, if_pos ⟨rfl, rfl⟩, decide_eq_true_iff]

/-- A text that the pattern takes is empty, or ends in a group with padding, or begins with one
without. -/
theorem canonical_cases {P : List Char → Prop} (hnil : P [])
    (hlast : ∀ a b c, a ∈ alphabet → b ∈ alphabet → (c = '=' ∨ c ∈ alphabet) → P [a, b, c, '='])
    (hcons : ∀ a b c d rest, a ∈ alphabet → b ∈ alphabet → c ∈ alphabet → d ∈ alphabet →
      isCanonicalBase64 rest = true → P rest → P (a :: b :: c :: d :: rest))
    (h : isCanonicalBase64 value = true) : P value := by
  induction value using isCanonicalBase64.induct with
  | case1 => exact hnil
  | case2 a b c d rest hpad =>
    obtain ⟨rfl, rfl⟩ := hpad
    obtain ⟨ha, hb, hc⟩ := canonical_last.1 h
    exact hlast a b c ha hb hc
  | case3 a b c d rest hpad ih =>
    obtain ⟨ha, hb, hc, hd, hrest⟩ := (canonical_cons hpad).1 h
    exact hcons a b c d rest ha hb hc hd hrest (ih hrest)
  | case4 value hnone hfour => simp_all [isCanonicalBase64]

theorem atob_cons {a b d : Char} (hc : c ∈ alphabet) (hd : d ∈ alphabet) :
    atob (a :: b :: c :: d :: rest) =
      UInt8.ofNat ((decodeSix a).getD 0 * 4 + (decodeSix b).getD 0 / 16) ::
        UInt8.ofNat ((decodeSix b).getD 0 % 16 * 16 + (decodeSix c).getD 0 / 4) ::
          UInt8.ofNat ((decodeSix c).getD 0 % 4 * 64 + (decodeSix d).getD 0) :: atob rest := by
  rw [atob, if_neg (ne_pad_of_mem hc), if_neg (ne_pad_of_mem hd)]

theorem toNat_ofNat_lt {n : Nat} (h : n < 256) : (UInt8.ofNat n).toNat = n := by
  rw [UInt8.toNat_ofNat', Nat.mod_eq_of_lt h]

/-- The three bytes of a group without padding are written back as the group. -/
theorem btoa_group {x y z w : Nat} {rest : List UInt8} (hx : x < 64) (hy : y < 64) (hz : z < 64)
    (hw : w < 64) :
    btoa (UInt8.ofNat (x * 4 + y / 16) :: UInt8.ofNat (y % 16 * 16 + z / 4) ::
        UInt8.ofNat (z % 4 * 64 + w) :: rest) =
      encodeSix x :: encodeSix y :: encodeSix z :: encodeSix w :: btoa rest := by
  have h₁ : (x * 4 + y / 16) / 4 = x := by omega
  have h₂ : (x * 4 + y / 16) % 4 * 16 + (y % 16 * 16 + z / 4) / 16 = y := by omega
  have h₃ : (y % 16 * 16 + z / 4) % 16 * 4 + (z % 4 * 64 + w) / 64 = z := by omega
  have h₄ : (z % 4 * 64 + w) % 64 = w := by omega
  rw [btoa, toNat_ofNat_lt (by omega), toNat_ofNat_lt (by omega), toNat_ofNat_lt (by omega), h₁,
    h₂, h₃, h₄]

/-- A text that the pattern takes, without stray bits, is what its bytes are written as. -/
theorem btoa_atob (h : isCanonicalBase64 value = true) :
    strayBits value = false → btoa (atob value) = value := by
  apply canonical_cases (P := fun value => strayBits value = false → btoa (atob value) = value)
    _ _ _ h
  · intro _
    rfl
  · intro a b c ha hb hc hstray
    obtain ⟨hx, ha'⟩ := decodeSix_mem ha
    obtain ⟨hy, hb'⟩ := decodeSix_mem hb
    rcases hc with rfl | hc
    · simp only [strayBits, true_and, if_true, ne_eq, decide_eq_false_iff_not, not_not] at hstray
      rw [atob, if_pos rfl, btoa, toNat_ofNat_lt (by omega)]
      have h₁ : ((decodeSix a).getD 0 * 4 + (decodeSix b).getD 0 / 16) / 4 =
          (decodeSix a).getD 0 := by omega
      have h₂ : ((decodeSix a).getD 0 * 4 + (decodeSix b).getD 0 / 16) % 4 * 16 =
          (decodeSix b).getD 0 := by omega
      rw [h₁, h₂, ha', hb']
    · obtain ⟨hz, hc'⟩ := decodeSix_mem hc
      have hne := ne_pad_of_mem hc
      simp only [strayBits, true_and, if_true, if_neg hne, ne_eq, decide_eq_false_iff_not,
        not_not] at hstray
      rw [atob, if_neg hne, if_pos rfl, btoa, toNat_ofNat_lt (by omega), toNat_ofNat_lt (by omega)]
      have h₁ : ((decodeSix a).getD 0 * 4 + (decodeSix b).getD 0 / 16) / 4 =
          (decodeSix a).getD 0 := by omega
      have h₂ : ((decodeSix a).getD 0 * 4 + (decodeSix b).getD 0 / 16) % 4 * 16 +
          ((decodeSix b).getD 0 % 16 * 16 + (decodeSix c).getD 0 / 4) / 16 =
          (decodeSix b).getD 0 := by omega
      have h₃ : ((decodeSix b).getD 0 % 16 * 16 + (decodeSix c).getD 0 / 4) % 16 * 4 =
          (decodeSix c).getD 0 := by omega
      rw [h₁, h₂, h₃, ha', hb', hc']
  · intro a b c d rest ha hb hc hd _ ih hstray
    obtain ⟨hx, ha'⟩ := decodeSix_mem ha
    obtain ⟨hy, hb'⟩ := decodeSix_mem hb
    obtain ⟨hz, hc'⟩ := decodeSix_mem hc
    obtain ⟨hw, hd'⟩ := decodeSix_mem hd
    have hlast : ¬(rest = [] ∧ d = '=') := fun hpad => ne_pad_of_mem hd hpad.2
    rw [strayBits, if_neg hlast] at hstray
    rw [atob_cons hc hd, btoa_group hx hy hz hw, ih hstray, ha', hb', hc', hd']

/-- What the encoder writes has no stray bits. -/
theorem strayBits_btoa (bytes : List UInt8) : strayBits (btoa bytes) = false := by
  induction bytes using btoa.induct with
  | case1 => rfl
  | case2 a =>
    have ha := a.toNat_lt
    simp only [btoa, strayBits, true_and, if_true, decodeSix_encodeSix
      (show a.toNat % 4 * 16 < 64 by omega), getD_some]
    simp
  | case3 a b =>
    have hb := b.toNat_lt
    simp only [btoa, strayBits, true_and, if_true, if_neg (encodeSix_ne_pad
      (show b.toNat % 16 * 4 < 64 by omega)), decodeSix_encodeSix
      (show b.toNat % 16 * 4 < 64 by omega), getD_some]
    simp
  | case4 a b c rest ih =>
    have hpad : ¬(btoa rest = [] ∧ encodeSix (c.toNat % 64) = '=') :=
      fun h => encodeSix_ne_pad (by omega) h.2
    rw [btoa, strayBits, if_neg hpad, ih]

/-! ## Chunks of groups -/

theorem atob_append {front back : List Char} (hfront : front.length % 4 = 0) (hback : back ≠ [])
    (h : isCanonicalBase64 (front ++ back) = true) :
    atob (front ++ back) = atob front ++ atob back ∧ isCanonicalBase64 back = true := by
  induction front using isCanonicalBase64.induct with
  | case1 => exact ⟨rfl, h⟩
  | case2 a b c d rest hpad =>
    obtain ⟨rfl, rfl⟩ := hpad
    have hlast : ¬(back = [] ∧ '=' = '=') := fun hnil => hback hnil.1
    obtain ⟨-, -, -, hd, -⟩ := (canonical_cons hlast).1 h
    exact absurd rfl (ne_pad_of_mem hd)
  | case3 a b c d rest hpad ih =>
    have hlast : ¬(rest ++ back = [] ∧ d = '=') := by simp [hback]
    obtain ⟨-, -, hc, hd, hrest⟩ := (canonical_cons hlast).1 h
    simp only [length_cons] at hfront
    obtain ⟨happend, hcanonical⟩ := ih (by omega) hrest
    rw [cons_append, cons_append, cons_append, cons_append, atob_cons hc hd,
      atob_cons hc hd, happend]
    exact ⟨rfl, hcanonical⟩
  | case4 value hnone hfour =>
    match value with
    | [] => exact absurd rfl hnone
    | [_] => simp at hfront
    | [_, _] => simp at hfront
    | [_, _, _] => simp at hfront
    | a :: b :: c :: d :: rest => exact absurd rfl (hfour a b c d rest)

/-- The chunks of the decoder lose nothing. -/
theorem flatMap_atob_chunks {groups : Nat} (hgroups : 0 < groups) (value : List Char)
    (h : isCanonicalBase64 value = true) :
    (chunks (4 * groups) value).flatMap atob = atob value := by
  induction value using chunks.induct (4 * groups) with
  | case1 value hstop =>
    rcases hstop with hzero | rfl
    · omega
    · unfold chunks
      rw [dif_pos (.inr rfl)]
      rfl
  | case2 value hgo ih =>
    unfold chunks
    rw [dif_neg hgo, flatMap_cons]
    by_cases hdrop : value.drop (4 * groups) = []
    · have hshort := drop_eq_nil_iff.1 hdrop
      rw [hdrop, take_of_length_le hshort]
      unfold chunks
      rw [dif_pos (.inr rfl)]
      simp
    · have hlong : 4 * groups < value.length := by
        by_contra hnot
        exact hdrop (drop_eq_nil_iff.2 (by omega))
      have hfront : (value.take (4 * groups)).length % 4 = 0 := by
        rw [length_take, Nat.min_eq_left hlong.le]
        omega
      rw [← take_append_drop (4 * groups) value] at h
      obtain ⟨happend, hback⟩ := atob_append hfront hdrop h
      rw [ih hback, ← happend, take_append_drop]

theorem base64ToBytes_eq (value : List Char) :
    base64ToBytes value = if isCanonicalBase64 value then some (atob value) else none := by
  unfold base64ToBytes
  split
  · rename_i h
    rw [← flatMap_atob_chunks (show 0 < 0x2000 by decide) value h]
    rfl
  · rfl

/-! ## The length -/

theorem suffix_append_iff {suffix front back : List Char} (h : suffix.length ≤ back.length) :
    suffix <:+ front ++ back ↔ suffix <:+ back := by
  constructor
  · intro hsuffix
    exact suffix_of_suffix_length_le hsuffix (suffix_append front back) h
  · intro hsuffix
    exact hsuffix.trans (suffix_append front back)

/-- A text that ends in another character has no padding. -/
theorem padding_concat (front : List Char) (h : c ≠ '=') : padding (front ++ [c]) = 0 := by
  have hone : ¬['='] <:+ front ++ [c] := by
    rw [suffix_append_iff (show ['='].length ≤ [c].length from le_rfl)]
    intro hsuffix
    exact h (singleton_inj.1 (hsuffix.eq_of_length rfl)).symm
  have htwo : ¬['=', '='] <:+ front ++ [c] := fun hsuffix =>
    hone ((suffix_cons '=' ['=']).trans hsuffix)
  rw [padding, if_neg htwo, if_neg hone]

theorem canonical_length (h : isCanonicalBase64 value = true) : value = [] ∨ 4 ≤ value.length := by
  apply canonical_cases (P := fun value => value = [] ∨ 4 ≤ value.length) _ _ _ h
  · exact .inl rfl
  · intro a b c _ _ _
    exact .inr le_rfl
  · intro a b c d rest _ _ _ _ _ _
    exact .inr (by simp)

/-- The array that the decoder allocates is as long as what it writes. -/
theorem length_atob (h : isCanonicalBase64 value = true) :
    (atob value).length + padding value = value.length / 4 * 3 := by
  apply canonical_cases (P := fun value =>
    (atob value).length + padding value = value.length / 4 * 3) _ _ _ h
  · rfl
  · intro a b c _ _ hc
    rcases hc with rfl | hc
    · have htwo : ['=', '='] <:+ [a, b, '=', '='] := ⟨[a, b], rfl⟩
      rw [padding, if_pos htwo, atob, if_pos rfl]
      simp
    · have hne := ne_pad_of_mem hc
      have htwo : ¬['=', '='] <:+ [a, b, c, '='] := by
        intro hsuffix
        have heq := suffix_iff_eq_drop.1 hsuffix
        simp only [length_cons, length_nil, drop_succ_cons, drop_zero, List.cons.injEq] at heq
        exact hne heq.1.symm
      have hone : ['='] <:+ [a, b, c, '='] := ⟨[a, b, c], rfl⟩
      rw [padding, if_neg htwo, if_pos hone, atob, if_neg hne, if_pos rfl]
      simp
  · intro a b c d rest _ _ hc hd hrest ih
    have hpadding : padding (a :: b :: c :: d :: rest) = padding rest := by
      rcases canonical_length hrest with rfl | hlong
      · exact padding_concat [a, b, c] (ne_pad_of_mem hd)
      · have hsame : ∀ suffix : List Char, suffix.length ≤ 2 →
            (suffix <:+ a :: b :: c :: d :: rest ↔ suffix <:+ rest) := fun suffix hshort =>
          @suffix_append_iff suffix [a, b, c, d] rest (by omega)
        unfold padding
        simp only [hsame ['=', '='] (by decide), hsame ['='] (by decide)]
    rw [hpadding, atob_cons hc hd]
    simp only [length_cons]
    omega

/-- What the decoder writes fills its array. -/
theorem base64ToArray_eq (value : List Char) : base64ToArray value = base64ToBytes value := by
  unfold base64ToArray
  rw [base64ToBytes_eq]
  split
  · rename_i h
    have hlength : allocatedLength value = (atob value).length := by
      have hfits := length_atob h
      unfold allocatedLength
      omega
    rw [map_some, written, hlength, take_length, Nat.sub_self, replicate_zero, append_nil]
  · rfl

/-! ## What is accepted -/

/-- The codec is exact on a text: the decoder takes it just when the encoder writes it, and then
it is written back. -/
def ExactOn (value : List Char) : Prop :=
  ((base64ToArray value).isSome ↔ ∃ bytes, (bytesToBase64 bytes).toList = value) ∧
    ∀ bytes, base64ToArray value = some bytes → (bytesToBase64 bytes).toList = value

theorem exactOn_of_clean (h : isCanonicalBase64 value → strayBits value = false) :
    ExactOn value := by
  have hback : ∀ bytes, base64ToArray value = some bytes →
      (bytesToBase64 bytes).toList = value := by
    intro bytes hbytes
    rw [base64ToArray_eq, base64ToBytes_eq] at hbytes
    split at hbytes
    · rename_i hcanonical
      cases hbytes
      rw [toList_bytesToBase64, btoa_atob hcanonical (h hcanonical)]
    · cases hbytes
  refine ⟨⟨fun hsome => ?_, ?_⟩, hback⟩
  · obtain ⟨bytes, hbytes⟩ := isSome_iff_exists.1 hsome
    exact ⟨bytes, hback bytes hbytes⟩
  · rintro ⟨bytes, rfl⟩
    rw [base64ToArray_eq, toList_bytesToBase64, base64ToBytes_btoa]
    rfl

/-- Every array of bytes is read back, and the decoder takes just what the encoder writes, where
no bits are left over in the last group. -/
theorem codec_exact_iff (bytes : Uint8Array) (value : List Char) :
    base64ToArray (bytesToBase64 bytes).toList = some bytes ∧
      (ExactOn value ↔ ¬(isCanonicalBase64 value = true ∧ strayBits value = true)) := by
  refine ⟨?_, ?_, ?_⟩
  · rw [base64ToArray_eq, toList_bytesToBase64, base64ToBytes_btoa]
  · rintro ⟨-, hback⟩ ⟨hcanonical, hstray⟩
    have hsome : base64ToArray value = some (atob value) := by
      rw [base64ToArray_eq, base64ToBytes_eq, if_pos hcanonical]
    have hsame := hback _ hsome
    rw [toList_bytesToBase64] at hsame
    have hclean := strayBits_btoa (atob value)
    rw [hsame, hstray] at hclean
    cases hclean
  · intro hclean
    apply exactOn_of_clean
    intro hcanonical
    rw [not_and, Bool.not_eq_true] at hclean
    exact hclean hcanonical

/-- `QR==` is taken for the byte 65, which is written `QQ==`. -/
theorem stray_bits_accepted :
    base64ToArray "QR==".toList = some [65] ∧ (bytesToBase64 [65]).toList = "QQ==".toList ∧
      ¬ExactOn "QR==".toList := by
  have htext : "QR==".toList = ['Q', 'R', '=', '='] := String.toList_ofList
  have hother : "QQ==".toList = ['Q', 'Q', '=', '='] := String.toList_ofList
  have hbytes : atob ['Q', 'R', '=', '='] = [65] := by
    simp [atob, decodeSix, alphabet_eq_chars]
    rfl
  have hsome : base64ToArray ['Q', 'R', '=', '='] = some [65] := by
    unfold base64ToArray base64ToBytes
    rw [if_pos (by simp [isCanonicalBase64, alphabet_eq_chars])]
    have hchunks : chunks DECODE_CHUNK_CHARS ['Q', 'R', '=', '='] = [['Q', 'R', '=', '=']] := by
      decide +kernel
    rw [hchunks, flatMap_singleton, hbytes]
    rfl
  have hwritten : (bytesToBase64 [65]).toList = ['Q', 'Q', '=', '='] := by
    rw [toList_bytesToBase64]
    simp [btoa, encodeSix, alphabet_eq_chars]
  rw [htext, hother]
  refine ⟨hsome, hwritten, fun hexact => ?_⟩
  have hsame := hexact.2 [65] hsome
  rw [hwritten] at hsame
  exact absurd hsame (by decide)

end bbcom.base64
