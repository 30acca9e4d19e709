-- The triggers that answer to received bytes (`trigger-engine.ts`), and what a trigger fires on
-- when the stream comes in chunks.
import Bbcom.Lib.Runs
import Bbcom.ByteSearch
import Bbcom.TextDecoder

open bbcom.js bbcom.byte_search bbcom.runs

namespace bbcom.trigger_engine

open List TextDecoder

/-! ## The engine -/

inductive TriggerMatchMode
  | text
  | hex
  deriving DecidableEq

structure Trigger where
  id : JsString
  enabled : Bool
  matchMode : TriggerMatchMode
  pattern : JsString
  response : JsString
  responseIsHex : Bool
  cooldownMs : Int

structure TriggerFire where
  triggerId : JsString
  response : JsString
  responseIsHex : Bool
  deriving DecidableEq

/-- The digit of `/[\da-fA-F]/`. -/
def hexDigit (unit : UInt16) : Option Nat :=
  let n := unit.toNat
  if 0x30 ≤ n ∧ n ≤ 0x39 then some (n - 0x30)
  else if 0x41 ≤ n ∧ n ≤ 0x46 then some (n - 0x41 + 10)
  else if 0x61 ≤ n ∧ n ≤ 0x66 then some (n - 0x61 + 10)
  else none

/-- `parseInt(.., 16)` of each pair of digits. -/
def hexPairs : List Nat → List UInt8
  | high :: low :: rest => UInt8.ofNat (high * 16 + low) :: hexPairs rest
  | _ => []

def parseHexPattern (input : JsString) : List UInt8 :=
  let compact := input.filter fun unit => unit ∉ [0x09, 0x0A, 0x0D, 0x20]
  if compact.length = 0 ∨ compact.length % 2 ≠ 0 ∨ compact.any (hexDigit · = none) then []
  else hexPairs (compact.filterMap hexDigit)

/-- `containsSubarray`: the turns of its outer loop from `i` on. -/
def containsSubarrayFrom (haystack needle : List UInt8) (last i : Nat) : Bool :=
  if i ≤ last then
    if (List.range needle.length).all fun j => haystack[i + j]? = needle[j]? then true
    else containsSubarrayFrom haystack needle last (i + 1)
  else false
termination_by last + 1 - i

def containsSubarray (haystack needle : List UInt8) : Bool :=
  if needle.length = 0 then false
  else if haystack.length < needle.length then false
  else containsSubarrayFrom haystack needle (haystack.length - needle.length) 0

structure TriggerEngine where
  triggers : List Trigger
  byteTail : List UInt8
  textTail : JsString
  textDecoder : TextDecoder
  maxBytePatternLen : Nat
  maxTextPatternLen : Nat
  lastFiredAt : JsString → Option Int

namespace TriggerEngine

/-- One turn of the loop of `recomputeLimits`. -/
def widen (limits : Nat × Nat) (t : Trigger) : Nat × Nat :=
  if !t.enabled then limits
  else if t.matchMode = .hex then
    let length := (parseHexPattern t.pattern).length
    if limits.1 < length then (length, limits.2) else limits
  else if limits.2 < t.pattern.length then (limits.1, t.pattern.length)
  else limits

def recomputeLimits (e : TriggerEngine) : TriggerEngine :=
  let (maxByte, maxText) := e.triggers.foldl widen (1, 1)
  { e with maxBytePatternLen := maxByte, maxTextPatternLen := maxText }

def new (triggers : List Trigger) : TriggerEngine :=
  recomputeLimits ⟨triggers, [], [], .new, 1, 1, fun _ => none⟩

def reset (e : TriggerEngine) : TriggerEngine :=
  { e with byteTail := [], textTail := [], textDecoder := .new, lastFiredAt := fun _ => none }

def setTriggers (e : TriggerEngine) (triggers : List Trigger) : TriggerEngine :=
  (recomputeLimits { e with triggers }).reset

variable (e : TriggerEngine)

def matchText (t : Trigger) : Bool :=
  if t.pattern.length = 0 then false else firstOccurrence t.pattern e.textTail 0 ≠ none

def matchHex (t : Trigger) : Bool :=
  let needle := parseHexPattern t.pattern
  if needle.length = 0 then false else containsSubarray e.byteTail needle

/-- Not fired too recently. -/
def cooledDown (lastFiredAt : JsString → Option Int) (now : Int) (t : Trigger) : Bool :=
  match lastFiredAt t.id with
  | none => true
  | some last => !decide (now - last < t.cooldownMs)

/-- One turn of the loop over the triggers. -/
def check (now : Int) (turn : (JsString → Option Int) × List TriggerFire) (t : Trigger) :
    (JsString → Option Int) × List TriggerFire :=
  if !t.enabled then turn
  else if !cooledDown turn.1 now t then turn
  else
    let matched := if t.matchMode = .hex then e.matchHex t else e.matchText t
    if matched then
      (Function.update turn.1 t.id (some now), turn.2 ++ [⟨t.id, t.response, t.responseIsHex⟩])
    else turn

/-- The tails with the new bytes behind them. -/
def append (bytes : Uint8Array) : TriggerEngine :=
  let (textDecoder, text) := e.textDecoder.decode bytes
  { e with byteTail := e.byteTail ++ bytes, textTail := e.textTail ++ text, textDecoder }

/-- The end of `feed`, which bounds the tails. -/
def trim : TriggerEngine :=
  let byteKeep := e.maxBytePatternLen + 1
  let textKeep := e.maxTextPatternLen + 1
  { e with
    byteTail := if byteKeep < e.byteTail.length then
        e.byteTail.drop (e.byteTail.length - byteKeep)
      else e.byteTail
    textTail := if textKeep < e.textTail.length then
        e.textTail.drop (e.textTail.length - textKeep)
      else e.textTail }

def feed (bytes : Uint8Array) (now : Int) : TriggerEngine × List TriggerFire :=
  if e.triggers.length = 0 then (e, [])
  else
    let e := e.append bytes
    let (lastFiredAt, fires) := e.triggers.foldl (e.check now) (e.lastFiredAt, [])
    (trim { e with lastFiredAt }, fires)

end TriggerEngine

/-! ## Occurrences in a stream -/

section

variable {α : Type}

/-- The last items of a list, `n` of them at most. -/
def keepLast (n : Nat) (items : List α) : List α := items.drop (items.length - n)

/-- An occurrence in the whole stream that ends inside its new part. -/
def EndsInNew (needle old new : List α) : Prop :=
  ∃ i, OccursAt needle (old ++ new) i ∧ old.length < i + needle.length

theorem trim_eq_keepLast (n : Nat) (items : List α) :
    (if n < items.length then items.drop (items.length - n) else items) = keepLast n items := by
  unfold keepLast
  split_ifs with hlong
  · rfl
  · rw [show items.length - n = 0 by omega, drop_zero]

@[simp] theorem keepLast_nil (n : Nat) : keepLast n ([] : List α) = [] := List.drop_nil

theorem keepLast_append (n : Nat) (old new : List α) :
    keepLast n old ++ new = (old ++ new).drop (old.length - n) := by
  rw [keepLast, drop_append_of_le_length (Nat.sub_le _ _)]

theorem keepLast_keepLast_append (n : Nat) (old new : List α) :
    keepLast n (keepLast n old ++ new) = keepLast n (old ++ new) := by
  rw [keepLast_append]
  unfold keepLast
  rw [List.drop_drop, length_drop, length_append]
  congr 1
  omega

/-- Behind a tail that is long enough, a search finds what ends in the new part, and besides only
what lies in the tail. -/
theorem occurs_behind_tail {needle old new : List α} {n : Nat} (hlen : needle.length ≤ n)
    (hneedle : needle ≠ []) :
    (∃ i, OccursAt needle (keepLast n old ++ new) i) ↔
      EndsInNew needle old new ∨ ∃ i, OccursAt needle (keepLast n old) i := by
  have hpos := length_pos_of_ne_nil hneedle
  have htail := keepLast_append n old new
  constructor
  · rintro ⟨i, hi⟩
    have hi' := hi
    rw [htail, occursAt_drop] at hi'
    by_cases hends : old.length < old.length - n + i + needle.length
    · exact .inl ⟨_, hi', hends⟩
    · have hfit : i + needle.length ≤ (keepLast n old).length := by
        unfold keepLast
        rw [length_drop]
        omega
      exact .inr ⟨i, (occursAt_append new hfit).1 hi⟩
  · rintro (⟨i, hi, hends⟩ | ⟨i, hi⟩)
    · refine ⟨i - (old.length - n), ?_⟩
      rw [htail, occursAt_drop, show old.length - n + (i - (old.length - n)) = i by omega]
      exact hi
    · exact ⟨i, (occursAt_append new (hi.fits hneedle)).2 hi⟩

end

theorem containsSubarrayFrom_iff {haystack needle : List UInt8} (hneedle : needle ≠ [])
    (hfit : needle.length ≤ haystack.length) (i : Nat) :
    containsSubarrayFrom haystack needle (haystack.length - needle.length) i = true ↔
      ∃ k, i ≤ k ∧ OccursAt needle haystack k := by
  have hturn : ∀ k, ((List.range needle.length).all fun j => haystack[k + j]? = needle[j]?) =
      true ↔ OccursAt needle haystack k := by
    intro k
    rw [occursAt_iff_getElem, all_eq_true]
    simp
  rw [containsSubarrayFrom]
  split_ifs with hi hmatch
  · exact ⟨fun _ => ⟨i, le_rfl, (hturn i).1 hmatch⟩, fun _ => rfl⟩
  · rw [containsSubarrayFrom_iff hneedle hfit (i + 1)]
    constructor
    · rintro ⟨k, hk, hoccurs⟩
      exact ⟨k, by omega, hoccurs⟩
    · rintro ⟨k, hk, hoccurs⟩
      rcases Nat.eq_or_lt_of_le hk with rfl | hlater
      · exact absurd ((hturn i).2 hoccurs) hmatch
      · exact ⟨k, hlater, hoccurs⟩
  · constructor
    · intro hfalse
      cases hfalse
    · rintro ⟨k, hk, hoccurs⟩
      have hend := hoccurs.fits hneedle
      omega
termination_by haystack.length - needle.length + 1 - i

theorem containsSubarray_iff {haystack needle : List UInt8} (hneedle : needle ≠ []) :
    containsSubarray haystack needle = true ↔ ∃ i, OccursAt needle haystack i := by
  have hpos := length_pos_of_ne_nil hneedle
  unfold containsSubarray
  rw [if_neg (by omega)]
  split_ifs with hshort
  · constructor
    · intro hfalse
      cases hfalse
    · rintro ⟨i, hoccurs⟩
      have hend := hoccurs.fits hneedle
      omega
  · rw [containsSubarrayFrom_iff hneedle (by omega)]
    simp

/-! ## Runs -/

inductive Event
  | feed (bytes : Uint8Array) (now : Int)
  | setTriggers (triggers : List Trigger)
  | reset

/-- The engine and the stream that it has been fed since its tails were last emptied. -/
structure World where
  engine : TriggerEngine
  fed : Uint8Array

def World.start (triggers : List Trigger) : World := ⟨.new triggers, []⟩

def step (w : World) : Event → World
  | .feed bytes now => ⟨(w.engine.feed bytes now).1, w.fed ++ bytes⟩
  | .setTriggers triggers => ⟨w.engine.setTriggers triggers, []⟩
  | .reset => ⟨w.engine.reset, []⟩

/-- The text of a stream, as far as it is decided. -/
def decoded (fed : Uint8Array) : JsString := (new.decode fed).2

/-- The text that a chunk adds. -/
def decodedNext (fed bytes : Uint8Array) : JsString :=
  ((new.decode fed).1.decode bytes).2

theorem decoded_append (fed bytes : Uint8Array) :
    decoded (fed ++ bytes) = decoded fed ++ decodedNext fed bytes := by
  simp only [decoded, decodedNext, decode_append]

/-- The limits cover the patterns of the enabled triggers. -/
structure Covers (maxByte maxText : Nat) (triggers : List Trigger) : Prop where
  hex : ∀ t ∈ triggers, t.enabled = true → t.matchMode = .hex →
    (parseHexPattern t.pattern).length ≤ maxByte
  text : ∀ t ∈ triggers, t.enabled = true → t.matchMode = .text → t.pattern.length ≤ maxText

open TriggerEngine

theorem widen_covers (limits : Nat × Nat) (triggers : List Trigger) :
    limits.1 ≤ (triggers.foldl widen limits).1 ∧
      limits.2 ≤ (triggers.foldl widen limits).2 ∧
      Covers (triggers.foldl widen limits).1
        (triggers.foldl widen limits).2 triggers := by
  induction triggers generalizing limits with
  | nil => exact ⟨le_rfl, le_rfl, fun _ h => (not_mem_nil h).elim,
      fun _ h => (not_mem_nil h).elim⟩
  | cons t triggers ih =>
    have hturn : limits.1 ≤ (widen limits t).1 ∧
        limits.2 ≤ (widen limits t).2 ∧
        Covers (widen limits t).1 (widen limits t).2 [t] := by
      unfold widen
      cases hmode : t.matchMode with
      | hex =>
        simp only [if_true]
        split_ifs with hoff hlonger
        · refine ⟨le_rfl, le_rfl, ?_, ?_⟩
          all_goals simp_all
        · refine ⟨hlonger.le, le_rfl, ?_, ?_⟩
          all_goals simp_all
        · refine ⟨le_rfl, le_rfl, ?_, ?_⟩
          all_goals simp_all
      | text =>
        simp only [reduceCtorEq, if_false]
        split_ifs with hoff hlonger
        · refine ⟨le_rfl, le_rfl, ?_, ?_⟩
          all_goals simp_all
        · refine ⟨le_rfl, hlonger.le, ?_, ?_⟩
          all_goals simp_all
        · refine ⟨le_rfl, le_rfl, ?_, ?_⟩
          all_goals simp_all
    obtain ⟨hbyte, htext, hcovers⟩ := hturn
    obtain ⟨hbyte', htext', hcovers'⟩ := ih (widen limits t)
    refine ⟨hbyte.trans hbyte', htext.trans htext', ?_, ?_⟩
    · intro other hother henabled hmode
      rcases mem_cons.1 hother with rfl | hrest
      · exact (hcovers.hex other mem_cons_self henabled hmode).trans hbyte'
      · exact hcovers'.hex other hrest henabled hmode
    · intro other hother henabled hmode
      rcases mem_cons.1 hother with rfl | hrest
      · exact (hcovers.text other mem_cons_self henabled hmode).trans htext'
      · exact hcovers'.text other hrest henabled hmode

/-- What the tails hold between two calls. An engine without triggers lets bytes pass by. -/
structure TailsSound (w : World) : Prop where
  covers : Covers w.engine.maxBytePatternLen w.engine.maxTextPatternLen w.engine.triggers
  bytes : w.engine.triggers ≠ [] →
    w.engine.byteTail = keepLast (w.engine.maxBytePatternLen + 1) w.fed
  text : w.engine.triggers ≠ [] →
    w.engine.textTail = keepLast (w.engine.maxTextPatternLen + 1) (decoded w.fed)
  decoder : w.engine.triggers ≠ [] → w.engine.textDecoder = (new.decode w.fed).1

theorem recomputeLimits_covers (e : TriggerEngine) :
    Covers e.recomputeLimits.maxBytePatternLen e.recomputeLimits.maxTextPatternLen
      e.recomputeLimits.triggers :=
  (widen_covers (1, 1) e.triggers).2.2

open World

theorem tailsSound_start (triggers : List Trigger) : TailsSound (start triggers) :=
  ⟨recomputeLimits_covers _, fun _ => (keepLast_nil _).symm, fun _ => (keepLast_nil _).symm,
    fun _ => rfl⟩

theorem feed_engine {e : TriggerEngine} (hsome : e.triggers ≠ []) (bytes : Uint8Array) (now : Int) :
    (e.feed bytes now).1 = { (e.append bytes).trim with
      lastFiredAt := ((e.append bytes).triggers.foldl ((e.append bytes).check now)
        ((e.append bytes).lastFiredAt, [])).1 } := by
  unfold feed
  rw [if_neg (by simpa using hsome)]
  rfl

theorem TailsSound.feed {w : World} (h : TailsSound w) (bytes : Uint8Array) (now : Int) :
    TailsSound (step w (.feed bytes now)) := by
  by_cases hsome : w.engine.triggers = []
  · have hsame : (w.engine.feed bytes now).1 = w.engine := by
      simp [TriggerEngine.feed, hsome]
    have hnone : ∀ {p : Prop}, w.engine.triggers ≠ [] → p := fun hne => (hne hsome).elim
    simp only [step, hsame]
    exact ⟨h.covers, hnone, hnone, hnone⟩
  · have hbytes := h.bytes hsome
    have htext := h.text hsome
    have hdecoder := h.decoder hsome
    simp only [step, feed_engine hsome]
    refine ⟨h.covers, fun _ => ?_, fun _ => ?_, fun _ => ?_⟩
    · change (if _ then _ else _) = _
      rw [trim_eq_keepLast]
      change keepLast (w.engine.maxBytePatternLen + 1) (w.engine.byteTail ++ bytes) = _
      rw [hbytes]
      exact keepLast_keepLast_append _ _ _
    · change (if _ then _ else _) = _
      rw [trim_eq_keepLast]
      change keepLast (w.engine.maxTextPatternLen + 1)
        (w.engine.textTail ++ (w.engine.textDecoder.decode bytes).2) = _
      rw [htext, hdecoder, decoded_append]
      exact keepLast_keepLast_append _ _ _
    · change (w.engine.textDecoder.decode bytes).1 = (new.decode (w.fed ++ bytes)).1
      rw [hdecoder, decode_append]

variable {w : World}

theorem TailsSound.step (h : TailsSound w) (e : Event) :
    TailsSound (trigger_engine.step w e) := by
  cases e with
  | feed bytes now => exact h.feed bytes now
  | setTriggers triggers =>
    exact ⟨recomputeLimits_covers _, fun _ => (keepLast_nil _).symm,
      fun _ => (keepLast_nil _).symm, fun _ => rfl⟩
  | reset =>
    exact ⟨h.covers, fun _ => (keepLast_nil _).symm, fun _ => (keepLast_nil _).symm, fun _ => rfl⟩

theorem tailsSound_run (triggers : List Trigger) (events : List Event) :
    TailsSound (run step (start triggers) events) :=
  run_invariant (fun _ e h => h.step e) (tailsSound_start triggers) events

/-! ## What fires -/

/-- A pattern that can occur: it has an item, and in hex mode it can be read. -/
def Trigger.hasPattern (t : Trigger) : Prop :=
  if t.matchMode = .hex then parseHexPattern t.pattern ≠ [] else t.pattern ≠ []

/-- An occurrence of the pattern ends inside the bytes of this call. -/
def Trigger.Completed (t : Trigger) (fed bytes : Uint8Array) : Prop :=
  if t.matchMode = .hex then EndsInNew (parseHexPattern t.pattern) fed bytes
  else EndsInNew t.pattern (decoded fed) (decodedNext fed bytes)

/-- An occurrence of the pattern lies in what the engine keeps of the earlier calls. -/
def Trigger.Retained (t : Trigger) (maxByte maxText : Nat) (fed : Uint8Array) : Prop :=
  if t.matchMode = .hex then
    ∃ i, OccursAt (parseHexPattern t.pattern) (keepLast (maxByte + 1) fed) i
  else ∃ i, OccursAt t.pattern (keepLast (maxText + 1) (decoded fed)) i

/-- When a trigger has its turn in a call of `feed`: the triggers in front of it have had theirs. -/
def World.turn (w : World) (bytes : Uint8Array) (now : Int) (front : List Trigger) :
    (JsString → Option Int) × List TriggerFire :=
  front.foldl ((w.engine.append bytes).check now) (w.engine.lastFiredAt, [])

/-- At its turn the trigger adds its fire. -/
def World.Fires (w : World) (bytes : Uint8Array) (now : Int) (front : List Trigger)
    (t : Trigger) : Prop :=
  ((w.engine.append bytes).check now (w.turn bytes now front) t).2 =
    (w.turn bytes now front).2 ++ [⟨t.id, t.response, t.responseIsHex⟩]

/-- Each enabled trigger with a pattern fires exactly if its cooldown allows it and an occurrence
of its pattern ends inside the bytes of this call. -/
def FiresExactly (w : World) (bytes : Uint8Array) (now : Int) : Prop :=
  ∀ front t back, w.engine.triggers = front ++ t :: back → t.enabled = true → t.hasPattern →
    (w.Fires bytes now front t ↔
      cooledDown (w.turn bytes now front).1 now t = true ∧ t.Completed w.fed bytes)

/-- No trigger that may fire finds its pattern in the retained tail alone. -/
def NothingRetained (w : World) (bytes : Uint8Array) (now : Int) : Prop :=
  ∀ front t back, w.engine.triggers = front ++ t :: back → t.enabled = true → t.hasPattern →
    cooledDown (w.turn bytes now front).1 now t = true →
    t.Retained w.engine.maxBytePatternLen w.engine.maxTextPatternLen w.fed →
    t.Completed w.fed bytes

theorem matches_iff (h : TailsSound w) {t : Trigger} (hmem : t ∈ w.engine.triggers)
    (henabled : t.enabled = true) (hpattern : t.hasPattern) (bytes : Uint8Array) :
    (if t.matchMode = .hex then (w.engine.append bytes).matchHex t
      else (w.engine.append bytes).matchText t) = true ↔
      t.Completed w.fed bytes ∨
        t.Retained w.engine.maxBytePatternLen w.engine.maxTextPatternLen w.fed := by
  have hsome : w.engine.triggers ≠ [] := ne_nil_of_mem hmem
  unfold Trigger.hasPattern at hpattern
  unfold Trigger.Completed Trigger.Retained
  cases hmode : t.matchMode with
  | hex =>
    simp only [hmode, if_true] at hpattern ⊢
    have hlen := h.covers.hex t hmem henabled hmode
    have hpos := length_pos_of_ne_nil hpattern
    rw [← occurs_behind_tail (by omega) hpattern, ← h.bytes hsome, ← containsSubarray_iff hpattern]
    unfold matchHex
    rw [if_neg (by omega)]
    rfl
  | text =>
    simp only [hmode, reduceCtorEq, if_false] at hpattern ⊢
    have hlen := h.covers.text t hmem henabled hmode
    have hpos := length_pos_of_ne_nil hpattern
    have hnew : (w.engine.textDecoder.decode bytes).2 = decodedNext w.fed bytes := by
      rw [h.decoder hsome]
      rfl
    rw [← occurs_behind_tail (by omega) hpattern, ← h.text hsome, ← hnew]
    unfold matchText
    rw [if_neg (by omega), decide_eq_true_iff, Ne, firstOccurrence_none hpattern]
    push Not
    constructor
    · rintro ⟨i, _, hoccurs⟩
      exact ⟨i, hoccurs⟩
    · rintro ⟨i, hoccurs⟩
      exact ⟨i, Nat.zero_le i, hoccurs⟩

/-- What a trigger does at its turn. -/
theorem fires_iff (h : TailsSound w) {front back : List Trigger} {t : Trigger}
    (htriggers : w.engine.triggers = front ++ t :: back) (henabled : t.enabled = true)
    (hpattern : t.hasPattern) (bytes : Uint8Array) (now : Int) :
    w.Fires bytes now front t ↔ cooledDown (w.turn bytes now front).1 now t = true ∧
        (t.Completed w.fed bytes ∨
          t.Retained w.engine.maxBytePatternLen w.engine.maxTextPatternLen w.fed) := by
  have hmem : t ∈ w.engine.triggers := by simp [htriggers]
  rw [← matches_iff h hmem henabled hpattern bytes]
  unfold Fires check
  by_cases hcool : cooledDown (w.turn bytes now front).1 now t = true
  · by_cases hmatch : (if t.matchMode = .hex then (w.engine.append bytes).matchHex t
        else (w.engine.append bytes).matchText t) = true
    · simp [henabled, hcool, hmatch]
    · simp [henabled, hcool, hmatch]
  · simp [henabled, hcool]

theorem firesExactly_iff (h : TailsSound w) (bytes : Uint8Array) (now : Int) :
    FiresExactly w bytes now ↔ NothingRetained w bytes now := by
  constructor
  · intro hexact front t back htriggers henabled hpattern hcool hretained
    have hfires := (fires_iff h htriggers henabled hpattern bytes now).2 ⟨hcool, .inr hretained⟩
    exact ((hexact front t back htriggers henabled hpattern).1 hfires).2
  · intro hnothing front t back htriggers henabled hpattern
    rw [fires_iff h htriggers henabled hpattern bytes now]
    constructor
    · rintro ⟨hcool, hcompleted | hretained⟩
      · exact ⟨hcool, hcompleted⟩
      · exact ⟨hcool, hnothing front t back htriggers henabled hpattern hcool hretained⟩
    · rintro ⟨hcool, hcompleted⟩
      exact ⟨hcool, .inl hcompleted⟩

/-- Hex pattern AA without a cooldown. -/
def acknowledge : Trigger :=
  ⟨[0x61], true, .hex, [0x41, 0x41], [0x30, 0x36], true, 0⟩

end bbcom.trigger_engine
