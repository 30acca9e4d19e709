-- Local timestamps with a cached date (`timestamp.rs`). What `chrono` knows of the time zone stands
-- outside: the offset at an instant, which instants it can hold, and the text of a date.
import Bbcom.ExportFormatter
import Bbcom.Lib.Runs

open bbcom.js bbcom.runs bbcom.export_session

namespace bbcom.timestamp

open List Option

def MS_PER_DAY : Int := 86400000

structure Chrono where
  /-- `local_minus_utc` at an instant in milliseconds, in seconds. -/
  offset : Int → Int
  /-- The days in which it can hold the instants. -/
  representableDay : Int → Bool
  /-- `%Y-%m-%d` of a day since the epoch. -/
  dateText : Int → List Char
  /-- `{:.3}` of a double. -/
  floatText : JsNumber → List Char

/-- What the code takes from the library: whole seconds below a day, a range of years that is far
inside that of `i64`, and dates that can be told apart. -/
structure Chrono.Lawful (chrono : Chrono) : Prop where
  offset : ∀ millis, -86400 < chrono.offset millis ∧ chrono.offset millis < 86400
  range : ∀ day, chrono.representableDay day → -2 ^ 35 < day ∧ day < 2 ^ 35
  dates : Function.Injective chrono.dateText

/-- `CachedLocalDate`, with the day of its prefix. -/
structure CachedLocalDate where
  epochDay : Int
  localDay : Int
  pre : List Char
  offsetMs : Int
  deriving DecidableEq

/-- A sum of two `i64`, where it is one. -/
def addI64 (a b : Int) : Option Int :=
  if -2 ^ 63 ≤ a + b ∧ a + b < 2 ^ 63 then some (a + b) else none

/-- `{:02}` and `{:03}`. -/
def padded (width n : Nat) : List Char := (Nat.toDigits 10 n).leftpad width '0'

/-- `write_local_timestamp`, behind the date. -/
def clockText (localMsOfDay : Nat) : List Char :=
  let secondsOfDay := localMsOfDay / 1000
  ' ' :: padded 2 (secondsOfDay / 3600) ++ ':' :: padded 2 (secondsOfDay / 60 % 60) ++
    ':' :: padded 2 (secondsOfDay % 60) ++ '.' :: padded 3 (localMsOfDay % 1000)

def writeLocalTimestamp (datePrefix : List Char) (localMsOfDay : Int) : List Char :=
  datePrefix ++ clockText localMsOfDay.toNat

/-- `cached_prefix_for`; `none` outside is a sum that does not fit. -/
def cachedPrefixFor (cache : Option CachedLocalDate) (millis : Int) :
    Option (Option (List Char × Int)) :=
  match cache with
  | none => some none
  | some cached =>
    if cached.epochDay ≠ millis / MS_PER_DAY then some none
    else do
      let localMs ← addI64 millis cached.offsetMs
      if cached.localDay ≠ localMs / MS_PER_DAY then some none
      else some (some (cached.pre, cached.offsetMs))

/-- `format_local_timestamp_into`: the text, if there is one, and the cache behind it. -/
def formatLocalTimestampInto (chrono : Chrono) (cache : Option CachedLocalDate) (millis : Int) :
    Option (Option (List Char) × Option CachedLocalDate) := do
  match ← cachedPrefixFor cache millis with
  | some (datePrefix, offsetMs) =>
    let localMs ← addI64 millis offsetMs
    some (some (writeLocalTimestamp datePrefix (localMs % MS_PER_DAY)), cache)
  | none =>
    if !chrono.representableDay (millis / MS_PER_DAY) then some (none, cache)
    else
      let offsetMs := chrono.offset millis * 1000
      let datePrefix := chrono.dateText ((millis + offsetMs) / MS_PER_DAY)
      let localMs ← addI64 millis offsetMs
      some (some (writeLocalTimestamp datePrefix (localMs % MS_PER_DAY)),
        some ⟨millis / MS_PER_DAY, localMs / MS_PER_DAY, datePrefix, offsetMs⟩)

/-! ## Calls -/

inductive Call
  /-- `format_timestamp`. -/
  | float (millis : JsNumber)
  /-- `format_timestamp_ms_into`. -/
  | unsigned (ms : UInt64)

/-- `as i64`. -/
def Call.millis : Call → Int
  | .float .nan | .float .negativeZero => 0
  | .float (.infinity negative) => if negative then -2 ^ 63 else 2 ^ 63 - 1
  | .float (.finite q) => max (-2 ^ 63) (min (2 ^ 63 - 1) (trunc q))
  | .unsigned ms => if ms.toNat < 2 ^ 63 then ms.toNat else ms.toNat - 2 ^ 64

def Call.fallback (chrono : Chrono) : Call → List Char
  | .float millis => chrono.floatText millis
  | .unsigned ms => Nat.toDigits 10 ms.toNat ++ ['.', '0', '0', '0']

/-- The text of a call and the cache behind it. -/
def format (chrono : Chrono) (cache : Option CachedLocalDate) (call : Call) :
    Option (List Char × Option CachedLocalDate) :=
  (formatLocalTimestampInto chrono cache call.millis).map fun (text, cache) =>
    (text.getD (call.fallback chrono), cache)

/-- The text of a call that finds no cache. -/
def uncached (chrono : Chrono) (call : Call) : Option (List Char) :=
  (format chrono none call).map Prod.fst

/-- A run of calls: the cache, and what the calls have written. No sum has overflowed so far. -/
structure Run where
  cache : Option CachedLocalDate
  written : List (List Char)

def step (chrono : Chrono) (run : Option Run) (call : Call) : Option Run := do
  let run ← run
  let (text, cache) ← format chrono run.cache call
  some ⟨cache, run.written ++ [text]⟩

/-! ## What a cache is good for -/

variable {chrono : Chrono}

/-- The time that a local clock shows, date and all. -/
def localText (chrono : Chrono) (localMs : Int) : List Char :=
  writeLocalTimestamp (chrono.dateText (localMs / MS_PER_DAY)) (localMs % MS_PER_DAY)

/-- The cache was filled for an instant with its offset. -/
structure Filled (chrono : Chrono) (cached : CachedLocalDate) : Prop where
  pre : cached.pre = chrono.dateText cached.localDay
  offset : -86400000 < cached.offsetMs ∧ cached.offsetMs < 86400000
  day : chrono.representableDay cached.epochDay

/-- A call that takes the cached date finds the offset of its own instant there. -/
def OffsetHolds (chrono : Chrono) (cache : Option CachedLocalDate) (call : Call) : Prop :=
  ∀ cached ∈ cache, cached.epochDay = call.millis / MS_PER_DAY →
    cached.localDay = (call.millis + cached.offsetMs) / MS_PER_DAY →
    cached.offsetMs = chrono.offset call.millis * 1000

/-- A field of fixed width takes every number below its bound, and shows it. -/
theorem padded_spec {width n : Nat} (hwidth : 0 < width) (h : n < 10 ^ width) :
    (padded width n).length = width ∧ Nat.ofDigitChars 10 (padded width n) 0 = n := by
  have hlength := (Nat.length_toDigits_le_iff (by decide : 1 < 10) hwidth).2 h
  unfold padded
  constructor
  · rw [length_leftpad]
    exact max_eq_left hlength
  · rw [leftpad, Nat.ofDigitChars_append, Nat.ofDigitChars_replicate_zero, Nat.mul_zero,
      Nat.ofDigitChars_ten_toDigits]

theorem length_clockText {n : Nat} (h : n < 86400000) : (clockText n).length = 13 := by
  have hhours := (padded_spec two_pos (show n / 1000 / 3600 < 10 ^ 2 by omega)).1
  have hminutes := (padded_spec two_pos (show n / 1000 / 60 % 60 < 10 ^ 2 by omega)).1
  have hseconds := (padded_spec two_pos (show n / 1000 % 60 < 10 ^ 2 by omega)).1
  have hmillis := (padded_spec three_pos (show n % 1000 < 10 ^ 3 by omega)).1
  simp [clockText, hhours, hminutes, hseconds, hmillis]

/-- A field of fixed width is read off the text. -/
theorem field_inj {width a b : Nat} {front back : List Char} (hwidth : 0 < width)
    (ha : a < 10 ^ width) (hb : b < 10 ^ width)
    (h : padded width a ++ front = padded width b ++ back) : a = b ∧ front = back := by
  have hfirst := padded_spec hwidth ha
  have hsecond := padded_spec hwidth hb
  obtain ⟨hfield, hrest⟩ := append_inj h (hfirst.1.trans hsecond.1.symm)
  refine ⟨?_, hrest⟩
  rw [← hfirst.2, hfield, hsecond.2]

theorem clockText_inj {n m : Nat} (hn : n < 86400000) (hm : m < 86400000)
    (h : clockText n = clockText m) : n = m := by
  simp only [clockText, cons_append, append_assoc, cons.injEq, true_and] at h
  obtain ⟨hhours, h⟩ := field_inj two_pos (by omega) (by omega) h
  obtain ⟨hminutes, h⟩ := field_inj two_pos (by omega) (by omega) (cons.inj h).2
  obtain ⟨hseconds, h⟩ := field_inj two_pos (by omega) (by omega) (cons.inj h).2
  have hmillis := (field_inj three_pos (by omega) (by omega)
    (congrArg (· ++ []) (cons.inj h).2)).1
  omega

/-- Two instants show the same local time just when they are the same there. -/
theorem localText_inj (h : chrono.Lawful) {a b : Int} :
    localText chrono a = localText chrono b ↔ a = b := by
  refine ⟨fun hsame => ?_, congrArg _⟩
  have hday : ∀ n : Int, (n % MS_PER_DAY).toNat < 86400000 := by
    intro n
    simp only [MS_PER_DAY]
    omega
  obtain ⟨hdate, hclock⟩ := append_inj' hsame
    ((length_clockText (hday a)).trans (length_clockText (hday b)).symm)
  have hdays := h.dates hdate
  have htimes := clockText_inj (hday a) (hday b) hclock
  simp only [MS_PER_DAY] at hdays htimes
  omega

theorem addI64_of_day {day millis offsetMs : Int} (hday : -2 ^ 35 < day ∧ day < 2 ^ 35)
    (hmillis : millis / MS_PER_DAY = day) (hoffset : -86400000 < offsetMs ∧ offsetMs < 86400000) :
    addI64 millis offsetMs = some (millis + offsetMs) := by
  apply if_pos
  simp only [MS_PER_DAY] at hmillis
  omega

variable {cache : Option CachedLocalDate}

/-- Where nothing is taken from the cache, a call fills it. -/
theorem formatLocalTimestampInto_miss (h : chrono.Lawful) {millis : Int}
    (hmiss : cachedPrefixFor cache millis = some none) :
    formatLocalTimestampInto chrono cache millis =
      if chrono.representableDay (millis / MS_PER_DAY) then
        some (some (localText chrono (millis + chrono.offset millis * 1000)),
          some ⟨millis / MS_PER_DAY, (millis + chrono.offset millis * 1000) / MS_PER_DAY,
            chrono.dateText ((millis + chrono.offset millis * 1000) / MS_PER_DAY),
            chrono.offset millis * 1000⟩)
      else some (none, cache) := by
  have hoffset := h.offset millis
  by_cases hday : chrono.representableDay (millis / MS_PER_DAY)
  · have hsum := addI64_of_day (h.range _ hday) rfl
      (show -86400000 < chrono.offset millis * 1000 ∧ _ by omega)
    simp [formatLocalTimestampInto, hmiss, hday, hsum, localText]
  · simp [formatLocalTimestampInto, hmiss, hday]

theorem uncached_eq (h : chrono.Lawful) (call : Call) :
    uncached chrono call = some (if chrono.representableDay (call.millis / MS_PER_DAY) then
      localText chrono (call.millis + chrono.offset call.millis * 1000)
    else call.fallback chrono) := by
  unfold uncached format
  rw [formatLocalTimestampInto_miss h rfl]
  split <;> rfl

/-- A call overflows nowhere, and writes what it would write without the cache just when the
offset holds. -/
theorem format_spec (h : chrono.Lawful) (hfilled : ∀ cached ∈ cache, Filled chrono cached)
    (call : Call) :
    ∃ text cache', format chrono cache call = some (text, cache') ∧
      (∀ cached ∈ cache', Filled chrono cached) ∧
      (some text = uncached chrono call ↔ OffsetHolds chrono cache call) := by
  rw [uncached_eq h]
  -- a call that takes nothing from the cache
  have hderived (hmiss : cachedPrefixFor cache call.millis = some none)
      (hholds : OffsetHolds chrono cache call) :
      ∃ text cache', format chrono cache call = some (text, cache') ∧
        (∀ cached ∈ cache', Filled chrono cached) ∧
        (some text = some (if chrono.representableDay (call.millis / MS_PER_DAY) then
          localText chrono (call.millis + chrono.offset call.millis * 1000)
        else call.fallback chrono) ↔ OffsetHolds chrono cache call) := by
    unfold format
    rw [formatLocalTimestampInto_miss h hmiss]
    split
    · rename_i hday
      refine ⟨_, _, rfl, fun cached hcached => ?_, iff_of_true rfl hholds⟩
      obtain rfl := some.inj hcached
      have hoffset := h.offset call.millis
      exact ⟨rfl, by simp only; omega, hday⟩
    · exact ⟨_, _, rfl, hfilled, iff_of_true rfl hholds⟩
  cases cache with
  | none => exact hderived rfl nofun
  | some cached =>
    obtain ⟨hpre, hoffset, hday⟩ := hfilled cached rfl
    by_cases hsame : cached.epochDay = call.millis / MS_PER_DAY
    · have hsum := addI64_of_day (h.range _ hday) hsame.symm hoffset
      by_cases hlocal : cached.localDay = (call.millis + cached.offsetMs) / MS_PER_DAY
      · -- the date of the cache, and the clock with its offset
        have hformat : format chrono (some cached) call =
            some (localText chrono (call.millis + cached.offsetMs), some cached) := by
          simp [format, formatLocalTimestampInto, cachedPrefixFor, hsame, hsum, hlocal, hpre,
            localText]
        refine ⟨_, _, hformat, hfilled, ?_⟩
        rw [if_pos (hsame ▸ hday), some.injEq, localText_inj h]
        constructor
        · intro hequal other hother _ _
          obtain rfl := some.inj hother
          omega
        · intro hholds
          rw [hholds cached rfl hsame hlocal]
      · apply hderived
        · simp [cachedPrefixFor, hsame, hsum, hlocal]
        · intro other hother _ hcached
          obtain rfl := some.inj hother
          exact absurd hcached hlocal
    · apply hderived
      · simp [cachedPrefixFor, hsame]
      · intro other hother hcached _
        obtain rfl := some.inj hother
        exact absurd hcached hsame

/-! ## Runs -/

/-- The condition in the state that a call comes in. -/
def Holds (chrono : Chrono) (run : Option Run) (call : Call) : Prop :=
  ∀ r ∈ run, OffsetHolds chrono r.cache call

theorem run_spec (h : chrono.Lawful) (calls : List Call) :
    ∀ r : Run, (∀ cached ∈ r.cache, Filled chrono cached) →
      ∃ cache texts, run (step chrono) (some r) calls = some ⟨cache, r.written ++ texts⟩ ∧
        (texts.map some = calls.map (uncached chrono) ↔
          Along (step chrono) (Holds chrono) (some r) calls) := by
  induction calls with
  | nil => exact fun r _ => ⟨r.cache, [], by simp, iff_of_true rfl trivial⟩
  | cons call calls ih =>
    intro r hfilled
    obtain ⟨text, cache', hformat, hfilled', hiff⟩ := format_spec h hfilled call
    have hstep : step chrono (some r) call = some ⟨cache', r.written ++ [text]⟩ := by
      simp [step, hformat]
    obtain ⟨cache, texts, hrun, hrest⟩ := ih ⟨cache', r.written ++ [text]⟩ hfilled'
    refine ⟨cache, text :: texts, ?_, ?_⟩
    · rw [run_cons, hstep, hrun]
      simp
    · have hhere : Holds chrono (some r) call ↔ OffsetHolds chrono r.cache call := by
        simp [Holds]
      simp only [Along, hstep, ← hrest, hhere, ← hiff, map_cons, cons.injEq]

/-- The cache is transparent just where the offset never changes between the call that filled it
and one that takes its date. No sum overflows. -/
theorem cache_is_transparent_iff (chrono : Chrono) (h : chrono.Lawful) (calls : List Call) :
    ∃ cache written, run (step chrono) (some ⟨none, []⟩) calls = some ⟨cache, written⟩ ∧
      (written.map some = calls.map (uncached chrono) ↔
        Along (step chrono) (Holds chrono) (some ⟨none, []⟩) calls) := by
  obtain ⟨cache, texts, hrun, hiff⟩ := run_spec h calls ⟨none, []⟩ nofun
  exact ⟨cache, texts, hrun, hiff⟩

/-- Berlin, where the clocks went forward on 2024-03-31. The other dates are in unary. -/
def berlin : Chrono where
  offset millis := if millis < 1711846800000 then 3600 else 7200
  representableDay day := -96465293 < day ∧ day < 95026237
  dateText day :=
    if day = 19813 then "2024-03-31".toList
    else replicate (if 0 ≤ day then 2 * day else -2 * day - 1).toNat 'x'
  floatText _ := []

theorem berlin_lawful : berlin.Lawful where
  offset millis := by
    simp only [berlin]
    split <;> decide
  range day h := by
    simp only [berlin, decide_eq_true_eq] at h
    omega
  dates a b h := by
    have hmarked : ∀ n, "2024-03-31".toList ≠ replicate n 'x' := by
      intro n hn
      have hin : '2' ∈ replicate n 'x' := hn ▸ by decide
      exact absurd (eq_of_mem_replicate hin) (by decide)
    simp only [berlin] at h
    by_cases ha : a = 19813 <;> by_cases hb : b = 19813
    · exact ha.trans hb.symm
    · rw [if_pos ha, if_neg hb] at h
      exact absurd h (hmarked _)
    · rw [if_neg ha, if_pos hb] at h
      exact absurd h.symm (hmarked _)
    · rw [if_neg ha, if_neg hb] at h
      have hlength := congrArg length h
      simp only [length_replicate] at hlength
      omega

/-- Half past midnight and two o'clock, in UTC. -/
def springForward : List Call := [.unsigned 1711845000000, .unsigned 1711850400000]

theorem cache_is_transparent_iff_berlin :
    ∃ cache written, run (step berlin) (some ⟨none, []⟩) springForward = some ⟨cache, written⟩ ∧
      (written.map some = springForward.map (uncached berlin) ↔
        Along (step berlin) (Holds berlin) (some ⟨none, []⟩) springForward) :=
  cache_is_transparent_iff berlin berlin_lawful springForward

/-- The second call is written an hour early. -/
theorem spring_forward_is_missed :
    ¬ ∀ (chrono : Chrono), chrono.Lawful → ∀ calls : List Call,
      (run (step chrono) (some ⟨none, []⟩) calls).map (·.written.map some) =
        some (calls.map (uncached chrono)) := by
  intro h
  have hboth := h berlin berlin_lawful springForward
  revert hboth
  decide +kernel

end bbcom.timestamp
