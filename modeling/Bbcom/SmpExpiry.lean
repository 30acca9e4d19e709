-- The expiry clock of the SMP parser: `nextExpiryTimestamp` is the time at which `flushExpired`
-- first has something to do.
import Bbcom.SmpConsoleKeeps

open bbcom.runs

namespace bbcom.smp

open McumgrSmpParser

namespace McumgrSmpParser

variable {p : McumgrSmpParser} {now : Int}

/-! ## What expires -/

/-- A time at which something of the parser expires. -/
inductive Deadline (p : McumgrSmpParser) : Int → Prop
  | console {d : Direction} {last : Int} (h : consoleLastTimestamp (p.state d) = some last) :
      Deadline p (last + p.config.reassemblyTimeoutMs)
  | raw {d : Direction} (h : 0 < (p.state d).rawBuffer.length) :
      Deadline p ((p.state d).rawLastTimestamp + p.config.reassemblyTimeoutMs)
  | request {pending : PendingRequest} (h : pending ∈ p.pendingRequests) :
      Deadline p pending.expiresAt

theorem unexpired_iff : p.Unexpired now ↔ ∀ t, Deadline p t → now < t := by
  constructor
  · rintro ⟨hstates, hawaited⟩ t ht
    cases ht with
    | console h =>
      have hless := (hstates _).1 _ h
      omega
    | raw h =>
      have hless := (hstates _).2 (List.ne_nil_of_length_pos h)
      omega
    | request h => exact hawaited _ h
  · intro hall
    refine ⟨fun d => ⟨fun last h => ?_, fun h => ?_⟩, fun pending h => hall _ (.request h)⟩
    · have hless := hall _ (.console h)
      omega
    · have hless := hall _ (.raw (List.length_pos_of_ne_nil h))
      omega

/-! ## The earliest of them -/

/-- The first of some times, where there is one. -/
structure Earliest (next : Option Int) (times : Int → Prop) : Prop where
  before : ∀ t, times t → ∃ first, next = some first ∧ first ≤ t
  among : ∀ first, next = some first → times first

variable {next : Option Int} {times : Int → Prop}

theorem Earliest.congr {times' : Int → Prop} (h : Earliest next times)
    (hsame : ∀ t, times t ↔ times' t) : Earliest next times' :=
  ⟨fun t ht => h.before t ((hsame t).2 ht), fun first hfirst => (hsame first).1
    (h.among first hfirst)⟩

theorem Earliest.earlier (h : Earliest next times) (candidate : Int) :
    Earliest (earlierTimestamp next candidate) fun t => times t ∨ t = candidate := by
  cases next with
  | none =>
    constructor
    · rintro t (ht | rfl)
      · obtain ⟨first, hnone, _⟩ := h.before t ht
        cases hnone
      · exact ⟨t, rfl, le_rfl⟩
    · intro first hfirst
      exact .inr (Option.some.inj hfirst).symm
  | some current =>
    unfold earlierTimestamp
    simp only
    constructor
    · rintro t (ht | rfl)
      · obtain ⟨first, hsome, hle⟩ := h.before t ht
        cases hsome
        split
        · exact ⟨candidate, rfl, by omega⟩
        · exact ⟨current, rfl, hle⟩
      · split
        · exact ⟨t, rfl, le_rfl⟩
        · exact ⟨current, rfl, by omega⟩
    · intro first hfirst
      split at hfirst
      · exact .inr (Option.some.inj hfirst).symm
      · exact .inl (h.among first hfirst)

theorem Earliest.requests (h : Earliest next times) (requests : List PendingRequest) :
    Earliest (requests.foldl (fun next pending => earlierTimestamp next pending.expiresAt) next)
      fun t => times t ∨ ∃ pending ∈ requests, t = pending.expiresAt := by
  induction requests generalizing next times with
  | nil => exact h.congr fun t => by simp
  | cons pending requests ih =>
    refine (ih (h.earlier pending.expiresAt)).congr fun t => ?_
    simp [or_assoc]

/-- The times that what is held of a console or of raw bytes adds. -/
theorem Earliest.held {last : Option Int} (h : Earliest next times) (timeout first : Int)
    (held : Nat) :
    Earliest ( let console := match last with
        | some last => earlierTimestamp next (last + timeout)
        | none => next
      if 0 < held then earlierTimestamp console (first + timeout) else console)
      fun t => (times t ∨ ∃ before, last = some before ∧ t = before + timeout) ∨
        0 < held ∧ t = first + timeout := by
  cases last with
  | none =>
    dsimp only
    split
    · rename_i hheld
      exact (h.earlier _).congr fun t => by simp [hheld]
    · rename_i hempty
      exact h.congr fun t => by simp [hempty]
  | some last =>
    dsimp only
    split
    · rename_i hheld
      exact ((h.earlier _).earlier _).congr fun t => by simp [hheld]
    · rename_i hempty
      exact (h.earlier _).congr fun t => by simp [hempty]

/-- `nextExpiryTimestamp` is the earliest deadline. -/
theorem nextExpiryTimestamp_earliest (p : McumgrSmpParser) :
    Earliest p.nextExpiryTimestamp (Deadline p) := by
  have hnone : Earliest none fun _ : Int => False := ⟨fun _ h => h.elim, fun _ h => by cases h⟩
  refine (((hnone.held _ _ _).held _ _ _).requests p.pendingRequests).congr fun t => ?_
  constructor
  · rintro (((((h | ⟨last, h, rfl⟩) | ⟨h, rfl⟩) | ⟨last, h, rfl⟩) | ⟨h, rfl⟩) | ⟨pending, h, rfl⟩)
    · exact h.elim
    · exact .console (d := .TX) h
    · exact .raw (d := .TX) h
    · exact .console (d := .RX) h
    · exact .raw (d := .RX) h
    · exact .request h
  · intro ht
    cases ht with
    | @console d last h => cases d <;> simp_all [state]
    | @raw d h => cases d <;> simp_all [state]
    | @request pending h => exact .inr ⟨pending, h, rfl⟩

theorem nextExpiryTimestamp_after :
    (∀ next, p.nextExpiryTimestamp = some next → now < next) ↔ p.Unexpired now := by
  rw [unexpired_iff]
  have hearliest := nextExpiryTimestamp_earliest p
  constructor
  · intro hnext t ht
    obtain ⟨first, hfirst, hle⟩ := hearliest.before t ht
    exact lt_of_lt_of_le (hnext first hfirst) hle
  · exact fun hall next hnext => hall next (hearliest.among next hnext)

/-! ## A flush -/

/-- Nothing of the console of a direction has waited for too long. -/
def ConsoleUnexpired (config : McumgrSmpParserConfig) (now : Int) (s : DirectionState) : Prop :=
  ∀ last, consoleLastTimestamp s = some last → now - last < config.reassemblyTimeoutMs

/-- Nothing of the raw buffer of a direction has waited for too long. -/
def RawUnexpired (config : McumgrSmpParserConfig) (now : Int) (s : DirectionState) : Prop :=
  s.rawBuffer ≠ [] → now - s.rawLastTimestamp < config.reassemblyTimeoutMs

/-- Only the console of one direction has changed. -/
structure ConsoleOf (d : Direction) (p q : McumgrSmpParser) : Prop where
  config : q.config = p.config
  others : ∀ d', d' ≠ d → q.state d' = p.state d'
  rawBuffer : (q.state d).rawBuffer = (p.state d).rawBuffer
  rawLastTimestamp : (q.state d).rawLastTimestamp = (p.state d).rawLastTimestamp

/-- Only the raw buffer of one direction has changed. -/
structure RawOf (d : Direction) (p q : McumgrSmpParser) : Prop where
  config : q.config = p.config
  others : ∀ d', d' ≠ d → q.state d' = p.state d'
  console : consoleLastTimestamp (q.state d) = consoleLastTimestamp (p.state d)

theorem flushConsole_unexpired (p : McumgrSmpParser) (d : Direction) (now : Int) :
    ConsoleUnexpired p.config now ((p.flushConsole d now).1.state d) ∧
      ConsoleOf d p (p.flushConsole d now).1 := by
  have hstay : ConsoleOf d p p := ⟨rfl, fun _ _ => rfl, rfl, rfl⟩
  unfold flushConsole
  simp only
  split
  · rename_i hnone
    exact ⟨fun last hlast => by simp [hnone] at hlast, hstay⟩
  rename_i last hlast
  split
  · have hsame : ∀ record, SameStates p (p.create record).1 :=
      fun record => (create_adds p record).1.toSameStates
    refine ⟨fun other hother => ?_, ?_, ?_, ?_, ?_⟩
    · rw [setState_same] at hother
      split at hother
      · cases hother
      · rename_i hnone
        simp [consoleLastTimestamp, hnone] at hother
    · exact (setState_config _ d _).trans (hsame _).config
    · exact fun d' hd => (setState_other _ hd _).trans ((hsame _).state d')
    all_goals
      rw [setState_same]
      split <;> rfl
  · rename_i hwaits
    refine ⟨fun other hother => ?_, hstay⟩
    rw [hlast] at hother
    cases hother
    exact not_le.1 hwaits

theorem flushRaw_unexpired (p : McumgrSmpParser) (d : Direction) (now : Int) :
    RawUnexpired p.config now ((p.flushRaw d now).1.state d) ∧ RawOf d p (p.flushRaw d now).1 := by
  unfold flushRaw
  simp only
  split
  · have hsame : ∀ record, SameStates p (p.create record).1 :=
      fun record => (create_adds p record).1.toSameStates
    refine ⟨fun hheld => ?_, ?_, ?_, ?_⟩
    · rw [setState_same] at hheld
      exact absurd rfl hheld
    · exact (setState_config _ d _).trans (hsame _).config
    · exact fun d' hd => (setState_other _ hd _).trans ((hsame _).state d')
    · rw [setState_same]
      rfl
  · rename_i hwaits
    refine ⟨fun hheld => ?_, rfl, fun _ _ => rfl, rfl⟩
    rw [not_and, not_le] at hwaits
    exact hwaits (List.length_pos_of_ne_nil hheld)

/-- Both flushes of one direction, one after the other. -/
theorem flushDirection_unexpired (p : McumgrSmpParser) (d : Direction) (now : Int) :
    let q := ((p.flushConsole d now).1.flushRaw d now).1
    StateUnexpired p.config now (q.state d) ∧ q.config = p.config ∧
      ∀ d', d' ≠ d → q.state d' = p.state d' := by
  intro q
  obtain ⟨hconsole, hfirst⟩ := flushConsole_unexpired p d now
  obtain ⟨hraw, hsecond⟩ := flushRaw_unexpired (p.flushConsole d now).1 d now
  rw [hfirst.config] at hraw
  refine ⟨⟨fun last hlast => hconsole last (hsecond.console ▸ hlast), hraw⟩,
    hsecond.config.trans hfirst.config, fun d' hd => ?_⟩
  exact (hsecond.others d' hd).trans (hfirst.others d' hd)

theorem flushExpired_fst (p : McumgrSmpParser) (now : Int) :
    (p.flushExpired now).1 = ((((p.flushConsole .TX now).1.flushRaw .TX now).1.flushConsole .RX
      now).1.flushRaw .RX now).1.expirePendingRequests now := by
  simp only [flushExpired]

/-- Behind a flush nothing has waited for too long. -/
theorem unexpired_flushExpired (p : McumgrSmpParser) (now : Int) :
    (p.flushExpired now).1.Unexpired now := by
  have hpending := p.flushExpired_pending now
  rw [flushExpired_fst] at hpending ⊢
  obtain ⟨hTX, hconfig, -⟩ := flushDirection_unexpired p .TX now
  generalize ((p.flushConsole .TX now).1.flushRaw .TX now).1 = first at *
  obtain ⟨hRX, hconfig', hother⟩ := flushDirection_unexpired first .RX now
  generalize ((first.flushConsole .RX now).1.flushRaw .RX now).1 = second at *
  have hsame := (expire_records second now).toSameStates
  constructor
  · intro d
    rw [hsame.config, hconfig', hconfig, hsame.state d]
    cases d with
    | TX =>
      rw [hother .TX (by decide)]
      exact hTX
    | RX =>
      rw [hconfig] at hRX
      exact hRX
  · intro pending hmem
    rw [hpending] at hmem
    simpa using (List.mem_filter.1 hmem).2

end McumgrSmpParser

/-- In every reachable state of the parser, a flush before `nextExpiryTimestamp` does nothing,
and a flush leaves no timestamp that is not later than it. -/
theorem expiry_clock_exact (runtime : Runtime) (config : McumgrSmpParserConfig)
    (events : List Event) (now : Int) :
    let p := run (step runtime) (.new config) events
    ((∀ next, p.nextExpiryTimestamp = some next → now < next) →
      p.flushExpired now = (p, [])) ∧
    ∀ next, (p.flushExpired now).1.nextExpiryTimestamp = some next → now < next := by
  intro p
  constructor
  · intro hbefore
    exact flushExpired_unexpired (nextExpiryTimestamp_after.1 hbefore)
  · exact nextExpiryTimestamp_after.2 (p.unexpired_flushExpired now)

end bbcom.smp
