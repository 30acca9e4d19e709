-- What a console line keeps, where it came at a time `t`: all of the parser but its records, the
-- packet of its direction and the table of requests; and nothing of these expires at `t`.
import Bbcom.SmpContent

open bbcom.js bbcom.base64

namespace bbcom.smp

open List

namespace McumgrSmpParser

variable {runtime : Runtime} {p q : McumgrSmpParser}

/-! ## Records and requests -/

theorem evict_fewer (fuel : Nat) (p : McumgrSmpParser) :
    ∀ pending ∈ (evict fuel p).pendingRequests, pending ∈ p.pendingRequests := by
  induction fuel generalizing p with
  | zero => exact fun _ h => h
  | succ fuel ih =>
    unfold evict
    split_ifs
    · split
      · exact fun _ h => h
      · rename_i evicted rest hlist
        have hfewer := ih (leave { p with pendingRequests := rest } evicted.record .evicted
          "Request correlation table limit reached")
        intro pending hpending
        rw [hlist]
        exact mem_cons_of_mem _ (hfewer pending hpending)
    · exact fun _ h => h

/-- Requests that have not expired at `now`. -/
def Awaited (p : McumgrSmpParser) (now : Int) : Prop :=
  ∀ pending ∈ p.pendingRequests, now < pending.expiresAt

theorem Awaited.fewer {now : Int} (h : p.Awaited now)
    (hfewer : ∀ pending ∈ q.pendingRequests, pending ∈ p.pendingRequests) : q.Awaited now :=
  fun pending hpending => h pending (hfewer pending hpending)

theorem correlate_awaited {t : Int} (h : p.Awaited t) (ref : Nat) {record : SmpRecord}
    (hrecord : record.timestamp = t) : (p.correlate ref record).Awaited t := by
  have hleft : (p.expirePendingRequests record.timestamp).Awaited t := by
    refine h.fewer ?_
    intro pending hpending
    rw [expirePendingRequests_pending] at hpending
    exact (mem_filter.1 hpending).1
  unfold correlate
  cases record.header with
  | none => exact h
  | some header =>
    simp only
    split
    · intro pending hpending
      rcases mem_append.1 (evict_fewer _ _ pending hpending) with hold | hnew
      · exact hleft pending hold
      · rw [mem_singleton.1 hnew, hrecord]
        change t < t + DEFAULT_SMP_REQUEST_TIMEOUT_MS
        unfold DEFAULT_SMP_REQUEST_TIMEOUT_MS
        omega
    · split_ifs
      · exact hleft
      · split
        · exact hleft
        · split
          · exact hleft
          · exact hleft.fewer fun pending hpending => mem_of_mem_erase hpending

/-! ## Messages -/

theorem decodeMessage_awaited {t : Int} (h : p.Awaited t) (message : Uint8Array)
    {context : TransportContext} (hcontext : context.timestamp = t) (packetOffset : Nat) :
    (p.decodeMessage runtime message context packetOffset).1.Awaited t := by
  unfold decodeMessage
  simp only
  split_ifs
  · apply correlate_awaited
    · exact h
    · exact hcontext
  · exact h

theorem decodeFrom_keeps {t : Int} (packet : Uint8Array) {context : TransportContext}
    (hcontext : context.timestamp = t) (fuel packetOffset : Nat) (p : McumgrSmpParser)
    (h : p.Awaited t) :
    SameStates p (decodeFrom runtime packet context fuel packetOffset p).1 ∧
      (decodeFrom runtime packet context fuel packetOffset p).1.Awaited t := by
  induction fuel generalizing packetOffset p with
  | zero => exact ⟨.refl p, h⟩
  | succ fuel ih =>
    simp only [decodeFrom]
    split_ifs
    · exact ⟨.refl p, h⟩
    · exact ⟨(create_adds p _).1.toSameStates, h⟩
    · exact ⟨(create_adds p _).1.toSameStates, h⟩
    all_goals
      have hsame := (@decodeMessage_adds runtime p (packet.subarray packetOffset
        (packetOffset + (SMP_HEADER_BYTES + readU16 packet (packetOffset + 2)))) context
        packetOffset).1.toSameStates
      have hawaited := @decodeMessage_awaited runtime p t h (packet.subarray packetOffset
        (packetOffset + (SMP_HEADER_BYTES + readU16 packet (packetOffset + 2)))) context hcontext
        packetOffset
    · obtain ⟨hrest, hlast⟩ := ih (min packet.length ((packetOffset +
        (SMP_HEADER_BYTES + readU16 packet (packetOffset + 2)) + 3) / 4 * 4)) _
        (show (change _ _ (paddingWarning _ _)).Awaited t from hawaited)
      exact ⟨(hsame.trans (change_states _ _ _)).trans hrest, hlast⟩
    · obtain ⟨hrest, hlast⟩ := ih (min packet.length ((packetOffset +
        (SMP_HEADER_BYTES + readU16 packet (packetOffset + 2)) + 3) / 4 * 4)) _ hawaited
      exact ⟨hsame.trans hrest, hlast⟩

/-! ## A line -/

/-- The parser is `p₀` but for its records, the packet of direction `d` and the table of
requests, and of these nothing is older than `t`. -/
structure Timely (p₀ : McumgrSmpParser) (d : Direction) (t : Int) (p : McumgrSmpParser) :
    Prop where
  config : p.config = p₀.config
  others : ∀ d', d' ≠ d → p.state d' = p₀.state d'
  rawBuffer : (p.state d).rawBuffer = (p₀.state d).rawBuffer
  console : ∀ console, (p.state d).console = some console →
    console.timestamp = t ∧ console.lastTimestamp = t
  awaited : p.Awaited t

variable {p₀ : McumgrSmpParser} {d : Direction} {t : Int}

theorem Timely.same (h : Timely p₀ d t p) (hsame : SameStates p q) (hawaited : q.Awaited t) :
    Timely p₀ d t q where
  config := hsame.config.trans h.config
  others d' hd := (hsame.state d').trans (h.others d' hd)
  rawBuffer := by rw [hsame.state, h.rawBuffer]
  console console hconsole := h.console console (by rwa [hsame.state] at hconsole)
  awaited := hawaited

theorem Timely.error (h : Timely p₀ d t p) (d' : Direction) (timestamp : Int)
    (captureSeq : Option Nat) (offset : Nat) (data : Uint8Array) (code message : String)
    (severity : Severity) :
    Timely p₀ d t (p.transportErrorRecord d' timestamp captureSeq offset data code message
      severity).1 :=
  h.same (create_adds p _).1.toSameStates h.awaited

theorem setState_same (p : McumgrSmpParser) (d : Direction) (s : DirectionState) :
    (p.setState d s).state d = s := by
  cases d <;> rfl

theorem setState_other (p : McumgrSmpParser) {d d' : Direction} (hd : d' ≠ d)
    (s : DirectionState) : (p.setState d s).state d' = p.state d' := by
  cases d with
  | TX => cases d' <;> first | rfl | exact absurd rfl hd
  | RX => cases d' <;> first | rfl | exact absurd rfl hd

theorem setState_config (p : McumgrSmpParser) (d : Direction) (s : DirectionState) :
    (p.setState d s).config = p.config := by
  cases d <;> rfl

theorem Timely.setConsole (h : Timely p₀ d t p) (c : Option ConsoleAssembly)
    (hc : ∀ console, c = some console → console.timestamp = t ∧ console.lastTimestamp = t) :
    Timely p₀ d t (p.setConsole d c) where
  config := (setState_config p d _).trans h.config
  others d' hd := (setState_other p hd _).trans (h.others d' hd)
  rawBuffer := by
    unfold McumgrSmpParser.setConsole
    rw [setState_same]
    exact h.rawBuffer
  console := by
    unfold McumgrSmpParser.setConsole
    rw [setState_same]
    exact hc
  awaited := by
    unfold Awaited McumgrSmpParser.setConsole
    rw [setState_pending]
    exact h.awaited

theorem Timely.restart (h : Timely p₀ d t p) (kind : MarkerKind) :
    Timely p₀ d t (p.restart d kind).1 := by
  unfold McumgrSmpParser.restart
  split
  · exact h
  · split_ifs
    · exact (h.error _ _ _ _ _ _ _ _).setConsole none (by rintro console ⟨⟩)
    · exact h

theorem Timely.decodeTransportPacket (h : Timely p₀ d t p) (packet : Uint8Array)
    {context : TransportContext} (hcontext : context.timestamp = t) :
    Timely p₀ d t (p.decodeTransportPacket runtime packet context).1 := by
  obtain ⟨hsame, hawaited⟩ := @decodeFrom_keeps runtime t packet context hcontext
    packet.length 0 p h.awaited
  exact h.same hsame hawaited

theorem Timely.finishConsole (h : Timely p₀ d t p) :
    Timely p₀ d t (p.finishConsole runtime d).1 := by
  unfold McumgrSmpParser.finishConsole
  split
  · exact h
  · rename_i assembly hassembly
    split_ifs
    · exact h
    all_goals
      have hnext : Timely p₀ d t (p.setConsole d none) := h.setConsole none (by rintro console ⟨⟩)
      apply hnext.decodeTransportPacket
      exact (h.console assembly hassembly).1

theorem Timely.consumeFragment (h : Timely p₀ d t p) {l : ConsoleLine} (hl : l.timestamp = t)
    (hnow : l.now = t) (kind : MarkerKind) (index : Nat) :
    Timely p₀ d t (p.consumeFragment runtime d l kind index).1 := by
  have hrestart := h.restart kind
  have hsets : ∀ c : ConsoleAssembly, c.timestamp = t → c.lastTimestamp = t →
      Timely p₀ d t ((p.restart d kind).1.setConsole d (some c)) := by
    intro c hstart hlast
    apply hrestart.setConsole
    rintro console ⟨⟩
    exact ⟨hstart, hlast⟩
  unfold McumgrSmpParser.consumeFragment
  simp only
  split
  · exact (hrestart.error _ _ _ _ _ _ _ _).setConsole none (by rintro console ⟨⟩)
  · split
    · split_ifs
      · exact hrestart.error _ _ _ _ _ _ _ _
      · exact hrestart.error _ _ _ _ _ _ _ _
      · apply Timely.finishConsole
        exact hsets _ hl hnow
    · split
      · exact hrestart.error _ _ _ _ _ _ _ _
      · rename_i console hconsole
        apply Timely.finishConsole
        exact hsets _ (hrestart.console console hconsole).1 hnow

theorem Timely.consumeConsoleLine (budget : Nat) {l : ConsoleLine} (hl : l.timestamp = t)
    (hnow : l.now = t) (h : Timely p₀ d t p) :
    Timely p₀ d t (consumeConsoleLine runtime d budget l p).1 := by
  induction budget generalizing l p with
  | zero =>
    unfold McumgrSmpParser.consumeConsoleLine
    split
    · exact h
    · exact h.consumeFragment hl hnow _ _
  | succ budget ih =>
    unfold McumgrSmpParser.consumeConsoleLine
    split
    · exact h
    · rename_i kind index _
      have hnext := @Timely.consumeFragment runtime _ _ _ _ h l hl hnow kind index
      simp only
      split
      · exact hnext
      · split_ifs
        · apply ih _ _ hnext
          · exact hl
          · exact hnow
        · exact hnext

/-! ## The flush in front of a call -/

/-- Nothing of the direction has waited for too long. -/
def StateUnexpired (config : McumgrSmpParserConfig) (now : Int) (s : DirectionState) : Prop :=
  (∀ last, consoleLastTimestamp s = some last → now - last < config.reassemblyTimeoutMs) ∧
    (s.rawBuffer ≠ [] → now - s.rawLastTimestamp < config.reassemblyTimeoutMs)

instance (config : McumgrSmpParserConfig) (now : Int) (s : DirectionState) :
    Decidable (StateUnexpired config now s) :=
  inferInstanceAs (Decidable ((∀ last ∈ consoleLastTimestamp s,
    now - last < config.reassemblyTimeoutMs) ∧ (s.rawBuffer ≠ [] → _)))

/-- Nothing of the parser has waited for too long. -/
def Unexpired (p : McumgrSmpParser) (now : Int) : Prop :=
  (∀ d, StateUnexpired p.config now (p.state d)) ∧ p.Awaited now

theorem flushExpired_states {now : Int} (h : ∀ d, StateUnexpired p.config now (p.state d)) :
    p.flushExpired now = (p.expirePendingRequests now, []) := by
  have hconsole : ∀ d, p.flushConsole d now = (p, []) := by
    intro d
    unfold flushConsole
    simp only
    split
    · rfl
    · rename_i last hlast
      rw [if_neg (not_le.2 ((h d).1 last hlast))]
  have hraw : ∀ d, p.flushRaw d now = (p, []) := by
    intro d
    unfold flushRaw
    simp only
    rw [if_neg]
    rintro ⟨hheld, hlate⟩
    exact absurd hlate (not_le.2 ((h d).2 (ne_nil_of_length_pos hheld)))
  unfold flushExpired
  simp only [hconsole, hraw, append_nil]

theorem flushExpired_unexpired {now : Int} (h : p.Unexpired now) :
    p.flushExpired now = (p, []) := by
  have hnone : (p.pendingRequests.filter fun pending => decide (pending.expiresAt ≤ now)) = [] :=
    filter_eq_nil_iff.2 fun pending hpending => by simpa using h.2 pending hpending
  have hall : (p.pendingRequests.filter fun pending => decide (now < pending.expiresAt)) =
      p.pendingRequests :=
    filter_eq_self.2 fun pending hpending => by simpa using h.2 pending hpending
  rw [flushExpired_states h.1]
  unfold expirePendingRequests
  simp only [hnone, hall, foldr_nil]

/-- No call comes when something of a direction has waited for too long. -/
def NoTimeout (runtime : Runtime) : McumgrSmpParser → List SmpTrafficChunk → Prop
  | _, [] => True
  | p, chunk :: chunks =>
    (∀ d, StateUnexpired p.config chunk.timestamp (p.state d)) ∧
      NoTimeout runtime (p.feed runtime chunk).1 chunks

instance decidableNoTimeout (runtime : Runtime) (p : McumgrSmpParser) :
    (chunks : List SmpTrafficChunk) → Decidable (NoTimeout runtime p chunks)
  | [] => .isTrue trivial
  | chunk :: chunks =>
    have := decidableNoTimeout runtime (p.feed runtime chunk).1 chunks
    decidable_of_iff ((StateUnexpired p.config chunk.timestamp (p.state .TX) ∧
        StateUnexpired p.config chunk.timestamp (p.state .RX)) ∧
        NoTimeout runtime (p.feed runtime chunk).1 chunks)
      (and_congr_left' ⟨fun h d => by cases d; exacts [h.1, h.2], fun h => ⟨h .TX, h .RX⟩⟩)

end McumgrSmpParser

end bbcom.smp
