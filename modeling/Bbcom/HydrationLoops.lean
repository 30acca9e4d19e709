-- What the loops of the staging take in: the pages that each of them accepts, and where it asks
-- on behind them.
import Bbcom.HydrationStaging

open bbcom.js bbcom.session_adapter
open bbcom.contracts (MAX_WORKSPACE_SESSIONS MAX_WORKSPACE_FRAMES_PER_SESSION
  MAX_WORKSPACE_AI_MESSAGES)
open bbcom.capture (validNonNegativeInteger)

namespace bbcom.session_adapter

/-! ## The checks -/

variable {field : String}

variable {u : Unit}

@[simp] theorem validUnless_ok {refused : Prop} [Decidable refused] :
    validUnless refused field = .ok u ↔ ¬refused := by
  unfold validUnless
  split <;> simp_all

@[simp] theorem orInvalid_ok {α : Type} {value : Option α} {a : α} :
    orInvalid value field = .ok a ↔ value = some a := by
  cases value <;> simp [orInvalid]

@[simp] theorem assertLimit_ok {limit actual : Nat} :
    assertLimit field limit actual = .ok u ↔ actual ≤ limit := by
  unfold assertLimit
  split <;> simp_all

@[simp] theorem assertExactKeys_ok {otherKeys : List String} :
    assertExactKeys otherKeys field = .ok u ↔ otherKeys = [] := by
  simp [assertExactKeys]

theorem integerBetween_nat {n max next : Nat} :
    integerBetween (.finite (n : ℚ)) 0 max = some next ↔ n ≤ max ∧ next = n := by
  simp only [integerBetween, Rat.num_natCast, Rat.den_natCast, Int.toNat_natCast]
  split
  · rename_i hbounds
    constructor
    · intro h
      exact ⟨by omega, (Option.some.inj h).symm⟩
    · rintro ⟨-, rfl⟩
      rfl
  · rename_i hbounds
    constructor
    · intro h
      cases h
    · rintro ⟨hle, -⟩
      exact absurd ⟨trivial, by omega, by omega⟩ hbounds

theorem validNonNegativeInteger_nat {n next : Nat} :
    validNonNegativeInteger (.finite (n : ℚ)) = some next ↔
      n ≤ write_epoch.MAX_SAFE_INTEGER ∧ next = n :=
  integerBetween_nat

@[simp] theorem nonNegativeInteger_ok {value : JsNumber} {n : Nat} :
    nonNegativeInteger value field = .ok n ↔ validNonNegativeInteger value = some n :=
  orInvalid_ok

end bbcom.session_adapter

namespace bbcom.hydration_staging

variable {D F P K C : Type} {stage : Stage}

/-! ## Envelopes -/

/-- An answer to this request, about this workspace at this revision. -/
structure Echoes (stage : Stage) (requestId : String) (sessionId : Option String)
    (envelope : Envelope) : Prop where
  requestId : envelope.requestId = requestId
  workspaceId : envelope.workspaceId = stage.workspaceId
  revision : validNonNegativeInteger envelope.revision = some stage.revision
  sessionId : sessionId ≠ none → envelope.sessionId = sessionId
  otherKeys : envelope.otherKeys = []

variable {requestId sessionId : String} {count offset : Nat} {next : Option Nat}

theorem assertResponse_ok {sessionId : Option String} {envelope : Envelope} {u : Unit} :
    (assertResponse stage requestId sessionId envelope = .ok u ∧ envelope.otherKeys = []) ↔
      Echoes stage requestId sessionId envelope := by
  unfold assertResponse
  rw [validUnless_ok]
  constructor
  · rintro ⟨hsame, hkeys⟩
    simp only [not_or, not_and_or, not_not] at hsame
    obtain ⟨hrequest, hworkspace, hrevision, hsession⟩ := hsame
    exact ⟨hrequest, hworkspace, hrevision, fun hne => hsession.resolve_left hne, hkeys⟩
  · rintro ⟨hrequest, hworkspace, hrevision, hsession, hkeys⟩
    refine ⟨?_, hkeys⟩
    rintro (hne | hne | hne | ⟨hsome, hne⟩)
    · exact hne hrequest
    · exact hne hworkspace
    · exact hne hrevision
    · exact hne (hsession hsome)

theorem pageOf_ok {α : Type} {rows : Option (List α)} {limit : Nat} {field : String}
    {page : List α} :
    pageOf rows limit field = .ok page ↔ rows = some page ∧ page.length ≤ limit := by
  unfold pageOf
  simp only [bind_eq_ok, orInvalid_ok, validUnless_ok, exists_const, not_lt, gt_iff_lt]
  constructor
  · rintro ⟨_, rfl, hfits, hpage⟩
    cases hpage
    exact ⟨rfl, hfits⟩
  · rintro ⟨rfl, hfits⟩
    exact ⟨page, rfl, hfits, rfl⟩

/-! ## The lists with offsets -/

/-- Where a list with offsets is asked for behind a page of `count` rows. -/
inductive GoesOn (offset count : Nat) : Option JsNumber → Option Nat → Prop
  | last : GoesOn offset count none none
  | more {number : JsNumber} {next : Nat} (valid : validNonNegativeInteger number = some next)
      (forward : offset < next) (whole : next = offset + count) :
      GoesOn offset count (some number) (some next)

/-- `nextOffset`, as a loop reads it. -/
def namedOffset (nextOffset : Option JsNumber) : Option Nat :=
  nextOffset.bind validNonNegativeInteger

variable {nextOffset : Option JsNumber}

theorem GoesOn.named (h : GoesOn offset count nextOffset next) :
    namedOffset nextOffset = next := by
  cases h with
  | last => rfl
  | more valid forward whole => exact valid

theorem GoesOn.forward {next : Nat} (h : GoesOn offset count nextOffset (some next)) :
    offset < next ∧ next = offset + count := by
  cases h with
  | more valid forward whole => exact ⟨forward, whole⟩

/-- The end of a page: what was taken is kept, and the next offset is named. -/
theorem place_ok {T : Type} {taken taken' : T} {field : String} {refused : Nat → Prop}
    [DecidablePred refused] (offset count : Nat)
    (hrefused : ∀ n, ¬refused n ↔ offset < n ∧ n = offset + count) :
    (match nextOffset with
      | none => pure (taken, none)
      | some nextOffset => do
        let next ← nonNegativeInteger nextOffset field
        validUnless (refused next) field
        pure (taken, some next) : Adapted (T × Option Nat)) = .ok (taken', next) ↔
      taken' = taken ∧ GoesOn offset count nextOffset next := by
  cases nextOffset with
  | none =>
    constructor
    · intro hnext
      cases hnext
      exact ⟨rfl, .last⟩
    · rintro ⟨rfl, hgoes⟩
      cases hgoes
      rfl
  | some number =>
    simp only [bind_eq_ok, nonNegativeInteger_ok, validUnless_ok, exists_const, hrefused]
    constructor
    · rintro ⟨n, hn, ⟨hforward, hwhole⟩, hpure⟩
      cases hpure
      exact ⟨rfl, .more hn hforward hwhole⟩
    · rintro ⟨rfl, hgoes⟩
      cases hgoes with
      | more valid forward whole => exact ⟨_, valid, ⟨forward, whole⟩, rfl⟩

theorem takeSessions_ok {sessions sessions' : List (WorkspaceSessionSnapshot D)}
    {response : SessionsResponse D} :
    takeSessions stage requestId offset sessions response = .ok (sessions', next) ↔
      Echoes stage requestId none response.envelope ∧
      ∃ page, response.sessions = some page ∧ page.length ≤ stage.sessionPageSize ∧
        sessions' = sessions ++ page ∧ sessions'.length ≤ MAX_WORKSPACE_SESSIONS ∧
        GoesOn offset page.length response.nextOffset next := by
  obtain ⟨envelope, rows, nextOffset⟩ := response
  unfold takeSessions
  simp only [bind_eq_ok, assertExactKeys_ok, pageOf_ok, assertLimit_ok, exists_const]
  constructor
  · rintro ⟨_, hecho, hkeys, page, ⟨hpage, hfits⟩, hfew, hnext⟩
    obtain ⟨rfl, hgoes⟩ := (place_ok offset page.length fun n => by omega).1 hnext
    exact ⟨assertResponse_ok.1 ⟨hecho, hkeys⟩, page, hpage, hfits, rfl, hfew, hgoes⟩
  · rintro ⟨hecho, page, hpage, hfits, rfl, hfew, hgoes⟩
    obtain ⟨hresponse, hkeys⟩ := (assertResponse_ok (u := ())).2 hecho
    exact ⟨(), hresponse, hkeys, page, ⟨hpage, hfits⟩, hfew,
      (place_ok offset page.length fun n => by omega).2 ⟨rfl, hgoes⟩⟩

theorem takeAiMessages_ok {messages messages' : List WorkspaceAiMessage}
    {response : AiMessagesResponse} :
    takeAiMessages stage sessionId requestId offset messages response = .ok (messages', next) ↔
      Echoes stage requestId (some sessionId) response.envelope ∧
      ∃ page, response.messages = some page ∧ page.length ≤ stage.aiPageSize ∧
        messages' = messages ++ page ∧ messages'.length ≤ MAX_WORKSPACE_AI_MESSAGES ∧
        GoesOn offset page.length response.nextOffset next := by
  obtain ⟨envelope, rows, nextOffset⟩ := response
  unfold takeAiMessages
  simp only [bind_eq_ok, assertExactKeys_ok, pageOf_ok, assertLimit_ok, exists_const]
  constructor
  · rintro ⟨_, hecho, hkeys, page, ⟨hpage, hfits⟩, hfew, hnext⟩
    obtain ⟨rfl, hgoes⟩ := (place_ok offset page.length fun n => by omega).1 hnext
    exact ⟨assertResponse_ok.1 ⟨hecho, hkeys⟩, page, hpage, hfits, rfl, hfew, hgoes⟩
  · rintro ⟨hecho, page, hpage, hfits, rfl, hfew, hgoes⟩
    obtain ⟨hresponse, hkeys⟩ := (assertResponse_ok (u := ())).2 hecho
    exact ⟨(), hresponse, hkeys, page, ⟨hpage, hfits⟩, hfew,
      (place_ok offset page.length fun n => by omega).2 ⟨rfl, hgoes⟩⟩

theorem takeWaveform_ok {stringify : WorkspaceWaveformChannel C → String}
    {taken taken' : WaveformTaken C} {response : WaveformResponse C} :
    takeWaveform stage stringify sessionId requestId offset taken response = .ok (taken', next) ↔
      Echoes stage requestId (some sessionId) response.envelope ∧
      ∃ channels page, response.channels = some channels ∧ response.samples = some page ∧
        page.length ≤ stage.waveformPageSize ∧
        takeChannels stringify taken.channels channels = .ok taken'.channels ∧
        taken'.samples = taken.samples ++ page ∧
        GoesOn offset page.length response.nextOffset next := by
  obtain ⟨envelope, channelRows, rows, nextOffset⟩ := response
  unfold takeWaveform
  simp only [bind_eq_ok, assertExactKeys_ok, pageOf_ok, orInvalid_ok]
  constructor
  · rintro ⟨_, hecho, _, hkeys, channels, hchannels, page, ⟨hpage, hfits⟩, map, hmap, hnext⟩
    obtain ⟨rfl, hgoes⟩ := (place_ok offset page.length fun n => by omega).1 hnext
    exact ⟨assertResponse_ok.1 ⟨hecho, hkeys⟩, channels, page, hchannels, hpage, hfits, hmap, rfl,
      hgoes⟩
  · rintro ⟨hecho, channels, page, hchannels, hpage, hfits, hmap, hsamples, hgoes⟩
    obtain ⟨hresponse, hkeys⟩ := (assertResponse_ok (u := ())).2 hecho
    obtain ⟨channels', samples'⟩ := taken'
    cases hsamples
    exact ⟨(), hresponse, (), hkeys, channels, hchannels, page, ⟨hpage, hfits⟩, channels', hmap,
      (place_ok offset page.length fun n => by omega).2 ⟨rfl, hgoes⟩⟩

theorem takeCollections_ok {place : Unit} {taken taken' : Option P}
    {response : CollectionsResponse P} {next : Option Unit} :
    takeCollections stage sessionId requestId place taken response = .ok (taken', next) ↔
      Echoes stage requestId (some sessionId) response.envelope ∧
        taken' = some response.collections ∧ next = none := by
  unfold takeCollections
  simp only [bind_eq_ok, assertExactKeys_ok, exists_const]
  constructor
  · rintro ⟨_, hecho, hkeys, hpure⟩
    cases hpure
    exact ⟨assertResponse_ok.1 ⟨hecho, hkeys⟩, rfl, rfl⟩
  · rintro ⟨hecho, rfl, rfl⟩
    obtain ⟨hresponse, hkeys⟩ := (assertResponse_ok (u := ())).2 hecho
    exact ⟨(), hresponse, hkeys, rfl⟩

/-! ## Frames -/

/-- Frames from `fromSeq` on, in the order of their sequence numbers, and behind `previous`. -/
inductive Ascends (fromSeq : Nat) : Int → List WorkspaceHydratedFrame → Int → Prop
  | nil {previous : Int} : Ascends fromSeq previous [] previous
  | cons {previous last : Int} {frame : WorkspaceHydratedFrame}
      {rest : List WorkspaceHydratedFrame} {seq : Nat}
      (valid : validNonNegativeInteger frame.seq = some seq) (from_place : fromSeq ≤ seq)
      (behind : previous < seq) (ascends : Ascends fromSeq seq rest last) :
      Ascends fromSeq previous (frame :: rest) last

variable {previous : Int}

theorem checkSequences_ok {fromSeq : Nat} {last : Int} {frames : List WorkspaceHydratedFrame} :
    checkSequences fromSeq previous frames = .ok last ↔ Ascends fromSeq previous frames last := by
  induction frames generalizing previous with
  | nil =>
    constructor
    · intro h
      cases h
      exact .nil
    · intro h
      cases h
      rfl
  | cons frame rest ih =>
    simp only [checkSequences, bind_eq_ok, nonNegativeInteger_ok, validUnless_ok, exists_const,
      not_or, not_lt, not_le, ih]
    constructor
    · rintro ⟨seq, hvalid, ⟨hfrom, hbehind⟩, hrest⟩
      exact .cons hvalid hfrom hbehind hrest
    · intro h
      cases h with
      | cons valid from_place behind ascends => exact ⟨_, valid, ⟨from_place, behind⟩, ascends⟩

/-- Where the frames are asked for behind a page of `count`, the last with the number
`previous`. -/
inductive FramesGoOn (previous : Int) (count : Nat) : Option JsNumber → Option Nat → Prop
  | last : FramesGoOn previous count none none
  | more {number : JsNumber} {next : Nat} (valid : validNonNegativeInteger number = some next)
      (some_frame : count ≠ 0) (behind : previous < next) :
      FramesGoOn previous count (some number) (some next)

variable {nextSeq : Option JsNumber}

theorem FramesGoOn.named (h : FramesGoOn previous count nextSeq next) :
    namedOffset nextSeq = next := by
  cases h with
  | last => rfl
  | more valid some_frame behind => exact valid

theorem FramesGoOn.forward {next : Nat} (h : FramesGoOn previous count nextSeq (some next)) :
    count ≠ 0 ∧ previous < next := by
  cases h with
  | more valid some_frame behind => exact ⟨some_frame, behind⟩

theorem takeFrames_ok {fromSeq : Nat} {taken taken' : FramesTaken} {response : FramesResponse} :
    takeFrames stage sessionId requestId fromSeq taken response = .ok (taken', next) ↔
      Echoes stage requestId (some sessionId) response.envelope ∧
      ∃ page, response.frames = some page ∧ page.length ≤ stage.framePageSize ∧
        Ascends fromSeq taken.previousSeq page taken'.previousSeq ∧
        taken'.frames = taken.frames ++ page ∧
        taken'.frames.length ≤ MAX_WORKSPACE_FRAMES_PER_SESSION ∧
        FramesGoOn taken'.previousSeq page.length response.nextSeq next := by
  obtain ⟨envelope, rows, nextSeq⟩ := response
  unfold takeFrames
  simp only [bind_eq_ok, assertExactKeys_ok, pageOf_ok, assertLimit_ok, checkSequences_ok,
    exists_const]
  constructor
  · rintro ⟨_, hecho, hkeys, page, ⟨hpage, hfits⟩, last, hlast, hfew, hnext⟩
    refine ⟨assertResponse_ok.1 ⟨hecho, hkeys⟩, page, hpage, hfits, ?_⟩
    cases nextSeq with
    | none =>
      cases hnext
      exact ⟨hlast, rfl, hfew, .last⟩
    | some number =>
      simp only [bind_eq_ok, nonNegativeInteger_ok, validUnless_ok, exists_const, not_or,
        not_le] at hnext
      obtain ⟨n, hn, ⟨hsome, hbehind⟩, hpure⟩ := hnext
      cases hpure
      exact ⟨hlast, rfl, hfew, .more hn hsome hbehind⟩
  · rintro ⟨hecho, page, hpage, hfits, hlast, hframes, hfew, hgoes⟩
    obtain ⟨hresponse, hkeys⟩ := (assertResponse_ok (u := ())).2 hecho
    obtain ⟨frames', last⟩ := taken'
    cases hframes
    refine ⟨(), hresponse, hkeys, page, ⟨hpage, hfits⟩, last, hlast, hfew, ?_⟩
    cases hgoes with
    | last => rfl
    | more valid some_frame behind =>
      simp only [bind_eq_ok, nonNegativeInteger_ok, validUnless_ok, exists_const]
      refine ⟨_, valid, ?_, rfl⟩
      rintro (hnone | hle)
      · exact some_frame hnone
      · exact absurd hle (not_le.2 behind)

end bbcom.hydration_staging
