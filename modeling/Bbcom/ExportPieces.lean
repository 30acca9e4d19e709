-- The calls of the export sessions (`session.rs`) piece by piece: what each leaves of the bytes of
-- its session and of the fate of its target.
import Bbcom.ExportContents

open bbcom.js

namespace bbcom.export_session

open ExportSessionManager List Option Stand Function Happening Calm Sound Call

variable {host : Host} {files : String → Option Uint8Array} {s t u : ExportSessionManager}
  {session : ExportSession} {fates : List Fate} {tokens : List Token} {call n : Nat}
  {piece : Piece}

/-! ## Pieces -/

/-- A piece of a call ends at an await, and what it changes is sound. -/
def Acts (host : Host) (files : String → Option Uint8Array) (s : ExportSessionManager)
    (call : Nat) (fates : List Fate) (piece : Piece) (t : ExportSessionManager) : Prop :=
  ∃ next, t.calls = s.calls.set call next ∧ Goes piece s t ∧ Fine host t next ∧
    Sound host files t (next.fates ++ fates)

theorem Goes.acts (next : Call) (hgoes : Goes piece s u) (hcalls : u.calls = s.calls)
    (hfine : Fine host u next) (hsound : Sound host files u (next.fates ++ fates)) :
    Acts host files s call fates piece (u.goOn call next) := by
  refine ⟨next, ?_, ⟨hgoes.sessions, hgoes.temps, hgoes.files, hgoes.log⟩, hfine,
    ⟨hsound.counted, hsound.once, hsound.files, hsound.told⟩⟩
  rw [← hcalls]
  rfl

/-- A piece that changes nothing that matters. -/
theorem Calm.acts (next : Call) (h : Calm s u) (hfine : Fine host u next)
    (hsound : Sound host files s (next.fates ++ fates)) :
    Acts host files s call fates piece (u.goOn call next) :=
  (h.goes piece).acts next h.calls hfine (hsound.calm h)

theorem Acts.after (h : Acts host files u call fates .quiet t) (hcalm : Calm s u) :
    Acts host files s call fates .quiet t := by
  obtain ⟨next, hcalls, hgoes, hrest⟩ := h
  exact ⟨next, hcalm.calls ▸ hcalls, (hcalm.goes .quiet).then hgoes, hrest⟩

/-! ## Sweeps and begins -/

section

variable (h : Sound host files s fates) (hcalm : Calm s u)
include h hcalm

theorem acquireSlot_acts (request : BeginRequest) :
    Acts host files s call fates piece (u.acquireSlot call request) := by
  unfold acquireSlot
  split
  · have htaken : Calm u ({ u with permitsTaken := u.permitsTaken + 1 }.record .slotTaken) :=
      { @calm_record u .slotTaken rfl with }
    exact (hcalm.trans htaken).acts (.canonicalizing request) trivial h
  · exact hcalm.acts .returned trivial h

theorem dispose_acts (request : BeginRequest) (expired : List Nat) :
    Acts host files s call fates piece (u.dispose call request expired) := by
  cases expired with
  | nil => exact acquireSlot_acts h hcalm request
  | cons n expired => exact hcalm.acts (.disposing request (n :: expired)) trivial h

theorem refuse_acts (identity : String) :
    Acts host files s call fates piece (u.refuse call identity) :=
  ((hcalm.trans (calm_releaseTarget identity)).trans calm_releaseSlot).acts .returned trivial h

end

/-- A session ends, and its frames stay as they are. -/
theorem Goes.ends {f : ExportSession → ExportSession} (hn : s.sessions[n]? = some session)
    (hsessions : t.sessions = s.sessions.modify n f) (hsame : SameWork session (f session))
    (hended : (f session).terminal = true) (htemps : t.temps = s.temps)
    (hfiles : t.files = s.files) (hlog : ∃ news, t.log = news ++ s.log) : Goes .quiet s t :=
  .of_modify hn hsessions hsame.toSameFace (fun _ => ⟨hended, hsame⟩) (fun _ => hsame)
    (fun _ _ _ _ _ h => htemps ▸ h) (fun _ _ => hfiles ▸ rfl) hlog

variable {c : Stand} {id : String} {request : BeginRequest} {encoded : Uint8Array}
  {frames : List DataFramePayload} {terminal : Bool} {stats : ExportFinishStats}

theorem Once.expires (h : Once c false) : Once { c with expired := c.expired + 1 } true := by
  obtain ⟨hreplaced, hnone⟩ := h.begun rfl
  exact ⟨nofun, by simp only; omega, h.replaced⟩

theorem Once.decides (h : Once c false) : Once { c with undecided := c.undecided + 1 } true := by
  obtain ⟨hreplaced, hnone⟩ := h.begun rfl
  exact ⟨nofun, by simp only; omega, h.replaced⟩

theorem Once.loses (h : Once c false) : Once { c with lost := c.lost + 1 } true := by
  obtain ⟨hreplaced, hnone⟩ := h.begun rfl
  exact ⟨nofun, by simp only; omega, h.replaced⟩

/-- The numbers of a session. -/
theorem Sound.stands (h : Sound host files s fates) (hn : s.sessions[n]? = some session) :
    Once (stand s.log fates n) session.terminal := by
  have honce := h.once n
  rw [hn, any_some] at honce
  exact honce

theorem sweepNext_acts {now : Nat} {candidates : List (String × Nat)} {expired : List Nat}
    (h : Sound host files s fates) (hn : s.sessions[n]? = some session)
    (hguard : ∀ session ∈ (sweeping request now ((id, n) :: candidates) expired).expires s,
      session.terminal = false) :
    Acts host files s call fates .quiet
      (s.sweepNext call request now id n candidates expired) := by
  simp only [ExportSessionManager.sweepNext, hn]
  split
  · exact (calm_dropArc n).acts (.sweeping request now candidates expired) trivial h
  · rename_i hstale
    simp only [Bool.or_eq_true, decide_eq_true_eq, not_or, Bool.not_eq_true, not_lt] at hstale
    have hterminal := hguard session (by simp [expires, hn, hstale])
    have hsame : SameWork session { session with
        terminal := true, lastActivity := s.now, writer := none, locked := true } :=
      ⟨⟨rfl, rfl, rfl⟩, rfl, rfl, rfl, rfl, rfl⟩
    have hgoes : Goes .quiet s (((s.modify n fun session =>
        { session with
          terminal := true, lastActivity := s.now, writer := none, locked := true }).record
        (.sealed n)).record (.expired n)) :=
      .ends hn rfl hsame rfl rfl rfl ⟨[.expired n, .sealed n], rfl⟩
    refine hgoes.acts (.expiring request now id n candidates expired) rfl trivial ?_
    refine change [] [] [.expired n, .sealed n] h hn rfl hgoes
      ((h.counted session (mem_of_getElem? hn)).sameWork hsame (.inr rfl)) h.files rfl ?_ ?_
      (by simp) (by simp) ?_
    · simp [about]
    · simp [Told]
    · have hstands := h.stands hn
      rw [hterminal] at hstands
      simpa [ExportSessionManager.record, ExportSessionManager.modify, stand_note, note]
        using hstands.expires

variable {identity : String}

/-- A new temp file is that of no session. -/
theorem creating_acts (b : Books s (holds (.creating request identity id) ++ tokens))
    (h : Sound host files s fates) (io : Io) :
    Acts host files s call fates piece
      (if io.ok && (s.temps (tempPath request.target id)).isNone then
        { s with
          temps := update s.temps (tempPath request.target id) (some []) }.goOn call
          (.initializing request identity id)
      else s.goOn call (.undoing request identity id)) := by
  split
  · obtain ⟨-, -, hfresh⟩ := b.rolls.fresh id (by simp [holds])
    have hcalm : Calm s { s with
        temps := update s.temps (tempPath request.target id) (some []) } :=
      { refl s with
        temps session hmem contents hcontents := by
          have hother : session.temp ≠ tempPath request.target id :=
            fun hsame => hfresh session hmem (congrArg TempPath.id hsame)
          simpa [hother] using hcontents }
    exact hcalm.acts (.initializing request identity id) trivial h
  · exact (refl s).acts (.undoing request identity id) trivial h

theorem header_length (format : ExportFormat) : (header format).length ≤ 2 ^ 64 - 1 := by
  cases format <;> decide

theorem prepareSession_acts (h : Sound host files s fates) :
    Acts host files s call fates piece (s.prepareSession call request identity id) := by
  unfold prepareSession
  dsimp only
  generalize hstate : (ExportSession.mk id request identity (some (header request.format)) 0 0
    (header request.format).length s.now false 1 false [] false) = state
  have hexact : Exact host state (header request.format) := by
    subst hstate
    exact ⟨[], rfl, (append_nil _).symm⟩
  have hcounted : Counted host state := by
    refine ⟨?_, ?_, ⟨_, hexact, ?_⟩, fun _ contents hcontents => ?_⟩
    · subst hstate
      rfl
    · subst hstate
      rfl
    · subst hstate
      exact (min_eq_left (header_length _)).symm
    · subst hstate
      cases hcontents
      exact hexact
  have hthere : ∀ (m : Nat) (other : ExportSession), s.sessions[m]? = some other →
      (s.sessions ++ [state])[m]? = some other := by
    intro m other hm
    rw [List.getElem?_append_left (List.getElem?_eq_some_iff.1 hm).1]
    exact hm
  have hgoes : Goes piece s { s with sessions := s.sessions ++ [state] } :=
    { sessions m other hm := ⟨other, hthere m other hm, ⟨rfl, rfl, rfl⟩,
        fun hended => ⟨hended, .refl other⟩, fun _ => .refl other⟩
      temps _ _ _ _ _ htemp := htemp
      files _ _ := rfl
      log := ⟨[], rfl⟩ }
  refine hgoes.acts (.listing id s.sessions.length) rfl trivial ?_
  exact
    { counted other hother := by
        obtain hold | hnew := mem_append.1 hother
        · exact h.counted other hold
        · rw [mem_singleton.1 hnew]
          exact hcounted
      once m := by
        have hterminal : ((s.sessions ++ [state])[m]?).any (·.terminal) =
            (s.sessions[m]?).any (·.terminal) := by
          subst hstate
          rcases Nat.lt_trichotomy m s.sessions.length with hlt | heq | hgt
          · rw [List.getElem?_append_left hlt]
          · simp [heq]
          · rw [List.getElem?_eq_none (by simp; omega), List.getElem?_eq_none (by omega)]
        simp only [hterminal]
        exact h.once m
      files := h.files
      told happening hmem := (h.told happening hmem).goes hgoes }

/-! ## Appends -/

theorem prepareAppend_counts {batchBytes : Nat} {nextFrameCount nextRawBytes : Nat}
    (h : session.prepareAppend host frames batchBytes = .ok (encoded, nextFrameCount, nextRawBytes))
    :
    encodeFrames host.library session.request.format session.request.target.name frames =
        .ok encoded ∧
      nextFrameCount = session.frameCount + frames.length ∧
      nextRawBytes = session.rawBytes + batchBytes := by
  unfold ExportSession.prepareAppend at h
  dsimp only at h
  split at h
  · cases h
  · split at h
    · cases h
    · rename_i hframes
      split at h
      · cases h
      · rename_i hraw
        split at h
        · cases h
        · rename_i hencoded
          simp only [Except.ok.injEq, Prod.mk.injEq] at h
          obtain ⟨rfl, rfl, rfl⟩ := h
          unfold workspace.saturatingAdd MAX_EXPORT_FRAMES MAX_EXPORT_BYTES at *
          exact ⟨hencoded, by omega, by omega⟩

theorem beginAppend_acts {batchBytes : Nat} {internal : Bool} (h : Sound host files s fates)
    (hn : s.sessions[n]? = some session)
    (hfine : Fine host s (.appendWaits n frames batchBytes internal)) :
    Acts host files s call fates piece
      (s.beginAppend host call n session frames batchBytes internal) := by
  have hrefused : Acts host files s call fates piece ((s.dropArc n).goOn call .returned) :=
    (calm_dropArc n).acts .returned trivial h
  unfold ExportSessionManager.beginAppend
  dsimp only
  split
  · exact hrefused
  · split
    · exact hrefused
    · rename_i encoded nextFrameCount nextRawBytes hprepare
      obtain ⟨hencoded, hcount, hraw⟩ := prepareAppend_counts hprepare
      have hlock : Calm s (s.modify n fun session => { session with locked := true }) :=
        calm_modify fun _ => rfl
      refine hlock.acts (.appending n frames encoded nextFrameCount nextRawBytes) ?_ h
      refine ⟨{ session with locked := true }, ?_, hencoded, hcount, ?_⟩
      · simp [ExportSessionManager.modify, hn]
      · rw [hraw, hfine]

theorem min_add_min (a b limit : Nat) : min (min a limit + b) limit = min (a + b) limit := by
  omega

variable {contents : Uint8Array} {other : ExportSession}

/-- The frames of an append come behind those of the appends before it. -/
theorem Exact.append (h : Exact host session contents)
    (hencoded : encodeFrames host.library session.request.format session.request.target.name
      frames = .ok encoded) (hrequest : other.request = session.request)
    (hacknowledged : other.acknowledged = session.acknowledged ++ frames) :
    Exact host other (contents ++ encoded) := by
  obtain ⟨body, hbody, rfl⟩ := h
  refine ⟨body ++ encoded, ?_, ?_⟩
  · rw [hrequest, hacknowledged]
    exact encodeFrames_append host.library hbody hencoded
  · rw [hrequest, append_assoc]

theorem rawBytesOf_append (frames more : List DataFramePayload) :
    rawBytesOf (frames ++ more) = rawBytesOf frames + rawBytesOf more := by
  simp [rawBytesOf]

/-- What an append leaves of its session. -/
def appended (s : ExportSessionManager) (frames : List DataFramePayload) (encoded : Uint8Array)
    (nextFrameCount nextRawBytes : Nat) (io : Io) (session : ExportSession) : ExportSession :=
  if io.ok then
    { session with
      writer := session.writer.map (· ++ encoded)
      frameCount := nextFrameCount
      rawBytes := nextRawBytes
      outputBytes := workspace.saturatingAdd session.outputBytes encoded.length
      lastActivity := s.now
      locked := false
      acknowledged := session.acknowledged ++ frames }
  else
    { session with
      writer := session.writer.map (· ++ encoded.take io.written)
      locked := false
      spoiled := session.spoiled || !(encoded.take io.written).isEmpty }

/-- An append adds its frames, its bytes and its encoding. -/
theorem Counted.append (h : Counted host session)
    (hencoded : encodeFrames host.library session.request.format session.request.target.name
      frames = .ok encoded) (hrequest : other.request = session.request)
    (hacknowledged : other.acknowledged = session.acknowledged ++ frames)
    (hcount : other.frameCount = session.frameCount + frames.length)
    (hraw : other.rawBytes = session.rawBytes + rawBytesOf frames)
    (houtput : other.outputBytes = workspace.saturatingAdd session.outputBytes encoded.length)
    (hwriter : other.writer = session.writer.map (· ++ encoded))
    (hspoiled : other.spoiled = session.spoiled) : Counted host other := by
  obtain ⟨contents, hexact, hlength⟩ := h.outputBytes
  refine ⟨?_, ?_, ⟨contents ++ encoded, hexact.append hencoded hrequest hacknowledged, ?_⟩, ?_⟩
  · rw [hcount, hacknowledged, h.frames, length_append]
  · rw [hraw, hacknowledged, h.rawBytes, rawBytesOf_append]
  · rw [houtput, workspace.saturatingAdd, hlength, min_add_min, length_append]
  · intro hclean written hwritten
    rw [hwriter] at hwritten
    obtain ⟨before, hbefore, rfl⟩ := map_eq_some_iff.1 hwritten
    exact (h.written (hspoiled ▸ hclean) before hbefore).append hencoded hrequest hacknowledged

theorem appended_counted {io : Io} (h : Counted host session)
    (hencoded : encodeFrames host.library session.request.format session.request.target.name
      frames = .ok encoded) :
    Counted host (appended s frames encoded (session.frameCount + frames.length)
      (session.rawBytes + rawBytesOf frames) io session) := by
  unfold appended
  split
  · exact h.append hencoded rfl rfl rfl rfl rfl rfl rfl
  · refine ⟨h.frames, h.rawBytes, h.outputBytes, ?_⟩
    intro hclean written hwritten
    obtain ⟨before, hbefore, rfl⟩ := map_eq_some_iff.1 hwritten
    -- a failed write that has left nothing in the writer
    simp only [Bool.or_eq_false_iff, Bool.not_eq_false', List.isEmpty_iff] at hclean
    rw [hclean.2, append_nil]
    exact h.written hclean.1 before hbefore

theorem endAppend_acts {nextFrameCount nextRawBytes : Nat} (io : Io)
    (b : Books s (holds (.appending n frames encoded nextFrameCount nextRawBytes) ++ tokens))
    (h : Sound host files s fates)
    (hfine : Fine host s (.appending n frames encoded nextFrameCount nextRawBytes)) :
    Acts host files s call fates (.appends n)
      (s.endAppend call n frames encoded nextFrameCount nextRawBytes io) := by
  obtain ⟨session, hn, hencoded, rfl, rfl⟩ := hfine
  have hterminal : session.terminal = false := by
    by_contra hended
    have hlocks := (b.rolls.fair n session hn).ended (Bool.not_eq_false _ ▸ hended)
    simp [holds, tally] at hlocks
  have hface : SameFace session (appended (s.record (.wrote n)) frames encoded
      (session.frameCount + frames.length) (session.rawBytes + rawBytesOf frames) io session) := by
    unfold appended
    split <;> exact ⟨rfl, rfl, rfl⟩
  have hopen : (appended (s.record (.wrote n)) frames encoded
      (session.frameCount + frames.length) (session.rawBytes + rawBytesOf frames) io
      session).terminal = false := by
    unfold appended
    split <;> exact hterminal
  have hgoes : Goes (.appends n) s ((s.record (.wrote n)).modify n
      (appended (s.record (.wrote n)) frames encoded (session.frameCount + frames.length)
        (session.rawBytes + rawBytesOf frames) io)) :=
    .of_modify hn rfl hface (fun hended => by rw [hterminal] at hended; cases hended)
      (fun hother => absurd rfl hother) (fun _ _ _ _ _ htemp => htemp) (fun _ _ => rfl)
      ⟨[.wrote n], rfl⟩
  have hcounted := @appended_counted host (s.record (.wrote n)) session _ _ io
    (h.counted session (mem_of_getElem? hn)) hencoded
  have hsound : Sound host files ((s.record (.wrote n)).modify n
      (appended (s.record (.wrote n)) frames encoded (session.frameCount + frames.length)
        (session.rawBytes + rawBytesOf frames) io)) fates := by
    refine change [] [] [.wrote n] h hn rfl hgoes hcounted h.files rfl ?_ ?_ (by simp)
      (by simp) ?_
    · simp [about]
    · simp [Told]
    · have hstands := h.stands hn
      rw [hterminal] at hstands
      rw [hopen]
      simpa [ExportSessionManager.record, ExportSessionManager.modify, stand_note, note]
        using hstands
  have hdropped := calm_dropArc (s := (s.record (.wrote n)).modify n
    (appended (s.record (.wrote n)) frames encoded (session.frameCount + frames.length)
      (session.rawBytes + rawBytesOf frames) io)) n
  exact (hgoes.then (hdropped.goes .quiet)).acts .returned hdropped.calls trivial
    (hsound.calm hdropped)

/-! ## Finishes and aborts -/

section

variable (h : Sound host files s fates) (hn : s.sessions[n]? = some session)
include h hn

/-- A finish or an abort takes the writer of an open session. -/
theorem Sound.takeWriter (hterminal : session.terminal = false) (fate : Fate)
    (hfate : fate.about = n) (honce : ∀ c : Stand, Once c false → Once (c.add n fate) true) :
    Goes .quiet s (s.modify n fun session =>
        { session with terminal := true, lastActivity := s.now, writer := none }) ∧
      Sound host files (s.modify n fun session =>
        { session with terminal := true, lastActivity := s.now, writer := none })
        (fate :: fates) := by
  have hsame : SameWork session
      { session with terminal := true, lastActivity := s.now, writer := none } :=
    ⟨⟨rfl, rfl, rfl⟩, rfl, rfl, rfl, rfl, rfl⟩
  have hgoes : Goes .quiet s (s.modify n fun session =>
      { session with terminal := true, lastActivity := s.now, writer := none }) :=
    .ends hn rfl hsame rfl rfl rfl ⟨[], rfl⟩
  refine ⟨hgoes, ?_⟩
  refine change [] [fate] [] h hn rfl hgoes
    ((h.counted session (mem_of_getElem? hn)).sameWork hsame (.inr rfl)) h.files rfl
    (by simp) (by simp) (by simp) (by simpa using hfate) ?_
  have hstands := h.stands hn
  rw [hterminal] at hstands
  rw [singleton_append, stand_cons]
  exact honce _ hstands

theorem beginFinish_acts :
    Acts host files s call fates .quiet (s.beginFinish call id n session) := by
  have hrefused : Acts host files s call fates .quiet ((s.dropArc n).goOn call .returned) :=
    (calm_dropArc n).acts .returned trivial h
  unfold ExportSessionManager.beginFinish
  split
  · exact hrefused
  · rename_i contents hwriter
    split
    · exact hrefused
    · rename_i hgoes
      have hterminal : session.terminal = false := by
        by_contra hended
        exact hgoes (by simp [Bool.not_eq_false _ ▸ hended])
      dsimp only
      split
      · rename_i error herror
        obtain ⟨htook, hsound⟩ := h.takeWriter hn hterminal (.lost n) rfl fun c hc => by
          simpa [add] using hc.loses
        exact htook.acts (.closing id n [.removeCurrent, .removeTemp, .unlistTemp]
          (.finished (.error error))) rfl (.inl (by simp)) hsound
      · obtain ⟨htook, hsound⟩ := h.takeWriter hn hterminal (.undecided n) rfl fun c hc => by
          simpa [add] using hc.decides
        refine htook.acts (.flushing id n contents session.stats) rfl ?_ hsound
        refine ⟨{ session with terminal := true, lastActivity := s.now, writer := none }, ?_, rfl,
          rfl, fun hclean => ?_⟩
        · simp [ExportSessionManager.modify, hn]
        · exact (h.counted session (mem_of_getElem? hn)).written hclean contents hwriter

theorem beginAbort_acts : Acts host files s call fates .quiet (s.beginAbort call id n session) := by
  unfold beginAbort
  split
  · exact (calm_dropArc n).acts .returned trivial h
  · rename_i hopen
    obtain ⟨htook, hsound⟩ := h.takeWriter hn (Bool.eq_false_iff.2 hopen) (.lost n) rfl
      fun c hc => by simpa [add] using hc.loses
    have hsealed := @calm_record (s.modify n fun session =>
      { session with terminal := true, lastActivity := s.now, writer := none }) (.sealed n) rfl
    exact (htook.then (hsealed.goes .quiet)).acts
      (.closing id n [.removeCurrent, .removeTemp, .unlistTemp] .aborted) rfl (.inl (by simp))
      (hsound.calm hsealed)

end

/-- A session that is not touched while a call settles its fate. -/
theorem Sound.settle (front back : List Fate) (news : List Happening)
    (h : Sound host files s (front ++ fates)) (hn : s.sessions[n]? = some session)
    (hsessions : t.sessions = s.sessions) (hgoes : Goes piece s t)
    (hfiles : t.files = replay files t.log) (hlog : t.log = news ++ s.log)
    (hnews : ∀ happening ∈ news, happening.about = some n)
    (htold : ∀ happening ∈ news, Told host t happening) (hfront : ∀ fate ∈ front, fate.about = n)
    (hback : ∀ fate ∈ back, fate.about = n)
    (honce : Once (stand t.log (back ++ fates) n) session.terminal) :
    Sound host files t (back ++ fates) :=
  change (f := id) front back news h hn (by rw [hsessions, modify_id]) hgoes
    (h.counted session (mem_of_getElem? hn)) hfiles hlog hnews htold hfront hback honce

theorem Once.fails (h : Once { c with undecided := c.undecided + 1 } terminal) :
    Once { c with lost := c.lost + 1 } terminal := by
  obtain ⟨hbegun, honce, hreplaced⟩ := h
  refine ⟨fun hopen => ?_, ?_, hreplaced⟩
  · have hnone := (hbegun hopen).2
    simp only at hnone
    omega
  · simp only at honce ⊢
    omega

/-- A step of a finish before the replacement has failed. -/
theorem failFinish_acts (io : Io) (h : Sound host files s (.undecided n :: fates))
    (hn : s.sessions[n]? = some session) (hcalm : Calm s t) :
    Acts host files s call fates piece (t.failFinish call id n request io) := by
  refine (hcalm.goes piece).acts (.closing id n [.removeTemp, .removeCurrent, .unlistTemp]
    (.finished (.error (.exportError io.message request.format request.target.name))))
    hcalm.calls (.inl (by simp)) ?_
  obtain ⟨other, hother, hwork⟩ := hcalm.get hn
  have hsound := h.calm hcalm
  refine settle [.undecided n] [.lost n] [] hsound hother rfl
    ((refl t).goes .quiet) hsound.files rfl (by simp) (by simp) (by simp [Fate.about])
    (by simp [Fate.about]) ?_
  have hstands := hsound.stands hother
  rw [stand_cons] at hstands
  rw [singleton_append, stand_cons]
  simp only [add, if_true] at hstands ⊢
  exact hstands.fails

theorem flushing_acts (io : Io) (b : Books s tokens)
    (h : Sound host files s (.undecided n :: fates)) (hn : s.sessions[n]? = some session)
    (hfine : Fine host s (.flushing id n contents stats)) :
    Acts host files s call fates (.flushes n)
      (if io.ok then
        { s.record (.wrote n) with
          temps := update s.temps session.temp
            ((s.temps session.temp).map fun _ => contents) }.goOn call (.syncing id n stats)
      else (s.record (.wrote n)).failFinish call id n session.request io) := by
  obtain ⟨_, hn', hterminal, hstats, hexact⟩ := hfine
  rw [hn, some.injEq] at hn'
  subst hn'
  split
  · have hgoes : Goes (.flushes n) s { s.record (.wrote n) with
        temps := update s.temps session.temp
          ((s.temps session.temp).map fun _ => contents) } :=
      .of_same rfl (fun m other hm hpiece before hbefore => by
          have hne : other.temp ≠ session.temp := by
            intro hsame
            exact hpiece (congrArg Piece.flushes (b.rolls.temp_injective hn hm hsame.symm))
          simpa [hne] using hbefore)
        (fun _ _ => rfl) ⟨[.wrote n], rfl⟩
    refine hgoes.acts (.syncing id n stats) rfl ?_ ?_
    · refine ⟨session, hn, hterminal, hstats, fun hclean written hwritten => ?_⟩
      simp only [update_self, map_eq_some_iff] at hwritten
      obtain ⟨_, -, rfl⟩ := hwritten
      exact hexact hclean
    · refine h.settle [.undecided n] [.undecided n] [.wrote n] hn rfl hgoes h.files rfl
        (by simp [about]) (by simp [Told]) (by simp [Fate.about]) (by simp [Fate.about])
        ?_
      exact h.stands hn
  · exact failFinish_acts io h hn (calm_record rfl)

theorem syncing_acts (io : Io) (h : Sound host files s (.undecided n :: fates))
    (hn : s.sessions[n]? = some session) (hfine : Fine host s (.syncing id n stats)) :
    Acts host files s call fates .quiet
      (if io.ok then (s.record (.wrote n)).goOn call (.replacing id n stats)
      else (s.record (.wrote n)).failFinish call id n session.request io) := by
  split
  · exact (@calm_record s (.wrote n) rfl).acts (.replacing id n stats) hfine h
  · exact failFinish_acts io h hn (calm_record rfl)

theorem Once.keeps (h : Once { c with undecided := c.undecided + 1 } terminal) :
    Once { c with kept := c.kept + 1, replaced := c.replaced + 1 } terminal := by
  obtain ⟨hbegun, honce, hreplaced⟩ := h
  refine ⟨fun hopen => ?_, ?_, ?_⟩
  · have hnone := (hbegun hopen).2
    simp only at hnone
    omega
  · simp only at honce ⊢
    omega
  · simp only at hreplaced ⊢
    omega

theorem replacing_acts (io : Io) (h : Sound host files s (.undecided n :: fates))
    (hn : s.sessions[n]? = some session) (hfine : Fine host s (.replacing id n stats))
    (hclean : io.ok = true → (s.temps session.temp).isSome = true → session.spoiled = false) :
    Acts host files s call fates (.replaces n)
      (match if io.ok then s.temps session.temp else none with
      | some contents =>
        ({ s.record (.wrote n) with
          files := update s.files session.identity (some contents)
          temps := update s.temps session.temp none }.record
          (.replaced n session.identity contents)).goOn call (.syncingParent id n stats)
      | none => (s.record (.wrote n)).failFinish call id n session.request io) := by
  obtain ⟨_, hn', hterminal, hstats, hexact⟩ := hfine
  rw [hn, some.injEq] at hn'
  subst hn'
  split
  · rename_i contents htemp
    obtain ⟨hok, htemp⟩ : io.ok = true ∧ s.temps session.temp = some contents := by
      cases hio : io.ok with
      | false => simp [hio] at htemp
      | true => exact ⟨rfl, by simpa [hio] using htemp⟩
    have hspotless := hclean hok (by simp [htemp])
    have hgoes : Goes (.replaces n) s ({ s.record (.wrote n) with
        files := update s.files session.identity (some contents)
        temps := update s.temps session.temp none }.record
        (.replaced n session.identity contents)) :=
      .of_same rfl (fun m other hm _ before hbefore => by
          by_cases hsame : other.temp = session.temp
          · simp [record, hsame] at hbefore
          · simpa [record, hsame] using hbefore)
        (fun identity hother => by
          have hne := hother n session rfl hn
          simp [record, Ne.symm hne])
        ⟨[.replaced n session.identity contents, .wrote n], rfl⟩
    refine hgoes.acts (.syncingParent id n stats) rfl ?_ ?_
    · refine ⟨session, contents, hn, hterminal, hstats, ?_, hexact hspotless contents htemp⟩
      simp [record]
    · refine h.settle [.undecided n] [.kept n] [.replaced n session.identity contents, .wrote n]
        hn rfl hgoes ?_ rfl (by simp [about]) ?_ (by simp [Fate.about])
        (by simp [Fate.about]) ?_
      · simp only [record, replay, h.files]
      · intro happening hmem
        simp only [mem_cons, not_mem_nil, or_false] at hmem
        obtain rfl | rfl := hmem
        · exact ⟨session, hn, rfl⟩
        · trivial
      · have hstands := h.stands hn
        rw [stand_cons] at hstands
        simp only [record, singleton_append, stand_cons, stand_note,
          add, note, if_true] at hstands ⊢
        exact hstands.keeps
  · exact failFinish_acts io h hn (calm_record rfl)

theorem syncingParent_acts (h : Sound host files s (.kept n :: fates))
    (hfine : Fine host s (.syncingParent id n stats)) :
    Acts host files s call fates .quiet ((s.record (.wrote n)).goOn call
      (.closing id n [.removeCurrent, .unlistTemp] (.finished (.ok stats)))) :=
  (@calm_record s (.wrote n) rfl).acts
    (.closing id n [.removeCurrent, .unlistTemp] (.finished (.ok stats))) hfine h

/-! ## Closes -/

theorem calm_closeStep (id : String) (n : Nat) (temp : TempPath) (io : Io) (first : CloseStep) :
    Calm s (s.closeStep id n temp io first) := by
  cases first with
  | removeCurrent => exact calm_removeCurrent id n
  | removeTemp => exact calm_removeTemp temp io
  | unlistTemp => exact calm_unlistTemp n temp

theorem Fine.calm {stage : Call} (h : Fine host s stage) (hcalm : Calm s t) :
    Fine host t stage :=
  h.goes (hcalm.goes .quiet) ⟨nofun, nofun, nofun⟩

/-- A close that has released its temp file, or has it before it. -/
theorem closeStep_fine {first : CloseStep} {steps : List CloseStep} {result : CloseResult}
    (io : Io) (h : Fine host s (.closing id n (first :: steps) result)) :
    Fine host (s.closeStep id n session.temp io first) (.closing id n steps result) := by
  have hcalm := calm_closeStep (s := s) id n session.temp io first
  have hreleased : .unlistTemp ∈ first :: steps ∨ 0 < s.log.countP (isReleased n) →
      .unlistTemp ∈ steps ∨ 0 < (s.closeStep id n session.temp io first).log.countP
        (isReleased n) := by
    rintro (hmem | hpos)
    · obtain rfl | hrest := mem_cons.1 hmem
      · refine .inr ?_
        simp [closeStep, unlistTemp, record, isReleased]
      · exact .inl hrest
    · exact .inr (Nat.lt_of_lt_of_le hpos ((hcalm.goes .quiet).countP_le _))
  cases result with
  | finished result =>
    cases result with
    | ok stats => exact @Fine.calm _ _ _ (.closing id n steps (.finished (.ok stats))) h hcalm
    | error => exact hreleased h
  | aborted => exact hreleased h

theorem Once.succeeds (h : Once { c with kept := c.kept + 1 } terminal) :
    Once { c with succeeded := c.succeeded + 1 } terminal := by
  obtain ⟨hbegun, honce, hreplaced⟩ := h
  refine ⟨fun hopen => ?_, ?_, ?_⟩
  · have hnone := (hbegun hopen).2
    simp only at hnone
    omega
  · simp only at honce ⊢
    omega
  · simp only at hreplaced ⊢
    omega

theorem Once.ends (h : Once { c with lost := c.lost + 1 } terminal) :
    Once { c with failed := c.failed + 1 } terminal := by
  obtain ⟨hbegun, honce, hreplaced⟩ := h
  refine ⟨fun hopen => ?_, ?_, hreplaced⟩
  · have hnone := (hbegun hopen).2
    simp only at hnone
    omega
  · simp only at honce ⊢
    omega

/-- A close records how it has ended. -/
theorem Sound.closes {fate : Fate} (h : Sound host files s (fate :: fates))
    (hn : s.sessions[n]? = some session) (happening : Happening) (hfate : fate.about = n)
    (habout : happening.about = some n) (htold : Told host (s.record happening) happening)
    (hfiles : replay files (happening :: s.log) = replay files s.log)
    (honce : ∀ (c : Stand) (terminal : Bool), Once (c.add n fate) terminal →
      Once (c.note n happening) terminal) :
    Sound host files ((s.record happening).dropArc n) fates := by
  have hgoes := goes_record (s := s) happening
  refine calm ?_ (calm_dropArc n)
  refine h.settle [fate] [] [happening] hn rfl hgoes (h.files.trans hfiles.symm) rfl
    (by simpa using habout) (by simpa using htold) (by simpa using hfate) (by simp) ?_
  have hstands := h.stands hn
  rw [stand_cons] at hstands
  simp only [record, nil_append, stand_note]
  exact honce _ _ hstands

theorem fates_closing (id : String) (n : Nat) {first : CloseStep} (steps : List CloseStep)
    (result : CloseResult) : (closing id n (first :: steps) result).fates =
      (closing id n steps result).fates := by
  cases result with
  | finished result => cases result <;> rfl
  | aborted => rfl

theorem endClose_acts {result : CloseResult}
    (h : Sound host files s ((closing id n [] result).fates ++ fates))
    (hn : s.sessions[n]? = some session) (hfine : Fine host s (.closing id n [] result)) :
    Acts host files s call fates .quiet (s.endClose call n result) := by
  have hgoes : ∀ happening : Happening, Goes .quiet s ((s.record happening).dropArc n) :=
    fun happening => (goes_record happening).then ((calm_dropArc n).goes .quiet)
  unfold endClose
  cases result with
  | finished result =>
    refine (hgoes _).acts .returned (calls_dropArc _ n) trivial ?_
    cases result with
    | ok stats =>
      refine @closes _ _ _ _ _ _ (.kept n) h hn _ rfl rfl ?_ rfl fun c terminal hc => ?_
      · obtain ⟨_, contents, hn', hterminal, hstats, hfile, hexact⟩ := hfine
        rw [hn, some.injEq] at hn'
        subst hn'
        exact ⟨session, contents, hn, hterminal, hstats, by simp [hn, hfile], hexact⟩
      · simp only [add, note, if_true] at hc ⊢
        exact hc.succeeds
    | error error =>
      refine @closes _ _ _ _ _ _ (.lost n) h hn _ rfl rfl ?_ rfl fun c terminal hc => ?_
      · have hpos := hfine.resolve_left not_mem_nil
        exact Nat.lt_of_lt_of_le hpos ((goes_record _).countP_le _)
      · simp only [add, note, if_true] at hc ⊢
        exact hc.ends
  | aborted =>
    refine (hgoes _).acts .returned (calls_dropArc _ n) trivial ?_
    refine @closes _ _ _ _ _ _ (.lost n) h hn _ rfl rfl ?_ rfl fun c terminal hc => ?_
    · have hpos := hfine.resolve_left not_mem_nil
      exact Nat.lt_of_lt_of_le hpos ((goes_record _).countP_le _)
    · simp only [add, note, if_true] at hc ⊢
      exact hc.ends

/-! ## Calls that go on -/

/-- What others may see of the piece that begins at a stage. -/
def Call.shows : Call → Piece
  | appending n _ _ _ _ => .appends n
  | flushing _ n _ _ => .flushes n
  | replacing _ n _ => .replaces n
  | _ => .quiet

/-- A finish replaces its target only with a writer that no failed append has spoiled, and the
directory of the target is synced. -/
def Commits (s : ExportSessionManager) (io : Io) : Call → Prop
  | .replacing _ n _ => io.ok = true → ∀ session ∈ s.sessions[n]?,
    (s.temps session.temp).isSome = true → session.spoiled = false
  | .syncingParent _ _ _ => io.ok = true
  | _ => True

theorem proceed_acts (call : Nat) (io : Io) {stage : Call} (b : Books s (stage.holds ++ tokens))
    (h : Sound host files s (stage.fates ++ fates)) (hfine : Fine host s stage)
    (hguard : ∀ session ∈ stage.expires s, session.terminal = false)
    (hcommits : Commits s io stage) :
    proceed host s call io stage = s ∨
      Acts host files s call fates stage.shows (proceed host s call io stage) := by
  have hsession := @moves_or_same s (Acts host files s call fates stage.shows)
  have hcalm := refl s
  cases stage with
  | sweeping request now candidates expired =>
    cases candidates with
    | nil => exact .inr (dispose_acts h hcalm request expired)
    | cons candidate candidates =>
      obtain ⟨id, n⟩ := candidate
      obtain ⟨session, hn⟩ := Books.known_arc (n := n) b
      exact .inr (sweepNext_acts h hn hguard)
  | expiring request now id n candidates expired =>
    refine .inr (acts (.sweeping request now candidates (expired ++ [n])) ?_ trivial h)
    have hunlocked : Calm s ((s.removeCurrent id n).modify n fun session =>
        { session with locked := false }) :=
      (calm_removeCurrent id n).trans (calm_modify fun _ => rfl)
    exact hunlocked.trans (calm_dropArc n)
  | disposing request expired =>
    cases expired with
    | nil => exact .inr (acquireSlot_acts h hcalm request)
    | cons n expired =>
      refine hsession n _ fun session hn => .inr ?_
      exact (calm_removeTemp session.temp io).acts (.disposed request n expired) trivial h
  | disposed request n expired =>
    refine hsession n _ fun session hn => .inr ?_
    exact dispose_acts h (calm_unlistTemp n session.temp) request expired
  | canonicalizing request =>
    simp only [proceed]
    split
    · exact .inr (calm_releaseSlot.acts .returned trivial h)
    · refine .inr (acts (.snapshotting request _) ?_ trivial h)
      exact { @calm_record s (.targetReserved _) rfl with }
  | snapshotting request identity =>
    exact .inr (hcalm.acts (.reconciling request identity s.activeTemps) trivial h)
  | reconciling request identity activeTemps =>
    have hclean := calm_removeStale (s := s) io.stale activeTemps
    simp only [proceed]
    split
    · exact .inr (hclean.acts (.naming request identity 8) trivial h)
    · exact .inr (refuse_acts h hclean identity)
  | naming request identity attempts =>
    simp only [proceed]
    split
    · exact .inr (refuse_acts h hcalm identity)
    · split
      · exact .inl rfl
      · split
        · exact .inr (acts (.naming request identity (attempts - 1)) { hcalm with } trivial h)
        · exact .inr (acts (.creating request identity io.id) { hcalm with } trivial h)
  | creating request identity id => exact .inr (creating_acts b h io)
  | initializing request identity id =>
    simp only [proceed]
    split
    · exact .inr (prepareSession_acts h)
    · exact .inr (hcalm.acts (.discarding request identity id) trivial h)
  | discarding request identity id =>
    exact .inr ((calm_removeTemp (tempPath request.target id) io).acts
      (.undoing request identity id) trivial h)
  | undoing request identity id =>
    have hreleased : Calm s (s.releaseReserved id) := { hcalm with }
    exact .inr (refuse_acts h hreleased identity)
  | listing id n =>
    refine hsession n _ fun session hn => .inr (acts (.inserting id n) ?_ trivial h)
    exact { @calm_record s (.tempListed n) rfl with }
  | inserting id n =>
    have hclone : Calm s (s.cloneArc n) := calm_modify fun _ => rfl
    exact .inr (acts (.unreserving id n) { hclone with } trivial h)
  | unreserving id n =>
    have hdropped := calm_dropArc (s := s.releaseReserved id) n
    exact .inr (acts .returned { hdropped with } trivial h)
  | appendWaits n frames batchBytes internal =>
    refine hsession n _ fun session hn => ?_
    split
    · exact .inl rfl
    · exact .inr (beginAppend_acts h hn hfine)
  | appending => exact .inr (endAppend_acts io b h hfine)
  | finishWaits id n =>
    refine hsession n _ fun session hn => ?_
    split
    · exact .inl rfl
    · exact .inr (beginFinish_acts h hn)
  | flushing id n contents stats =>
    exact hsession n _ fun session hn => .inr (flushing_acts io b h hn hfine)
  | syncing id n stats =>
    exact hsession n _ fun session hn => .inr (syncing_acts io h hn hfine)
  | replacing id n stats =>
    refine hsession n _ fun session hn => .inr (replacing_acts io h hn hfine fun hok => ?_)
    exact hcommits hok session hn
  | syncingParent id n stats =>
    refine hsession n _ fun session hn => .inr ?_
    have hok : io.ok = true := hcommits
    dsimp only
    rw [if_pos hok]
    exact syncingParent_acts h hfine
  | closing id n steps result =>
    obtain ⟨session, hn⟩ := Books.known_arc (n := n) b
    cases steps with
    | nil => exact .inr (endClose_acts h hn hfine)
    | cons first steps =>
      refine hsession n _ fun session hn => .inr ?_
      have hstep := calm_closeStep (s := s) id n session.temp io first
      have hnext := @closeStep_fine _ _ session n _ _ _ _ io hfine
      rw [fates_closing id n steps result] at h
      cases steps with
      | nil =>
        obtain ⟨other, hother, -⟩ := hstep.get hn
        exact (endClose_acts (h.calm hstep) hother hnext).after hstep
      | cons second steps => exact hstep.acts (.closing id n (second :: steps) result) hnext h
  | abortWaits id n =>
    refine hsession n _ fun session hn => ?_
    split
    · exact .inl rfl
    · exact .inr (beginAbort_acts h hn)
  | returned => exact .inl rfl

end bbcom.export_session
