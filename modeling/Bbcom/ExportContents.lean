-- What the export sessions (`session.rs`) have written: the frames behind the bytes of a session,
-- and what becomes of its target.
import Bbcom.ExportBalance

open bbcom.js bbcom.tokens

namespace bbcom.export_session

open Happening List ExportSessionManager Nat

/-! ## The bytes of a session -/

/-- The header, and the encodings of the frames of the appends that returned. -/
def Exact (host : Host) (session : ExportSession) (contents : Uint8Array) : Prop :=
  ∃ body, encodeFrames host.library session.request.format session.request.target.name
    session.acknowledged = .ok body ∧ contents = header session.request.format ++ body

def rawBytesOf (frames : List DataFramePayload) : Nat := (frames.map (·.data.length)).sum

/-- The counts of a session go with its frames, and what its writer has been given does, unless a
failed append has spoiled it. -/
structure Counted (host : Host) (session : ExportSession) : Prop where
  frames : session.frameCount = session.acknowledged.length
  rawBytes : session.rawBytes = rawBytesOf session.acknowledged
  outputBytes : ∃ contents, Exact host session contents ∧
    session.outputBytes = min contents.length (2 ^ 64 - 1)
  written : session.spoiled = false → ∀ contents, session.writer = some contents →
    Exact host session contents

/-- What a session is but for its clock, its clones and its lock. -/
def ExportSession.work (session : ExportSession) : ExportSession :=
  { session with lastActivity := 0, strong := 0, locked := false }

/-- Frames, counts and bytes of a session stay. -/
structure SameWork (session other : ExportSession) : Prop extends SameFace session other where
  frameCount : other.frameCount = session.frameCount
  rawBytes : other.rawBytes = session.rawBytes
  outputBytes : other.outputBytes = session.outputBytes
  acknowledged : other.acknowledged = session.acknowledged
  spoiled : other.spoiled = session.spoiled

variable {host : Host} {session other : ExportSession}

theorem SameWork.refl (session : ExportSession) : SameWork session session :=
  ⟨⟨rfl, rfl, rfl⟩, rfl, rfl, rfl, rfl, rfl⟩

variable {third : ExportSession}

theorem SameFace.trans (h : SameFace session other) (h' : SameFace other third) :
    SameFace session third :=
  ⟨h'.id.trans h.id, h'.request.trans h.request, h'.identity.trans h.identity⟩

theorem SameWork.trans (h : SameWork session other) (h' : SameWork other third) :
    SameWork session third :=
  ⟨h.toSameFace.trans h'.toSameFace, h'.frameCount.trans h.frameCount,
    h'.rawBytes.trans h.rawBytes, h'.outputBytes.trans h.outputBytes,
    h'.acknowledged.trans h.acknowledged, h'.spoiled.trans h.spoiled⟩

theorem SameWork.of_work (h : other.work = session.work) : SameWork session other where
  id := congrArg (·.id) h
  request := congrArg (·.request) h
  identity := congrArg (·.identity) h
  frameCount := congrArg (·.frameCount) h
  rawBytes := congrArg (·.rawBytes) h
  outputBytes := congrArg (·.outputBytes) h
  acknowledged := congrArg (·.acknowledged) h
  spoiled := congrArg (·.spoiled) h

theorem terminal_of_work (h : other.work = session.work) : other.terminal = session.terminal :=
  congrArg (·.terminal) h

theorem SameWork.stats (h : SameWork session other) : other.stats = session.stats := by
  unfold ExportSession.stats
  rw [h.frameCount, h.rawBytes, h.outputBytes]

theorem SameWork.exact (h : SameWork session other) {contents : Uint8Array}
    (hexact : Exact host session contents) : Exact host other contents := by
  unfold Exact
  rw [h.request, h.acknowledged]
  exact hexact

theorem Counted.sameWork (h : Counted host session) (hsame : SameWork session other)
    (hwriter : other.writer = session.writer ∨ other.writer = none) : Counted host other where
  frames := by
    rw [hsame.frameCount, hsame.acknowledged]
    exact h.frames
  rawBytes := by
    rw [hsame.rawBytes, hsame.acknowledged]
    exact h.rawBytes
  outputBytes := by
    obtain ⟨contents, hexact, hlength⟩ := h.outputBytes
    exact ⟨contents, hsame.exact hexact, hsame.outputBytes.trans hlength⟩
  written hclean contents hcontents := by
    obtain hsame' | hnone := hwriter
    · rw [hsame'] at hcontents
      exact hsame.exact (h.written (hsame.spoiled ▸ hclean) contents hcontents)
    · rw [hnone] at hcontents
      cases hcontents

/-! ## What becomes of a target -/

/-- A finish has the fate of its target in hand: nothing is settled, it has replaced the target, or
it will not. -/
inductive Fate
  | undecided (session : Nat)
  | kept (session : Nat)
  | lost (session : Nat)
  deriving DecidableEq

def Call.fates : Call → List Fate
  | flushing _ session _ _ | syncing _ session _ | replacing _ session _ => [.undecided session]
  | syncingParent _ session _ | closing _ session _ (.finished (.ok _)) => [.kept session]
  | closing _ session _ (.finished (.error _)) | closing _ session _ .aborted => [.lost session]
  | _ => []

def Happening.isReplaced (session : Nat) : Happening → Bool
  | replaced n _ _ => n == session
  | _ => false

def Happening.isSucceeded (session : Nat) : Happening → Bool
  | finished n (.ok _) _ => n == session
  | _ => false

/-- A finish returns an error, or an abort returns. -/
def Happening.isFailed (session : Nat) : Happening → Bool
  | finished n (.error _) _ => n == session
  | aborted n => n == session
  | _ => false

def Happening.isExpired (session : Nat) : Happening → Bool
  | expired n => n == session
  | _ => false

/-- The numbers of one session. -/
structure Stand where
  undecided : Nat := 0
  kept : Nat := 0
  lost : Nat := 0
  replaced : Nat := 0
  succeeded : Nat := 0
  failed : Nat := 0
  expired : Nat := 0

def stand (log : List Happening) (fates : List Fate) (n : Nat) : Stand where
  undecided := fates.count (.undecided n)
  kept := fates.count (.kept n)
  lost := fates.count (.lost n)
  replaced := log.countP (isReplaced n)
  succeeded := log.countP (isSucceeded n)
  failed := log.countP (isFailed n)
  expired := log.countP (isExpired n)

/-- The fate of a target is settled once. -/
structure Once (c : Stand) (terminal : Bool) : Prop where
  begun : terminal = false → c.replaced = 0 ∧
    c.undecided + c.kept + c.lost + c.succeeded + c.failed + c.expired = 0
  once : c.undecided + c.kept + c.lost + c.succeeded + c.failed + c.expired ≤ 1
  replaced : c.replaced = c.kept + c.succeeded

def Stand.add (c : Stand) (n : Nat) : Fate → Stand
  | .undecided m => if m = n then { c with undecided := c.undecided + 1 } else c
  | .kept m => if m = n then { c with kept := c.kept + 1 } else c
  | .lost m => if m = n then { c with lost := c.lost + 1 } else c

variable {log : List Happening} {fates : List Fate}

theorem stand_cons (fate : Fate) (n : Nat) :
    stand log (fate :: fates) n = (stand log fates n).add n fate := by
  have hcount : ∀ t : Fate, (fate :: fates).count t = fates.count t + if fate = t then 1 else 0 :=
    fun t => by simp only [count_cons, beq_iff_eq]
  cases fate with
  | undecided m | kept m | lost m =>
    by_cases h : m = n <;> simp [stand, Stand.add, hcount, h]

theorem stand_perm {more : List Fate} (h : fates.Perm more) (n : Nat) :
    stand log fates n = stand log more n := by
  simp only [stand, h.count_eq]

def Stand.note (c : Stand) (n : Nat) : Happening → Stand
  | .replaced m _ _ => if m = n then { c with replaced := c.replaced + 1 } else c
  | .finished m (.ok _) _ => if m = n then { c with succeeded := c.succeeded + 1 } else c
  | .finished m (.error _) _ | .aborted m =>
    if m = n then { c with failed := c.failed + 1 } else c
  | .expired m => if m = n then { c with expired := c.expired + 1 } else c
  | _ => c

theorem stand_note (happening : Happening) (n : Nat) :
    stand (happening :: log) fates n = (stand log fates n).note n happening := by
  cases happening with
  | replaced m _ _ | aborted m | expired m =>
    by_cases h : m = n <;>
      simp [stand, Stand.note, isReplaced, isSucceeded, isFailed, isExpired, h]
  | finished m result _ =>
    cases result <;> by_cases h : m = n <;>
      simp [stand, Stand.note, isReplaced, isSucceeded, isFailed, isExpired, h]
  | _ =>
    simp [stand, Stand.note, isReplaced, isSucceeded, isFailed, isExpired]

/-- The files, with the replacements of a history. -/
def replay (files : String → Option Uint8Array) : List Happening → String → Option Uint8Array
  | [] => files
  | .replaced _ identity contents :: past =>
    Function.update (replay files past) identity (some contents)
  | _ :: past => replay files past

/-! ## What a history tells -/

variable {s t u : ExportSessionManager}

/-- What a happening says of the sessions as they are now. -/
def Told (host : Host) (s : ExportSessionManager) : Happening → Prop
  | .replaced n identity _ => ∃ session, s.sessions[n]? = some session ∧
      session.identity = identity
  | .finished n (.ok stats) target => ∃ session contents, s.sessions[n]? = some session ∧
      session.terminal = true ∧ stats = session.stats ∧ target = some contents ∧
        Exact host session contents
  | .finished n (.error _) _ | .aborted n => 0 < s.log.countP (isReleased n)
  | _ => True

/-- What is kept of the bytes and of the fates. -/
structure Sound (host : Host) (files : String → Option Uint8Array) (s : ExportSessionManager)
    (fates : List Fate) : Prop where
  counted : ∀ session ∈ s.sessions, Counted host session
  once : ∀ n, Once (stand s.log fates n) ((s.sessions[n]?).any (·.terminal))
  files : s.files = replay files s.log
  told : ∀ happening ∈ s.log, Told host s happening

/-- What a call knows where it stands. -/
def Fine (host : Host) (s : ExportSessionManager) : Call → Prop
  | .appendWaits _ frames batchBytes _ => batchBytes = rawBytesOf frames
  | .appending n frames encoded nextFrameCount nextRawBytes =>
    ∃ session, s.sessions[n]? = some session ∧
      encodeFrames host.library session.request.format session.request.target.name frames =
        .ok encoded ∧
      nextFrameCount = session.frameCount + frames.length ∧
      nextRawBytes = session.rawBytes + rawBytesOf frames
  | .flushing _ n contents stats =>
    ∃ session, s.sessions[n]? = some session ∧ session.terminal = true ∧ stats = session.stats ∧
      (session.spoiled = false → Exact host session contents)
  | .syncing _ n stats | .replacing _ n stats =>
    ∃ session, s.sessions[n]? = some session ∧ session.terminal = true ∧ stats = session.stats ∧
      (session.spoiled = false → ∀ contents, s.temps session.temp = some contents →
        Exact host session contents)
  | .syncingParent _ n stats | .closing _ n _ (.finished (.ok stats)) =>
    ∃ session contents, s.sessions[n]? = some session ∧ session.terminal = true ∧
      stats = session.stats ∧ s.files session.identity = some contents ∧
        Exact host session contents
  | .closing _ n steps (.finished (.error _)) | .closing _ n steps .aborted =>
    .unlistTemp ∈ steps ∨ 0 < s.log.countP (isReleased n)
  | _ => True

/-! ## What a piece changes -/

/-- What a piece does that others may see: an append writes to its session, a finish flushes to
its temp file, or replaces its target. -/
inductive Piece
  | quiet
  | appends (session : Nat)
  | flushes (session : Nat)
  | replaces (session : Nat)
  deriving DecidableEq

structure Goes (piece : Piece) (s t : ExportSessionManager) : Prop where
  sessions : ∀ (n : Nat) (session : ExportSession), s.sessions[n]? = some session →
    ∃ other, t.sessions[n]? = some other ∧ SameFace session other ∧
      (session.terminal = true → other.terminal = true ∧ SameWork session other) ∧
      (piece ≠ .appends n → SameWork session other)
  temps : ∀ (n : Nat) (session : ExportSession), s.sessions[n]? = some session →
    piece ≠ .flushes n → ∀ contents, t.temps session.temp = some contents →
      s.temps session.temp = some contents
  files : ∀ identity, (∀ (n : Nat) (session : ExportSession), piece = .replaces n →
    s.sessions[n]? = some session → session.identity ≠ identity) →
      t.files identity = s.files identity
  log : ∃ news, t.log = news ++ s.log

variable {piece : Piece} {happening : Happening} {n : Nat} {news : List Happening}
  {files : String → Option Uint8Array}

theorem Goes.then (h : Goes piece s t) (h' : Goes .quiet t u) : Goes piece s u where
  sessions n session hn := by
    obtain ⟨other, hother, hface, hended, hsame⟩ := h.sessions n session hn
    obtain ⟨third, hthird, -, hended', hsame'⟩ := h'.sessions n other hother
    have hquiet := hsame' (by simp)
    refine ⟨third, hthird, hface.trans hquiet.toSameFace, fun hterminal => ?_, fun hpiece =>
      (hsame hpiece).trans hquiet⟩
    obtain ⟨hterminal', hkept⟩ := hended hterminal
    exact ⟨(hended' hterminal').1, hkept.trans hquiet⟩
  temps n session hn hpiece contents hcontents := by
    obtain ⟨other, hother, hface, -, -⟩ := h.sessions n session hn
    refine h.temps n session hn hpiece contents ?_
    rw [← hface.temp] at hcontents ⊢
    exact h'.temps n other hother (by simp) contents hcontents
  files identity hpiece := by
    rw [h'.files identity (by simp)]
    exact h.files identity hpiece
  log := by
    obtain ⟨news, hnews⟩ := h.log
    obtain ⟨more, hmore⟩ := h'.log
    exact ⟨more ++ news, by rw [hmore, hnews, append_assoc]⟩

/-- A piece changes no session. -/
theorem Goes.of_same (hsessions : t.sessions = s.sessions)
    (htemps : ∀ (n : Nat) (session : ExportSession), s.sessions[n]? = some session →
      piece ≠ .flushes n → ∀ contents, t.temps session.temp = some contents →
        s.temps session.temp = some contents)
    (hfiles : ∀ identity, (∀ (n : Nat) (session : ExportSession), piece = .replaces n →
      s.sessions[n]? = some session → session.identity ≠ identity) →
        t.files identity = s.files identity) (hlog : ∃ news, t.log = news ++ s.log) :
    Goes piece s t where
  sessions _ session hn := ⟨session, hsessions ▸ hn, ⟨rfl, rfl, rfl⟩,
    fun hended => ⟨hended, .refl session⟩, fun _ => .refl session⟩
  temps := htemps
  files := hfiles
  log := hlog

theorem goes_record (happening : Happening) : Goes .quiet s (s.record happening) :=
  .of_same rfl (fun _ _ _ _ _ h => h) (fun _ _ => rfl) ⟨[happening], rfl⟩

theorem Goes.countP_le (h : Goes piece s t) (p : Happening → Bool) :
    s.log.countP p ≤ t.log.countP p := by
  obtain ⟨news, hnews⟩ := h.log
  rw [hnews, countP_append]
  exact le_add_left _ _

/-- What was told stays true. -/
theorem Told.goes (h : Told host s happening) (hgoes : Goes piece s t) : Told host t happening := by
  have hreleased := fun n => hgoes.countP_le (isReleased n)
  cases happening with
  | replaced n identity _ =>
    obtain ⟨session, hn, hidentity⟩ := h
    obtain ⟨other, hother, hface, -, -⟩ := hgoes.sessions n session hn
    exact ⟨other, hother, hface.identity.trans hidentity⟩
  | finished n result _ =>
    cases result with
    | ok stats =>
      obtain ⟨session, contents, hn, hterminal, hstats, htarget, hexact⟩ := h
      obtain ⟨other, hother, -, hended, -⟩ := hgoes.sessions n session hn
      obtain ⟨hterminal', hsame⟩ := hended hterminal
      exact ⟨other, contents, hother, hterminal', hstats.trans hsame.stats.symm, htarget,
        hsame.exact hexact⟩
    | error => exact lt_of_lt_of_le h (hreleased n)
  | aborted n => exact lt_of_lt_of_le h (hreleased n)
  | _ => trivial

/-- A piece does not meddle with what a call has in hand. -/
structure Apart (piece : Piece) (s : ExportSessionManager) (other : Call) : Prop where
  appends : ∀ n, piece = .appends n → .lock n ∉ other.holds
  flushes : ∀ n, piece = .flushes n → .undecided n ∉ other.fates
  replaces : ∀ n m, piece = .replaces n → .kept m ∈ other.fates →
    ∀ session target : ExportSession, s.sessions[n]? = some session →
      s.sessions[m]? = some target → session.identity ≠ target.identity

/-- A call that a piece does not meddle with still knows what it knew. -/
theorem Fine.goes {call : Call} (h : Fine host s call) (hgoes : Goes piece s t)
    (hapart : Apart piece s call) : Fine host t call := by
  have hreleased := fun n => hgoes.countP_le (isReleased n)
  have htemp : ∀ (n : Nat) (stats : ExportFinishStats), .undecided n ∈ call.fates →
      (∃ session, s.sessions[n]? = some session ∧ session.terminal = true ∧
        stats = session.stats ∧ (session.spoiled = false → ∀ contents,
          s.temps session.temp = some contents → Exact host session contents)) →
      ∃ session, t.sessions[n]? = some session ∧ session.terminal = true ∧
        stats = session.stats ∧ (session.spoiled = false → ∀ contents,
          t.temps session.temp = some contents → Exact host session contents) := by
    rintro n stats hfate ⟨session, hn, hterminal, hstats, hexact⟩
    obtain ⟨other, hother, -, hended, -⟩ := hgoes.sessions n session hn
    obtain ⟨hterminal', hsame⟩ := hended hterminal
    refine ⟨other, hother, hterminal', hstats.trans hsame.stats.symm, fun hclean contents hc => ?_⟩
    rw [hsame.temp] at hc
    rw [hsame.spoiled] at hclean
    have hbefore := hgoes.temps n session hn (fun hpiece => hapart.flushes n hpiece hfate)
      contents hc
    exact hsame.exact (hexact hclean contents hbefore)
  have htarget : ∀ (n : Nat) (stats : ExportFinishStats), .kept n ∈ call.fates →
      (∃ session contents, s.sessions[n]? = some session ∧ session.terminal = true ∧
        stats = session.stats ∧ s.files session.identity = some contents ∧
          Exact host session contents) →
      ∃ session contents, t.sessions[n]? = some session ∧ session.terminal = true ∧
        stats = session.stats ∧ t.files session.identity = some contents ∧
          Exact host session contents := by
    rintro n stats hfate ⟨session, contents, hn, hterminal, hstats, hfile, hexact⟩
    obtain ⟨other, hother, -, hended, -⟩ := hgoes.sessions n session hn
    obtain ⟨hterminal', hsame⟩ := hended hterminal
    refine ⟨other, contents, hother, hterminal', hstats.trans hsame.stats.symm, ?_,
      hsame.exact hexact⟩
    rw [hsame.identity, hgoes.files session.identity fun m writer hpiece hm =>
      hapart.replaces m n hpiece hfate writer session hm hn]
    exact hfile
  cases call with
  | appending n frames encoded nextFrameCount nextRawBytes =>
    obtain ⟨session, hn, hencoded, hcount, hraw⟩ := h
    obtain ⟨other, hother, -, -, hsame⟩ := hgoes.sessions n session hn
    have hkept := hsame fun hpiece => hapart.appends n hpiece (by simp [Call.holds])
    refine ⟨other, hother, ?_, ?_, ?_⟩
    · rw [hkept.request]
      exact hencoded
    · rw [hkept.frameCount]
      exact hcount
    · rw [hkept.rawBytes]
      exact hraw
  | flushing id n contents stats =>
    obtain ⟨session, hn, hterminal, hstats, hexact⟩ := h
    obtain ⟨other, hother, -, hended, -⟩ := hgoes.sessions n session hn
    obtain ⟨hterminal', hsame⟩ := hended hterminal
    refine ⟨other, hother, hterminal', hstats.trans hsame.stats.symm, fun hclean => ?_⟩
    exact hsame.exact (hexact (hsame.spoiled ▸ hclean))
  | syncing id n stats | replacing id n stats => exact htemp n stats (by simp [Call.fates]) h
  | syncingParent id n stats => exact htarget n stats (by simp [Call.fates]) h
  | closing id n steps result =>
    cases result with
    | finished result =>
      cases result with
      | ok stats => exact htarget n stats (by simp [Call.fates]) h
      | error => exact h.imp_right fun hpos => lt_of_lt_of_le hpos (hreleased n)
    | aborted => exact h.imp_right fun hpos => lt_of_lt_of_le hpos (hreleased n)
  | _ => exact h

/-! ## What does not matter -/

/-- Nothing about bytes and fates happens. -/
def Happening.isCalm : Happening → Bool
  | replaced _ _ _ | finished _ _ _ | aborted _ | expired _ => false
  | _ => true

/-- Clocks, clones and locks may change, and temp files may go. -/
structure Calm (s t : ExportSessionManager) : Prop where
  sessions : t.sessions.map (·.work) = s.sessions.map (·.work)
  temps : ∀ session ∈ s.sessions, ∀ contents, t.temps session.temp = some contents →
    s.temps session.temp = some contents
  files : t.files = s.files
  log : ∃ news, t.log = news ++ s.log ∧ ∀ happening ∈ news, happening.isCalm = true
  calls : t.calls = s.calls

theorem Calm.refl (s : ExportSessionManager) : Calm s s :=
  ⟨rfl, fun _ _ _ h => h, rfl, ⟨[], rfl, fun _ h => absurd h not_mem_nil⟩, rfl⟩

theorem work_back {sessions others : List ExportSession}
    (h : others.map (·.work) = sessions.map (·.work)) (hmem : session ∈ sessions) :
    ∃ other ∈ others, other.work = session.work := by
  have hwork : session.work ∈ others.map (·.work) := h ▸ mem_map_of_mem hmem
  obtain ⟨other, hother, hsame⟩ := mem_map.1 hwork
  exact ⟨other, hother, hsame⟩

theorem Calm.trans (h : Calm s t) (h' : Calm t u) : Calm s u where
  sessions := h'.sessions.trans h.sessions
  temps session hmem contents hcontents := by
    obtain ⟨other, hother, hsame⟩ := work_back h.sessions hmem
    have htemp := (SameWork.of_work hsame).temp
    refine h.temps session hmem contents ?_
    rw [← htemp] at hcontents ⊢
    exact h'.temps other hother contents hcontents
  files := h'.files.trans h.files
  log := by
    obtain ⟨news, hnews, hcalm⟩ := h.log
    obtain ⟨more, hmore, hcalm'⟩ := h'.log
    refine ⟨more ++ news, by rw [hmore, hnews, append_assoc], fun happening hmem => ?_⟩
    exact (mem_append.1 hmem).elim (hcalm' happening) (hcalm happening)
  calls := h'.calls.trans h.calls

theorem Calm.get (h : Calm s t) (hn : s.sessions[n]? = some session) :
    ∃ other, t.sessions[n]? = some other ∧ other.work = session.work := by
  have hwork : (t.sessions.map (·.work))[n]? = some session.work := by
    rw [h.sessions, getElem?_map, hn]
    rfl
  rw [getElem?_map, Option.map_eq_some_iff] at hwork
  exact hwork

theorem Calm.goes (h : Calm s t) (piece : Piece) : Goes piece s t where
  sessions n session hn := by
    obtain ⟨other, hother, hwork⟩ := h.get hn
    have hsame := SameWork.of_work hwork
    exact ⟨other, hother, hsame.toSameFace,
      fun hterminal => ⟨(terminal_of_work hwork).trans hterminal, hsame⟩, fun _ => hsame⟩
  temps n session hn _ := h.temps session (mem_of_getElem? hn)
  files identity _ := by rw [h.files]
  log := by
    obtain ⟨news, hnews, -⟩ := h.log
    exact ⟨news, hnews⟩

theorem stand_calm (h : ∀ happening ∈ news, happening.isCalm = true) (n : Nat) :
    stand (news ++ log) fates n = stand log fates n := by
  induction news with
  | nil => rfl
  | cons happening news ih =>
    have hrest := ih fun other hother => h other (mem_cons_of_mem _ hother)
    rw [cons_append, stand_note, hrest]
    have hcalm := h happening mem_cons_self
    cases happening with
    | replaced | finished | aborted | expired => cases hcalm
    | _ => rfl

theorem replay_calm (h : ∀ happening ∈ news, happening.isCalm = true) :
    replay files (news ++ log) = replay files log := by
  induction news with
  | nil => rfl
  | cons happening news ih =>
    have hrest := ih fun other hother => h other (mem_cons_of_mem _ hother)
    have hcalm := h happening mem_cons_self
    cases happening with
    | replaced | finished | aborted | expired => cases hcalm
    | _ => exact hrest

theorem Told.of_calm (h : happening.isCalm = true) : Told host s happening := by
  cases happening with
  | replaced | finished | aborted | expired => cases h
  | _ => trivial

theorem Sound.calm (h : Sound host files s fates) (hcalm : Calm s t) :
    Sound host files t fates where
  counted other hother := by
    obtain ⟨session, hmem, hwork⟩ := work_back hcalm.sessions.symm hother
    exact (h.counted session hmem).sameWork (SameWork.of_work hwork.symm)
      (.inl (congrArg (·.writer) hwork.symm))
  once n := by
    obtain ⟨news, hnews, hnone⟩ := hcalm.log
    have hterminal : (t.sessions[n]?).any (·.terminal) = (s.sessions[n]?).any (·.terminal) := by
      have hwork := congrArg (·[n]?.any (·.terminal)) hcalm.sessions
      simp only [getElem?_map, Option.any_map] at hwork
      exact hwork
    rw [hnews, stand_calm hnone, hterminal]
    exact h.once n
  files := by
    obtain ⟨news, hnews, hnone⟩ := hcalm.log
    rw [hcalm.files, hnews, replay_calm hnone]
    exact h.files
  told happening hmem := by
    obtain ⟨news, hnews, hnone⟩ := hcalm.log
    rw [hnews] at hmem
    obtain hnew | hold := mem_append.1 hmem
    · exact .of_calm (hnone happening hnew)
    · exact (h.told happening hold).goes (hcalm.goes .quiet)

theorem Sound.perm {more : List Fate} (h : Sound host files s fates) (hperm : fates.Perm more) :
    Sound host files s more :=
  { h with once n := stand_perm hperm n ▸ h.once n }

theorem calm_record (h : happening.isCalm = true) : Calm s (s.record happening) :=
  { Calm.refl s with
    log := ⟨[happening], rfl, fun _ hmem => mem_singleton.1 hmem ▸ h⟩ }

theorem calm_modify {f : ExportSession → ExportSession}
    (h : ∀ session, (f session).work = session.work) : Calm s (s.modify n f) :=
  { Calm.refl s with
    sessions := by
      apply ext_getElem?
      intro m
      simp only [ExportSessionManager.modify, getElem?_map, getElem?_modify]
      split
      · simp [Option.map_map, Function.comp_def, h]
      · simp }

theorem calm_releaseSlot : Calm s s.releaseSlot := { @calm_record s .slotReleased rfl with }

theorem calm_releaseTarget (identity : String) : Calm s (s.releaseTarget identity) :=
  { @calm_record s (.targetReleased identity) rfl with }

theorem calm_dropArc (n : Nat) : Calm s (s.dropArc n) := by
  unfold dropArc
  cases s.sessions[n]? with
  | none => exact .refl s
  | some state =>
    dsimp only
    have hless : Calm s (s.modify n fun session => { session with strong := session.strong - 1 }) :=
      calm_modify fun _ => rfl
    split
    · exact (hless.trans calm_releaseSlot).trans (calm_releaseTarget _)
    · exact hless

theorem calm_removeCurrent (id : String) (n : Nat) : Calm s (s.removeCurrent id n) := by
  unfold removeCurrent
  split
  · exact { calm_dropArc (s := { s with table := s.table.erase (id, n) }) n with }
  · exact .refl s

/-- Temp files go. -/
theorem calm_temps {temps : TempPath → Option Uint8Array}
    (h : ∀ temp contents, temps temp = some contents → s.temps temp = some contents) :
    Calm s { s with temps } :=
  { Calm.refl s with temps session _ := h session.temp }

theorem calm_removeTemp (temp : TempPath) (io : Io) : Calm s (s.removeTemp temp io) := by
  unfold removeTemp
  split
  · refine calm_temps fun other contents h => ?_
    by_cases hsame : other = temp
    · simp [hsame] at h
    · simpa [hsame] using h
  · exact .refl s

theorem calm_removeStale (stale activeTemps : List TempPath) :
    Calm s (s.removeStale stale activeTemps) := by
  refine calm_temps fun temp contents h => ?_
  split at h
  · cases h
  · exact h

theorem calm_unlistTemp (n : Nat) (temp : TempPath) : Calm s (s.unlistTemp n temp) :=
  { @calm_record s (.tempReleased n) rfl with }

/-! ## One session changes -/

/-- The session that a fate is about. -/
def Fate.about : Fate → Nat
  | undecided n | kept n | lost n => n

theorem Happening.about_of_isReplaced (h : happening.isReplaced n = true) :
    happening.about = some n := by
  cases happening with
  | replaced m => exact congrArg some (beq_iff_eq.1 h)
  | _ => cases h

theorem Happening.about_of_isSucceeded (h : happening.isSucceeded n = true) :
    happening.about = some n := by
  cases happening with
  | finished m result =>
    cases result with
    | ok => exact congrArg some (beq_iff_eq.1 h)
    | error => cases h
  | _ => cases h

theorem Happening.about_of_isFailed (h : happening.isFailed n = true) :
    happening.about = some n := by
  cases happening with
  | finished m result =>
    cases result with
    | ok => cases h
    | error => exact congrArg some (beq_iff_eq.1 h)
  | aborted m => exact congrArg some (beq_iff_eq.1 h)
  | _ => cases h

theorem Happening.about_of_isExpired (h : happening.isExpired n = true) :
    happening.about = some n := by
  cases happening with
  | expired m => exact congrArg some (beq_iff_eq.1 h)
  | _ => cases h

/-- What is about one session leaves the numbers of the others. -/
theorem stand_other {m : Nat} (hm : m ≠ n) (hnews : ∀ happening ∈ news, happening.about = some n)
    {front : List Fate} (hfront : ∀ fate ∈ front, fate.about = n) :
    stand (news ++ log) (front ++ fates) m = stand log fates m := by
  have hnote : ∀ p : Happening → Bool, (∀ happening, p happening = true →
      happening.about = some m) → (news ++ log).countP p = log.countP p := by
    intro p hp
    have hzero : news.countP p = 0 := by
      rw [countP_eq_zero]
      intro happening hmem hholds
      have habout := hnews happening hmem
      rw [hp happening hholds, Option.some.injEq] at habout
      exact hm habout
    rw [countP_append, hzero, zero_add]
  have hcount : ∀ fate : Fate, fate.about = m → (front ++ fates).count fate = fates.count fate := by
    intro fate hfate
    have hzero : front.count fate = 0 := by
      rw [count_eq_zero]
      intro hmem
      exact hm (hfate ▸ hfront fate hmem)
    rw [count_append, hzero, zero_add]
  unfold stand
  rw [hnote _ fun _ => about_of_isReplaced,
    hnote _ fun _ => about_of_isSucceeded, hnote _ fun _ => about_of_isFailed,
    hnote _ fun _ => about_of_isExpired, hcount _ rfl, hcount _ rfl, hcount _ rfl]

variable {files : String → Option Uint8Array} {n : Nat} {f : ExportSession → ExportSession}

/-- A piece changes one session. -/
theorem Goes.of_modify (hn : s.sessions[n]? = some session)
    (hsessions : t.sessions = s.sessions.modify n f) (hface : SameFace session (f session))
    (hended : session.terminal = true → (f session).terminal = true ∧ SameWork session (f session))
    (hsame : piece ≠ .appends n → SameWork session (f session))
    (htemps : ∀ (m : Nat) (other : ExportSession), s.sessions[m]? = some other →
      piece ≠ .flushes m → ∀ contents, t.temps other.temp = some contents →
        s.temps other.temp = some contents)
    (hfiles : ∀ identity, (∀ (m : Nat) (other : ExportSession), piece = .replaces m →
      s.sessions[m]? = some other → other.identity ≠ identity) →
        t.files identity = s.files identity) (hlog : ∃ news, t.log = news ++ s.log) :
    Goes piece s t where
  sessions m other hm := by
    rw [hsessions, getElem?_modify, hm]
    by_cases hthis : n = m
    · rw [← hthis, hn, Option.some.injEq] at hm
      subst hm
      subst hthis
      exact ⟨f session, by simp, hface, hended, hsame⟩
    · exact ⟨other, by simp [hthis], ⟨rfl, rfl, rfl⟩, fun h => ⟨h, .refl other⟩,
        fun _ => .refl other⟩
  temps := htemps
  files := hfiles
  log := hlog

/-- A call gives the fates of `front` for those of `back`. -/
theorem Sound.change (front back : List Fate) (news : List Happening)
    (h : Sound host files s (front ++ fates)) (hn : s.sessions[n]? = some session)
    (hsessions : t.sessions = s.sessions.modify n f) (hgoes : Goes piece s t)
    (hcounted : Counted host (f session)) (hfiles : t.files = replay files t.log)
    (hlog : t.log = news ++ s.log) (hnews : ∀ happening ∈ news, happening.about = some n)
    (htold : ∀ happening ∈ news, Told host t happening) (hfront : ∀ fate ∈ front, fate.about = n)
    (hback : ∀ fate ∈ back, fate.about = n)
    (honce : Once (stand t.log (back ++ fates) n) (f session).terminal) :
    Sound host files t (back ++ fates) where
  counted other hother := by
    rw [hsessions] at hother
    obtain hold | rfl := mem_modify hn hother
    · exact h.counted other hold
    · exact hcounted
  once m := by
    rw [hsessions, getElem?_modify]
    by_cases hm : n = m
    · subst hm
      simpa [hn] using honce
    · have hbefore := h.once m
      rw [hlog, stand_other (Ne.symm hm) hnews hback]
      rw [← nil_append s.log, stand_other (Ne.symm hm) (fun _ h => absurd h
        not_mem_nil) hfront] at hbefore
      simpa [hm] using hbefore
  files := hfiles
  told happening hmem := by
    rw [hlog] at hmem
    obtain hnew | hold := mem_append.1 hmem
    · exact htold happening hnew
    · exact (h.told happening hold).goes hgoes

end bbcom.export_session
