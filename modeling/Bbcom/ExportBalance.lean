-- The export sessions (`session.rs`) keep their books: each piece of a call gives the tokens that
-- it had in hand for those of the await it comes to.
import Bbcom.ExportLedger

open bbcom.js bbcom.tokens bbcom.histories bbcom.runs

namespace bbcom.export_session

open ExportSessionManager List Call Happening

variable {s t : ExportSessionManager} {tokens rest : List Token} {call n : Nat}

/-! ## Pieces -/

/-- The calls stand where they stood. -/
theorem calls_dropArc (s : ExportSessionManager) (n : Nat) : (s.dropArc n).calls = s.calls := by
  unfold dropArc
  cases s.sessions[n]? with
  | none => rfl
  | some state =>
    dsimp only
    split <;> rfl

theorem calls_removeCurrent (s : ExportSessionManager) (id : String) (n : Nat) :
    (s.removeCurrent id n).calls = s.calls := by
  unfold removeCurrent
  split
  · exact calls_dropArc _ n
  · rfl

theorem calls_removeTemp (s : ExportSessionManager) (temp : TempPath) (io : Io) :
    (s.removeTemp temp io).calls = s.calls := by
  unfold removeTemp
  split <;> rfl

/-- A piece of a call ends at an await, with what it has in hand there. -/
def Lands (calls : List Call) (call : Nat) (rest : List Token) (s : ExportSessionManager) : Prop :=
  ∃ t next, s = t.goOn call next ∧ t.calls = calls ∧ Books t (holds next ++ rest)

theorem Books.goesOn {calls : List Call} (next : Call) (b : Books s (next.holds ++ rest))
    (hcalls : s.calls = calls) : Lands calls call rest (s.goOn call next) :=
  ⟨s, next, rfl, hcalls, b⟩

theorem Books.files (b : Books s tokens) (files : String → Option Uint8Array)
    (temps : TempPath → Option Uint8Array) : Books { s with files, temps } tokens :=
  ⟨{ b.rolls with }, { b.house with }, b.silent⟩

theorem Books.removeTemp (b : Books s tokens) (temp : TempPath) (io : Io) :
    Books (s.removeTemp temp io) tokens := by
  unfold ExportSessionManager.removeTemp
  split
  · exact b.files s.files _
  · exact b

/-! ## Sweeps -/

/-- The session that a sweep seals next. -/
def Call.expires (s : ExportSessionManager) : Call → Option ExportSession
  | .sweeping _ now ((_, n) :: _) _ => s.sessions[n]?.filter fun session =>
    !session.locked && decide (EXPORT_SESSION_TTL ≤ now - session.lastActivity)
  | _ => none

/-- A sweep takes only sessions that are not terminal. -/
def Guarded (s : ExportSessionManager) : ExportEvent → Prop
  | .proceed call _ => ∀ stage ∈ s.calls[call]?, ∀ session ∈ stage.expires s,
    session.terminal = false
  | _ => True

instance (s : ExportSessionManager) : DecidablePred (Guarded s) := fun e =>
  match e with
  | .proceed call _ => inferInstanceAs (Decidable (∀ stage ∈ s.calls[call]?,
    ∀ session ∈ stage.expires s, session.terminal = false))
  | .begin _ | .append _ _ _ | .finish _ | .abort _ | .tick _ => .isTrue trivial

theorem acquireSlot_lands (b : Books s rest) (request : BeginRequest) :
    Lands s.calls call rest (s.acquireSlot call request) := by
  unfold acquireSlot
  split
  · exact b.takeSlot.goesOn (.canonicalizing request) rfl
  · exact b.goesOn .returned rfl

variable {expired : List Nat} {id identity : String} {request : BeginRequest}
  {session : ExportSession}

theorem dispose_lands (request : BeginRequest) (b : Books s (expired.map .duty ++ rest)) :
    Lands s.calls call rest (s.dispose call request expired) := by
  cases expired with
  | nil => exact acquireSlot_lands b request
  | cons session expired => exact b.goesOn (.disposing request (session :: expired)) rfl

variable {candidates : List (String × Nat)}

theorem sweepNext_lands {now : Nat}
    (b : Books s (holds (.sweeping request now ((id, n) :: candidates) expired) ++ rest))
    (hguard : ∀ session ∈ (sweeping request now ((id, n) :: candidates) expired).expires s,
      session.terminal = false) :
    Lands s.calls call rest (s.sweepNext call request now id n candidates expired) := by
  replace b : Books s (.arc n :: .name n id ::
      (holds (.sweeping request now candidates expired) ++ rest)) := b
  obtain ⟨session, hn⟩ := b.known_arc
  simp only [sweepNext, hn]
  split
  · exact b.dropArc.forgetName.goesOn (.sweeping request now candidates expired) (calls_dropArc s n)
  · rename_i hstale
    simp only [Bool.or_eq_true, decide_eq_true_eq, not_or, Bool.not_eq_true, not_lt] at hstale
    have hterminal := hguard session (by simp [expires, hn, hstale])
    have hsealed := b.closeSealed (fun session =>
      { session with terminal := true, lastActivity := s.now, writer := none, locked := true })
      hn hterminal hstale.1 ⟨rfl, rfl, rfl⟩ rfl rfl true rfl
    have hexpired := hsealed.record (.expired n) rfl (fun _ _ => rfl) trivial
    refine (hexpired.perm (perm_iff_count.2 fun token => ?_)).goesOn
      (.expiring request now id n candidates expired) rfl
    simp only [holds, if_true, cons_append, nil_append, append_assoc, count_cons]
    omega

theorem expiring_lands {now : Nat}
    (b : Books s (holds (.expiring request now id n candidates expired) ++ rest)) :
    Lands s.calls call rest
      ((((s.removeCurrent id n).modify n fun session => { session with locked := false }).dropArc
        n).goOn call (.sweeping request now candidates (expired ++ [n]))) := by
  have hfirst : Books s (.entry n :: .shut n :: .arc n :: .name n id ::
      (holds (.sweeping request now candidates (expired ++ [n])) ++ rest)) := by
    refine b.perm (perm_iff_count.2 fun token => ?_)
    simp only [holds, cons_append, nil_append, append_assoc, map_append,
      map_cons, map_nil, count_cons, count_append]
    omega
  have hremoved := hfirst.removeCurrent id (by simp)
  have hthere : ∃ session, (s.removeCurrent id n).sessions[n]? = some session := by
    refine hremoved.known fun c h => ?_
    have hshuts := congrArg Tally.shuts h
    simp [Tally.add] at hshuts
  obtain ⟨session, hn⟩ := hthere
  have hdropped := (hremoved.unshut hn).dropArc.forgetName
  exact hdropped.goesOn _ ((calls_dropArc _ n).trans (calls_removeCurrent s id n))

theorem disposed_lands (b : Books s (holds (.disposed request n expired) ++ rest))
    (hn : s.sessions[n]? = some session) :
    Lands s.calls call rest ((s.unlistTemp n session.temp).dispose call request expired) :=
  dispose_lands request (b.unlistTemp hn)

/-! ## Begins -/

theorem refuse_lands (b : Books s (.slot :: .target identity :: rest)) :
    Lands s.calls call rest (s.refuse call identity) :=
  (b.perm (.swap _ _ _)).releaseTarget.releaseSlot.goesOn .returned rfl

theorem canonicalizing_lands (io : Io) (b : Books s (holds (.canonicalizing request) ++ rest)) :
    Lands s.calls call rest
      (if !io.ok || s.activeTargets.contains identity then s.releaseSlot.goOn call .returned
      else
        ({ s with activeTargets := identity :: s.activeTargets }.record
          (.targetReserved identity)).goOn call (.snapshotting request identity)) := by
  split
  · exact b.releaseSlot.goesOn .returned rfl
  · rename_i hfree
    have hno : identity ∉ s.activeTargets := by
      intro hin
      exact hfree (by simp [hin])
    exact ((b.reserveTarget hno).perm (.swap _ _ _)).goesOn (.snapshotting request identity) rfl

theorem naming_lands {attempts : Nat} (io : Io)
    (b : Books s (holds (.naming request identity attempts) ++ rest)) (hdrawn : io.id ∉ s.drawn) :
    Lands s.calls call rest
      ({ s with
        drawn := io.id :: s.drawn
        reservedIds := io.id :: s.reservedIds }.goOn call (.creating request identity io.id)) := by
  refine ((b.reserveId hdrawn).perm (perm_iff_count.2 fun token => ?_)).goesOn
    (.creating request identity io.id) rfl
  simp only [holds, cons_append, nil_append, count_cons]
  omega

theorem initializing_lands (b : Books s (holds (.initializing request identity id) ++ rest)) :
    Lands s.calls call rest (s.prepareSession call request identity id) := by
  have hready : Books s (.slot :: .target identity :: .fresh id :: .id id :: rest) :=
    b.perm (.cons _ (.cons _ (.swap _ _ _)))
  exact ((hready.prepareSession _ rfl rfl rfl rfl rfl).perm (.cons _ (.swap _ _ _))).goesOn
    (.listing id s.sessions.length) rfl

theorem undoing_lands (b : Books s (holds (.undoing request identity id) ++ rest)) :
    Lands s.calls call rest ((s.releaseReserved id).refuse call identity) := by
  have hready : Books s (.id id :: .fresh id :: .slot :: .target identity :: rest) := by
    refine b.perm (perm_iff_count.2 fun token => ?_)
    simp only [holds, cons_append, nil_append, count_cons]
    omega
  exact refuse_lands hready.releaseReserved.forgetFresh

theorem listing_lands (b : Books s (holds (.listing id n) ++ rest))
    (hn : s.sessions[n]? = some session) :
    Lands s.calls call rest
      (({ s with activeTemps := session.temp :: s.activeTemps }.record (.tempListed n)).goOn call
        (.inserting id n)) := by
  have hready : Books s (.birth n :: .unlisted n :: .name n id :: .id id :: rest) :=
    b.perm (.cons _ (.swap _ _ _))
  exact ((hready.listTemp hn).perm (.cons _ (.swap _ _ _))).goesOn (.inserting id n) rfl

theorem inserting_lands (b : Books s (holds (.inserting id n) ++ rest)) :
    Lands s.calls call rest
      ({ s.cloneArc n with table := (id, n) :: s.table }.goOn call (.unreserving id n)) := by
  obtain ⟨session, hn, rfl⟩ := b.rolls.names n id (by simp [holds])
  have hready : Books s (.birth n :: .duty n :: .name n session.id :: .id session.id :: rest) :=
    b.perm (.cons _ (.swap _ _ _))
  exact ((hready.insert hn).perm (.swap _ _ _)).forgetName.goesOn (.unreserving session.id n) rfl

theorem unreserving_lands (b : Books s (holds (.unreserving id n) ++ rest)) :
    Lands s.calls call rest (((s.releaseReserved id).dropArc n).goOn call .returned) :=
  (b.perm (.swap _ _ _)).releaseReserved.dropArc.goesOn .returned (calls_dropArc _ n)

/-! ## Appends -/

variable {frames : List DataFramePayload}

theorem beginAppend_lands {host : Host} {batchBytes : Nat} {internal : Bool}
    (b : Books s (holds (.appendWaits n frames batchBytes internal) ++ rest))
    (hn : s.sessions[n]? = some session) (hlocked : session.locked = false) :
    Lands s.calls call rest (s.beginAppend host call n session frames batchBytes internal) := by
  have hrefused : Lands s.calls call rest ((s.dropArc n).goOn call .returned) :=
    b.dropArc.goesOn .returned (calls_dropArc s n)
  unfold beginAppend
  dsimp only
  split
  · exact hrefused
  · split
    · exact hrefused
    · rename_i encoded nextFrameCount nextRawBytes hprepare
      have hterminal : session.terminal = false := by
        by_contra hended
        simp [ExportSession.prepareAppend, Bool.not_eq_false _ ▸ hended] at hprepare
      exact ((b.lock hn hterminal hlocked).perm (.swap _ _ _)).goesOn
        (.appending n frames encoded nextFrameCount nextRawBytes) rfl

theorem endAppend_lands {encoded : Uint8Array} {nextFrameCount nextRawBytes : Nat} {io : Io}
    (b : Books s (holds (.appending n frames encoded nextFrameCount nextRawBytes) ++ rest)) :
    Lands s.calls call rest (s.endAppend call n frames encoded nextFrameCount nextRawBytes io) := by
  obtain ⟨session, hn⟩ := b.known_arc
  have hsilent : Silent s.log (.wrote n) := by
    have hfair := b.rolls.fair n session hn
    simp only [holds, cons_append, nil_append, tally_cons, Tally.add, if_true] at hfair
    have hopen : session.terminal = false := by
      by_contra hended
      have hlocks := hfair.ended (Bool.not_eq_false _ ▸ hended)
      simp at hlocks
    exact (hfair.open_ hopen).2.2
  have hwrote := (b.record (.wrote n) rfl (fun _ _ => rfl) hsilent).perm (.swap _ _ _)
  unfold endAppend
  refine (hwrote.unlock _ hn ?_ ?_ ?_ ?_).dropArc.goesOn .returned (calls_dropArc _ n)
  · split <;> exact ⟨rfl, rfl, rfl⟩
  · split <;> rfl
  · split <;> rfl
  · split <;> rfl

/-! ## Finishes and aborts -/

/-- A finish has the pen of its session: nothing has sealed it. -/
theorem Books.finishWrites
    (b : Books s (.arc n :: .name n id :: .entry n :: .duty n :: .pen n :: rest)) :
    Books (s.record (.wrote n))
      (.arc n :: .name n id :: .entry n :: .duty n :: .pen n :: rest) := by
  obtain ⟨session, hn⟩ := b.known_arc
  refine b.record (.wrote n) rfl (fun _ _ => rfl) ?_
  have hfair := b.rolls.fair n session hn
  simp only [tally_cons, Tally.add, if_true] at hfair
  have hsealed := hfair.sealed
  simp only at hsealed
  exact Nat.eq_zero_of_not_pos fun hpos => absurd (hsealed hpos) (by omega)

theorem Books.givePen
    (b : Books s (.arc n :: .name n id :: .entry n :: .duty n :: .pen n :: rest)) :
    Books s (.arc n :: .name n id :: .entry n :: .duty n :: rest) := by
  obtain ⟨_, hn⟩ := b.known_arc
  have hpen : Books s (.pen n :: .arc n :: .name n id :: .entry n :: .duty n :: rest) := by
    refine b.perm (perm_iff_count.2 fun token => ?_)
    simp only [count_cons]
    omega
  exact hpen.dropPen hn

theorem beginFinish_lands (b : Books s (holds (.finishWaits id n) ++ rest))
    (hn : s.sessions[n]? = some session) (hlocked : session.locked = false) :
    Lands s.calls call rest (s.beginFinish call id n session) := by
  replace b : Books s (.arc n :: .name n id :: rest) := b
  have hrefused : Lands s.calls call rest ((s.dropArc n).goOn call .returned) :=
    b.dropArc.forgetName.goesOn .returned (calls_dropArc s n)
  unfold beginFinish
  split
  · exact hrefused
  · rename_i contents hwriter
    split
    · exact hrefused
    · rename_i hgoes
      have hterminal : session.terminal = false := by
        by_contra hended
        exact hgoes (by simp [Bool.not_eq_false _ ▸ hended])
      have hclosed := b.close (fun session =>
        { session with terminal := true, lastActivity := s.now, writer := none })
        hn hterminal hlocked ⟨rfl, rfl, rfl⟩ rfl rfl hlocked
      have hwrites : Books _ (.arc n :: .name n id :: .entry n :: .duty n :: .pen n :: rest) :=
        hclosed.perm (perm_iff_count.2 fun token => by
          simp only [count_cons]
          omega)
      dsimp only
      split
      · rename_i error herror
        exact hwrites.givePen.goesOn
          (.closing id n [.removeCurrent, .removeTemp, .unlistTemp] (.finished (.error error))) rfl
      · exact hwrites.goesOn (.flushing id n contents session.stats) rfl

theorem beginAbort_lands (b : Books s (holds (.abortWaits id n) ++ rest))
    (hn : s.sessions[n]? = some session) (hlocked : session.locked = false) :
    Lands s.calls call rest (s.beginAbort call id n session) := by
  replace b : Books s (.arc n :: .name n id :: rest) := b
  unfold beginAbort
  split
  · exact b.dropArc.forgetName.goesOn .returned (calls_dropArc s n)
  · rename_i hopen
    have hsealed := b.closeSealed (fun session =>
      { session with terminal := true, lastActivity := s.now, writer := none })
      hn (Bool.eq_false_iff.2 hopen) hlocked ⟨rfl, rfl, rfl⟩ rfl rfl false hlocked
    refine (hsealed.perm (perm_iff_count.2 fun token => ?_)).goesOn
      (.closing id n [.removeCurrent, .removeTemp, .unlistTemp] .aborted) rfl
    simp only [holds, CloseStep.holds, flatMap_cons, flatMap_nil,
      cons_append, nil_append, count_cons, Bool.false_eq_true, if_false]
    omega

theorem failFinish_lands {io : Io}
    (b : Books s (.arc n :: .name n id :: .entry n :: .duty n :: .pen n :: rest)) :
    Lands s.calls call rest (s.failFinish call id n request io) :=
  b.givePen.goesOn (.closing id n [.removeTemp, .removeCurrent, .unlistTemp]
    (.finished (.error (.exportError io.message request.format request.target.name)))) rfl

theorem endClose_lands (result : CloseResult) (b : Books s (.arc n :: .name n id :: rest)) :
    Lands s.calls call rest (s.endClose call n result) := by
  unfold endClose
  cases result with
  | finished result =>
    exact (b.record (.finished n result _) rfl (fun _ _ => rfl) trivial).dropArc.forgetName.goesOn
      .returned (calls_dropArc _ n)
  | aborted =>
    exact (b.record (.aborted n) rfl (fun _ _ => rfl) trivial).dropArc.forgetName.goesOn
      .returned (calls_dropArc _ n)

theorem Books.closeStep {first : CloseStep} {steps : List CloseStep} (io : Io)
    (hn : s.sessions[n]? = some session)
    (b : Books s (.arc n :: .name n id :: ((first :: steps).flatMap (CloseStep.holds n) ++ rest))) :
    Books (s.closeStep id n session.temp io first)
      (.arc n :: .name n id :: (steps.flatMap (CloseStep.holds n) ++ rest)) := by
  cases first with
  | removeCurrent =>
    have hready : Books s (.entry n :: .arc n :: .name n id ::
        (steps.flatMap (CloseStep.holds n) ++ rest)) := by
      refine b.perm (perm_iff_count.2 fun token => ?_)
      simp only [flatMap_cons, CloseStep.holds, cons_append, nil_append, count_cons]
      omega
    exact hready.removeCurrent id (by simp)
  | removeTemp => exact b.removeTemp session.temp io
  | unlistTemp =>
    have hready : Books s (.duty n :: .arc n :: .name n id ::
        (steps.flatMap (CloseStep.holds n) ++ rest)) := by
      refine b.perm (perm_iff_count.2 fun token => ?_)
      simp only [flatMap_cons, CloseStep.holds, cons_append, nil_append, count_cons]
      omega
    exact hready.unlistTemp hn

/-! ## Calls that go on -/

/-- A finish that writes goes on or fails. -/
theorem finishing_lands (stats : ExportFinishStats) (next : Call)
    (b : Books s (holds (.syncing id n stats) ++ rest))
    (hnext : next.holds = holds (.syncing id n stats)) (io : Io) (ok : Bool)
    (files : String → Option Uint8Array) (temps : TempPath → Option Uint8Array) :
    Lands s.calls call rest
      (if ok then { s.record (.wrote n) with files, temps }.goOn call next
      else (s.record (.wrote n)).failFinish call id n request io) := by
  have hwrote : Books (s.record (.wrote n)) (holds (.syncing id n stats) ++ rest) :=
    b.finishWrites
  split
  · rw [← hnext] at hwrote
    exact (hwrote.files files temps).goesOn next rfl
  · exact failFinish_lands hwrote

/-- What a call does with a session that is there, it does or leaves all as it is. -/
theorem moves_or_same {P : ExportSessionManager → Prop} (n : Nat)
    (f : ExportSession → ExportSessionManager)
    (h : ∀ session, s.sessions[n]? = some session → f session = s ∨ P (f session)) :
    (match s.sessions[n]? with | none => s | some session => f session) = s ∨
      P (match s.sessions[n]? with | none => s | some session => f session) := by
  cases hn : s.sessions[n]? with
  | none => exact .inl rfl
  | some session => exact h session hn

theorem proceed_lands (host : Host) (call : Nat) (io : Io) {stage : Call}
    (b : Books s (stage.holds ++ rest))
    (hguard : ∀ session ∈ stage.expires s, session.terminal = false) :
    proceed host s call io stage = s ∨ Lands s.calls call rest (proceed host s call io stage) := by
  have hsession := @moves_or_same s (Lands s.calls call rest)
  cases stage with
  | sweeping request now candidates expired =>
    cases candidates with
    | nil => exact .inr (dispose_lands request b)
    | cons candidate candidates =>
      exact .inr (sweepNext_lands b hguard)
  | expiring => exact .inr (expiring_lands b)
  | disposing request expired =>
    cases expired with
    | nil => exact .inr (acquireSlot_lands b request)
    | cons n expired =>
      refine hsession n _ fun session hn => .inr ?_
      exact (b.removeTemp session.temp io).goesOn (.disposed request n expired)
        (calls_removeTemp s _ io)
  | disposed request n expired =>
    exact hsession n _ fun session hn => .inr (disposed_lands b hn)
  | canonicalizing request => exact .inr (canonicalizing_lands io b)
  | snapshotting request identity =>
    exact .inr (b.goesOn (.reconciling request identity s.activeTemps) rfl)
  | reconciling request identity activeTemps =>
    have hclean : Books (s.removeStale io.stale activeTemps) _ := b.files s.files _
    simp only [proceed]
    split
    · exact .inr (hclean.goesOn (.naming request identity 8) rfl)
    · exact .inr (refuse_lands hclean)
  | naming request identity attempts =>
    simp only [proceed]
    split
    · exact .inr (refuse_lands b)
    · split
      · exact .inl rfl
      · rename_i hdrawn
        split
        · exact .inr ((b.draw io.id).goesOn (.naming request identity (attempts - 1)) rfl)
        · exact .inr (naming_lands io b (by simpa using hdrawn))
  | creating request identity id =>
    simp only [proceed]
    split
    · exact .inr ((b.files s.files _).goesOn (.initializing request identity id) rfl)
    · exact .inr (b.goesOn (.undoing request identity id) rfl)
  | initializing request identity id =>
    simp only [proceed]
    split
    · exact .inr (initializing_lands b)
    · exact .inr (b.goesOn (.discarding request identity id) rfl)
  | discarding request identity id =>
    exact .inr ((b.removeTemp (tempPath request.target id) io).goesOn
      (.undoing request identity id) (calls_removeTemp s _ io))
  | undoing => exact .inr (undoing_lands b)
  | listing id n => exact hsession n _ fun session hn => .inr (listing_lands b hn)
  | inserting => exact .inr (inserting_lands b)
  | unreserving => exact .inr (unreserving_lands b)
  | appendWaits n frames batchBytes internal =>
    refine hsession n _ fun session hn => ?_
    split
    · exact .inl rfl
    · rename_i hlocked
      exact .inr (beginAppend_lands b hn (Bool.eq_false_iff.2 hlocked))
  | appending => exact .inr (endAppend_lands b)
  | finishWaits id n =>
    refine hsession n _ fun session hn => ?_
    split
    · exact .inl rfl
    · rename_i hlocked
      exact .inr (beginFinish_lands b hn (Bool.eq_false_iff.2 hlocked))
  | flushing id n contents stats =>
    refine hsession n _ fun session hn => .inr ?_
    exact finishing_lands stats (.syncing id n stats) b rfl io io.ok s.files _
  | syncing id n stats =>
    refine hsession n _ fun session hn => .inr ?_
    exact finishing_lands stats (.replacing id n stats) b rfl io io.ok s.files s.temps
  | replacing id n stats =>
    refine hsession n _ fun session hn => .inr ?_
    have hwrote := b.finishWrites
    dsimp only
    split
    · rename_i contents htemp
      refine Books.goesOn (.syncingParent id n stats) ?_ rfl
      exact (hwrote.files _ _).record (.replaced n session.identity contents) rfl (fun _ _ => rfl)
        trivial
    · exact failFinish_lands hwrote
  | syncingParent id n stats =>
    refine hsession n _ fun session hn => .inr ?_
    have hwrote := b.finishWrites
    dsimp only
    split
    · exact hwrote.givePen.goesOn
        (.closing id n [.removeCurrent, .unlistTemp] (.finished (.ok stats))) rfl
    · exact failFinish_lands hwrote
  | closing id n steps result =>
    cases steps with
    | nil => exact .inr (endClose_lands result b)
    | cons first steps =>
      refine hsession n _ fun session hn => .inr ?_
      have hstep := Books.closeStep io hn b
      have hcalls : (s.closeStep id n session.temp io first).calls = s.calls := by
        cases first with
        | removeCurrent => exact calls_removeCurrent s id n
        | removeTemp => exact calls_removeTemp s _ io
        | unlistTemp => rfl
      cases steps with
      | nil => exact hcalls ▸ endClose_lands result hstep
      | cons second steps => exact hstep.goesOn (.closing id n (second :: steps) result) hcalls
  | abortWaits id n =>
    refine hsession n _ fun session hn => ?_
    split
    · exact .inl rfl
    · rename_i hlocked
      exact .inr (beginAbort_lands b hn (Bool.eq_false_iff.2 hlocked))
  | returned => exact .inl rfl

/-! ## Runs -/

/-- What the calls have in hand and what the manager keeps add up. -/
def Inv (s : ExportSessionManager) : Prop := Books s (held holds s.calls)

/-- A call that lands puts back what it has in hand. -/
theorem Lands.inv {stage : Call} (hstage : s.calls[call]? = some stage)
    (h : Lands s.calls call (others holds s.calls call) t) : Inv t := by
  obtain ⟨u, next, rfl, hcalls, b⟩ := h
  have hlt : call < s.calls.length := (List.getElem?_eq_some_iff.1 hstage).1
  have hback : (next.holds ++ others holds s.calls call).Perm
      (held holds (s.calls.set call next)) := (held_set_perm hlt next).symm
  have hnow : (u.goOn call next).calls = s.calls.set call next := by
    rw [← hcalls]
    rfl
  unfold Inv
  rw [hnow]
  exact (b.goOn call next).perm hback

theorem Books.calls (b : Books s tokens) (calls : List Call) : Books { s with calls } tokens :=
  ⟨{ b.rolls with }, { b.house with }, b.silent⟩

/-- A sweep begins with a clone of each session in the table. -/
theorem Books.cloneAll (entries : List (String × Nat)) (b : Books s tokens)
    (hentries : ∀ entry ∈ entries, entry ∈ s.table) :
    Books (entries.foldl (fun s entry => s.cloneArc entry.2) s)
      (entries.flatMap candidateTokens ++ tokens) := by
  induction entries generalizing s tokens with
  | nil => exact b
  | cons entry entries ih =>
    have hin := hentries entry mem_cons_self
    obtain ⟨session, hn, hid⟩ := b.rolls.keyed entry hin
    have hpos : 0 < (s.table.map Prod.snd).count entry.2 :=
      count_pos_iff.2 (mem_map.2 ⟨entry, hin, rfl⟩)
    have hclone := ((b.takeName hn).cloneArc hn hpos)
    rw [hid] at hclone
    refine (ih hclone fun other hother => hentries other (mem_cons_of_mem _ hother)).perm
      (perm_iff_count.2 fun token => ?_)
    simp only [candidateTokens, flatMap_cons, count_append, count_cons, count_nil]
    omega

theorem cloneAll_keeps (entries : List (String × Nat)) (s : ExportSessionManager) :
    (entries.foldl (fun s entry => s.cloneArc entry.2) s).calls = s.calls ∧
      (entries.foldl (fun s entry => s.cloneArc entry.2) s).table = s.table := by
  induction entries generalizing s with
  | nil => exact ⟨rfl, rfl⟩
  | cons entry entries ih => exact ih _

/-- A call comes up with what it has in hand. -/
theorem Books.enters {next : Call} (b : Books s (next.holds ++ held holds s.calls)) :
    Inv { s with calls := s.calls ++ [next] } := by
  refine (b.calls _).perm ?_
  have hheld : held holds (s.calls ++ [next]) = held holds s.calls ++ next.holds := by
    simp [held]
  rw [hheld]
  exact perm_append_comm

theorem enter_inv (h : Inv s) (id : String) (first : Nat → Call)
    (hfirst : ∀ n, (first n).holds = [.arc n] ∨ (first n).holds = [.arc n, .name n id]) :
    Inv (enter s id first) := by
  unfold enter
  cases hget : s.get id with
  | none => exact h
  | some n =>
    have hin := h.rolls.get_eq_some.1 hget
    obtain ⟨session, hn, rfl⟩ := h.rolls.keyed _ hin
    have hpos : 0 < (s.table.map Prod.snd).count n :=
      count_pos_iff.2 (mem_map.2 ⟨_, hin, rfl⟩)
    apply Books.enters
    obtain hholds | hholds := hfirst n
    · rw [hholds]
      exact Books.cloneArc h hn hpos
    · rw [hholds]
      exact (h.takeName hn).cloneArc hn hpos

theorem step_inv {host : Host} {e : ExportEvent} (hguard : Guarded s e) (h : Inv s) :
    Inv (step host s e) := by
  cases e with
  | begin request =>
    have hcloned := h.cloneAll s.table fun _ hin => hin
    obtain ⟨hcalls, htable⟩ := cloneAll_keeps s.table s
    simp only [step]
    generalize s.table.foldl (fun s entry => s.cloneArc entry.2) s = cloned at *
    split
    · exact h
    · apply Books.enters
      rw [hcalls, htable]
      simpa only [holds, map_nil, append_nil] using hcloned
  | append id frames internal =>
    simp only [step]
    split
    · exact h
    · rename_i batchBytes hvalid
      exact enter_inv h id _ fun _ => .inl rfl
  | finish id => exact enter_inv h id _ fun _ => .inr rfl
  | abort id => exact enter_inv h id _ fun _ => .inr rfl
  | proceed call io =>
    simp only [step]
    split
    · exact h
    · rename_i stage hstage
      have hhand := Books.perm h (held_perm hstage)
      obtain hsame | hlands := proceed_lands host call io hhand (hguard stage hstage)
      · rw [hsame]
        exact h
      · exact hlands.inv hstage
  | tick seconds => exact ⟨{ h.rolls with }, { h.house with }, h.silent⟩

/-! ## Balance -/

/-- A session whose temp file is still to be released: it is open in the table, or a call has it
on its way. -/
def Unreleased (s : ExportSessionManager) (n : Nat) (session : ExportSession) : Prop :=
  (session.terminal = false ∧ n ∈ s.table.map Prod.snd) ∨ .duty n ∈ held holds s.calls

structure Balanced (s : ExportSessionManager) : Prop where
  /-- A slot is that of a begin under way, or of a session that is still referenced. -/
  permits : s.permitsTaken = (held holds s.calls).count .slot + s.sessions.countP (·.live)
  /-- A session is referenced by the table and by the calls that have a clone of it. -/
  references : ∀ (n : Nat) (session : ExportSession), s.sessions[n]? = some session →
    session.strong = (s.table.map Prod.snd).count n + (held holds s.calls).count (.arc n) +
      (held holds s.calls).count (.birth n)
  targets : ∀ identity, identity ∈ s.activeTargets ↔
    .target identity ∈ held holds s.calls ∨
      ∃ session ∈ s.sessions, session.live = true ∧ session.identity = identity
  distinct : ∀ (n m : Nat) (session other : ExportSession), n ≠ m →
    s.sessions[n]? = some session → s.sessions[m]? = some other → session.live = true →
    other.live = true → session.identity ≠ other.identity
  temps : ∀ (n : Nat) (session : ExportSession), s.sessions[n]? = some session →
    (session.temp ∈ s.activeTemps ↔ Unreleased s n session)
  tempsKnown : ∀ temp ∈ s.activeTemps, ∃ session ∈ s.sessions, session.temp = temp
  ids : ∀ id, id ∈ s.reservedIds ↔ .id id ∈ held holds s.calls
  slotsReleased : s.log.countP isSlotTaken =
    s.log.countP isSlotReleased + s.permitsTaken
  targetsReleased : ∀ identity, s.log.countP (isReserved identity) =
    s.log.countP (isTargetReleased identity) +
      if identity ∈ s.activeTargets then 1 else 0
  /-- The temp file of a session is listed once, and released once. -/
  tempsReleased : ∀ (n : Nat) (session : ExportSession), s.sessions[n]? = some session →
    s.log.countP (isListed n) ≤ 1 ∧
      s.log.countP (isListed n) = s.log.countP (isReleased n) +
        if session.temp ∈ s.activeTemps then 1 else 0
  silent : Lawful Silent s.log

theorem count_eq_ite {α : Type*} [DecidableEq α] {l : List α} (h : l.Nodup) (x : α) :
    l.count x = if x ∈ l then 1 else 0 := by
  split
  · rename_i hin
    exact count_eq_one_of_mem h hin
  · rename_i hno
    exact count_eq_zero.2 hno

theorem two_le_countP {α : Type*} {l : List α} {p : α → Bool} {m : Nat} {x y : α} (hlt : n < m)
    (hn : l[n]? = some x) (hm : l[m]? = some y) (hx : p x = true) (hy : p y = true) :
    2 ≤ l.countP p := by
  have hsplit : l.countP p = (l.take m).countP p + (l.drop m).countP p := by
    rw [← countP_append, take_append_drop]
  have hfirst : 0 < (l.take m).countP p := by
    rw [countP_pos_iff]
    refine ⟨x, mem_of_getElem? (i := n) ?_, hx⟩
    rw [List.getElem?_take, if_pos hlt, hn]
  have hsecond : 0 < (l.drop m).countP p := by
    rw [countP_pos_iff]
    refine ⟨y, mem_of_getElem? (i := 0) ?_, hy⟩
    rw [List.getElem?_drop, Nat.add_zero, hm]
  omega

theorem Inv.balanced (h : Inv s) : Balanced s where
  permits := h.house.slots
  references n session hn := (h.rolls.fair n session hn).strong
  targets identity := by
    have htargets := h.house.targets identity
    rw [← count_pos_iff, htargets, Nat.add_pos_iff_pos_or_pos, count_pos_iff, countP_pos_iff]
    simp only [Bool.and_eq_true, beq_iff_eq]
  distinct := by
    have hlt : ∀ (n m : Nat) (session other : ExportSession), n < m →
        s.sessions[n]? = some session → s.sessions[m]? = some other → session.live = true →
        other.live = true → session.identity ≠ other.identity := by
      intro n m session other hlt hn hm hlive hlive' hsame
      have htwo := two_le_countP
        (p := fun session => session.live && session.identity == other.identity) hlt hn hm
        (by simp [hlive, hsame]) (by simp [hlive'])
      have htargets := h.house.targets other.identity
      have hone := nodup_iff_count_le_one.1 h.house.targetsNodup other.identity
      omega
    intro n m session other hne hn hm hlive hlive'
    rcases Nat.lt_or_gt_of_ne hne with hbefore | hafter
    · exact hlt n m session other hbefore hn hm hlive hlive'
    · exact (hlt m n other session hafter hm hn hlive' hlive).symm
  temps n session hn := by
    have htemp := (h.rolls.fair n session hn).temp
    rw [← count_pos_iff, htemp, Unreleased, Nat.add_pos_iff_pos_or_pos]
    refine or_congr ?_ count_pos_iff
    cases session.terminal with
    | false => simp [openCount, tally, count_pos_iff]
    | true => simp [openCount]
  tempsKnown := h.rolls.tempsKnown
  ids id := by
    rw [← count_pos_iff, h.house.ids id, count_pos_iff]
  slotsReleased := h.house.slotLog
  targetsReleased identity := by
    rw [h.house.targetLog identity, count_eq_ite h.house.targetsNodup]
  tempsReleased n session hn := by
    have hfair := h.rolls.fair n session hn
    rw [← count_eq_ite h.rolls.tempsNodup]
    exact ⟨hfair.listedOnce, hfair.listed⟩
  silent := h.silent

/-- As long as sweeps take only sessions that no finish and no abort has ended, the permits, the
targets and the temp files of the export sessions are kept in balance, and nothing is written
behind a seal. -/
theorem export_sessions_balance (host : Host) (files : String → Option Uint8Array)
    (temps : TempPath → Option Uint8Array) (events : List ExportEvent)
    (hguard : Along (step host) Guarded { files, temps } events) :
    Balanced (run (step host) { files, temps } events) := by
  have hstep : ∀ s e, Guarded s e → Inv s → Inv (step host s e) := fun s e => step_inv
  have hnew : Inv { files, temps } := books_new.files files temps
  exact (run_invariant_along hstep hnew hguard).balanced

/-- A host whose clock shows nothing. -/
def plainHost : Host where
  library := { formatTimestampMs := fun _ => [], toJson := fun _ => .ok [] }
  canonical target := target.name

def plainFrame : DataFramePayload where
  id := "frame-1"
  direction := .RX
  timestamp := .finite 0
  data := [0x41, 0x42]

/-- A binary export of one frame, as the user has confirmed it. -/
def plainExport (name : String) : BeginRequest where
  format := .bin
  target := ⟨"logs", name⟩
  expectedTotals := some (1, 2)
  backendSourced := false

/-- The export begins with the id `a`, and its frame is appended. -/
def plainEvents : List ExportEvent :=
  .begin (plainExport "session.bin") :: replicate 11 (.proceed 0 { id := "a" }) ++
    [.append "a" [plainFrame] false, .proceed 1 {}, .proceed 1 {}]

theorem export_sessions_balance_in_order :
    Balanced (run (step plainHost) { files := fun _ => none, temps := fun _ => none }
      (plainEvents ++ .finish "a" :: replicate 7 (.proceed 2 {}))) := by
  refine export_sessions_balance plainHost _ _ _ ?_
  decide +kernel

/-- A finish is still flushing after half an hour: the sweep of the next begin seals its session,
and the finish writes behind the seal. -/
theorem finish_writes_behind_seal :
    ¬∀ (host : Host) (files : String → Option Uint8Array) (temps : TempPath → Option Uint8Array)
      (events : List ExportEvent), Balanced (run (step host) { files, temps } events) := by
  intro h
  have hsilent := (h plainHost (fun _ => none) (fun _ => none) (plainEvents ++
      [.finish "a", .proceed 2 {}, .tick 1800, .begin (plainExport "other.bin"), .proceed 3 {},
        .proceed 2 {}])).silent
  revert hsilent
  decide +kernel

end bbcom.export_session
